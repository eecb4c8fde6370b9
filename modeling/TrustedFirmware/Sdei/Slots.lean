import TrustedFirmware.Sdei.RegCount

/-! # Slots for binding

`sdei_class_init()` checks what the platform declares. A dynamic map that is free has the interrupt
number `SDEI_DYN_IRQ`, and `sdei_interrupt_bind()` finds it by that number; but an explicit event has
the same number. -/
namespace TrustedFirmware.Sdei
open Runs
set_option autoImplicit false

variable {M : Type} {n : ℕ}

/-! ## What the initialisation accepts -/

section Init

variable (P : Platform M n)

def Platform.sorted (evNumSoFar : Int) (m : M) : Bool :=
  decide (evNumSoFar < 0) || decide (evNumSoFar < P.evNum m)

/-- The assertions about a shared map in the pass over one class. -/
def Platform.sharedMapOk (critical : Bool) (evNumSoFar : Int) (m : M) : Bool :=
  P.sorted evNumSoFar m && decide (P.evNum m ≠ SDEI_EVENT_0) && decide (0 ≤ P.evNum m) &&
    !P.isEventPrivate m && !P.isEventSignalable m && !P.isMapExplicit m &&
    (decide (P.isEventCritical m ≠ critical) ||
      if P.isMapDynamic m then decide (P.intr m = SDEI_DYN_IRQ) && !P.isEventCritical m
      else P.isSpi (P.intr m))

/-- The assertions about a private map. `isSecureSgi` asks the interrupt controller; event 0 has no
flags but two, and an explicit event no others than its own and the class. -/
def Platform.privateMapOk (isSecureSgi : ℕ → Bool) (critical : Bool) (evNumSoFar : Int) (m : M) : Bool :=
  P.sorted evNumSoFar m &&
    (if P.evNum m = SDEI_EVENT_0 then
      isSecureSgi (P.intr m) && P.isEventSignalable m && P.isEventPrivate m &&
        !P.isEventCritical m && !P.isMapDynamic m && !P.isMapExplicit m
    else !P.isEventSignalable m) &&
    decide (0 ≤ P.evNum m) && P.isEventPrivate m &&
    (!P.isMapExplicit m || (P.isEventPrivate m && !P.isMapDynamic m && !P.isEventSignalable m)) &&
    (decide (P.isEventCritical m ≠ critical) || decide (P.evNum m = SDEI_EVENT_0) ||
      if P.isMapDynamic m then decide (P.intr m = SDEI_DYN_IRQ) && !P.isEventCritical m
      else if P.isMapExplicit m then decide (P.intr m = SDEI_DYN_IRQ)
      else P.isPpi (P.intr m))

def Platform.loop (ok : Int → M → Bool) : Int → List M → Bool
  | _, [] => true
  | evNumSoFar, m :: ms => ok evNumSoFar m && Platform.loop ok (P.evNum m) ms

/-- The assertions of `sdei_class_init()`. -/
def Platform.sdeiClassInit (isSecureSgi : ℕ → Bool) (critical : Bool) : Bool :=
  P.loop (P.sharedMapOk critical) (-1) P.sharedMaps &&
    P.loop (P.privateMapOk isSecureSgi critical) (-1) P.privateMaps &&
    P.privateMaps.any fun m => decide (P.evNum m = SDEI_EVENT_0)

/-- The assertions of `sdei_init()`. -/
def Platform.sdeiInit (isSecureSgi : ℕ → Bool) : Bool :=
  P.sdeiClassInit isSecureSgi true && P.sdeiClassInit isSecureSgi false

def Platform.mapsOf (shared : Bool) : List M := if shared then P.sharedMaps else P.privateMaps

end Init

/-- Interrupt numbers: that of a free map is an SGI, and an SGI is neither a PPI nor an SPI. -/
structure Numbering (P : Platform M n) (isSecureSgi : ℕ → Bool) : Prop where
  free : P.isPpi SDEI_DYN_IRQ = false ∧ P.isSpi SDEI_DYN_IRQ = false
  sgi : ∀ i, isSecureSgi i = true → P.isPpi i = false ∧ P.isSpi i = false

structure Declared (P : Platform M n) : Prop where
  evNum : ∀ shared, ∀ m ∈ P.mapsOf shared, 0 ≤ P.evNum m
  dynamic : ∀ shared, ∀ m ∈ P.mapsOf shared, P.isMapDynamic m = true → P.intr m = SDEI_DYN_IRQ
  /-- A map that is neither dynamic nor bound from the start has no interrupt that can be bound. -/
  unbound : ∀ shared, ∀ m ∈ P.mapsOf shared, P.isMapDynamic m = false →
    P.evNum m = SDEI_EVENT_0 ∨ P.isMapExplicit m = true →
    P.isPpi (P.intr m) = false ∧ P.isSpi (P.intr m) = false
  /-- A map that is bound from the start has an interrupt of its kind. -/
  static : ∀ shared, ∀ m ∈ P.mapsOf shared, P.isMapDynamic m = false → P.evNum m ≠ SDEI_EVENT_0 →
    P.isMapExplicit m = false → if shared then P.isSpi (P.intr m) = true else P.isPpi (P.intr m) = true

variable {P : Platform M n} {isSecureSgi : ℕ → Bool}

theorem loop_mem {ok : Int → M → Bool} {evNumSoFar : Int} {ms : List M}
    (h : P.loop ok evNumSoFar ms = true) : ∀ m ∈ ms, ∃ k, ok k m = true := by
  induction ms generalizing evNumSoFar with
  | nil => simp
  | cons x ms ih =>
    rw [Platform.loop, Bool.and_eq_true] at h
    intro m hm
    rcases List.mem_cons.mp hm with rfl | hm
    · exact ⟨_, h.1⟩
    · exact ih h.2 m hm

theorem sharedMapOk_facts {critical : Bool} {k : Int} {m : M} (h : P.sharedMapOk critical k m = true)
    (hclass : P.isEventCritical m = critical) :
    0 ≤ P.evNum m ∧ P.evNum m ≠ SDEI_EVENT_0 ∧ P.isMapExplicit m = false ∧
      (P.isMapDynamic m = true → P.intr m = SDEI_DYN_IRQ) ∧
      (P.isMapDynamic m = false → P.isSpi (P.intr m) = true) := by
  simp only [Platform.sharedMapOk, Bool.and_eq_true, Bool.or_eq_true, decide_eq_true_eq,
    Bool.not_eq_true', hclass, ne_eq, not_true_eq_false, false_or] at h
  obtain ⟨⟨⟨⟨⟨⟨-, hzero⟩, hnum⟩, -⟩, -⟩, hexplicit⟩, hrest⟩ := h
  refine ⟨hnum, hzero, hexplicit, fun hd => ?_, fun hd => ?_⟩
  · rw [hd, if_pos rfl, Bool.and_eq_true, decide_eq_true_eq] at hrest
    exact hrest.1
  · rw [hd] at hrest
    exact hrest

theorem privateMapOk_facts {critical : Bool} {k : Int} {m : M}
    (h : P.privateMapOk isSecureSgi critical k m = true) (hclass : P.isEventCritical m = critical) :
    0 ≤ P.evNum m ∧ (P.isMapDynamic m = true → P.intr m = SDEI_DYN_IRQ) ∧
      (P.evNum m = SDEI_EVENT_0 → isSecureSgi (P.intr m) = true) ∧
      (P.evNum m ≠ SDEI_EVENT_0 → P.isMapExplicit m = true → P.intr m = SDEI_DYN_IRQ) ∧
      (P.evNum m ≠ SDEI_EVENT_0 → P.isMapDynamic m = false → P.isMapExplicit m = false →
        P.isPpi (P.intr m) = true) := by
  simp only [Platform.privateMapOk, Bool.and_eq_true, Bool.or_eq_true, decide_eq_true_eq,
    Bool.not_eq_true', hclass, ne_eq, not_true_eq_false, false_or] at h
  obtain ⟨⟨⟨⟨⟨-, hflags⟩, hnum⟩, -⟩, hexplicit⟩, hrest⟩ := h
  refine ⟨hnum, fun hd => ?_, fun h0 => ?_, fun h0 hx => ?_, fun h0 hd hx => ?_⟩
  · have h0 := (P.dynamic_plain m hd).2
    have hrest := hrest.resolve_left h0
    rw [hd, if_pos rfl, Bool.and_eq_true, decide_eq_true_eq] at hrest
    exact hrest.1
  · rw [if_pos h0] at hflags
    simp only [Bool.and_eq_true] at hflags
    exact hflags.1.1.1.1.1
  · have hrest := hrest.resolve_left h0
    have hd : P.isMapDynamic m = false := by
      rw [hx] at hexplicit
      simpa using (hexplicit.resolve_left (by simp)).1.2
    rw [hd, hx] at hrest
    simpa using hrest
  · have hrest := hrest.resolve_left h0
    rw [hd, hx] at hrest
    exact hrest

theorem declared_of_sdeiInit (hnum : Numbering P isSecureSgi) (h : P.sdeiInit isSecureSgi = true) :
    Declared P := by
  have hpass : ∀ critical, P.sdeiClassInit isSecureSgi critical = true := by
    rw [Platform.sdeiInit, Bool.and_eq_true] at h
    intro critical
    cases critical with
    | true => exact h.1
    | false => exact h.2
  have hshared : ∀ m ∈ P.sharedMaps, ∃ k, P.sharedMapOk (P.isEventCritical m) k m = true := by
    intro m hm
    have hall := hpass (P.isEventCritical m)
    simp only [Platform.sdeiClassInit, Bool.and_eq_true] at hall
    exact loop_mem hall.1.1 m hm
  have hprivate : ∀ m ∈ P.privateMaps,
      ∃ k, P.privateMapOk isSecureSgi (P.isEventCritical m) k m = true := by
    intro m hm
    have hall := hpass (P.isEventCritical m)
    simp only [Platform.sdeiClassInit, Bool.and_eq_true] at hall
    exact loop_mem hall.1.2 m hm
  refine ⟨fun shared m hm => ?_, fun shared m hm hd => ?_, fun shared m hm hd hcase => ?_,
    fun shared m hm hd h0 hx => ?_⟩
  · cases shared with
    | true =>
      obtain ⟨k, hk⟩ := hshared m hm
      exact (sharedMapOk_facts hk rfl).1
    | false =>
      obtain ⟨k, hk⟩ := hprivate m hm
      exact (privateMapOk_facts hk rfl).1
  · cases shared with
    | true =>
      obtain ⟨k, hk⟩ := hshared m hm
      exact (sharedMapOk_facts hk rfl).2.2.2.1 hd
    | false =>
      obtain ⟨k, hk⟩ := hprivate m hm
      exact (privateMapOk_facts hk rfl).2.1 hd
  · cases shared with
    | true =>
      obtain ⟨k, hk⟩ := hshared m hm
      obtain ⟨-, hzero, hexplicit, -⟩ := sharedMapOk_facts hk rfl
      rcases hcase with h0 | hx
      · exact absurd h0 hzero
      · exact absurd hx (by simp [hexplicit])
    | false =>
      obtain ⟨k, hk⟩ := hprivate m hm
      obtain ⟨-, -, hsgi, hexplicit, -⟩ := privateMapOk_facts hk rfl
      by_cases h0 : P.evNum m = SDEI_EVENT_0
      · exact hnum.sgi _ (hsgi h0)
      · rw [hexplicit h0 (hcase.resolve_left h0)]
        exact hnum.free
  · cases shared with
    | true =>
      obtain ⟨k, hk⟩ := hshared m hm
      exact (sharedMapOk_facts hk rfl).2.2.2.2 hd
    | false =>
      obtain ⟨k, hk⟩ := hprivate m hm
      exact (privateMapOk_facts hk rfl).2.2.2.2 h0 hd hx

/-! ## Free maps -/

variable {s s' : State M n}

/-- A dynamic map is free exactly when it has the interrupt number of a free map; the other maps are
as declared. -/
structure SlotInv (P : Platform M n) (map : M → EvMap) : Prop where
  fixed : ∀ m, P.isMapDynamic m = false → (map m).intr = P.intr m ∧
    ((map m).bound = false → P.evNum m = SDEI_EVENT_0 ∨ P.isMapExplicit m = true)
  free : ∀ shared, ∀ m ∈ P.mapsOf shared, P.isMapDynamic m = true →
    ((map m).bound = false ↔ (map m).intr = SDEI_DYN_IRQ)

variable {map map' : M → EvMap}

theorem SlotInv.of_same (hI : SlotInv P map) (hsame : ∀ m, (map' m).intr = (map m).intr ∧
    (map' m).bound = (map m).bound) : SlotInv P map' := by
  refine ⟨fun m hd => ?_, fun shared m hm hd => ?_⟩
  · rw [(hsame m).1, (hsame m).2]
    exact hI.fixed m hd
  · rw [(hsame m).1, (hsame m).2]
    exact hI.free shared m hm hd

theorem slotInv_start (hdecl : Declared P) (gic : Gic n) (ctx : Fin n → NsContext)
    (online : Fin n → Bool) : SlotInv P (start P gic ctx online).map := by
  refine ⟨fun m hd => ⟨rfl, fun hb => ?_⟩, fun shared m hm hd => ?_⟩
  · simp only [start, hd, Bool.not_false, Bool.and_true, Bool.and_eq_false_iff,
      decide_eq_false_iff_not, ne_eq, not_not, Bool.not_eq_false'] at hb
    exact hb
  · simp only [start, hd, Bool.not_true, Bool.and_false, Bool.false_and, true_iff]
    exact hdecl.dynamic shared m hm hd

theorem SlotInv.bound (hI : SlotInv P map) (hnum : Numbering P isSecureSgi) (hdecl : Declared P)
    {shared : Bool} {m : M} (hm : m ∈ P.mapsOf shared)
    (hkind : P.isPpi (map m).intr = true ∨ P.isSpi (map m).intr = true) : (map m).bound = true := by
  by_contra hb
  rw [Bool.not_eq_true] at hb
  have hno : P.isPpi (map m).intr = false ∧ P.isSpi (map m).intr = false := by
    cases hd : P.isMapDynamic m with
    | true =>
      rw [(hI.free _ m hm hd).mp hb]
      exact hnum.free
    | false =>
      obtain ⟨hsame, hplain⟩ := hI.fixed m hd
      rw [hsame]
      exact hdecl.unbound _ m hm hd (hplain hb)
  rw [hno.1, hno.2] at hkind
  exact absurd hkind (by simp)

def FreeSlot (P : Platform M n) (s : State M n) (shared : Bool) (m : M) : Prop :=
  m ∈ P.mapsOf shared ∧ P.isMapDynamic m = true ∧ (s.map m).bound = false

theorem findEventMapByIntr_unbound (hnum : Numbering P isSecureSgi) (hdecl : Declared P)
    (hI : SlotInv P s.map) {i : ℕ} (hkind : P.isPpi i = true ∨ P.isSpi i = true)
    (hnew : ∀ m ∈ P.mapsOf (P.isSpi i), (s.map m).bound = true → (s.map m).intr ≠ i) :
    P.findEventMapByIntr s i (P.isSpi i) = none := by
  refine List.find?_eq_none.mpr fun m hm hintr => ?_
  have hintr : (s.map m).intr = i := of_decide_eq_true hintr
  exact hnew m hm (hI.bound hnum hdecl hm (hintr ▸ hkind)) hintr

theorem exists_found {shared : Bool} {m : M} (hI : SlotInv P s.map) (hm : FreeSlot P s shared m) :
    ∃ x before behind, P.findEventMapByIntr s SDEI_DYN_IRQ shared = some x ∧
      P.mapsOf shared = before ++ x :: behind ∧ (s.map x).intr = SDEI_DYN_IRQ ∧
      ∀ y ∈ before, (s.map y).intr ≠ SDEI_DYN_IRQ := by
  obtain ⟨hmem, hd, hfree⟩ := hm
  have hsome : (P.findEventMapByIntr s SDEI_DYN_IRQ shared).isSome = true :=
    List.find?_isSome.mpr ⟨m, hmem, decide_eq_true ((hI.free _ m hmem hd).mp hfree)⟩
  obtain ⟨x, hx⟩ := Option.isSome_iff_exists.mp hsome
  obtain ⟨hintr, before, behind, hlist, hbefore⟩ := List.find?_eq_some_iff_append.mp hx
  refine ⟨x, before, behind, hx, hlist, of_decide_eq_true hintr, fun y hy => ?_⟩
  simpa using hbefore y hy

variable [DecidableEq M]

theorem SlotInv.of_update (hI : SlotInv P map) {m : M} {e : EvMap} (hd : P.isMapDynamic m = true)
    (he : e.bound = false ↔ e.intr = SDEI_DYN_IRQ) (hmap : map' = Function.update map m e) :
    SlotInv P map' := by
  refine ⟨fun x hx => ?_, fun shared x hmem hx => ?_⟩
  · have hne : x ≠ m := by
      rintro rfl
      exact absurd hd (by simp [hx])
    rw [hmap, Function.update_of_ne hne]
    exact hI.fixed x hx
  · rw [hmap, Function.update_apply]
    split
    · exact he
    · exact hI.free shared x hmem hx

theorem SlotInv.effect (hnum : Numbering P isSecureSgi) {l : Label M n}
    (hI : SlotInv P s.map) (h : Effect P l s s') : SlotInv P s'.map := by
  have same (hmap : s'.map = s.map) : SlotInv P s'.map := hI.of_same fun m => by simp [hmap]
  have counted {m : M} {c : Int} (hmap : s'.map = Function.update s.map m { s.map m with regCount := c }) :
      SlotInv P s'.map := by
    refine hI.of_same fun x => ?_
    rw [hmap, Function.update_apply]
    split
    · rename_i heq
      rw [heq]
      exact ⟨rfl, rfl⟩
    · exact ⟨rfl, rfl⟩
  cases h with
  | quiet map states view active => exact same map
  | registered state dynamic map states view active => exact counted map
  | unregistered state map states view active => exact counted map
  | toggled hact state map states view active => exact same map
  | @bound _ _ m intr dynamic free kind number map states view active =>
    refine hI.of_update dynamic ⟨fun hb => absurd hb (by simp), fun h0 => ?_⟩ map
    change intr = SDEI_DYN_IRQ at h0
    rw [h0, hnum.free.1, hnum.free.2] at number
    exact absurd number (by simp)
  | released dynamic count state bound inactive map states view active =>
    exact hI.of_update dynamic ⟨fun _ => rfl, fun _ => rfl⟩ map
  | acknowledged phase inactive map states view active => exact same map
  | ended map states view active => exact same map
  | dispatched cause state map states view active => exact same map
  | completed phase hact stack state map states view active => exact same map
  | cleared map states view active => exact same map

theorem slotInv (hnum : Numbering P isSecureSgi) (hdecl : Declared P) {gic : Gic n}
    {ctx : Fin n → NsContext} {online : Fin n → Bool} {t : List (Action n × Outcome)}
    (hrun : Traced (Performs (act P) fun _ _ => True) (start P gic ctx online) t s) :
    SlotInv P s.map := by
  refine hrun.invariant (I := fun _ s => SlotInv P s.map) (slotInv_start hdecl gic ctx online) ?_
  rintro t u ⟨a, o⟩ v hI ⟨-, hstep⟩
  rcases act_effect hstep with ⟨l, -, hq⟩ | ⟨p, c, r, -, -, hq⟩
  · exact hI.effect hnum hq
  · clear hstep
    induction hq with
    | refl => exact hI
    | tail _ hlast ih =>
      cases hlast with
      | quiet h => exact ih.effect hnum h
      | unregistered hok h => exact ih.effect hnum h
      | released h => exact ih.effect hnum h

/-! ## Binding -/

def BindsFree (P : Platform M n) (s : State M n) (p : Fin n) (intrNum : ℕ) : Prop :=
  ∃ m s', FreeSlot P s (P.isSpi intrNum) m ∧ 0 ≤ P.evNum m ∧
    sdeiInterruptBind P s p intrNum = some (s', P.evNum m) ∧
    (s'.map m).bound = true ∧ (s'.map m).intr = intrNum

/-- A free slot comes before all maps that are not dynamic and are declared with the interrupt
number of a free map. -/
def SlotFirst (P : Platform M n) (s : State M n) (shared : Bool) : Prop :=
  ∃ before m behind, P.mapsOf shared = before ++ m :: behind ∧ P.isMapDynamic m = true ∧
    (s.map m).bound = false ∧ ∀ x ∈ before, P.isMapDynamic x = false → P.intr x ≠ SDEI_DYN_IRQ

/-- **Binding an interrupt** of the Non-secure world that is not bound yet, while there is a free slot
of its kind: it gets a free slot, exactly if one comes before the maps that look free and are not
dynamic. -/
theorem binds_free_iff (P : Platform M n) (isSecureSgi : ℕ → Bool) (hnum : Numbering P isSecureSgi)
    (hinit : P.sdeiInit isSecureSgi = true) (gic : Gic n) (ctx : Fin n → NsContext)
    (online : Fin n → Bool) (t : List (Action n × Outcome)) (s : State M n)
    (hrun : Traced (Performs (act P) fun _ _ => True) (start P gic ctx online) t s)
    (p : Fin n) (i : ℕ) (hkind : P.isPpi i = true ∨ P.isSpi i = true)
    (hns : s.gic.intrType (P.line p i) = .ns)
    (hnew : ∀ m ∈ P.mapsOf (P.isSpi i), (s.map m).bound = true → (s.map m).intr ≠ i)
    (hslot : ∃ m, FreeSlot P s (P.isSpi i) m) :
    BindsFree P s p i ↔ SlotFirst P s (P.isSpi i) := by
  have hdecl := declared_of_sdeiInit hnum hinit
  have hI := slotInv hnum hdecl hrun
  obtain ⟨m, hm⟩ := hslot
  obtain ⟨x, before, behind, hfound, hlist, hintr, hbefore⟩ := exists_found hI hm
  have hmem : x ∈ P.mapsOf (P.isSpi i) := by
    rw [hlist]
    simp
  have hguard : ¬(P.isPpi i = false ∧ P.isSpi i = false) := by
    rintro ⟨hp, hsp⟩
    rw [hp, hsp] at hkind
    exact absurd hkind (by simp)
  have hbind : sdeiInterruptBind P s p i = bindFree P s p i := by
    rw [sdeiInterruptBind, if_neg hguard, findEventMapByIntr_unbound hnum hdecl hI hkind hnew]
  cases hd : P.isMapDynamic x with
  | true =>
    have hfree : (s.map x).bound = false := (hI.free _ x hmem hd).mpr hintr
    refine ⟨fun _ => ⟨before, x, behind, hlist, hd, hfree, fun y hy hyd => ?_⟩, fun _ => ?_⟩
    · rw [← (hI.fixed y hyd).1]
      exact hbefore y hy
    · refine ⟨x, s.setMap x { s.map x with intr := i, bound := true }, ⟨hmem, hd, hfree⟩,
        hdecl.evNum _ x hmem, ?_, ?_, ?_⟩
      · rw [hbind]
        simp [bindFree, hfound, hd, hns, hfree]
      · simp [State.setMap]
      · simp [State.setMap]
  | false =>
    have hrefused : sdeiInterruptBind P s p i = some (s, SDEI_ENOMEM) := by
      rw [hbind]
      simp [bindFree, hfound, hd]
    constructor
    · rintro ⟨y, s', -, hpos, hres, -⟩
      rw [hrefused] at hres
      have hno := (Prod.mk.inj (Option.some.inj hres)).2
      rw [← hno] at hpos
      exact absurd hpos (by decide)
    · -- The map that was found comes first, and it is not dynamic.
      rintro ⟨pre, y, post, hlist', hyd, hyfree, hpre⟩
      have hyintr : (s.map y).intr = SDEI_DYN_IRQ :=
        (hI.free (P.isSpi i) y (by rw [hlist']; simp) hyd).mp hyfree
      have hxintr : P.intr x = SDEI_DYN_IRQ := (hI.fixed x hd).1 ▸ hintr
      have hne : x ≠ y := by
        rintro rfl
        exact absurd hyd (by simp [hd])
      rcases List.append_eq_append_iff.mp (hlist.symm.trans hlist') with
        ⟨rest, hrest, hcons⟩ | ⟨rest, hrest, hcons⟩
      · rcases List.cons_eq_append_iff.mp hcons with ⟨-, heq⟩ | ⟨rest', rfl, -⟩
        · exact absurd (List.cons.inj heq).1.symm hne
        · exact absurd hxintr (hpre x (by simp [hrest]) hd)
      · rcases List.cons_eq_append_iff.mp hcons with ⟨-, heq⟩ | ⟨rest', rfl, -⟩
        · exact absurd (List.cons.inj heq).1 hne
        · exact absurd hyintr (hbefore y (by simp [hrest]))

def lowNumbers (i : ℕ) : Bool := decide (i < 16)

theorem binds_free_at_start : SlotFirst twoEvents twoEventsStart false ∧
    BindsFree twoEvents twoEventsStart 0 20 := by
  have hfirst : SlotFirst twoEvents twoEventsStart false :=
    ⟨[0], 1, [], rfl, rfl, rfl, by decide⟩
  refine ⟨hfirst, (binds_free_iff twoEvents lowNumbers ⟨by decide, ?_⟩ (by decide) _ _ _ []
    twoEventsStart .nil 0 20 (by decide) rfl (by decide) ⟨1, by decide, rfl, rfl⟩).mpr hfirst⟩
  intro i hi
  simp only [lowNumbers, decide_eq_true_eq] at hi
  simp only [twoEvents, decide_eq_false_iff_not]
  omega

def explicitFirst : Platform (Fin 3) 1 where
  privateMaps := [0, 1, 2]
  sharedMaps := []
  evNum m := m.val
  intr m := if m = 0 then 8 else SDEI_DYN_IRQ
  isEventPrivate _ := true
  isEventCritical _ := false
  isEventSignalable m := decide (m = 0)
  isMapDynamic m := decide (m = 2)
  isMapExplicit m := decide (m = 1)
  isSpi i := decide (32 ≤ i)
  isPpi i := decide (16 ≤ i ∧ i < 32)
  readMpidr p := BitVec.ofNat 64 p.val
  isValidMpidr x := decide (x.toNat < 1)
  corePosByMpidr x := if h : x.toNat < 1 then some ⟨x.toNat, h⟩ else none
  validateEntryPoint _ := true
  clientEl := .el2
  createSpsr _ := ClientEl.el2.spsr64
  PLAT_SDEI_CRITICAL_PRI := 0x60
  PLAT_SDEI_NORMAL_PRI := 0x70
  ENABLE_ASSERTIONS := true
  DYNAMIC_WORKAROUND_CVE_2018_3639 := false
  private_of_mem := by decide
  shared_of_mem := by decide
  dynamic_plain := by decide
  sdei_critical_must_have_higher_priority := critical_lt_normal

def explicitFirstStart : State (Fin 3) 1 :=
  start explicitFirst (idleGic 1) (fun _ => zeroCtx) fun _ => true

/-- The platform is accepted and event 2 is a free slot, but interrupt 20 cannot be bound. -/
theorem explicit_hides_slot : explicitFirst.sdeiInit lowNumbers = true ∧
    FreeSlot explicitFirst explicitFirstStart (explicitFirst.isSpi 20) 2 ∧
    explicitFirstStart.gic.intrType (explicitFirst.line 0 20) = .ns ∧
    (∀ m, (explicitFirstStart.map m).intr ≠ 20) ∧
    (sdeiInterruptBind explicitFirst explicitFirstStart 0 20).map Prod.snd = some SDEI_ENOMEM :=
  ⟨by decide, ⟨by decide, rfl, rfl⟩, rfl, by decide, by decide⟩

end TrustedFirmware.Sdei
