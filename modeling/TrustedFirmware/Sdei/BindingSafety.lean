import TrustedFirmware.Sdei.Binding

/-! # One map for each interrupt

As long as no PE stores an interrupt that another one has searched for in vain, an interrupt is bound
to at most one map, and binding it again gives the same event. -/
namespace TrustedFirmware.Sdei
open Runs
set_option autoImplicit false

variable {M : Type} {n : ℕ} {P : Platform M n} {isSecureSgi : ℕ → Bool}

theorem mem_maps {m : M} : m ∈ P.privateMaps ++ P.sharedMaps ↔ ∃ shared, m ∈ P.mapsOf shared := by
  rw [List.mem_append]
  constructor
  · rintro (hm | hm)
    · exact ⟨false, hm⟩
    · exact ⟨true, hm⟩
  · rintro ⟨shared, hm⟩
    cases shared with
    | false => exact Or.inl hm
    | true => exact Or.inr hm

theorem mapsOf_private {shared : Bool} {m : M} (hm : m ∈ P.mapsOf shared) :
    P.isEventPrivate m = !shared := by
  cases shared with
  | false => exact P.private_of_mem m hm
  | true => exact P.shared_of_mem m hm

/-- What a platform has to provide besides passing the assertions: its static events have different
interrupts. -/
structure BindPlatform [DecidableEq M] (P : Platform M n) (isSecureSgi : ℕ → Bool) : Prop where
  numbering : Numbering P isSecureSgi
  apart : ∀ i, P.isPpi i = true → P.isSpi i = false
  init : P.sdeiInit isSecureSgi = true
  static : AtMostOne P (bindStart P)

def BindPc.proper (P : Platform M n) : BindPc M → Prop
  | .idle => True
  | .searching i rest | .searchingFree i rest => P.bindable i ∧ ∀ x ∈ rest, x ∈ P.mapsOf (P.isSpi i)
  | .found i m | .chosen i m => P.bindable i ∧ m ∈ P.mapsOf (P.isSpi i)

variable {b b' : BindState M n} {p q : Fin n}

variable {m : M} {i : ℕ} {a : BindAction n} {o : BindOutcome M n}

/-- The invariant: what is bound is seen by every PE that is binding the same interrupt. -/
structure BindInv (P : Platform M n) (b : BindState M n) : Prop where
  slots : SlotInv P b.map
  kind : ∀ shared, ∀ m ∈ P.mapsOf shared, (b.map m).bound = true →
    P.bindable (b.map m).intr ∧ P.isSpi (b.map m).intr = shared
  one : AtMostOne P b
  sees : ∀ q shared, ∀ m ∈ P.mapsOf shared, (b.map m).bound = true →
    (b.pc q).sees (b.map m).intr m
  proper : ∀ q, (b.pc q).proper P

/-! ## What a step keeps -/

theorem BindInv.goto (hI : BindInv P b) {pc : BindPc M} (hproper : pc.proper P)
    (hsees : ∀ shared, ∀ m ∈ P.mapsOf shared, (b.map m).bound = true → pc.sees (b.map m).intr m) :
    BindInv P (b.goto p pc) := by
  refine ⟨hI.slots, hI.kind, hI.one, fun q => ?_, fun q => ?_⟩
  · by_cases hq : q = p
    · subst hq
      simp only [BindState.goto, Function.update_self]
      exact hsees
    · simp only [BindState.goto, Function.update_of_ne hq]
      exact hI.sees q
  · by_cases hq : q = p
    · subst hq
      simp only [BindState.goto, Function.update_self]
      exact hproper
    · simp only [BindState.goto, Function.update_of_ne hq]
      exact hI.proper q

theorem BindInv.idle (hI : BindInv P b) : BindInv P (b.goto p .idle) :=
  hI.goto trivial fun _ _ _ _ => trivial

theorem BindInv.searchIntr (hI : BindInv P b) (hi : P.bindable i) :
    BindInv P (searchIntr P b p i) := by
  refine hI.goto ⟨hi, fun _ hx => hx⟩ ?_
  intro shared m hm hb heq
  rw [heq, (hI.kind shared m hm hb).2]
  exact hm

theorem BindInv.searchFree (hI : BindInv P b) (hi : P.bindable i)
    (hnone : ∀ shared, ∀ m ∈ P.mapsOf shared, (b.map m).bound = true → (b.map m).intr ≠ i) :
    BindInv P (searchFree P b p i) :=
  hI.goto ⟨hi, fun _ hx => hx⟩ fun shared m hm hb => (hnone shared m hm hb).symm

variable [DecidableEq M]

theorem bindInv_start (hP : BindPlatform P isSecureSgi) : BindInv P (bindStart P) := by
  have hdecl := declared_of_sdeiInit hP.numbering hP.init
  refine ⟨slotInv_start hdecl ⟨fun _ => false, fun _ => .ns, fun _ => false, fun _ => false⟩
    (fun _ => ⟨fun _ => 0, 0, 0, 0, 0, 0⟩) fun _ => true, ?_, hP.static, fun _ _ _ _ _ => trivial,
    fun _ => trivial⟩
  intro shared m hm hb
  simp only [bindStart, Bool.and_eq_true, decide_eq_true_eq, Bool.not_eq_true'] at hb
  have hstatic := hdecl.static shared m hm hb.1.2 hb.1.1 hb.2
  cases shared with
  | true => exact ⟨Or.inr hstatic, hstatic⟩
  | false => exact ⟨Or.inl hstatic, hP.apart _ hstatic⟩

theorem BindInv.store (hP : BindPlatform P isSecureSgi) (hI : BindInv P b)
    (hpc : b.pc p = .chosen i m) (hd : P.isMapDynamic m = true) (hfree : (b.map m).bound = false)
    (hothers : ∀ q, q ≠ p → (b.pc q).sees i m) :
    BindInv P ((b.setMap m { b.map m with intr := i, bound := true }).goto p .idle) := by
  have hproper := hI.proper p
  rw [hpc] at hproper
  obtain ⟨hi, hm⟩ := hproper
  have hnone : ∀ shared, ∀ x ∈ P.mapsOf shared, (b.map x).bound = true → (b.map x).intr ≠ i := by
    intro shared x hx hb heq
    have hsees := hI.sees p shared x hx hb
    rw [hpc] at hsees
    rw [← hsees heq.symm, hfree] at hb
    exact absurd hb (by simp)
  have hslots : SlotInv P (Function.update b.map m { b.map m with intr := i, bound := true }) := by
    refine hI.slots.of_update hd ⟨fun h => absurd h (by simp), fun h0 => ?_⟩ rfl
    change i = SDEI_DYN_IRQ at h0
    rw [h0, Platform.bindable, hP.numbering.free.1, hP.numbering.free.2] at hi
    exact absurd hi (by simp)
  refine ⟨hslots, fun shared x hx hb => ?_, fun x hx x' hx' hb hb' heq => ?_,
    fun q shared x hx hb => ?_, fun q => ?_⟩
  · by_cases hxm : x = m
    · subst hxm
      have hsame : (!shared) = !P.isSpi i := (mapsOf_private hx).symm.trans (mapsOf_private hm)
      simp only [BindState.goto, BindState.setMap, Function.update_self]
      exact ⟨hi, by simpa using hsame.symm⟩
    · simp only [BindState.goto, BindState.setMap, Function.update_of_ne hxm] at hb ⊢
      exact hI.kind shared x hx hb
  · obtain ⟨shared, hx₁⟩ := mem_maps.mp hx
    obtain ⟨shared', hx₂⟩ := mem_maps.mp hx'
    simp only [BindState.goto, BindState.setMap, Function.update_apply] at hb hb' heq
    split at heq
    · rename_i hxm
      split at heq
      · rename_i hxm'
        rw [hxm, hxm']
      · rename_i hxm'
        rw [if_neg hxm'] at hb'
        exact absurd heq.symm (hnone shared' x' hx₂ hb')
    · rename_i hxm
      rw [if_neg hxm] at hb
      split at heq
      · exact absurd heq (hnone shared x hx₁ hb)
      · rename_i hxm'
        rw [if_neg hxm'] at hb'
        exact hI.one x hx x' hx' hb hb' heq
  · by_cases hq : q = p
    · subst hq
      simp only [BindState.goto, Function.update_self]
      exact trivial
    · by_cases hxm : x = m
      · subst hxm
        simp only [BindState.goto, BindState.setMap, Function.update_self,
          Function.update_of_ne hq]
        exact hothers q hq
      · simp only [BindState.goto, BindState.setMap, Function.update_of_ne hq,
          Function.update_of_ne hxm] at hb ⊢
        exact hI.sees q shared x hx hb
  · by_cases hq : q = p
    · subst hq
      simp only [BindState.goto, Function.update_self]
      exact trivial
    · simp only [BindState.goto, BindState.setMap, Function.update_of_ne hq]
      exact hI.proper q

theorem BindInv.release (hI : BindInv P b) (hd : P.isMapDynamic m = true) :
    BindInv P (b.setMap m { b.map m with intr := SDEI_DYN_IRQ, bound := false }) := by
  have hslots := hI.slots.of_update (e := { b.map m with intr := SDEI_DYN_IRQ, bound := false }) hd
    ⟨fun _ => rfl, fun _ => rfl⟩ rfl
  have hold : ∀ x, ((b.setMap m { b.map m with intr := SDEI_DYN_IRQ, bound := false }).map x).bound =
      true → (b.setMap m { b.map m with intr := SDEI_DYN_IRQ, bound := false }).map x = b.map x := by
    intro x hb
    by_cases hxm : x = m
    · subst hxm
      simp [BindState.setMap] at hb
    · simp [BindState.setMap, hxm]
  refine ⟨hslots, fun shared x hx hb => ?_, fun x hx x' hx' hb hb' heq => ?_,
    fun q shared x hx hb => ?_, hI.proper⟩
  · have h := hold x hb
    rw [h] at hb ⊢
    exact hI.kind shared x hx hb
  · have h := hold x hb
    have h' := hold x' hb'
    rw [h] at hb heq
    rw [h'] at hb' heq
    exact hI.one x hx x' hx' hb hb' heq
  · have h := hold x hb
    rw [h] at hb ⊢
    exact hI.sees q shared x hx hb

theorem BindInv.effect (hP : BindPlatform P isSecureSgi) (hI : BindInv P b)
    (hothers : OthersSee P b a) (h : BindEffect P b a b' o) : BindInv P b' := by
  have hdecl := declared_of_sdeiInit hP.numbering hP.init
  cases h with
  | refused => exact hI.idle
  | started hi => exact hI.searchIntr hi
  | @hit p i m rest _ pc intr =>
    -- A map with the interrupt is bound to it, and no other one is.
    have hproper := hI.proper p
    rw [pc] at hproper
    have hm := hproper.2 m List.mem_cons_self
    have hbound := hI.slots.bound hP.numbering hdecl hm (intr ▸ hproper.1)
    refine hI.goto ⟨hproper.1, hm⟩ fun shared x hx hb heq => ?_
    exact hI.one m (mem_maps.mpr ⟨_, hm⟩) x (mem_maps.mpr ⟨_, hx⟩) hbound hb (intr.trans heq)
  | @missed p i m rest _ pc intr =>
    have hproper := hI.proper p
    have hsees := hI.sees p
    rw [pc] at hproper hsees
    refine hI.goto ⟨hproper.1, fun x hx => hproper.2 x (List.mem_cons_of_mem _ hx)⟩
      fun shared x hx hb heq => ?_
    rcases List.mem_cons.mp (hsees shared x hx hb heq) with rfl | hrest
    · exact absurd heq.symm intr
    · exact hrest
  | @notFound p i _ pc =>
    have hproper := hI.proper p
    have hsees := hI.sees p
    rw [pc] at hproper hsees
    refine hI.searchFree hproper.1 fun shared x hx hb heq => ?_
    exact absurd (hsees shared x hx hb heq.symm) (by simp)
  | already pc bound => exact hI.idle
  | @lost p i m _ pc free =>
    have hproper := hI.proper p
    have hsees := hI.sees p
    rw [pc] at hproper hsees
    refine hI.searchFree hproper.1 fun shared x hx hb heq => ?_
    rw [hsees shared x hx hb heq.symm, hb] at free
    exact absurd free (by simp)
  | @chose p i m rest _ pc =>
    have hproper := hI.proper p
    have hsees := hI.sees p
    rw [pc] at hproper hsees
    exact hI.goto ⟨hproper.1, hproper.2 m List.mem_cons_self⟩
      fun shared x hx hb heq => absurd heq (hsees shared x hx hb)
  | @skipped p i m rest _ pc =>
    have hproper := hI.proper p
    have hsees := hI.sees p
    rw [pc] at hproper hsees
    exact hI.goto ⟨hproper.1, fun x hx => hproper.2 x (List.mem_cons_of_mem _ hx)⟩ hsees
  | @retried p i m _ pc =>
    have hproper := hI.proper p
    rw [pc] at hproper
    exact hI.searchIntr hproper.1
  | @stored p i m pc dynamic free =>
    have hstores : stores P b (.step p true) = some (p, i, m) := by
      simp only [stores, pc]
      exact if_pos ⟨dynamic, trivial, free⟩
    exact hI.store hP pc dynamic free (hothers _ hstores)
  | released dynamic bound => exact hI.release dynamic

theorem bindInv (hP : BindPlatform P isSecureSgi)
    {t : List (BindAction n × BindOutcome M n)}
    (hrun : Traced (Performs (bindAct P) (OthersSee P)) (bindStart P) t b) : BindInv P b := by
  refine hrun.invariant (I := fun _ b => BindInv P b) (bindInv_start hP) ?_
  rintro t u ⟨a, o⟩ v hI ⟨hothers, hstep⟩
  exact hI.effect hP hothers (bindAct_effect hstep)

/-! ## Binding the same interrupt again -/

def BoundTo (P : Platform M n) (b : BindState M n) (i : ℕ) (m : M) : Prop :=
  m ∈ P.privateMaps ++ P.sharedMaps ∧ (b.map m).bound = true ∧ (b.map m).intr = i

theorem BoundTo.effect (hm : BoundTo P b i m) (h : BindEffect P b a b' o)
    (hrel : ∀ x, o ≠ .released i x) : BoundTo P b' i m := by
  cases h with
  | @stored p j x pc dynamic free =>
    have hne : m ≠ x := by
      rintro rfl
      exact absurd (hm.2.1.symm.trans free) (by simp)
    simpa [BoundTo, BindState.setMap, BindState.goto, hne] using hm
  | @released p evNum permitted x dynamic bound =>
    have hne : m ≠ x := by
      rintro rfl
      exact hrel m (by rw [hm.2.2])
    simpa [BoundTo, BindState.setMap, hne] using hm
  | _ => exact hm

structure Repeats (P : Platform M n) (b₀ : BindState M n) (i : ℕ)
    (v : List (BindAction n × BindOutcome M n)) (b : BindState M n) : Prop where
  found : ∀ r, b₀.pc r = .idle → ∀ m, b.pc r = .found i m → BoundTo P b i m
  returned : ∀ r, b₀.pc r = .idle → ∀ a m, (a, .returned r i m) ∈ v → BoundTo P b i m

theorem found_boundTo (hP : BindPlatform P isSecureSgi) (hI : BindInv P b) {rest : List M}
    (hpc : b.pc p = .searching i (m :: rest)) (hintr : (b.map m).intr = i) : BoundTo P b i m := by
  have hproper := hI.proper p
  rw [hpc] at hproper
  have hm := hproper.2 m List.mem_cons_self
  exact ⟨mem_maps.mpr ⟨_, hm⟩, hI.slots.bound hP.numbering
    (declared_of_sdeiInit hP.numbering hP.init) hm (hintr ▸ hproper.1), hintr⟩

theorem BindEffect.found (h : BindEffect P b a b' o) {r : Fin n} (hr : b'.pc r = .found i m) :
    b.pc r = .found i m ∨
      ∃ rest, b.pc r = .searching i (m :: rest) ∧ (b.map m).intr = i := by
  have kept {pc : BindPc M} {p : Fin n} (heq : b'.pc r = if r = p then pc else b.pc r)
      (hpc : pc ≠ .found i m) : b.pc r = .found i m := by
    rw [heq] at hr
    split at hr
    · exact absurd hr hpc
    · exact hr
  cases h with
  | @hit p j x rest _ pc intr =>
    rw [pc_goto] at hr
    split at hr
    · rename_i hrp
      obtain ⟨rfl, rfl⟩ := BindPc.found.inj hr
      exact Or.inr ⟨rest, hrp ▸ pc, intr⟩
    · exact Or.inl hr
  | refused => exact Or.inl (kept (pc_goto r) (by simp))
  | started number => exact Or.inl (kept (pc_goto r) (by simp))
  | missed pc intr => exact Or.inl (kept (pc_goto r) (by simp))
  | notFound pc => exact Or.inl (kept (pc_goto r) (by simp))
  | already pc bound => exact Or.inl (kept (pc_goto r) (by simp))
  | lost pc free => exact Or.inl (kept (pc_goto r) (by simp))
  | chose pc => exact Or.inl (kept (pc_goto r) (by simp))
  | skipped pc => exact Or.inl (kept (pc_goto r) (by simp))
  | retried pc => exact Or.inl (kept (pc_goto r) (by simp))
  | stored pc dynamic free => exact Or.inl (kept (pc_goto r) (by simp))
  | released dynamic bound => exact Or.inl hr

theorem BindEffect.returned (hI : BindInv P b) {r : Fin n}
    (h : BindEffect P b a b' (.returned r i m)) : b.pc r = .found i m ∨ BoundTo P b' i m := by
  cases h with
  | already pc bound => exact Or.inl pc
  | stored pc dynamic free =>
    have hproper := hI.proper r
    rw [pc] at hproper
    refine Or.inr ⟨mem_maps.mpr ⟨_, hproper.2⟩, ?_, ?_⟩
    · simp [BindState.setMap, BindState.goto]
    · simp [BindState.setMap, BindState.goto]

theorem Repeats.effect (hP : BindPlatform P isSecureSgi) {b₀ : BindState M n}
    {v : List (BindAction n × BindOutcome M n)} (hI : BindInv P b) (hJ : Repeats P b₀ i v b)
    (h : BindEffect P b a b' o) (hrel : ∀ x, o ≠ .released i x) :
    Repeats P b₀ i (v ++ [(a, o)]) b' := by
  refine ⟨fun r hr m hm => ?_, fun r hr a' m hmem => ?_⟩
  · rcases h.found hm with hold | ⟨rest, hpc, hintr⟩
    · exact (hJ.found r hr m hold).effect h hrel
    · exact (found_boundTo hP hI hpc hintr).effect h hrel
  · rcases List.mem_append.mp hmem with hold | hnew
    · exact (hJ.returned r hr a' m hold).effect h hrel
    · obtain ⟨rfl, rfl⟩ := Prod.mk.inj (List.mem_singleton.mp hnew)
      rcases h.returned hI with hfound | hbound
      · exact (hJ.found r hr m hfound).effect h hrel
      · exact hbound

/-- **One map for each interrupt.** In every run in which what a PE stores is not missed by another PE
that is binding the same interrupt, at most one map is bound to an interrupt. Two binds of an
interrupt that begin after some state return the same event, if the interrupt is not released between
that state and the later return. -/
theorem one_map_each (P : Platform M n) (isSecureSgi : ℕ → Bool) (hP : BindPlatform P isSecureSgi)
    (t : List (BindAction n × BindOutcome M n)) (b : BindState M n)
    (hrun : Traced (Performs (bindAct P) (OthersSee P)) (bindStart P) t b) :
    AtMostOne P b ∧
    ∀ v b' i p q a a' m m', Traced (Performs (bindAct P) (OthersSee P)) b v b' →
      b.pc p = .idle → b.pc q = .idle → (∀ x ∈ v, ∀ y, x.2 ≠ .released i y) →
      (a, .returned p i m) ∈ v → (a', .returned q i m') ∈ v → P.evNum m = P.evNum m' := by
  have hI := bindInv hP hrun
  refine ⟨hI.one, ?_⟩
  intro v b' i p q a a' m m' hmore hp hq hrel hm hm'
  have hJ : (∀ x ∈ v, ∀ y, x.2 ≠ .released i y) → BindInv P b' ∧ Repeats P b i v b' := by
    refine hmore.invariant (I := fun v b' => (∀ x ∈ v, ∀ y, x.2 ≠ .released i y) →
      BindInv P b' ∧ Repeats P b i v b') (fun _ => ⟨hI, ⟨?_, ?_⟩⟩) ?_
    · intro r hr m hfound
      rw [hr] at hfound
      exact absurd hfound (by simp)
    · intro r _ a m hmem
      exact absurd hmem (by simp)
    · rintro v u ⟨a, o⟩ w hu ⟨hothers, hstep⟩ hrel
      have heffect := bindAct_effect hstep
      obtain ⟨hIu, hJu⟩ := hu fun x hx => hrel x (List.mem_append_left _ hx)
      exact ⟨hIu.effect hP hothers heffect, hJu.effect hP hIu heffect (hrel (a, o) (by simp))⟩
  obtain ⟨hI', hJ'⟩ := hJ hrel
  have hb := hJ'.returned p hp a m hm
  have hb' := hJ'.returned q hq a' m' hm'
  rw [hI'.one m hb.1 m' hb'.1 hb.2.1 hb'.2.1 (hb.2.2.trans hb'.2.2.symm)]

/-! ## Two PEs -/

def twoSlots : Platform (Fin 3) 2 where
  privateMaps := [0]
  sharedMaps := [1, 2]
  evNum m := m.val
  intr m := if m = 0 then 8 else SDEI_DYN_IRQ
  isEventPrivate m := decide (m = 0)
  isEventCritical _ := false
  isEventSignalable m := decide (m = 0)
  isMapDynamic m := decide (m ≠ 0)
  isMapExplicit _ := false
  isSpi i := decide (32 ≤ i)
  isPpi i := decide (16 ≤ i ∧ i < 32)
  readMpidr p := BitVec.ofNat 64 p.val
  isValidMpidr x := decide (x.toNat < 2)
  corePosByMpidr x := if h : x.toNat < 2 then some ⟨x.toNat, h⟩ else none
  validateEntryPoint _ := true
  clientEl := .el2
  createSpsr _ := ClientEl.el2.spsr64
  PLAT_SDEI_CRITICAL_PRI := 0x60
  PLAT_SDEI_NORMAL_PRI := 0x70
  ENABLE_ASSERTIONS := true
  DYNAMIC_WORKAROUND_CVE_2018_3639 := false
  private_of_mem := by decide
  shared_of_mem := by decide
  dynamic_plain := by decide
  sdei_critical_must_have_higher_priority := critical_lt_normal

theorem twoSlots_platform : BindPlatform twoSlots lowNumbers := by
  refine ⟨⟨by decide, fun i hi => ?_⟩, fun i hi => ?_, by decide, by unfold AtMostOne; decide⟩
  · simp only [lowNumbers, decide_eq_true_eq] at hi
    simp only [twoSlots, decide_eq_false_iff_not]
    omega
  · simp only [twoSlots, decide_eq_true_eq, decide_eq_false_iff_not] at hi ⊢
    omega

def bindFirst (p : Fin 2) : List (BindAction 2) := .bind p 40 :: List.replicate 5 (.step p true)

def bindAgain (p : Fin 2) : List (BindAction 2) := .bind p 40 :: List.replicate 2 (.step p true)

theorem one_map_each_twice : ∃ v b',
    Traced (Performs (bindAct twoSlots) (OthersSee twoSlots)) (bindStart twoSlots) v b' ∧
    (.step 0 true, .returned 0 40 1) ∈ v ∧ (.step 1 true, .returned 1 40 1) ∈ v ∧
    AtMostOne twoSlots b' ∧ ∀ a m, (a, .returned 1 40 m) ∈ v → twoSlots.evNum m = 1 := by
  obtain ⟨v, b', hrun, hq⟩ := @execute_traced _ _ _ (bindAct twoSlots) (OthersSee twoSlots) _
    (fun v _ => decide ((.step 0 true, .returned 0 40 1) ∈ v ∧ (.step 1 true, .returned 1 40 1) ∈ v ∧
      ∀ x ∈ v, ∀ y, x.2 ≠ .released 40 y)) (bindStart twoSlots) (bindFirst 0 ++ bindAgain 1)
    (by decide +kernel)
  obtain ⟨h0, h1, hrel⟩ := of_decide_eq_true hq
  refine ⟨v, b', hrun, h0, h1, (one_map_each twoSlots lowNumbers twoSlots_platform v b' hrun).1, ?_⟩
  intro a m hm
  exact (one_map_each twoSlots lowNumbers twoSlots_platform [] (bindStart twoSlots) .nil).2 v b' 40 1 0
    _ _ m 1 hrun rfl rfl hrel hm h0

/-- PE 0 has searched for the interrupt when PE 1 binds it, and goes on to bind it to the other map. -/
def bindRace : List (BindAction 2) :=
  .bind 0 40 :: List.replicate 3 (.step 0 true) ++ bindFirst 1 ++ List.replicate 3 (.step 0 true)

theorem racing_binds_differ : ∃ v b',
    Traced (Performs (bindAct twoSlots) fun _ _ => True) (bindStart twoSlots) v b' ∧
    ¬ AtMostOne twoSlots b' ∧ (.step 1 true, .returned 1 40 1) ∈ v ∧
    (.step 0 true, .returned 0 40 2) ∈ v ∧ (∀ x ∈ v, ∀ i y, x.2 ≠ .released i y) ∧
    twoSlots.evNum 1 ≠ twoSlots.evNum 2 := by
  obtain ⟨v, b', hrun, hq⟩ := @execute_traced _ _ _ (bindAct twoSlots) (fun _ _ => True) _
    (fun v b => decide ((b.map 1).bound = true ∧ (b.map 2).bound = true ∧
      (b.map 1).intr = (b.map 2).intr ∧ (.step 1 true, .returned 1 40 1) ∈ v ∧
      (.step 0 true, .returned 0 40 2) ∈ v ∧
      v.all fun x => match x.2 with | .released _ _ => false | _ => true))
    (bindStart twoSlots) bindRace (by decide +kernel)
  obtain ⟨h1, h2, hintr, hr1, hr0, hrel⟩ := of_decide_eq_true hq
  refine ⟨v, b', hrun, fun hone => ?_, hr1, hr0, fun x hx i y heq => ?_, by decide⟩
  · exact absurd (hone 1 (by decide) 2 (by decide) h1 h2 hintr) (by decide)
  · have hx := List.all_eq_true.mp hrel x hx
    rw [heq] at hx
    exact absurd hx (by simp)

end TrustedFirmware.Sdei
