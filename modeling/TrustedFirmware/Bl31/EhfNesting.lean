import TrustedFirmware.Bl31.Ehf

/-! # Nested activations of exception priorities

The word of active priorities is a stack. The last deactivation restores the priority mask from
before the first activation. An inner one sets the mask to the priority that it deactivates, not to
the one that is active next, so the mask stays below the one from before the activation and the same
priority cannot be activated again. -/
namespace TrustedFirmware.Bl31
open BitStack
set_option autoImplicit false

variable {E : ExceptionData} {pe : Pe} {p : ℕ} {active : List ℕ} {m : UInt8}

inductive Op where
  | activate (priority : ℕ)
  | deactivate (priority : ℕ)
  deriving DecidableEq, Repr

/-- Each activation is of a registered priority that is higher than the active ones, and each
deactivation is of the one that was activated last. -/
def Nested (E : ExceptionData) : List ℕ → List Op → Prop
  | _, [] => True
  | active, .activate p :: ops =>
    E.Registered p ∧ (∀ q ∈ active, p < q) ∧ Nested E (p :: active) ops
  | [], .deactivate _ :: _ => False
  | q :: active, .deactivate p :: ops => p = q ∧ Nested E active ops

/-- Every call returns. A deactivation sets the mask to the one from before the matching activation,
if what stays active then counts. `masks` are the masks from before the activations. -/
def Restores (E : ExceptionData) (counts : List UInt8 → Prop) : Pe → List UInt8 → List Op → Prop
  | _, _, [] => True
  | pe, masks, .activate p :: ops => ∃ pe', ehfActivatePriority E pe p = some pe' ∧
      Restores E counts pe' (pe.priorityMask :: masks) ops
  | _, [], .deactivate _ :: _ => False
  | pe, m :: masks, .deactivate p :: ops => ∃ pe', ehfDeactivatePriority E pe p = some pe' ∧
      (counts masks → pe'.priorityMask = m) ∧ Restores E counts pe' masks ops

/-- Each activation is of a priority that is higher than the mask. With no priority active the mask
is the initial one, and otherwise it is the priority that was named last. -/
def Admitted (initial : UInt8) : UInt8 → List ℕ → List Op → Prop
  | _, _, [] => True
  | mask, active, .activate p :: ops =>
    p < mask.toNat ∧ Admitted initial (UInt8.ofNat p) (p :: active) ops
  | _, [], .deactivate _ :: _ => False
  | _, _ :: active, .deactivate p :: ops =>
    Admitted initial (if active = [] then initial else UInt8.ofNat p) active ops

def Idle (pe : Pe) : Prop := pe.runningPriority = 0xff

structure Tracks (E : ExceptionData) (initial : UInt8) (pe : Pe) (active : List ℕ) : Prop where
  idle : Idle pe
  registered : ∀ p ∈ active, E.Registered p
  ordered : active.Pairwise (· < ·)
  bitmap : pe.activePriBits = bits (active.map E.index)
  mask : active = [] → pe.priorityMask = initial
  saved : active ≠ [] → pe.initPriMask = initial
  masked : ∀ p rest, active = p :: rest → pe.priorityMask.toNat ≤ p

theorem Tracks.start (hidle : Idle pe) (h : pe.activePriBits = 0) :
    Tracks E pe.priorityMask pe [] :=
  ⟨hidle, by simp, List.Pairwise.nil, h, fun _ => rfl, fun hne => absurd rfl hne,
    fun _ _ heq => nomatch heq⟩

theorem ordered_index (hreg : ∀ p ∈ active, E.Registered p) (h : active.Pairwise (· < ·)) :
    Ordered (active.map E.index) := by
  rw [Ordered, List.pairwise_map]
  exact h.imp_of_mem fun hp hq hlt => (hreg _ hp).index_lt_index (hreg _ hq) hlt

theorem Tracks.ordered_index (h : Tracks E m pe active) : Ordered (active.map E.index) :=
  Bl31.ordered_index h.registered h.ordered

theorem Tracks.highest (h : Tracks E m pe active) :
    getPeHighestActiveIdx pe = (active.map E.index).head? := by
  rw [getPeHighestActiveIdx, hasValidPriActivations, h.bitmap]
  cases active with
  | nil => rfl
  | cons p rest =>
    have hne : bits ((p :: rest).map E.index) ≠ 0 := fun hz => nomatch bits_eq_zero.mp hz
    rw [if_pos (decide_eq_true hne), List.map_cons,
      lowestBit_bits h.ordered_index (h.registered p List.mem_cons_self).index_lt]
    rfl

theorem Tracks.not_running (h : Tracks E m pe active) (hp : E.Registered p) :
    ¬ p ≥ pe.runningPriority.toNat := by
  have hlt := hp.lt
  rw [h.idle]
  exact Nat.not_le.mpr (Nat.lt_trans hlt (by decide))

theorem toNat_ofNat_registered (hp : E.Registered p) : (UInt8.ofNat p).toNat = p := by
  rw [UInt8.toNat_ofNat']
  exact Nat.mod_eq_of_lt (Nat.lt_trans hp.lt (by decide))

theorem Tracks.activate (h : Tracks E m pe active) (hp : E.Registered p)
    (hlt : ∀ q ∈ active, p < q) (hmask : p < pe.priorityMask.toNat) :
    ∃ pe', ehfActivatePriority E pe p = some pe' ∧ pe'.priorityMask = UInt8.ofNat p ∧
      Tracks E m pe' (p :: active) := by
  have hreg : ∀ q ∈ p :: active, E.Registered q := List.forall_mem_cons.mpr ⟨hp, h.registered⟩
  have hpairs : (p :: active).Pairwise (· < ·) := List.pairwise_cons.mpr ⟨hlt, h.ordered⟩
  have hlevel : ((active.map E.index).head?).any (fun c => decide (E.index p ≥ c)) = false := by
    cases active with
    | nil => rfl
    | cons q rest =>
      have := hp.index_lt_index (h.registered q List.mem_cons_self) (hlt q List.mem_cons_self)
      simpa using this
  have hsaved : (if (active.map E.index).head? = none then pe.priorityMask else pe.initPriMask) = m := by
    cases active with
    | nil => exact h.mask rfl
    | cons q rest => exact h.saved (by simp)
  refine ⟨⟨pe.activePriBits ||| 2 ^ E.index p, m, UInt8.ofNat p, pe.runningPriority⟩, ?_, rfl, ?_⟩
  · rw [ehfActivatePriority, if_neg (h.not_running hp), hp.priToIdx_eq, h.highest]
    simp only [hlevel, Bool.false_eq_true, if_false, if_neg (Nat.not_le.mpr hmask), hsaved]
    rfl
  · refine ⟨h.idle, hreg, hpairs, ?_, (fun heq => nomatch heq), fun _ => rfl, ?_⟩
    · rw [List.map_cons, ← bits_push (Bl31.ordered_index hreg hpairs), ← h.bitmap]
    · intro q rest heq
      obtain ⟨rfl, -⟩ := List.cons.inj heq
      exact (toNat_ofNat_registered hp).le

theorem activate_eq_none (hmask : ¬ p < pe.priorityMask.toNat) : ehfActivatePriority E pe p = none := by
  rw [ehfActivatePriority]
  split
  · rfl
  cases priToIdx E p with
  | none => rfl
  | some idx => simp only [if_pos (Nat.not_lt.mp hmask), ite_self]

theorem Tracks.deactivate (h : Tracks E m pe (p :: active)) :
    ∃ pe', ehfDeactivatePriority E pe p = some pe' ∧
      pe'.priorityMask = (if active = [] then m else UInt8.ofNat p) ∧ Tracks E m pe' active := by
  obtain ⟨hp, hreg⟩ := List.forall_mem_cons.mp h.registered
  obtain ⟨hlt, hpairs⟩ := List.pairwise_cons.mp h.ordered
  have hpop : pe.activePriBits &&& (pe.activePriBits - 1) = bits (active.map E.index) := by
    rw [h.bitmap]
    exact bits_pop h.ordered_index
  -- What remains active, whichever mask is set.
  have hrest : ∀ mask, (active = [] → mask = m) → (∀ q rest, active = q :: rest → mask.toNat ≤ q) →
      Tracks E m { pe with
        activePriBits := pe.activePriBits &&& (pe.activePriBits - 1), priorityMask := mask } active :=
    fun mask hempty hle => ⟨h.idle, hreg, hpairs, hpop, hempty, fun _ => h.saved (by simp), hle⟩
  have htop : getPeHighestActiveIdx pe = some (E.index p) := h.highest
  rw [ehfDeactivatePriority, if_neg (h.not_running hp), hp.priToIdx_eq]
  simp only [htop, ne_eq, not_true_eq_false, if_false, if_neg (Nat.not_lt.mpr (h.masked p active rfl))]
  have hnext : getPeHighestActiveIdx { pe with
      activePriBits := pe.activePriBits &&& (pe.activePriBits - 1) } = (active.map E.index).head? := by
    cases active with
    | nil => exact (hrest m (fun _ => rfl) fun _ _ heq => nomatch heq).highest
    | cons q rest =>
      exact (hrest 0 (fun heq => nomatch heq) fun _ _ _ => Nat.zero_le _).highest
  rw [hnext]
  cases active with
  | nil =>
    refine ⟨_, if_pos rfl, ?_, hrest _ ?_ fun _ _ heq => nomatch heq⟩
    · simp only [Pe.setPriorityMask, UInt8.ofNat_toNat, if_true]
      exact h.saved (by simp)
    · intro _
      rw [UInt8.ofNat_toNat]
      exact h.saved (by simp)
  | cons q rest =>
    refine ⟨_, if_neg (by simp), rfl, hrest _ (fun heq => nomatch heq) ?_⟩
    intro q' rest' heq
    obtain ⟨rfl, -⟩ := List.cons.inj heq
    rw [toNat_ofNat_registered hp]
    exact (hlt q List.mem_cons_self).le

/-! ## All nested sequences -/

/-- The masks from before the activations, with the initial one last. -/
def Masks (initial : UInt8) (active : List ℕ) (masks : List UInt8) : Prop :=
  masks.length = active.length ∧ ∀ m, masks.getLast? = some m → m = initial

theorem Tracks.restores_iff {masks : List UInt8} {ops : List Op} (h : Tracks E m pe active)
    (hmasks : Masks m active masks) (hnested : Nested E active ops) :
    Restores E (· = []) pe masks ops ↔ Admitted m pe.priorityMask active ops := by
  induction ops generalizing pe active masks with
  | nil => simp [Restores, Admitted]
  | cons op ops ih =>
    cases op with
    | activate p =>
      rw [Nested] at hnested
      obtain ⟨hp, hlt, hrest⟩ := hnested
      rw [Restores, Admitted]
      by_cases hmask : p < pe.priorityMask.toNat
      · obtain ⟨pe', heq, hset, htracks⟩ := h.activate hp hlt hmask
        have hmasks' : Masks m (p :: active) (pe.priorityMask :: masks) := by
          refine ⟨by simp [hmasks.1], fun m' hm' => ?_⟩
          cases masks with
          | nil =>
            have hnil : active = [] := List.length_eq_zero_iff.mp hmasks.1.symm
            rw [← h.mask hnil]
            simpa using hm'.symm
          | cons m₁ masks => exact hmasks.2 m' (by simpa using hm')
        have hih := ih htracks hmasks' hrest
        rw [hset] at hih
        rw [← hih]
        constructor
        · rintro ⟨pe₁, heq₁, hrestores⟩
          rw [heq, Option.some.injEq] at heq₁
          exact ⟨hmask, heq₁ ▸ hrestores⟩
        · exact fun hrestores => ⟨pe', heq, hrestores.2⟩
      · rw [activate_eq_none hmask]
        simp [hmask]
    | deactivate p =>
      cases active with
      | nil => exact hnested.elim
      | cons q active =>
        obtain ⟨rfl, hrest⟩ : p = q ∧ Nested E active ops := hnested
        obtain ⟨pe', heq, hset, htracks⟩ := h.deactivate
        cases masks with
        | nil => exact absurd hmasks.1 (by simp)
        | cons m₁ masks =>
          have hlen : masks.length = active.length := by simpa using hmasks.1
          have hmasks' : Masks m active masks := by
            refine ⟨hlen, fun m' hm' => hmasks.2 m' ?_⟩
            cases masks with
            | nil => cases hm'
            | cons m₂ masks => simpa using hm'
          have hrestored : masks = [] → pe'.priorityMask = m₁ := by
            rintro rfl
            rw [hset, if_pos (List.length_eq_zero_iff.mp hlen.symm)]
            exact (hmasks.2 m₁ rfl).symm
          have hih := ih htracks hmasks' hrest
          rw [hset] at hih
          rw [Restores, Admitted, ← hih]
          constructor
          · rintro ⟨pe₁, heq₁, -, hrestores⟩
            rw [heq, Option.some.injEq] at heq₁
            exact heq₁ ▸ hrestores
          · exact fun hrestores => ⟨pe', heq, hrestored, hrestores⟩

/-- **Nested activations.** With no interrupt and no priority active, a nested sequence goes through
without a panic, and the mask is the initial one after every deactivation that leaves no priority
active, exactly if each activation is of a priority higher than the mask then set. -/
theorem nested_restores_iff {ops : List Op} (hidle : Idle pe) (hnone : pe.activePriBits = 0)
    (hnested : Nested E [] ops) :
    Restores E (fun outer => outer = []) pe [] ops ↔
      Admitted pe.priorityMask pe.priorityMask [] ops :=
  (Tracks.start hidle hnone).restores_iff ⟨rfl, fun _ hm => nomatch hm⟩ hnested

def twoLevels : ExceptionData where
  ehfPriorities := [0, 0, 0, 0, 1, 0, 1]
  priBits := 4
  num_le := by decide
  priBits_le := by decide

theorem twoLevels_registered : twoLevels.Registered 0x20 ∧ twoLevels.Registered 0x30 :=
  ⟨⟨4, by decide, by decide, by decide, by decide⟩, ⟨6, by decide, by decide, by decide, by decide⟩⟩

def idlePe (mask : UInt8) : Pe := ⟨0, 0, mask, 0xff⟩

theorem nested_restores_iff_inner :
    Restores twoLevels (fun outer => outer = []) (idlePe 0xf8) []
      [.activate 0x30, .activate 0x20, .deactivate 0x20, .deactivate 0x30] := by
  obtain ⟨h20, h30⟩ := twoLevels_registered
  have hnested : Nested twoLevels []
      [.activate 0x30, .activate 0x20, .deactivate 0x20, .deactivate 0x30] :=
    ⟨h30, by simp, h20, by simp, rfl, rfl, trivial⟩
  refine (@nested_restores_iff twoLevels (idlePe 0xf8) _ rfl rfl hnested).mpr ?_
  exact ⟨by decide, by decide, trivial⟩

/-- A nested sequence panics when the mask is too high to begin with. And it panics, from any other
mask, when an inner priority is activated once more: the first deactivation has left the mask at
that priority instead of restoring 0x30. -/
theorem inner_mask_not_restored :
    (Nested twoLevels [] [.activate 0x20] ∧
      ehfActivatePriority twoLevels (idlePe 0x10) 0x20 = none) ∧
    (Nested twoLevels []
        [.activate 0x30, .activate 0x20, .deactivate 0x20, .activate 0x20] ∧
      ∃ outer inner after, ehfActivatePriority twoLevels (idlePe 0xf8) 0x30 = some outer ∧
        ehfActivatePriority twoLevels outer 0x20 = some inner ∧
        ehfDeactivatePriority twoLevels inner 0x20 = some after ∧
        outer.priorityMask = 0x30 ∧ after.priorityMask = 0x20 ∧
        ehfActivatePriority twoLevels after 0x20 = none) := by
  obtain ⟨h20, h30⟩ := twoLevels_registered
  refine ⟨⟨⟨h20, by simp, trivial⟩, by decide⟩,
    ⟨h30, by simp, h20, by simp, rfl, h20, by simp, trivial⟩, ?_⟩
  exact ⟨⟨64, 0xf8, 0x30, 0xff⟩, ⟨80, 0xf8, 0x20, 0xff⟩, ⟨64, 0xf8, 0x20, 0xff⟩, by decide, by decide,
    by decide, rfl, rfl, by decide⟩

end TrustedFirmware.Bl31
