import TrustedFirmware.Foundations.Words

/-! # Exception priorities at EL3

`ehf_activate_priority()` and `ehf_deactivate_priority()` of `ehf.c` on one PE. The active
priorities are the bits of a word; besides it the PE keeps the priority mask from before the first
activation. A panic and a failed assertion do not return. -/
namespace TrustedFirmware.Bl31
open BitStack
set_option autoImplicit false

def EHF_PRI_VALID : ℕ := 1

/-- The priority levels that the platform registers. `ehf_init()` asserts that they fit the word of
active priorities. -/
structure ExceptionData where
  /-- The handler of each level, with bit 0 set if the level is valid. -/
  ehfPriorities : List ℕ
  priBits : ℕ
  num_le : ehfPriorities.length ≤ 32
  priBits_le : priBits ≤ 7

/-- `EHF_PRI_TO_IDX()`. -/
def ExceptionData.index (E : ExceptionData) (priority : ℕ) : ℕ :=
  (priority &&& 0x7f) >>> (7 - E.priBits)

/-- `IDX_TO_PRI()`. -/
def ExceptionData.priority (E : ExceptionData) (idx : ℕ) : ℕ :=
  (idx <<< (7 - E.priBits)) &&& 0x7f

def ExceptionData.isIdxValid (E : ExceptionData) (idx : ℕ) : Bool :=
  (E.ehfPriorities[idx]?).any fun handler => handler &&& EHF_PRI_VALID ≠ 0

structure Pe where
  activePriBits : ℕ
  initPriMask : UInt8
  priorityMask : UInt8
  runningPriority : UInt8
  deriving DecidableEq, Repr

def priToIdx (E : ExceptionData) (priority : ℕ) : Option ℕ :=
  let idx := E.index priority
  if idx < E.ehfPriorities.length ∧ E.isIdxValid idx = true then some idx else none

def hasValidPriActivations (pe : Pe) : Bool := pe.activePriBits ≠ 0

/-- The lowest set bit of the active priorities; `none` is `EHF_INVALID_IDX`. -/
def getPeHighestActiveIdx (pe : Pe) : Option ℕ :=
  if hasValidPriActivations pe then lowestBit 32 pe.activePriBits else none

/-- `plat_ic_set_priority_mask()`; the mask that was set before is the one of `pe`. -/
def Pe.setPriorityMask (pe : Pe) (mask : ℕ) : Pe := { pe with priorityMask := UInt8.ofNat mask }

def ehfActivatePriority (E : ExceptionData) (pe : Pe) (priority : ℕ) : Option Pe :=
  if priority ≥ pe.runningPriority.toNat then none
  else
    let cur := getPeHighestActiveIdx pe
    match priToIdx E priority with
    | none => none
    | some idx =>
      if cur.any (fun c => decide (idx ≥ c)) then none
      else if priority ≥ pe.priorityMask.toNat then none
      else
        some ({ pe with
          activePriBits := pe.activePriBits ||| 2 ^ idx
          -- The mask from before the first activation is kept for the last deactivation.
          initPriMask := if cur = none then pe.priorityMask else pe.initPriMask
          }.setPriorityMask priority)

def ehfDeactivatePriority (E : ExceptionData) (pe : Pe) (priority : ℕ) : Option Pe :=
  if priority ≥ pe.runningPriority.toNat then none
  else
    match priToIdx E priority with
    | none => none
    | some idx =>
      if getPeHighestActiveIdx pe ≠ some idx then none
      else
        let pe' := { pe with activePriBits := pe.activePriBits &&& (pe.activePriBits - 1) }
        if pe.priorityMask.toNat > priority then none
        else if getPeHighestActiveIdx pe' = none then
          some (pe'.setPriorityMask pe'.initPriMask.toNat)
        else some (pe'.setPriorityMask priority)

/-! ## Registered priorities -/

def ExceptionData.Registered (E : ExceptionData) (priority : ℕ) : Prop :=
  ∃ idx < E.ehfPriorities.length, E.isIdxValid idx = true ∧ E.index priority = idx ∧
    E.priority idx = priority

variable {E : ExceptionData} {p q : ℕ}

theorem ExceptionData.Registered.lt (h : E.Registered p) : p < 0x80 := by
  obtain ⟨idx, -, -, -, rfl⟩ := h
  exact Nat.lt_of_le_of_lt Nat.and_le_right (by decide)

theorem ExceptionData.Registered.priToIdx_eq (h : E.Registered p) :
    priToIdx E p = some (E.index p) := by
  obtain ⟨idx, hlt, hvalid, rfl, -⟩ := h
  rw [priToIdx, if_pos ⟨hlt, hvalid⟩]

theorem ExceptionData.Registered.index_lt (h : E.Registered p) : E.index p < 32 := by
  obtain ⟨idx, hlt, -, rfl, -⟩ := h
  exact Nat.lt_of_lt_of_le hlt E.num_le

theorem ExceptionData.index_le (h : p ≤ q) (hq : q < 0x80) : E.index p ≤ E.index q := by
  have hmask : ∀ n, n < 0x80 → n &&& 0x7f = n := by
    intro n hn
    rw [show 0x7f = 2 ^ 7 - 1 from rfl, Nat.and_two_pow_sub_one_eq_mod, Nat.mod_eq_of_lt hn]
  rw [index, index, hmask p (by omega), hmask q hq, Nat.shiftRight_eq_div_pow,
    Nat.shiftRight_eq_div_pow]
  exact Nat.div_le_div_right h

theorem ExceptionData.Registered.index_lt_index (hp : E.Registered p) (hq : E.Registered q)
    (h : p < q) : E.index p < E.index q := by
  refine Nat.lt_of_le_of_ne (index_le h.le hq.lt) fun heq => ?_
  obtain ⟨_, -, -, rfl, hpri⟩ := hp
  obtain ⟨_, -, -, rfl, hqri⟩ := hq
  rw [heq, hqri] at hpri
  exact absurd hpri h.ne'

end TrustedFirmware.Bl31
