import Mathlib.Order.Basic
import Mathlib.Data.Nat.Notation

/-! # The power domain tree

The arrays `psci_cpu_pd_nodes` and `psci_non_cpu_pd_nodes`, without the states they
record. Level 0 is the CPUs; the node of a CPU at level `l + 1` is found by following
`parent_node` links `l` times from the CPU's own parent. -/
namespace TrustedFirmware.Psci
set_option autoImplicit false

/-- The fixed part of `non_cpu_pd_node_t`. -/
structure NonCpuPdNode where
  cpuStartIdx : ℕ
  ncpus : ℕ
  parentNode : ℕ
  firstChildIdx : ℕ
  numChildren : ℕ

/-- `psci_get_parent_pwr_domain_nodes()`: entry `l` of the array it fills in. -/
def parentPwrDomainNode (nodes : ℕ → NonCpuPdNode) (cpuParent : ℕ) : ℕ → ℕ
  | 0 => cpuParent
  | l + 1 => (nodes (parentPwrDomainNode nodes cpuParent l)).parentNode

structure Platform where
  /-- `PLAT_MAX_PWR_LVL`, `PLAT_MAX_RET_STATE` and `PLAT_MAX_OFF_STATE`. -/
  maxPwrLvl : ℕ
  maxRetState : ℕ
  maxOffState : ℕ
  osInitMode : Bool
  /-- `PLAT_MAX_CPU_SUSPEND_PWR_LVL`, or `PLAT_MAX_PWR_LVL` where it is not defined. -/
  maxCpuSuspendPwrLvl : ℕ
  cpuStandby : Bool
  coreCount : ℕ
  cpuParent : ℕ → ℕ
  nodes : ℕ → NonCpuPdNode
  ret_lt_off : maxRetState < maxOffState
  suspend_le : maxCpuSuspendPwrLvl ≤ maxPwrLvl
  /-- `cpu_start_idx` and `ncpus` give the CPUs below a node. -/
  range : ∀ l < maxPwrLvl, ∀ c < coreCount, ∀ c',
    (nodes (parentPwrDomainNode nodes (cpuParent c) l)).cpuStartIdx ≤ c' ∧
      c' < (nodes (parentPwrDomainNode nodes (cpuParent c) l)).cpuStartIdx +
        (nodes (parentPwrDomainNode nodes (cpuParent c) l)).ncpus ↔
    c' < coreCount ∧
      parentPwrDomainNode nodes (cpuParent c') l = parentPwrDomainNode nodes (cpuParent c) l
  /-- A node belongs to one level. -/
  level_unique : ∀ l < maxPwrLvl, ∀ l' < maxPwrLvl, ∀ c < coreCount, ∀ c' < coreCount,
    parentPwrDomainNode nodes (cpuParent c) l = parentPwrDomainNode nodes (cpuParent c') l' → l = l'
  /-- `first_child_idx` and `num_children` reach every CPU of a node of level 1, -/
  child_cpu : ∀ c < coreCount, (nodes (cpuParent c)).firstChildIdx ≤ c ∧
    c < (nodes (cpuParent c)).firstChildIdx + (nodes (cpuParent c)).numChildren
  /-- and every child of a higher one. -/
  child_node : ∀ l, l + 1 < maxPwrLvl → ∀ c < coreCount,
    (nodes (parentPwrDomainNode nodes (cpuParent c) (l + 1))).firstChildIdx ≤
        parentPwrDomainNode nodes (cpuParent c) l ∧
      parentPwrDomainNode nodes (cpuParent c) l <
        (nodes (parentPwrDomainNode nodes (cpuParent c) (l + 1))).firstChildIdx +
          (nodes (parentPwrDomainNode nodes (cpuParent c) (l + 1))).numChildren

namespace Platform
variable (P : Platform)

/-- The node of CPU `c` at level `l + 1`. -/
def ancestor (c l : ℕ) : ℕ := parentPwrDomainNode P.nodes (P.cpuParent c) l

theorem ancestor_unique {c c' l l' : ℕ} (hl : l < P.maxPwrLvl) (hl' : l' < P.maxPwrLvl)
    (hc : c < P.coreCount) (hc' : c' < P.coreCount) (h : P.ancestor c l = P.ancestor c' l') :
    l = l' := P.level_unique l hl l' hl' c hc c' hc' h

end Platform

/-! ## Local power states -/

def PSCI_LOCAL_STATE_RUN : ℕ := 0
def PSCI_CPU_PWR_LVL : ℕ := 0

def isLocalStateRun (state : ℕ) : Bool := state == PSCI_LOCAL_STATE_RUN

def isLocalStateOff (P : Platform) (state : ℕ) : Bool :=
  decide (state > P.maxRetState) && decide (state ≤ P.maxOffState)

/-- `plat_local_state_type`, in the order of the enumeration. -/
inductive LocalStateType where
  | run
  | retn
  | off
  deriving DecidableEq, Repr

def LocalStateType.toNat : LocalStateType → ℕ
  | .run => 0
  | .retn => 1
  | .off => 2

def findLocalStateType (P : Platform) (state : ℕ) : LocalStateType :=
  if state ≠ 0 then
    if state > P.maxRetState then .off else .retn
  else .run

structure PowerState where
  pwrDomainState : ℕ → ℕ
  lastAtPwrlvl : ℕ

/-- The highest of the levels `0` to `n - 1` with a state that passes `p`. -/
def findHighestLvl (p : ℕ → Bool) (states : ℕ → ℕ) : ℕ → Option ℕ
  | 0 => none
  | n + 1 => if p (states n) then some n else findHighestLvl p states n

/-- `none` is `PSCI_INVALID_PWR_LVL`. -/
def psciFindMaxOffLvl (P : Platform) (info : PowerState) : Option ℕ :=
  findHighestLvl (isLocalStateOff P) info.pwrDomainState (P.maxPwrLvl + 1)

def psciFindTargetSuspendLvl (P : Platform) (info : PowerState) : Option ℕ :=
  findHighestLvl (fun st => !isLocalStateRun st) info.pwrDomainState (P.maxPwrLvl + 1)

def PSCI_E_SUCCESS : Int := 0
def PSCI_E_INVALID_PARAMS : Int := -2
def PSCI_E_DENIED : Int := -3
def PSCI_E_ALREADY_ON : Int := -4
def PSCI_E_ON_PENDING : Int := -5
def PSCI_E_INTERN_FAIL : Int := -6
def PSCI_E_INVALID_ADDRESS : Int := -9

/-- The loop of `psci_validate_suspend_req()` from level `n - 1` down. -/
def statesDeepen (P : Platform) (states : ℕ → ℕ) : ℕ → LocalStateType → Bool
  | 0, _ => true
  | n + 1, deepest =>
    if (findLocalStateType P (states n)).toNat < deepest.toNat then false
    else statesDeepen P states n (findLocalStateType P (states n))

def psciValidateSuspendReq (P : Platform) (info : PowerState) (isPowerDownState : Bool) : Int :=
  match psciFindTargetSuspendLvl P info with
  | none => PSCI_E_INVALID_PARAMS
  | some targetLvl =>
    if statesDeepen P info.pwrDomainState (targetLvl + 1) .run then
      let maxOffLvl := psciFindMaxOffLvl P info
      let maxRetnLvl := if some targetLvl ≠ maxOffLvl then some targetLvl else none
      if isPowerDownState = false ∧ (maxOffLvl ≠ none ∨ maxRetnLvl = none) then
        PSCI_E_INVALID_PARAMS
      else PSCI_E_SUCCESS
    else PSCI_E_INVALID_PARAMS

section Requests
variable {P : Platform} {info : PowerState} {p : ℕ → Bool} {states : ℕ → ℕ} {n l : ℕ}

theorem findHighestLvl_some (h : findHighestLvl p states n = some l) :
    l < n ∧ p (states l) = true ∧ ∀ k, l < k → k < n → p (states k) = false := by
  induction n with
  | zero => cases h
  | succ n ih =>
    rw [findHighestLvl] at h
    split at h
    · next hp =>
      cases h
      exact ⟨Nat.lt_succ_self _, hp, fun k h1 h2 => by omega⟩
    · next hp =>
      obtain ⟨h1, h2, h3⟩ := ih h
      refine ⟨by omega, h2, fun k hk hkn => ?_⟩
      by_cases hk' : k = n
      · subst hk'
        simpa using hp
      · exact h3 k hk (by omega)

theorem statesDeepen_ne_run {d : LocalStateType} (h : statesDeepen P states n d = true)
    (hd : d ≠ .run) : ∀ k < n, states k ≠ PSCI_LOCAL_STATE_RUN := by
  induction n generalizing d with
  | zero => exact fun k hk => absurd hk (Nat.not_lt_zero k)
  | succ n ih =>
    rw [statesDeepen] at h
    split at h
    · cases h
    next hge =>
    have hne : findLocalStateType P (states n) ≠ .run := by
      intro hc
      rw [hc] at hge
      cases d with
      | run => exact hd rfl
      | retn => exact hge (by decide)
      | off => exact hge (by decide)
    intro k hk
    by_cases hkn : k = n
    · subst hkn
      intro hc
      exact hne (by rw [hc]; rfl)
    · exact ih h hne k (by omega)

theorem psciValidateSuspendReq_success {isPowerDown : Bool} {lvl : ℕ}
    (h : psciValidateSuspendReq P info isPowerDown = PSCI_E_SUCCESS)
    (hlvl : psciFindTargetSuspendLvl P info = some lvl) :
    ∀ k ≤ lvl, info.pwrDomainState k ≠ PSCI_LOCAL_STATE_RUN := by
  have htop : info.pwrDomainState lvl ≠ PSCI_LOCAL_STATE_RUN := by
    have := (findHighestLvl_some hlvl).2.1
    simpa [isLocalStateRun] using this
  rw [psciValidateSuspendReq, hlvl] at h
  dsimp only at h
  split at h
  · next hdeep =>
    rw [statesDeepen] at hdeep
    split at hdeep
    · cases hdeep
    have hne : findLocalStateType P (info.pwrDomainState lvl) ≠ .run := by
      unfold findLocalStateType
      rw [if_pos (show info.pwrDomainState lvl ≠ 0 from htop)]
      split <;> decide
    intro k hk
    by_cases hkl : k = lvl
    · rw [hkl]
      exact htop
    · exact statesDeepen_ne_run hdeep hne k (by omega)
  · exact absurd h (by decide)

end Requests

end TrustedFirmware.Psci
