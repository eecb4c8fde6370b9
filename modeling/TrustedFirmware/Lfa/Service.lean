import TrustedFirmware.Common

/-! # The live firmware activation service

The state of `lfa_main.c` and the functions behind LFA_PRIME, LFA_ACTIVATE and LFA_CANCEL.
What the platform and an activator answer is an argument of each function. Each call works
on the state that `lfa_lock` protects. -/
namespace TrustedFirmware.Lfa
open Libc
set_option autoImplicit false

def LFA_SUCCESS : Int := 0
def LFA_NOT_SUPPORTED : Int := -1
def LFA_BUSY : Int := -2
def LFA_AUTH_ERROR : Int := -3
def LFA_NO_MEMORY : Int := -4
def LFA_DEVICE_ERROR : Int := -6
def LFA_WRONG_STATE : Int := -7
def LFA_INVALID_PARAMETERS : Int := -8
def LFA_COMPONENT_WRONG_STATE : Int := -9
def LFA_ACTIVATION_FAILED : Int := -11

def LFA_INVALID_COMPONENT : ℕ := 0xffffffff
def LFA_CALL_AGAIN : ℕ := 1

/-! ## State -/

inductive PrimeStatus where
  | none
  | started
  | complete
  deriving DecidableEq, Repr

/-- `struct lfa_component_ops`: which operations are given, and the flags. The leading CPU of
`lfa_rmm_activate()` calls `lfa_reset_activation()`. -/
structure ComponentOps where
  prime : Bool
  activate : Bool
  cancel : Bool
  mayResetCpu : Bool
  cpuRendezvousRequired : Bool
  leaderResets : Bool
  deriving DecidableEq, Repr

def bl31Activator : ComponentOps where
  prime := true
  activate := true
  cancel := true
  mayResetCpu := true
  cpuRendezvousRequired := true
  leaderResets := false

def rmmActivator : ComponentOps where
  prime := true
  activate := true
  cancel := false
  mayResetCpu := false
  cpuRendezvousRequired := true
  leaderResets := true

/-- `plat_lfa_component_info_t`. -/
structure Component where
  activator : Option ComponentOps
  activationPending : Bool
  deriving DecidableEq, Repr

/-- `struct lfa_component_status`, without the image that only the activator of BL31 reads. -/
structure ComponentStatus where
  componentId : ℕ
  primeStatus : PrimeStatus
  reset : Bool
  cpuRendezvous : Bool
  deriving DecidableEq, Repr

structure Service where
  components : List Component
  current : ComponentStatus
  activationInProgress : Bool
  activationSkipCpuRendezvous : Bool
  activationUsers : ℕ
  activationFailed : Bool
  activationCancelLocked : Bool
  deriving DecidableEq, Repr

namespace Service
variable (s : Service) (id : ℕ)

def componentCount : ℕ := s.components.length

def activationPending : Bool := (s.components[id]?).any Component.activationPending

def activator : Option ComponentOps := (s.components[id]?).bind Component.activator

def setPending (pending : Bool) : Service :=
  { s with components := s.components.modify id fun c => { c with activationPending := pending } }

end Service

def lfaResetActivation (s : Service) : Service :=
  { s with
    current := { s.current with
      componentId := LFA_INVALID_COMPONENT, primeStatus := .none, cpuRendezvous := false }
    activationInProgress := false
    activationSkipCpuRendezvous := false
    activationUsers := 0
    activationFailed := false
    activationCancelLocked := false }

/-- The state after `lfa_setup()`, for the components of the platform. -/
def lfaSetup (components : List Component) : Service :=
  lfaResetActivation ⟨components, ⟨0, .none, false, false⟩, false, false, 0, false, false⟩

def lfaGetInventory (s : Service) (id : ℕ) (isPlatLfaActivationPending : Bool) : Service × Int :=
  if id ≥ s.componentCount then (s, LFA_INVALID_PARAMETERS)
  else (s.setPending id isPlatLfaActivationPending, LFA_SUCCESS)

/-! ## Cancel -/

structure CancelAnswers where
  cancel : Int
  platLfaCancel : Int
  deriving DecidableEq, Repr

def Service.cancelDenied (s : Service) : Bool :=
  s.activationInProgress && (s.activationCancelLocked || s.activationSkipCpuRendezvous)

/-- `none` where the code reads the operations of a component without an activator. -/
def lfaCancel (s : Service) (id : ℕ) (a : CancelAnswers) : Option (Service × Int) :=
  if s.componentCount = 0 then some (s, LFA_WRONG_STATE)
  else if id ≥ s.componentCount ∨ id ≠ s.current.componentId then some (s, LFA_INVALID_PARAMETERS)
  else if s.cancelDenied then some (s, LFA_BUSY)
  else match s.activator id with
    | none => none
    | some ops =>
      if ops.cancel ∧ a.cancel ≠ LFA_SUCCESS then some (s, LFA_BUSY)
      else if a.platLfaCancel ≠ LFA_SUCCESS then some (s, LFA_BUSY)
      else some (lfaResetActivation s, LFA_SUCCESS)

/-! ## Prime -/

def convertToLfaError (ret : Int) : Int :=
  if ret = 0 then LFA_SUCCESS
  else if ret = -EAUTH then LFA_AUTH_ERROR
  else if ret = -ENOMEM then LFA_NO_MEMORY
  else LFA_DEVICE_ERROR

structure PrimeAnswers where
  platLfaLoadAuthImage : Int
  prime : Int
  deriving DecidableEq, Repr

/-- The checks of `lfa_prime()` and its switch over the prime status. -/
def lfaPrimeBegin (s : Service) (id : ℕ) : Except Int (Service × ComponentOps) :=
  if id ≥ s.componentCount then .error LFA_INVALID_PARAMETERS
  else if s.activationPending id = false then .error LFA_WRONG_STATE
  else match s.activator id with
    | none => .error LFA_NOT_SUPPORTED
    | some ops =>
      match s.current.primeStatus with
      | .none => .ok ({ s with
          current := { s.current with componentId := id, primeStatus := .started } }, ops)
      | .started =>
        if s.current.componentId ≠ id then .error LFA_WRONG_STATE else .ok (s, ops)
      | .complete => .ok (s, ops)

def PrimeAnswers.succeeds (a : PrimeAnswers) (ops : ComponentOps) : Bool :=
  decide (a.platLfaLoadAuthImage = 0) && (!ops.prime || decide (a.prime = LFA_SUCCESS))

def lfaPrimeCompleted (s : Service) (ops : ComponentOps) : Service :=
  { s with
    current := { s.current with
      cpuRendezvous := true, primeStatus := .complete, reset := ops.mayResetCpu } }

/-- The return value and the flags of `lfa_prime()`. -/
def lfaPrimeReply (a : PrimeAnswers) (ops : ComponentOps) : Int × ℕ :=
  if a.platLfaLoadAuthImage = 0 then
    if ops.prime ∧ a.prime ≠ LFA_SUCCESS then (a.prime, 0) else (LFA_SUCCESS, 0)
  else if a.platLfaLoadAuthImage = -EAGAIN then (LFA_SUCCESS, LFA_CALL_AGAIN)
  else (convertToLfaError a.platLfaLoadAuthImage, 0)

def lfaPrime (s : Service) (id : ℕ) (a : PrimeAnswers) : Service × Int × ℕ :=
  match lfaPrimeBegin s id with
  | .error ret => (s, ret, 0)
  | .ok (s, ops) =>
    (if a.succeeds ops then lfaPrimeCompleted s ops else s, lfaPrimeReply a ops)

/-! ## Activate -/

structure PrepareAnswers where
  platLfaNotifyActivate : Int
  /-- `psci_num_cpus_running_on_safe()`. -/
  cpusRunning : ℕ
  deriving DecidableEq, Repr

/-- The first CPU decides the policy of the round. -/
def prepareFirst (s : Service) (ops : ComponentOps) (skip : Bool) : Service :=
  if s.activationInProgress then s
  else { s with
    activationFailed := false
    current := { s.current with
      cpuRendezvous := if ops.cpuRendezvousRequired = false ∧ skip = false then true
        else ops.cpuRendezvousRequired }
    activationSkipCpuRendezvous := false
    activationCancelLocked := false }

def prepareSkip (s : Service) (first : Bool) (ops : ComponentOps) (skip : Bool) :
    Service × Option Int :=
  if skip then
    if ops.cpuRendezvousRequired then (s, some LFA_INVALID_PARAMETERS)
    else if first = false ∧ s.activationSkipCpuRendezvous = false then (s, some LFA_BUSY)
    else ({ s with
        current := { s.current with cpuRendezvous := false }
        activationSkipCpuRendezvous := true }, none)
  else (s, none)

def countUser (s : Service) (cpusRunning : ℕ) : Service :=
  { s with
    activationInProgress := true
    activationUsers := (s.activationUsers + 1) % 2 ^ 32
    activationCancelLocked := s.activationCancelLocked ||
      decide ((s.activationUsers + 1) % 2 ^ 32 ≥ cpusRunning) }

/-- What happens once the component is known to be ready. -/
def prepareReady (s : Service) (ops : ComponentOps) (skip : Bool) (a : PrepareAnswers) :
    Service × Except Int ComponentOps :=
  let first := !s.activationInProgress
  match prepareSkip (prepareFirst s ops skip) first ops skip with
  | (s, some ret) => (s, .error ret)
  | (s, none) =>
    if first ∧ a.platLfaNotifyActivate ≠ 0 then (s, .error LFA_ACTIVATION_FAILED)
    else (countUser s a.cpusRunning, .ok ops)

def lfaActivatePrepare (s : Service) (id : ℕ) (skip : Bool) (a : PrepareAnswers) :
    Service × Except Int ComponentOps :=
  if id ≥ s.componentCount ∨ s.current.componentId ≠ id then (s, .error LFA_INVALID_PARAMETERS)
  else if s.activationPending id = false ∨ s.current.primeStatus ≠ .complete then
    (s, .error LFA_COMPONENT_WRONG_STATE)
  else match s.activator id with
    | none => (s, .error LFA_NOT_SUPPORTED)
    | some ops => prepareReady s ops skip a

/-- The part of LFA_ACTIVATE that enters with the lock held. A call that does not skip the
rendezvous is refused while an activation that skips it is in progress. -/
def lfaActivateEnter (s : Service) (id : ℕ) (skip : Bool) (a : PrepareAnswers) :
    Service × Except Int ComponentOps :=
  if skip = false ∧ s.activationSkipCpuRendezvous then (s, .error LFA_BUSY)
  else lfaActivatePrepare s id skip a

def lfaActivateFinish (s : Service) (id : ℕ) (activationComplete : Bool) : Service :=
  let s := { s with activationUsers := s.activationUsers - 1 }
  if activationComplete = false then s
  else if s.activationUsers = 0 then
    let s := { s with
      activationInProgress := false
      activationSkipCpuRendezvous := false
      activationCancelLocked := false }
    if s.activationFailed then s else s.setPending id false
  else s

/-- LFA_ACTIVATE behind the activator, which returned `ret`. -/
def lfaActivateReturned (s : Service) (id : ℕ) (ret : Int) : Service :=
  if ret = -EAGAIN then lfaActivateFinish s id false
  else lfaActivateFinish
    { s with activationFailed := s.activationFailed || decide (ret ≠ LFA_SUCCESS) } id true

/-! ## What the functions change -/

variable {s s' : Service} {id j : ℕ} {p skip : Bool} {ops : ComponentOps}

theorem setPending_activationPending (s : Service) (id j : ℕ) (p : Bool) :
    (s.setPending id p).activationPending j =
      if j = id ∧ j < s.componentCount then p else s.activationPending j := by
  simp only [Service.setPending, Service.activationPending, Service.componentCount,
    List.getElem?_modify]
  by_cases hj : id = j
  · subst hj
    by_cases hl : id < s.components.length
    · simp [hl]
    · simp [hl]
  · have hj' : ¬ j = id := fun h => hj h.symm
    simp [hj, hj']

/-- The end of LFA_ACTIVATE on one CPU, where the activator returned `ret`. -/
structure Returned (s s' : Service) (ret : Int) : Prop where
  current : s'.current = s.current
  users : s'.activationUsers = s.activationUsers - 1
  failed : s'.activationFailed =
    (s.activationFailed || decide (ret ≠ LFA_SUCCESS ∧ ret ≠ -EAGAIN))
  inProgress : s'.activationInProgress = false ↔
    s.activationInProgress = false ∨ (ret ≠ -EAGAIN ∧ s'.activationUsers = 0)
  pending : ∀ j, s'.activationPending j ≠ s.activationPending j →
    s'.activationUsers = 0 ∧ s'.activationFailed = false

theorem activateReturned_spec (s : Service) (id : ℕ) (ret : Int) :
    Returned s (lfaActivateReturned s id ret) ret := by
  rw [lfaActivateReturned]
  split
  · rename_i h
    exact ⟨rfl, rfl, by simp [h, lfaActivateFinish], by simp [h, lfaActivateFinish],
      fun j hj => absurd rfl hj⟩
  · rename_i h
    simp only [lfaActivateFinish, Bool.true_eq_false, if_false]
    split
    · rename_i hu
      split
      · exact ⟨rfl, rfl, by simp [h], by simp [h, hu], fun j hj => absurd rfl hj⟩
      · rename_i hf
        exact ⟨rfl, rfl, by simp [h, Service.setPending], by simp [h, hu, Service.setPending],
          fun _ _ => ⟨hu, Bool.eq_false_iff.mpr hf⟩⟩
    · rename_i hu
      exact ⟨rfl, rfl, by simp [h], by simp [hu], fun j hj => absurd rfl hj⟩

theorem cancel_cases {u u' : Service} {id : ℕ} {a : CancelAnswers} {ret : Int}
    (h : lfaCancel u id a = some (u', ret)) :
    (u' = u ∧ ret ≠ LFA_SUCCESS) ∨ (u' = lfaResetActivation u ∧ id < u.componentCount ∧
      id = u.current.componentId ∧ u.cancelDenied = false) := by
  have hrefused : ∀ r : Int, r ≠ LFA_SUCCESS → some (u, r) = some (u', ret) →
      u' = u ∧ ret ≠ LFA_SUCCESS := by
    intro r hr h
    simp only [Option.some.injEq, Prod.mk.injEq] at h
    exact ⟨h.1.symm, h.2 ▸ hr⟩
  rw [lfaCancel] at h
  split at h
  · exact Or.inl (hrefused _ (by decide) h)
  split at h
  · exact Or.inl (hrefused _ (by decide) h)
  rename_i hid
  split at h
  · exact Or.inl (hrefused _ (by decide) h)
  rename_i hden
  split at h
  · cases h
  split at h
  · exact Or.inl (hrefused _ (by decide) h)
  split at h
  · exact Or.inl (hrefused _ (by decide) h)
  · simp only [Option.some.injEq, Prod.mk.injEq] at h
    rw [not_or, not_not] at hid
    exact Or.inr ⟨h.1.symm, by omega, hid.2, by simpa using hden⟩

structure SamePrime (s s' : Service) : Prop where
  components : s'.components = s.components
  componentId : s'.current.componentId = s.current.componentId
  primeStatus : s'.current.primeStatus = s.current.primeStatus

theorem SamePrime.activationPending (h : SamePrime s s') :
    s'.activationPending id = s.activationPending id := by
  rw [Service.activationPending, h.components, Service.activationPending]

structure EnterRefused (s s' : Service) : Prop extends SamePrime s s' where
  users : s'.activationUsers = s.activationUsers
  inProgress : s'.activationInProgress = s.activationInProgress
  failed : s'.activationFailed = (s.activationInProgress && s.activationFailed) ∨
    s'.activationFailed = s.activationFailed

/-- A call of LFA_ACTIVATE that goes on to the activator of `id`. -/
structure Entered (s s' : Service) (id : ℕ) (ops : ComponentOps) : Prop extends SamePrime s s' where
  activator : s.activator id = some ops
  current : s.current.componentId = id
  pending : s.activationPending id = true
  complete : s.current.primeStatus = .complete
  users : s'.activationUsers = (s.activationUsers + 1) % 2 ^ 32
  inProgress : s'.activationInProgress = true
  failed : s'.activationFailed = (s.activationInProgress && s.activationFailed)

theorem prepareFirst_same (s : Service) (ops : ComponentOps) (skip : Bool) :
    SamePrime s (prepareFirst s ops skip) := by
  rw [prepareFirst]
  split
  · exact ⟨rfl, rfl, rfl⟩
  · exact ⟨rfl, rfl, rfl⟩

theorem prepareFirst_users (s : Service) (ops : ComponentOps) (skip : Bool) :
    (prepareFirst s ops skip).activationUsers = s.activationUsers ∧
    (prepareFirst s ops skip).activationInProgress = s.activationInProgress ∧
    (prepareFirst s ops skip).activationFailed =
      (s.activationInProgress && s.activationFailed) := by
  rw [prepareFirst]
  split
  · rename_i h
    exact ⟨rfl, rfl, by simp [h]⟩
  · rename_i h
    exact ⟨rfl, rfl, by simp [h]⟩

theorem prepareSkip_eq (s : Service) (first : Bool) (ops : ComponentOps) (skip : Bool) :
    SamePrime s (prepareSkip s first ops skip).1 ∧
    (prepareSkip s first ops skip).1.activationUsers = s.activationUsers ∧
    (prepareSkip s first ops skip).1.activationInProgress = s.activationInProgress ∧
    (prepareSkip s first ops skip).1.activationFailed = s.activationFailed := by
  rw [prepareSkip]
  split
  · split
    · exact ⟨⟨rfl, rfl, rfl⟩, rfl, rfl, rfl⟩
    · split
      · exact ⟨⟨rfl, rfl, rfl⟩, rfl, rfl, rfl⟩
      · exact ⟨⟨rfl, rfl, rfl⟩, rfl, rfl, rfl⟩
  · exact ⟨⟨rfl, rfl, rfl⟩, rfl, rfl, rfl⟩

theorem prepareReady_cases {a : PrepareAnswers} {r : Except Int ComponentOps}
    (hact : s.activator id = some ops) (hid : s.current.componentId = id)
    (hpend : s.activationPending id = true) (hcomp : s.current.primeStatus = .complete)
    (h : prepareReady s ops skip a = (s', r)) :
    (∃ ret, r = .error ret ∧ EnterRefused s s') ∨ (r = .ok ops ∧ Entered s s' id ops) := by
  have hsame := prepareFirst_same s ops skip
  obtain ⟨hu, hp, hf⟩ := prepareFirst_users s ops skip
  obtain ⟨hsame', hu', hp', hf'⟩ :=
    prepareSkip_eq (prepareFirst s ops skip) (!s.activationInProgress) ops skip
  rw [prepareReady] at h
  rcases hskip : prepareSkip (prepareFirst s ops skip) (!s.activationInProgress) ops skip with ⟨u, o⟩
  rw [hskip] at hsame' hu' hp' hf'
  simp only [hskip] at h
  have hall : SamePrime s u := ⟨hsame'.components.trans hsame.components,
    hsame'.componentId.trans hsame.componentId, hsame'.primeStatus.trans hsame.primeStatus⟩
  have href : EnterRefused s u :=
    ⟨hall, hu'.trans hu, hp'.trans hp, Or.inl (hf'.trans hf)⟩
  cases o with
  | some ret =>
    simp only [Prod.mk.injEq] at h
    exact Or.inl ⟨ret, h.2.symm, h.1 ▸ href⟩
  | none =>
    simp only at h
    split at h
    · simp only [Prod.mk.injEq] at h
      exact Or.inl ⟨_, h.2.symm, h.1 ▸ href⟩
    · simp only [Prod.mk.injEq] at h
      refine Or.inr ⟨h.2.symm, h.1 ▸ ?_⟩
      have husers : (countUser u a.cpusRunning).activationUsers =
          (s.activationUsers + 1) % 2 ^ 32 := by
        rw [countUser, hu'.trans hu]
      exact ⟨⟨hall.components, hall.componentId, hall.primeStatus⟩, hact, hid, hpend, hcomp, husers,
        rfl, hf'.trans hf⟩

theorem activateEnter_cases {a : PrepareAnswers} {r : Except Int ComponentOps}
    (h : lfaActivateEnter s id skip a = (s', r)) :
    (∃ ret, r = .error ret ∧ EnterRefused s s') ∨ ∃ ops, r = .ok ops ∧ Entered s s' id ops := by
  have hrefused : ∀ ret, (s, Except.error ret) = (s', r) →
      (∃ ret, r = .error ret ∧ EnterRefused s s') ∨ ∃ ops, r = .ok ops ∧ Entered s s' id ops := by
    intro ret h
    simp only [Prod.mk.injEq] at h
    exact Or.inl ⟨ret, h.2.symm, h.1 ▸ ⟨⟨rfl, rfl, rfl⟩, rfl, rfl, Or.inr rfl⟩⟩
  rw [lfaActivateEnter] at h
  split at h
  · exact hrefused _ h
  rw [lfaActivatePrepare] at h
  split at h
  · exact hrefused _ h
  rename_i hid
  split at h
  · exact hrefused _ h
  rename_i hready
  have hid' : s.current.componentId = id := not_not.mp fun hne => hid (Or.inr hne)
  have hpend : s.activationPending id = true := by
    cases hb : s.activationPending id with
    | true => rfl
    | false => exact absurd (Or.inl hb) hready
  have hcomp : s.current.primeStatus = .complete := not_not.mp fun hne => hready (Or.inr hne)
  cases hact : s.activator id with
  | none =>
    rw [hact] at h
    exact hrefused _ h
  | some ops =>
    rw [hact] at h
    rcases prepareReady_cases hact hid' hpend hcomp h with hr | hr
    · exact Or.inl hr
    · exact Or.inr ⟨ops, hr⟩

end TrustedFirmware.Lfa
