import TrustedFirmware.Psci.Coordination
import TrustedFirmware.Psci.Validation
import TrustedFirmware.Foundations.Runs

/-! # Calls and wake-ups

CPU_ON, CPU_OFF, CPU_SUSPEND and SET_SUSPEND_MODE, the warm boot path and the return
from a low-power state. Each is what its CPU does while it holds the PSCI locks. -/
namespace TrustedFirmware.Psci
open Runs
set_option autoImplicit false

/-- A request as the platform's `validate_power_state` hook lets it through: it passes
`psci_validate_suspend_req()` and stays within the levels of CPU_SUSPEND. -/
structure SuspendReq (P : Platform) where
  info : PowerState
  isPowerDownState : Bool
  valid : psciValidateSuspendReq P info isPowerDownState = PSCI_E_SUCCESS
  lvl_le : P.osInitMode = true → ∀ lvl, psciFindTargetSuspendLvl P info = some lvl →
    lvl ≤ P.maxCpuSuspendPwrLvl

structure SuspendHooks where
  entryPointValid : Bool
  interruptPending : Bool
  /-- The result of `pwr_domain_validate_suspend`. -/
  validateSuspend : Int

/-! ## CPU_ON and the warm boot -/

def psciCpuOnStart (P : Platform) (targetIdx : ℕ) (platFails : Bool) (s : PsciState) :
    Int × PsciState :=
  if targetIdx ≥ P.coreCount then (PSCI_E_INVALID_PARAMS, s)
  else match s.affInfoState targetIdx with
    | .on => (PSCI_E_ALREADY_ON, s)
    | .onPending => (PSCI_E_ON_PENDING, s)
    | .off =>
      if platFails then (PSCI_E_INTERN_FAIL, (s.setAff targetIdx .onPending).setAff targetIdx .off)
      else (PSCI_E_SUCCESS, s.setAff targetIdx .onPending)

/-- The part of `psci_cpu_suspend_to_powerdown_finish()` that matters here; `none` if its
assertion fails. -/
def psciCpuSuspendToPowerdownFinish (P : Platform) (cpuIdx : ℕ) (states : ℕ → ℕ) (s : PsciState) :
    Option PsciState :=
  if s.affInfoState cpuIdx = .on ∧ isLocalStateOff P (states PSCI_CPU_PWR_LVL) = true then
    some (s.setSuspendPwrlvl cpuIdx P.maxPwrLvl)
  else none

def psciWarmbootEntrypoint (P : Platform) (cpuIdx : ℕ) (s : PsciState) : Option PsciState :=
  let endPwrlvl := s.targetPwrlvl cpuIdx
  if s.affInfoState cpuIdx = .off ∨ endPwrlvl > P.maxPwrLvl then none
  else if s.affInfoState cpuIdx = .onPending then
    some ((psciSetPwrDomainsToRun P cpuIdx endPwrlvl s).setSleep cpuIdx none)
  else
    let states := psciGetTargetLocalPwrStates P s cpuIdx endPwrlvl
    if psciFindMaxOffLvl P ⟨states, 0⟩ = none then none
    else (psciCpuSuspendToPowerdownFinish P cpuIdx states s).map fun s =>
      (psciSetPwrDomainsToRun P cpuIdx endPwrlvl s).setSleep cpuIdx none

/-! ## CPU_OFF -/

/-- `denied` is the answer of the platform or of the secure payload. -/
def psciDoCpuOff (P : Platform) (cpuIdx : ℕ) (denied : Bool) (s : PsciState) : Int × PsciState :=
  if denied then (PSCI_E_DENIED, s)
  else
    let r := psciDoStateCoordination P cpuIdx P.maxPwrLvl (fun _ => P.maxOffState) s
    (PSCI_E_SUCCESS,
      (psciSetTargetLocalPwrStates P cpuIdx P.maxPwrLvl r.1 r.2).setAff cpuIdx .off)

/-! ## CPU_SUSPEND -/

/-- Coordination by mode: the return value, the states to enter and the new state. -/
def suspendCoordination (P : Platform) (cpuIdx endPwrlvl : ℕ) (info : PowerState) (s : PsciState) :
    Option (Int × (ℕ → ℕ) × PsciState) :=
  if P.osInitMode = true ∧ s.suspendMode = .osInit then
    (psciValidateStateCoordination P cpuIdx endPwrlvl info s).map fun r =>
      (r.1, info.pwrDomainState, r.2)
  else some (PSCI_E_SUCCESS, psciDoStateCoordination P cpuIdx endPwrlvl info.pwrDomainState s)

/-- The target level kept for the finisher by `psci_suspend_to_pwrdown_start()`. -/
def suspendPwrlvl (P : Platform) (endPwrlvl : ℕ) (s : PsciState) : ℕ :=
  if P.osInitMode = true ∧ s.suspendMode = .osInit then P.maxCpuSuspendPwrLvl else endPwrlvl

/-- The second half of `psci_cpu_suspend_start()`, up to the low-power state. -/
def enterSuspend (P : Platform) (cpuIdx endPwrlvl : ℕ) (isPowerDownState : Bool) (states : ℕ → ℕ)
    (s : PsciState) : PsciState :=
  let s := psciSetTargetLocalPwrStates P cpuIdx endPwrlvl states s
  let s := if isPowerDownState then s.setSuspendPwrlvl cpuIdx (suspendPwrlvl P endPwrlvl s) else s
  s.setSleep cpuIdx (some (.suspended endPwrlvl isPowerDownState s.suspendMode))

def psciCpuSuspendStart (P : Platform) (cpuIdx endPwrlvl : ℕ) (info : PowerState)
    (isPowerDownState : Bool) (hooks : SuspendHooks) (s : PsciState) : Option (Int × PsciState) :=
  if hooks.interruptPending then some (PSCI_E_SUCCESS, s)
  else (suspendCoordination P cpuIdx endPwrlvl info s).map fun (rc, states, s) =>
    if rc ≠ PSCI_E_SUCCESS then (rc, s)
    else if P.osInitMode = true ∧ hooks.validateSuspend ≠ PSCI_E_SUCCESS then
      (hooks.validateSuspend, psciSetPwrDomainsToRun P cpuIdx P.maxCpuSuspendPwrLvl s)
    else (PSCI_E_SUCCESS, enterSuspend P cpuIdx endPwrlvl isPowerDownState states s)

def psciCpuSuspend (P : Platform) (cpuIdx : ℕ) (req : SuspendReq P) (hooks : SuspendHooks)
    (s : PsciState) : Option (Int × PsciState) :=
  match psciFindTargetSuspendLvl P req.info with
  | none => none
  | some targetPwrlvl =>
    if req.isPowerDownState = false ∧ targetPwrlvl = PSCI_CPU_PWR_LVL then
      if P.cpuStandby then
        some (PSCI_E_SUCCESS, (s.setCpuLocalState cpuIdx
          (req.info.pwrDomainState PSCI_CPU_PWR_LVL)).setSleep cpuIdx (some .standby))
      else some (PSCI_E_INVALID_PARAMS, s)
    else if req.isPowerDownState = true ∧ hooks.entryPointValid = false then
      some (PSCI_E_INVALID_ADDRESS, s)
    else psciCpuSuspendStart P cpuIdx targetPwrlvl req.info req.isPowerDownState hooks s

/-- A wake-up inside the call: the rest of `psci_cpu_suspend()` after the low-power state. -/
def wakeInCall (P : Platform) (cpuIdx : ℕ) (s : PsciState) : Option PsciState :=
  match s.sleep cpuIdx with
  | none => none
  | some .standby => some ((s.setCpuLocalState cpuIdx PSCI_LOCAL_STATE_RUN).setSleep cpuIdx none)
  | some (.suspended endPwrlvl isPowerDownState _) =>
    let states := psciGetTargetLocalPwrStates P s cpuIdx endPwrlvl
    let finished := if isPowerDownState then psciCpuSuspendToPowerdownFinish P cpuIdx states s
      else some (s.setSuspendPwrlvl cpuIdx P.maxPwrLvl)
    finished.map fun s => (psciSetPwrDomainsToRun P cpuIdx endPwrlvl s).setSleep cpuIdx none

/-! ## SET_SUSPEND_MODE -/

def psciIsLastOnCpu (P : Platform) (s : PsciState) (thisCore : ℕ) : Bool :=
  decide (∀ c < P.coreCount, c ≠ thisCore → s.affInfoState c = .off)

def psciAreAllCpusOn (P : Platform) (s : PsciState) : Bool :=
  decide (∀ c < P.coreCount, s.affInfoState c ≠ .off)

def psciSetSuspendMode (P : Platform) (thisCore : ℕ) (mode : SuspendMode) (s : PsciState) :
    Int × PsciState :=
  if s.suspendMode = mode then (PSCI_E_SUCCESS, s)
  else if mode = .platCoord ∧ psciIsLastOnCpu P s thisCore = false then (PSCI_E_DENIED, s)
  else if mode = .osInit ∧ (psciAreAllCpusOn P s || psciIsLastOnCpu P s thisCore) = false then
    (PSCI_E_DENIED, s)
  else (PSCI_E_SUCCESS, { s with suspendMode := mode })

/-! ## Steps -/

def Running (s : PsciState) (c : ℕ) : Prop := s.affInfoState c = .on ∧ s.sleep c = none

instance (s : PsciState) (c : ℕ) : Decidable (Running s c) := inferInstanceAs (Decidable (_ ∧ _))

def Resettable (s : PsciState) (c : ℕ) : Prop :=
  s.affInfoState c = .onPending ∨ ∃ endPwrlvl mode, s.sleep c = some (.suspended endPwrlvl true mode)

inductive Action (P : Platform) where
  | cpuOn (caller target : ℕ) (platFails : Bool)
  | warmBoot (cpu : ℕ)
  | cpuOff (cpu : ℕ) (denied : Bool)
  | cpuSuspend (cpu : ℕ) (req : SuspendReq P) (hooks : SuspendHooks)
  | wake (cpu : ℕ)
  | setSuspendMode (cpu : ℕ) (mode : SuspendMode)

/-- One step of the system. A step is made by a CPU of the platform; a call by one that runs. -/
def Steps (P : Platform) (s : PsciState) : Action P → PsciState → Prop
  | .cpuOn caller target platFails, s' =>
    caller < P.coreCount ∧ Running s caller ∧ s' = (psciCpuOnStart P target platFails s).2
  | .warmBoot cpu, s' =>
    cpu < P.coreCount ∧ Resettable s cpu ∧ psciWarmbootEntrypoint P cpu s = some s'
  | .cpuOff cpu denied, s' =>
    cpu < P.coreCount ∧ Running s cpu ∧ s' = (psciDoCpuOff P cpu denied s).2
  | .cpuSuspend cpu req hooks, s' =>
    cpu < P.coreCount ∧ Running s cpu ∧ ∃ rc, psciCpuSuspend P cpu req hooks s = some (rc, s')
  | .wake cpu, s' => cpu < P.coreCount ∧ wakeInCall P cpu s = some s'
  | .setSuspendMode cpu mode, s' =>
    cpu < P.coreCount ∧ P.osInitMode = true ∧ Running s cpu ∧
      s' = (psciSetSuspendMode P cpu mode s).2

/-- After `psci_setup()` on the boot CPU. -/
def initialState (P : Platform) (bootCpu : ℕ) : PsciState :=
  psciSetPwrDomainsToRun P bootCpu P.maxPwrLvl
    { affInfoState := fun _ => .off
      targetPwrlvl := fun _ => P.maxPwrLvl
      cpuLocalState := fun _ => P.maxOffState
      nodeLocalState := fun _ => P.maxOffState
      reqLocalPwrStates := fun _ _ => P.maxOffState
      suspendMode := .platCoord
      sleep := fun _ => none }

end TrustedFirmware.Psci
