import Mathlib.Data.Fintype.Basic
import Mathlib.Logic.Function.Basic

/-! # SDEI events

A platform declares its private and its shared events in two arrays of maps. A private event has
an entry on every PE, a shared one has a single entry; the state of an entry follows
`sdei_state_table`. A dynamic map is bound to an interrupt at run time, the other maps that have
an interrupt are bound from the start. -/
namespace TrustedFirmware.Sdei
set_option autoImplicit false

/-! ## The handler state machine -/

/-- `sdei_state_t`: 'R'unning, 'E'nabled and re'G'istered. -/
inductive EvState where
  | reg_ | reG_ | rEg_ | rEG_ | Reg_ | ReG_ | REg_ | REG_
  deriving DecidableEq, Repr

namespace EvState

def registered : EvState → Bool
  | reG_ | rEG_ | ReG_ | REG_ => true
  | _ => false

def enabled : EvState → Bool
  | rEg_ | rEG_ | REg_ | REG_ => true
  | _ => false

def running : EvState → Bool
  | Reg_ | ReG_ | REg_ | REG_ => true
  | _ => false

def value (st : EvState) : Int :=
  (if st.registered then 1 else 0) + (if st.enabled then 2 else 0) + (if st.running then 4 else 0)

/-- A handler is not enabled without being registered. -/
def valid : EvState → Bool
  | rEg_ | REg_ => false
  | _ => true

end EvState

inductive SdeiAction where
  | register | release | enable | disable | unregister | routing | context | complete
  | completeResume | dispatch
  deriving DecidableEq, Repr

/-- An element of the table: `X___`, `NOP_` or the next state. -/
inductive Next where
  | invalid
  | nop
  | to (st : EvState)
  deriving DecidableEq, Repr

def sdeiStateTable : EvState → SdeiAction → Next
  | .reg_, .register => .to .reG_
  | .reg_, .release => .nop
  | .Reg_, .context => .nop
  | .Reg_, .complete | .Reg_, .completeResume => .to .reg_
  | .reG_, .enable => .to .rEG_
  | .reG_, .disable | .reG_, .routing => .nop
  | .reG_, .unregister => .to .reg_
  | .ReG_, .enable => .to .REG_
  | .ReG_, .disable | .ReG_, .context => .nop
  | .ReG_, .unregister => .to .Reg_
  | .ReG_, .complete | .ReG_, .completeResume => .to .reG_
  | .rEG_, .enable => .nop
  | .rEG_, .disable => .to .reG_
  | .rEG_, .unregister => .to .reg_
  | .rEG_, .dispatch => .to .REG_
  | .REG_, .enable | .REG_, .context => .nop
  | .REG_, .disable => .to .ReG_
  | .REG_, .unregister => .to .Reg_
  | .REG_, .complete | .REG_, .completeResume => .to .rEG_
  | _, _ => .invalid

/-- `can_sdei_state_trans()`: the state after the action, `none` where it is refused. -/
def canSdeiStateTrans (st : EvState) (act : SdeiAction) : Option EvState :=
  match sdeiStateTable st act with
  | .invalid => none
  | .nop => some st
  | .to next => some next

section Transitions

variable {st st' : EvState} {act : SdeiAction}

attribute [local simp] canSdeiStateTrans sdeiStateTable

theorem trans_registered (h : canSdeiStateTrans st act = some st') :
    st'.registered = match act with
      | .register => true
      | .unregister => false
      | _ => st.registered := by
  cases st <;> cases act <;> simp at h <;> subst h <;> rfl

theorem trans_running (h : canSdeiStateTrans st act = some st') :
    st'.running = match act with
      | .dispatch => true
      | .complete | .completeResume => false
      | _ => st.running := by
  cases st <;> cases act <;> simp at h <;> subst h <;> rfl

theorem trans_valid (h : canSdeiStateTrans st act = some st') : st'.valid = true := by
  cases st <;> cases act <;> simp at h <;> subst h <;> rfl

theorem register_from (h : canSdeiStateTrans st .register = some st') : st = .reg_ := by
  cases st <;> simp at h
  rfl

theorem unregister_from (h : canSdeiStateTrans st .unregister = some st') :
    st.registered = true := by
  cases st <;> simp at h <;> rfl

theorem dispatch_from (h : canSdeiStateTrans st .dispatch = some st') : st = .rEG_ := by
  cases st <;> simp at h
  rfl

theorem routing_same (h : canSdeiStateTrans st .routing = some st') : st' = st := by
  cases st <;> simp at h
  exact h.symm

theorem release_none : canSdeiStateTrans st .release = none ↔ st ≠ .reg_ := by
  cases st <;> simp

theorem eq_reg_ (hv : st.valid = true) (hg : st.registered = false) (hr : st.running = false) :
    st = .reg_ := by
  cases st <;> simp_all [EvState.valid, EvState.registered, EvState.running]

end Transitions

/-! ## What the platform declares -/

def SDEI_EVENT_0 : Int := 0
/-- The interrupt of a map that is not bound. -/
def SDEI_DYN_IRQ : ℕ := 0
def SDEI_REGF_RM_ANY : BitVec 64 := 0
def SDEI_REGF_RM_PE : BitVec 64 := 1
def SDEI_EINVAL : Int := -2
def SDEI_EDENY : Int := -3
def SDEI_EPEND : Int := -5
def SDEI_ENOMEM : Int := -10

def MPIDR_AFFINITY_MASK : BitVec 64 := 0xff00ffffff

/-- `MODE_EL1` and `MODE_EL2`. -/
inductive ClientEl where
  | el1
  | el2
  deriving DecidableEq, Repr

/-- The maps of the platform, `M` being the pointers to them, and what the dispatcher asks the
platform. The last fields are what `sdei_class_init()` and `CASSERT` check. -/
structure Platform (M : Type) (n : ℕ) where
  privateMaps : List M
  sharedMaps : List M
  evNum : M → Int
  intr : M → ℕ
  isEventPrivate : M → Bool
  isEventCritical : M → Bool
  isEventSignalable : M → Bool
  isMapDynamic : M → Bool
  isMapExplicit : M → Bool
  /-- `plat_ic_is_spi()` and `plat_ic_is_ppi()`. -/
  isSpi : ℕ → Bool
  isPpi : ℕ → Bool
  readMpidr : Fin n → BitVec 64
  isValidMpidr : BitVec 64 → Bool
  corePosByMpidr : BitVec 64 → Option (Fin n)
  validateEntryPoint : BitVec 64 → Bool
  clientEl : ClientEl
  /-- `create_spsr()` for the client's exception level. -/
  createSpsr : BitVec 64 → BitVec 64
  PLAT_SDEI_CRITICAL_PRI : ℕ
  PLAT_SDEI_NORMAL_PRI : ℕ
  ENABLE_ASSERTIONS : Bool
  DYNAMIC_WORKAROUND_CVE_2018_3639 : Bool
  private_of_mem : ∀ m ∈ privateMaps, isEventPrivate m = true
  shared_of_mem : ∀ m ∈ sharedMaps, isEventPrivate m = false
  dynamic_plain : ∀ m, isMapDynamic m = true → isMapExplicit m = false ∧ evNum m ≠ SDEI_EVENT_0
  sdei_critical_must_have_higher_priority : PLAT_SDEI_CRITICAL_PRI < PLAT_SDEI_NORMAL_PRI

section

variable {M : Type} {n : ℕ} (P : Platform M n)

def Platform.stops (asserted : Bool) : Bool := P.ENABLE_ASSERTIONS && !asserted

def Platform.sdeiEventPriority (m : M) : ℕ :=
  if P.isEventCritical m then P.PLAT_SDEI_CRITICAL_PRI else P.PLAT_SDEI_NORMAL_PRI

def Platform.findEventMap (evNum : Int) : Option M :=
  (P.privateMaps ++ P.sharedMaps).find? fun m => decide (P.evNum m = evNum)

def Platform.validateFlags (flags mpidr : BitVec 64) : Int :=
  if flags = SDEI_REGF_RM_PE then if P.isValidMpidr mpidr then 0 else SDEI_EINVAL
  else if flags = SDEI_REGF_RM_ANY then 0
  else SDEI_EINVAL

/-! ## The state -/

structure Entry where
  ep : BitVec 64
  arg : BitVec 64
  affinity : BitVec 64
  regFlags : BitVec 64
  state : EvState
  deriving DecidableEq, Repr

def clearEventEntries (se : Entry) : Entry :=
  { se with ep := 0, arg := 0, affinity := 0, regFlags := 0 }

/-- What changes in `sdei_ev_map_t`. -/
structure EvMap where
  intr : ℕ
  bound : Bool
  regCount : Int
  deriving DecidableEq, Repr

/-- An entry: of a PE in `sdei_private_event_table`, or in `sdei_shared_event_table`. -/
abbrev Slot (M : Type) (n : ℕ) := Option (Fin n) × M

/-- An interrupt of the controller: banked for each PE, or a shared one. -/
abbrev Line (n : ℕ) := Option (Fin n) × ℕ

/-- `get_event_entry()` on a PE. -/
def Platform.slot (p : Fin n) (m : M) : Slot M n := (if P.isEventPrivate m then some p else none, m)

/-- The interrupt a PE means by a number. -/
def Platform.line (p : Fin n) (intr : ℕ) : Line n := (if P.isSpi intr then none else some p, intr)

inductive IntrType where
  | ns
  | el3
  deriving DecidableEq, Repr

structure Gic (n : ℕ) where
  active : Line n → Bool
  intrType : Line n → IntrType
  enabled : Line n → Bool
  pending : Line n → Bool

/-- The Non-secure context, and the exception registers of the client's exception level. -/
structure NsContext where
  x : Fin 31 → BitVec 64
  elr : BitVec 64
  spsr : BitVec 64
  cve20183639Disable : BitVec 64
  elrElx : BitVec 64
  spsrElx : BitVec 64

/-- What `sdei_intr_handler()` and `sdei_dispatch_event()` go on with when the client completes
the event; an explicit dispatch has no interrupt. -/
structure Frame (M : Type) where
  map : M
  intr : Option ℕ
  deriving DecidableEq, Repr

structure DispatchContext (M : Type) where
  map : M
  x : Fin 18 → BitVec 64
  dispatchJmp : Frame M
  elr : BitVec 64
  spsr : BitVec 64
  disableCve20183639 : BitVec 64

inductive Phase (M : Type) where
  /-- It runs below EL3, or in EL3 outside of the dispatcher. -/
  | outside
  /-- It has acknowledged an interrupt of SDEI priority. -/
  | acknowledged (intr : ℕ)
  /-- The client has completed the event. -/
  | completed (frame : Frame M)
  deriving DecidableEq, Repr

/-- `sdei_cpu_state_t` and where the PE is; the top of the stack comes first. -/
structure CpuState (M : Type) where
  dispatchStack : List (DispatchContext M)
  peMasked : Bool
  pendingEnables : Bool
  phase : Phase M
  online : Bool

structure State (M : Type) (n : ℕ) where
  map : M → EvMap
  entry : Slot M n → Entry
  cpu : Fin n → CpuState M
  gic : Gic n
  ctx : Fin n → NsContext

variable {P}

def Platform.findEventMapByIntr (P : Platform M n) (s : State M n) (intr : ℕ) (shared : Bool) :
    Option M :=
  (if shared then P.sharedMaps else P.privateMaps).find? fun m => decide ((s.map m).intr = intr)

/-- The state after `sdei_init()`, with some PEs powered up. Static maps but event 0 and explicit
ones are bound. -/
def start (P : Platform M n) (gic : Gic n) (ctx : Fin n → NsContext) (online : Fin n → Bool) :
    State M n where
  map m :=
    { intr := P.intr m
      bound := decide (P.evNum m ≠ SDEI_EVENT_0) && !P.isMapDynamic m && !P.isMapExplicit m
      regCount := 0 }
  entry _ := ⟨0, 0, 0, 0, .reg_⟩
  cpu p := ⟨[], online p, false, .outside, online p⟩
  gic := gic
  ctx := ctx

end

end TrustedFirmware.Sdei
