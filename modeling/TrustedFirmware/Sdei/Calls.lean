import TrustedFirmware.Sdei.Events

/-! # The calls of an SDEI client

The functions of `sdei_main.c` as one PE executes them. Each of those that change a map hold its
lock throughout, so a call is one step; a reset is a sequence of such steps. `none` stands for a
failed assertion, or for a call that does not return. -/
namespace TrustedFirmware.Sdei
set_option autoImplicit false

variable {M : Type} [DecidableEq M] {n : ℕ}

/-! ## Writes -/

namespace Gic

def disableInterrupt (g : Gic n) (l : Line n) : Gic n :=
  { g with enabled := Function.update g.enabled l false }

def enableInterrupt (g : Gic n) (l : Line n) : Gic n :=
  { g with enabled := Function.update g.enabled l true }

def clearInterruptPending (g : Gic n) (l : Line n) : Gic n :=
  { g with pending := Function.update g.pending l false }

def setInterruptPending (g : Gic n) (l : Line n) : Gic n :=
  { g with pending := Function.update g.pending l true }

def setInterruptType (g : Gic n) (l : Line n) (t : IntrType) : Gic n :=
  { g with intrType := Function.update g.intrType l t }

/-- `plat_ic_acknowledge_interrupt()`: the interrupt goes from pending to active. -/
def acknowledgeInterrupt (g : Gic n) (l : Line n) : Gic n :=
  { g with active := Function.update g.active l true, pending := Function.update g.pending l false }

def endOfInterrupt (g : Gic n) (l : Line n) : Gic n :=
  { g with active := Function.update g.active l false }

end Gic

namespace State

variable (s : State M n)

def setMap (m : M) (e : EvMap) : State M n := { s with map := Function.update s.map m e }

def setEntry (sl : Slot M n) (e : Entry) : State M n :=
  { s with entry := Function.update s.entry sl e }

def setState (sl : Slot M n) (st : EvState) : State M n :=
  s.setEntry sl { s.entry sl with state := st }

def setCpu (p : Fin n) (c : CpuState M) : State M n := { s with cpu := Function.update s.cpu p c }

def setGic (g : Gic n) : State M n := { s with gic := g }

def setCtx (p : Fin n) (c : NsContext) : State M n := { s with ctx := Function.update s.ctx p c }

end State

/-! ## Registering -/

def takeInterrupt (g : Gic n) (l : Line n) (evNum : Int) : Gic n :=
  let g := g.disableInterrupt l
  let g := if evNum ≠ SDEI_EVENT_0 then g.clearInterruptPending l else g
  g.setInterruptType l .el3

/-- The interrupt of a bound map is given back, disabled. -/
def returnInterrupt (g : Gic n) (l : Line n) (evNum : Int) : Gic n :=
  let g := g.disableInterrupt l
  let g := if evNum ≠ SDEI_EVENT_0 then g.clearInterruptPending l else g
  g.setInterruptType l .ns

@[simp] theorem takeInterrupt_active (g : Gic n) (l : Line n) (evNum : Int) :
    (takeInterrupt g l evNum).active = g.active := by
  unfold takeInterrupt
  by_cases h : evNum = SDEI_EVENT_0 <;> simp [h, Gic.disableInterrupt, Gic.clearInterruptPending,
    Gic.setInterruptType]

@[simp] theorem returnInterrupt_active (g : Gic n) (l : Line n) (evNum : Int) :
    (returnInterrupt g l evNum).active = g.active := by
  unfold returnInterrupt
  by_cases h : evNum = SDEI_EVENT_0 <;> simp [h, Gic.disableInterrupt, Gic.clearInterruptPending,
    Gic.setInterruptType]

variable (P : Platform M n) (s : State M n) (p : Fin n)

/-- The assertions on the count, once for `sdei_event_register()` and once for
`sdei_event_unregister()`. -/
def countAsserted (m : M) (count : Int) : Bool :=
  if P.isEventPrivate m then decide (0 ≤ count) else decide (count = 0)

def sdeiEventRegister (evNum : Int) (ep arg flags mpidr : BitVec 64) : Option (State M n × Int) :=
  if ep = 0 ∨ P.validateEntryPoint ep = false then some (s, SDEI_EINVAL)
  else if P.validateFlags flags mpidr ≠ 0 then some (s, P.validateFlags flags mpidr)
  else match P.findEventMap evNum with
    | none => some (s, SDEI_EINVAL)
    | some m =>
      -- A private event always targets the PE.
      let regFlags := if P.isEventPrivate m then SDEI_REGF_RM_PE else flags
      let affinity := if P.isEventPrivate m then P.readMpidr p else mpidr
      let l := P.line p (s.map m).intr
      -- The fallback reinstates the state, so nothing is written before the checks are made.
      match canSdeiStateTrans (s.entry (P.slot p m)).state .register with
      | none => some (s, SDEI_EDENY)
      | some st =>
        if P.isMapDynamic m && !(s.map m).bound then some (s, SDEI_EDENY)
        else if P.stops (countAsserted P m (s.map m).regCount) then none
        else if (s.map m).bound && s.gic.active l then some (s, SDEI_EDENY)
        else if (s.map m).bound && decide (s.gic.intrType l ≠ .ns) then some (s, SDEI_EDENY)
        else
          let s := s.setGic (if (s.map m).bound then takeInterrupt s.gic l evNum else s.gic)
          let s := s.setEntry (P.slot p m) ⟨ep, arg, affinity &&& MPIDR_AFFINITY_MASK, regFlags, st⟩
          some (s.setMap m { s.map m with regCount := (s.map m).regCount + 1 }, 0)

def sdeiEventUnregister (evNum : Int) : Option (State M n × Int) :=
  match P.findEventMap evNum with
  | none => some (s, SDEI_EINVAL)
  | some m =>
    let se := s.entry (P.slot p m)
    let l := P.line p (s.map m).intr
    match canSdeiStateTrans se.state .unregister with
    | none => some (s, if se.state.running then SDEI_EPEND else SDEI_EDENY)
    | some st =>
      let count := (s.map m).regCount - 1
      if P.stops (countAsserted P m count) then none
      else if (s.map m).bound && P.stops (decide (s.gic.intrType l = .el3)) then none
      else
        let s := s.setMap m { s.map m with regCount := count }
        let s := s.setGic (if (s.map m).bound then returnInterrupt s.gic l evNum else s.gic)
        some (s.setEntry (P.slot p m) (clearEventEntries { se with state := st }),
          if st.running then SDEI_EPEND else 0)

/-! ## Binding -/

/-- The second half of the loop in `sdei_interrupt_bind()`. A free map that another PE binds in
the meantime is tried again; within one step that does not happen. -/
def bindFree (intrNum : ℕ) : Option (State M n × Int) :=
  match P.findEventMapByIntr s SDEI_DYN_IRQ (P.isSpi intrNum) with
  | none => some (s, SDEI_ENOMEM)
  | some m =>
    if P.isMapDynamic m = false then some (s, SDEI_ENOMEM)
    else if s.gic.intrType (P.line p intrNum) ≠ .ns then some (s, SDEI_EDENY)
    else if (s.map m).bound then none
    else some (s.setMap m { s.map m with intr := intrNum, bound := true }, P.evNum m)

def sdeiInterruptBind (intrNum : ℕ) : Option (State M n × Int) :=
  if P.isPpi intrNum = false ∧ P.isSpi intrNum = false then some (s, SDEI_EINVAL)
  else match P.findEventMapByIntr s intrNum (P.isSpi intrNum) with
    | none => bindFree P s p intrNum
    | some m =>
      if P.isMapDynamic m = false then some (s, SDEI_EINVAL)
      else if (s.map m).bound then some (s, P.evNum m)
      else bindFree P s p intrNum

def sdeiInterruptRelease (evNum : Int) : State M n × Int :=
  match P.findEventMap evNum with
  | none => (s, SDEI_EINVAL)
  | some m =>
    if P.isMapDynamic m = false then (s, SDEI_EINVAL)
    else if (s.map m).regCount ≠ 0 then (s, SDEI_EDENY)
    else if canSdeiStateTrans (s.entry (P.slot p m)).state .release = none then (s, SDEI_EDENY)
    else if (s.map m).bound = false then (s, SDEI_EINVAL)
    else if s.gic.active (P.line p (s.map m).intr) then (s, SDEI_EDENY)
    else (s.setMap m { s.map m with intr := SDEI_DYN_IRQ, bound := false }, 0)

/-! ## Resets -/

/-- The loop over one of the arrays in `sdei_private_reset()` and `sdei_shared_reset()`. -/
def unregisterAll : List M → State M n → Int → Option (State M n × Int)
  | [], s, finalRet => some (s, finalRet)
  | m :: ms, s, finalRet =>
    match sdeiEventUnregister P s p (P.evNum m) with
    | none => none
    | some (s, ret) =>
      unregisterAll ms s (if ret = SDEI_EPEND ∧ finalRet = 0 then SDEI_EDENY else finalRet)

/-- The loop of `sdei_shared_reset()` that releases what is bound. -/
def releaseAll : List M → State M n → Int → State M n × Int
  | [], s, finalRet => (s, finalRet)
  | m :: ms, s, finalRet =>
    if P.isMapDynamic m && (s.map m).bound then
      let r := sdeiInterruptRelease P s p (P.evNum m)
      releaseAll ms r.1 (if r.2 ≠ 0 ∧ finalRet = 0 then r.2 else finalRet)
    else releaseAll ms s finalRet

def sdeiPrivateReset : Option (State M n × Int) := unregisterAll P p P.privateMaps s 0

def sdeiSharedReset : Option (State M n × Int) :=
  match unregisterAll P p P.sharedMaps s 0 with
  | none => none
  | some (s, finalRet) =>
    if finalRet ≠ 0 then some (s, finalRet)
    else some (releaseAll P p (P.privateMaps ++ P.sharedMaps) s 0)

/-! ## The other calls -/

/-- `sdei_event_enable()` and `sdei_event_disable()`: the interrupt of a bound map follows a change
of the state. -/
def sdeiEventSet (act : SdeiAction) (write : Gic n → Line n → Gic n) (evNum : Int) :
    State M n × Int :=
  match P.findEventMap evNum with
  | none => (s, SDEI_EINVAL)
  | some m =>
    let before := (s.entry (P.slot p m)).state
    match canSdeiStateTrans before act with
    | none => (s, SDEI_EDENY)
    | some after =>
      let s := s.setState (P.slot p m) after
      (s.setGic (if (s.map m).bound && decide (before.enabled ≠ after.enabled) then
        write s.gic (P.line p (s.map m).intr) else s.gic), 0)

def sdeiEventEnable (evNum : Int) : State M n × Int :=
  sdeiEventSet P s p .enable Gic.enableInterrupt evNum

def sdeiEventDisable (evNum : Int) : State M n × Int :=
  sdeiEventSet P s p .disable Gic.disableInterrupt evNum

def sdeiEventRoutingSet (evNum : Int) (flags mpidr : BitVec 64) : State M n × Int :=
  if P.validateFlags flags mpidr ≠ 0 then (s, P.validateFlags flags mpidr)
  else match P.findEventMap evNum with
    | none => (s, SDEI_EINVAL)
    | some m =>
      let se := s.entry (P.slot p m)
      if P.isEventPrivate m then (s, SDEI_EINVAL)
      else if (s.map m).bound = false then (s, SDEI_EINVAL)
      else match canSdeiStateTrans se.state .routing with
        | none => (s, SDEI_EDENY)
        | some st =>
          (s.setEntry (P.slot p m)
            { se with
              state := st
              regFlags := flags
              affinity :=
                if flags = SDEI_REGF_RM_PE then mpidr &&& MPIDR_AFFINITY_MASK else se.affinity }, 0)

/-- `info` of SDEI_EVENT_GET_INFO. -/
inductive Info where
  | evType | evNotSignaled | evPriority | evRoutingMode | evRoutingAff
  deriving DecidableEq, Repr

def sdeiEventGetInfo (evNum : Int) (info : Option Info) : Int :=
  match P.findEventMap evNum with
  | none => SDEI_EINVAL
  | some m =>
    let se := s.entry (P.slot p m)
    match info with
    | some .evType => if P.isEventPrivate m then 0 else 1
    | some .evNotSignaled => if P.isEventSignalable m then 0 else 1
    | some .evPriority => if P.isEventCritical m then 1 else 0
    | some .evRoutingMode =>
      if P.isEventPrivate m then SDEI_EINVAL
      else if se.state.registered = false then SDEI_EDENY
      else if se.regFlags = SDEI_REGF_RM_PE then 1 else 0
    | some .evRoutingAff =>
      if P.isEventPrivate m then SDEI_EINVAL
      else if se.state.registered = false then SDEI_EDENY
      else if se.regFlags ≠ SDEI_REGF_RM_PE then SDEI_EINVAL
      else se.affinity.toInt
    | none => SDEI_EINVAL

def sdeiEventStatus (evNum : Int) : Int :=
  match P.findEventMap evNum with
  | none => SDEI_EINVAL
  | some m => (s.entry (P.slot p m)).state.value

def sdeiPeMask : State M n × Int :=
  (s.setCpu p { s.cpu p with peMasked := true }, if (s.cpu p).peMasked then 0 else 1)

/-- The interrupts that `sdei_pe_unmask()` enables again: of the enabled private events, and of the
shared ones that are routed to the PE. -/
def enablePending (g : Gic n) : Gic n :=
  let again (m : M) (g : Gic n) :=
    if (s.map m).bound && (s.entry (P.slot p m)).state.enabled then
      g.enableInterrupt (P.line p (s.map m).intr)
    else g
  let g := P.privateMaps.foldl (fun g m => again m g) g
  P.sharedMaps.foldl (fun g m =>
    let se := s.entry (P.slot p m)
    if se.regFlags = SDEI_REGF_RM_PE ∧ se.affinity = P.readMpidr p &&& MPIDR_AFFINITY_MASK then
      again m g
    else g) g

def sdeiPeUnmask : State M n :=
  let g := if (s.cpu p).pendingEnables then enablePending P s p s.gic else s.gic
  (s.setGic g).setCpu p { s.cpu p with pendingEnables := false, peMasked := false }

def sdeiSignal (evNum : Int) (targetPe : BitVec 64) : State M n × Int :=
  if evNum ≠ SDEI_EVENT_0 then (s, SDEI_EINVAL)
  else match P.findEventMap SDEI_EVENT_0, P.corePosByMpidr targetPe with
    | some m, some q =>
      let se := s.entry (P.slot q m)
      if P.isEventSignalable m = false ∨ P.isValidMpidr targetPe = false then (s, SDEI_EINVAL)
      else if (s.cpu q).peMasked then (s, SDEI_EINVAL)
      else if P.isEventPrivate m ∧ (se.state.registered = false ∨ se.state.enabled = false) then
        (s, SDEI_EINVAL)
      else (s.setGic (s.gic.setInterruptPending (some q, (s.map m).intr)), 0)
    | _, _ => (s, SDEI_EINVAL)

/-! ## CPU power -/

/-- `sdei_cpu_on_init()`, at `psci_cpu_on_finish`: the entries of the private maps are cleared and
the PE is masked. The counts of the maps are left as they are. -/
def sdeiCpuOnInit : State M n :=
  ({ s with entry := fun sl =>
      if sl.1 = some p ∧ sl.2 ∈ P.privateMaps then
        { clearEventEntries (s.entry sl) with state := .reg_ }
      else s.entry sl }).setCpu p { s.cpu p with peMasked := true }

/-- `sdei_cpu_wakeup_init()`, at `psci_suspend_pwrdown_finish`. -/
def sdeiCpuWakeupInit : State M n := (sdeiPeMask s p).1

end TrustedFirmware.Sdei
