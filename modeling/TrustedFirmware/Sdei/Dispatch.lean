import TrustedFirmware.Sdei.Calls

/-! # Dispatching events

The functions of `sdei_intr_mgmt.c`. A dispatch saves the Non-secure context on the dispatch stack
of the PE and enters the client; the function that dispatched goes on when the client completes
the event, with what it kept: the map and the interrupt. -/
namespace TrustedFirmware.Sdei
set_option autoImplicit false

/-- Maximum preemption nesting levels: Critical priority and Normal priority. -/
def MAX_EVENT_NESTING : ℕ := 2

/-- `SPSR_64(client_el, MODE_SP_ELX, DISABLE_ALL_EXCEPTIONS)`. -/
def ClientEl.spsr64 : ClientEl → BitVec 64
  | el1 => 0x3c5
  | el2 => 0x3c9

variable {M : Type} [DecidableEq M] {n : ℕ}

/-! ## The dispatch stack -/

/-- What `save_event_ctx()` and `setup_ns_dispatch()` put on the stack. -/
def saveEventCtx (m : M) (c : NsContext) (jmp : Frame M) : DispatchContext M where
  map := m
  x i := c.x (i.castLE (by decide))
  dispatchJmp := jmp
  elr := c.elr
  spsr := c.spsr
  disableCve20183639 := c.cve20183639Disable

variable (P : Platform M n)

def restoreEventCtx (d : DispatchContext M) (c : NsContext) : NsContext :=
  { c with
    x := fun i => if h : i.val < 18 then d.x ⟨i.val, h⟩ else c.x i
    elr := d.elr
    spsr := d.spsr
    cve20183639Disable :=
      if P.DYNAMIC_WORKAROUND_CVE_2018_3639 then d.disableCve20183639 else c.cve20183639Disable }

def handlerCtx (m : M) (se : Entry) (c : NsContext) : NsContext :=
  { c with
    x := fun i =>
      if i.val = 0 then BitVec.ofInt 64 (P.evNum m)
      else if i.val = 1 then se.arg
      else if i.val = 2 then c.elr
      else if i.val = 3 then c.spsr
      else c.x i
    elr := se.ep
    spsr := P.createSpsr c.spsr
    cve20183639Disable :=
      if P.DYNAMIC_WORKAROUND_CVE_2018_3639 then 0 else c.cve20183639Disable }

variable (s : State M n) (p : Fin n)

/-- `setup_ns_dispatch()`, with the assertion of `push_dispatch()`. -/
def setupNsDispatch (m : M) (jmp : Frame M) : Option (State M n) :=
  let c := s.cpu p
  if P.stops (decide (c.dispatchStack.length < MAX_EVENT_NESTING)) then none
  else
    let d := saveEventCtx m (s.ctx p) jmp
    some ((s.setCpu p { c with dispatchStack := d :: c.dispatchStack, phase := .outside }).setCtx p
      (handlerCtx P m (s.entry (P.slot p m)) (s.ctx p)))

def leave (intr : ℕ) : State M n :=
  (s.setGic (s.gic.endOfInterrupt (P.line p intr))).setCpu p { s.cpu p with phase := .outside }

/-! ## Interrupts -/

/-- The interrupt stays pending, and is disabled where only this PE can take it. -/
def handleMaskedTrigger (m : M) (intr : ℕ) : Option (State M n) :=
  let se := s.entry (P.slot p m)
  let l := P.line p (s.map m).intr
  -- Event 0 returns before the end of the interrupt.
  if P.evNum m = SDEI_EVENT_0 then some (s.setCpu p { s.cpu p with phase := .outside })
  else if decide (se.regFlags = SDEI_REGF_RM_PE) &&
      P.stops (decide (se.affinity = P.readMpidr p &&& MPIDR_AFFINITY_MASK)) then none
  else if P.isEventPrivate m ∨ se.regFlags = SDEI_REGF_RM_PE then
    let s := s.setGic ((s.gic.disableInterrupt l).setInterruptPending l)
    some (leave P (s.setCpu p { s.cpu p with pendingEnables := true }) p intr)
  else if P.stops (P.isSpi (s.map m).intr) then none
  else some (leave P (s.setGic (s.gic.setInterruptPending l)) p intr)

/-- A critical event preempts a normal one, and a normal event preempts none. The handler of
interrupts asserts this of the outstanding dispatch, the explicit dispatch checks it. -/
def mayNest (m : M) : Bool :=
  match (s.cpu p).dispatchStack with
  | [] => true
  | d :: _ => P.isEventCritical m && !P.isEventCritical d.map

/-- `sdei_intr_handler()` up to the dispatch, for an acknowledged interrupt, and whether it
dispatches; `none` where it panics. -/
def sdeiIntrHandler (intr : ℕ) : Option (State M n × Bool) :=
  match P.findEventMapByIntr s intr (P.isSpi intr) with
  | none => none
  | some m =>
    if P.stops (decide (P.evNum m = SDEI_EVENT_0) || (s.map m).bound) then none
    else if (s.cpu p).peMasked then (handleMaskedTrigger P s p m intr).map fun s => (s, false)
    else
      let se := s.entry (P.slot p m)
      if (!P.isEventPrivate m && decide (se.regFlags = SDEI_REGF_RM_PE)) &&
          P.stops (decide (se.affinity = P.readMpidr p &&& MPIDR_AFFINITY_MASK)) then none
      else match canSdeiStateTrans se.state .dispatch with
        | none =>
          let g := s.gic
          let g := if se.state.registered then
            g.setInterruptPending (P.line p (s.map m).intr) else g
          some (leave P (s.setGic g) p intr, false)
        | some st =>
          if P.stops (mayNest P s p m) then none
          else (setupNsDispatch P (s.setState (P.slot p m) st) p m ⟨m, some intr⟩).map fun s => (s, true)

/-- The rest of `sdei_intr_handler()`, when the client has completed the event: `none` is the panic
for a map that is not bound any more. -/
def sdeiIntrReturn (m : M) (intr : ℕ) : Option (State M n) :=
  if P.evNum m ≠ SDEI_EVENT_0 ∧ (s.map m).bound = false then none
  else some (leave P s p intr)

/-! ## Explicit dispatch -/

/-- `sdei_dispatch_event()` up to the dispatch, `none` for the result -1. -/
def sdeiDispatchEvent (evNum : Int) : Option (State M n) :=
  if (s.cpu p).peMasked then none
  else if evNum = SDEI_EVENT_0 then none
  else match P.findEventMap evNum with
    | none => none
    | some m =>
      if P.isMapExplicit m = false then none
      else if mayNest P s p m = false then none
      else match canSdeiStateTrans (s.entry (P.slot p m)).state .dispatch with
        | none => none
        | some st => setupNsDispatch P (s.setState (P.slot p m) st) p m ⟨m, none⟩

/-! ## Completion -/

/-- The Non-secure context after a completion: as it was saved, or set up to resume at `pc` with
the saved one in the exception registers of the client. -/
def completedCtx (resume : Option (BitVec 64)) (d : DispatchContext M) (c : NsContext) : NsContext :=
  match resume with
  | none => restoreEventCtx P d c
  | some pc =>
    { restoreEventCtx P d c with
      elr := pc
      spsr := P.clientEl.spsr64
      elrElx := d.elr
      spsrElx := d.spsr }

/-- `sdei_event_complete()`; `none` for SDEI_EDENY. -/
def sdeiEventComplete (resume : Option (BitVec 64)) : Option (State M n) :=
  match (s.cpu p).dispatchStack with
  | [] => none
  | d :: ds =>
    if resume.any (fun pc => P.validateEntryPoint pc = false) then none
    else
      let act := if resume.isSome then SdeiAction.completeResume else .complete
      match canSdeiStateTrans (s.entry (P.slot p d.map)).state act with
      | none => none
      | some st =>
        some (((s.setState (P.slot p d.map) st).setCpu p
          { s.cpu p with dispatchStack := ds, phase := .completed d.dispatchJmp }).setCtx p
            (completedCtx P resume d (s.ctx p)))

def sdeiEventContext (param : ℕ) : Int :=
  if h : param < 18 then
    match (s.cpu p).dispatchStack with
    | [] => SDEI_EDENY
    | d :: _ =>
      match canSdeiStateTrans (s.entry (P.slot p d.map)).state .context with
      | none => SDEI_EDENY
      | some _ => (d.x ⟨param, h⟩).toInt
  else SDEI_EINVAL

end TrustedFirmware.Sdei
