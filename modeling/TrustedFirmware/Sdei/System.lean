import Mathlib.Tactic
import TrustedFirmware.Foundations.Runs
import TrustedFirmware.Sdei.Dispatch

/-! # PEs that use the dispatcher

Each PE makes client calls, takes interrupts, dispatches events and completes them, in any
interleaving with the other PEs. An interrupt is acknowledged in one step and handled in the next;
a completion and what follows it in EL3 are two steps as well. -/
namespace TrustedFirmware.Sdei
open Runs
set_option autoImplicit false

/-! ## Calls -/

inductive Call where
  | register (evNum : Int) (ep arg flags mpidr : BitVec 64)
  | enable (evNum : Int)
  | disable (evNum : Int)
  | context (param : ℕ)
  | complete
  | completeAndResume (pc : BitVec 64)
  | unregister (evNum : Int)
  | status (evNum : Int)
  | getInfo (evNum : Int) (info : Option Info)
  | routingSet (evNum : Int) (flags mpidr : BitVec 64)
  | mask
  | unmask
  | bind (intrNum : ℕ)
  | release (evNum : Int)
  | privateReset
  | sharedReset
  | signal (evNum : Int) (targetPe : BitVec 64)
  deriving DecidableEq, Repr

def Call.completion : Call → Option (Option (BitVec 64))
  | complete => some none
  | completeAndResume pc => some (some pc)
  | _ => none

variable {M : Type} [DecidableEq M] {n : ℕ} (P : Platform M n)

/-- The calls that return to the client. -/
def sdeiCall (s : State M n) (p : Fin n) : Call → Option (State M n × Int)
  | .register evNum ep arg flags mpidr => sdeiEventRegister P s p evNum ep arg flags mpidr
  | .enable evNum => some (sdeiEventEnable P s p evNum)
  | .disable evNum => some (sdeiEventDisable P s p evNum)
  | .context param => some (s, sdeiEventContext P s p param)
  | .unregister evNum => sdeiEventUnregister P s p evNum
  | .status evNum => some (s, sdeiEventStatus P s p evNum)
  | .getInfo evNum info => some (s, sdeiEventGetInfo P s p evNum info)
  | .routingSet evNum flags mpidr => some (sdeiEventRoutingSet P s p evNum flags mpidr)
  | .mask => some (sdeiPeMask s p)
  | .unmask => some (sdeiPeUnmask P s p, 0)
  | .bind intrNum => sdeiInterruptBind P s p intrNum
  | .release evNum => some (sdeiInterruptRelease P s p evNum)
  | .privateReset => sdeiPrivateReset P s p
  | .sharedReset => sdeiSharedReset P s p
  | .signal evNum targetPe => some (sdeiSignal P s evNum targetPe)
  -- A completion returns only when it is refused.
  | .complete | .completeAndResume _ => some (s, SDEI_EDENY)

scoped instance neZero31 : NeZero 31 := ⟨nofun⟩

def smcRet1 (s : State M n) (p : Fin n) (ret : Int) : State M n :=
  s.setCtx p { s.ctx p with x := Function.update (s.ctx p).x 0 (BitVec.ofInt 64 ret) }

/-! ## Steps -/

inductive Action (n : ℕ) where
  | call (p : Fin n) (c : Call)
  /-- The interrupt controller signals an interrupt and EL3 acknowledges it. -/
  | acknowledge (p : Fin n) (intr : ℕ)
  | handle (p : Fin n)
  | dispatch (p : Fin n) (evNum : Int)
  /-- The function that dispatched the completed event goes on. -/
  | finish (p : Fin n)
  | cpuOff (p : Fin n)
  | cpuOn (p : Fin n)
  | wakeup (p : Fin n)
  | run (p : Fin n) (c : NsContext)
  | trigger (l : Line n)
  /-- The Non-secure world handles an interrupt that it owns. -/
  | nonSecure (l : Line n) (active enabled : Bool)

inductive Outcome where
  | internal
  | returned (ret : Int)
  /-- An event was dispatched over this context. -/
  | dispatched (saved : NsContext)
  | completed

/-- The interrupts that a PE has acknowledged and not ended yet, the last one first. -/
def CpuState.holds (c : CpuState M) : List ℕ :=
  (match c.phase with
    | .outside => []
    | .acknowledged intr => [intr]
    | .completed f => f.intr.toList) ++ c.dispatchStack.flatMap fun d => d.dispatchJmp.intr.toList

def CpuState.free (c : CpuState M) : Bool := c.online && decide (c.phase = .outside)

/-- No interrupt comes to the dispatcher with the number of a map that is not bound, which explicit
events and free slots have, but that of event 0. -/
def ofBoundMap (s : State M n) (intr : ℕ) : Bool :=
  (P.findEventMapByIntr s intr (P.isSpi intr)).all fun m =>
    decide (P.evNum m = SDEI_EVENT_0) || (s.map m).bound

/-- `none` where the PE is elsewhere, or stops. -/
def act (s : State M n) : Action n → Option (State M n × Outcome)
  | .call p c =>
    if (s.cpu p).free = false then none
    else match c.completion.bind (sdeiEventComplete P s p) with
      | some s => some (s, .completed)
      | none => (sdeiCall P s p c).map fun r => (smcRet1 r.1 p r.2, .returned r.2)
  | .acknowledge p intr =>
    let l := P.line p intr
    if (s.cpu p).free = false then none
    else if s.gic.active l = true ∨ s.gic.enabled l = false ∨ s.gic.pending l = false ∨
        s.gic.intrType l ≠ .el3 then none
    else some ((s.setGic (s.gic.acknowledgeInterrupt l)).setCpu p
      { s.cpu p with phase := .acknowledged intr }, .internal)
  | .handle p =>
    match (s.cpu p).phase with
    | .acknowledged intr =>
      if ofBoundMap P s intr = false then none
      else (sdeiIntrHandler P s p intr).map fun r =>
        (r.1, if r.2 then .dispatched (s.ctx p) else .internal)
    | _ => none
  | .dispatch p evNum =>
    if (s.cpu p).free = false then none
    else (sdeiDispatchEvent P s p evNum).map fun s' => (s', .dispatched (s.ctx p))
  | .finish p =>
    match (s.cpu p).phase with
    | .completed ⟨m, some intr⟩ => (sdeiIntrReturn P s p m intr).map fun s => (s, .internal)
    | .completed ⟨_, none⟩ => some (s.setCpu p { s.cpu p with phase := .outside }, .internal)
    | _ => none
  | .cpuOff p =>
    if (s.cpu p).free = false then none
    else some (s.setCpu p { s.cpu p with online := false }, .internal)
  | .cpuOn p =>
    if (s.cpu p).online then none
    else some ((sdeiCpuOnInit P s p).setCpu p
      { (sdeiCpuOnInit P s p).cpu p with online := true }, .internal)
  | .wakeup p =>
    if (s.cpu p).free = false then none else some (sdeiCpuWakeupInit s p, .internal)
  | .run p c =>
    if (s.cpu p).free = false then none else some (s.setCtx p c, .internal)
  | .trigger l => some (s.setGic (s.gic.setInterruptPending l), .internal)
  | .nonSecure l active enabled =>
    if s.gic.intrType l ≠ .ns ∨ ∃ p, ∃ i ∈ (s.cpu p).holds, P.line p i = l then none
    else some (s.setGic
      { s.gic with
        active := Function.update s.gic.active l active
        enabled := Function.update s.gic.enabled l enabled }, .internal)

end TrustedFirmware.Sdei
