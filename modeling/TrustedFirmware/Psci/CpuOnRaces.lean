import Mathlib.Data.List.Induction
import TrustedFirmware.Psci.Calls

/-! # CPU_ON calls for one target

`psci_cpu_on_start()` on any number of CPUs, all aimed at one target, step by step, together
with the target: it boots when the platform has released it, finishes the power-on, runs and
turns itself off again. A caller holds the target's CPU lock from its check of the affinity
state to its return; the target takes the lock once, to wait for the caller. The affinity state
is one word here, so that the look after the write finds what was written; `Psci.CpuOnCache` has
its line in the caches, and the retry. -/
namespace TrustedFirmware.Psci
open Runs
set_option autoImplicit false

/-! ## The system -/

/-- Where a caller of `psci_cpu_on_start()` is; `ep` is its own entry point information. -/
inductive CallerPc (E : Type) where
  | idle
  | lock (ep : E)
  | validate (ep : E)
  | publish (ep : E)
  | pend (ep : E)
  | recheck (ep : E)
  | retry (ep : E)
  | retryCheck (ep : E)
  | powerOn (ep : E)
  | restore (ep : E)
  | leave (ep : E) (rc : Int)
  deriving DecidableEq, Repr

/-- Where the target is: in `psci_warmboot_entrypoint()` and `psci_cpu_on_finish()` from `entry` to `toRun`. -/
inductive TargetPc where
  | down
  | entry
  | finish
  | finishCheck
  | initContext
  | toRun
  | running
  | goingDown
  deriving DecidableEq, Repr

inductive OnEvent (E : Type) where
  /-- A caller returns, and leaves the target in a state. -/
  | returned (caller : ℕ) (rc : Int) (ep : E) (aff : AffInfoState)
  | started (ep : E)
  | off
  deriving DecidableEq, Repr

structure OnSystem (E : Type) where
  affInfoState : AffInfoState
  warmbootEpInfo : E
  cpuLock : Option ℕ
  /-- The platform has been asked to power the target on. -/
  powerRequested : Bool
  target : TargetPc
  caller : ℕ → CallerPc E
  history : List (OnEvent E)

inductive OnAction (E : Type) where
  | call (caller : ℕ) (ep : E)
  /-- The next step of a caller, with the answer of `pwr_domain_on()`. -/
  | advance (caller : ℕ) (platFails : Bool)
  | target
  /-- CPU_SUSPEND on the target stores its own entry point. -/
  | suspendEntry (ep : E)
  | cpuOff

section Model
variable {E : Type}

def OnSystem.goto (s : OnSystem E) (c : ℕ) (pc : CallerPc E) : OnSystem E :=
  { s with caller := Function.update s.caller c pc }

/-- `none` where the caller spins on the lock or an assertion fails. -/
def advanceCaller (s : OnSystem E) (c : ℕ) (platFails : Bool) : Option (OnSystem E) :=
  match s.caller c with
  | .idle => none
  | .lock ep => if s.cpuLock = none then some ({ s with cpuLock := some c }.goto c (.validate ep)) else none
  | .validate ep =>
    match s.affInfoState with
    | .on => some (s.goto c (.leave ep PSCI_E_ALREADY_ON))
    | .onPending => some (s.goto c (.leave ep PSCI_E_ON_PENDING))
    | .off => some (s.goto c (.publish ep))
  | .publish ep => some ({ s with warmbootEpInfo := ep }.goto c (.pend ep))
  | .pend ep => some ({ s with affInfoState := .onPending }.goto c (.recheck ep))
  | .recheck ep =>
    match s.affInfoState with
    | .onPending => some (s.goto c (.powerOn ep))
    | .off => some (s.goto c (.retry ep))
    | .on => none
  | .retry ep => some ({ s with affInfoState := .onPending }.goto c (.retryCheck ep))
  | .retryCheck ep => if s.affInfoState = .onPending then some (s.goto c (.powerOn ep)) else none
  | .powerOn ep =>
    if platFails then some (s.goto c (.restore ep))
    else some ({ s with powerRequested := true }.goto c (.leave ep PSCI_E_SUCCESS))
  | .restore ep => some ({ s with affInfoState := .off }.goto c (.leave ep PSCI_E_INTERN_FAIL))
  | .leave ep rc => some (OnSystem.goto { s with
      cpuLock := none
      history := s.history ++ [.returned c rc ep s.affInfoState] } c .idle)

/-- `none` where the target waits, panics or an assertion fails. -/
def advanceTarget (s : OnSystem E) : Option (OnSystem E) :=
  match s.target with
  | .down => if s.powerRequested then some { s with powerRequested := false, target := .entry } else none
  | .entry => if s.affInfoState = .onPending then some { s with target := .finish } else none
  | .finish => if s.cpuLock = none then some { s with target := .finishCheck } else none
  | .finishCheck => if s.affInfoState = .onPending then some { s with target := .initContext } else none
  | .initContext => some { s with
      target := .toRun
      history := s.history ++ [.started s.warmbootEpInfo] }
  | .toRun => some { s with affInfoState := .on, target := .running }
  | .running => none
  | .goingDown => some { s with target := .down }

def onStep (s : OnSystem E) : OnAction E → Option (OnSystem E)
  | .call c ep =>
    match s.caller c with
    | .idle => some (s.goto c (.lock ep))
    | _ => none
  | .advance c platFails => advanceCaller s c platFails
  | .target => advanceTarget s
  | .suspendEntry ep => if s.target = .running then some { s with warmbootEpInfo := ep } else none
  | .cpuOff =>
    if s.target = .running then some { s with
      affInfoState := .off
      target := .goingDown
      history := s.history ++ [.off] }
    else none

def OnSteps (s : OnSystem E) (a : OnAction E) (s' : OnSystem E) : Prop := onStep s a = some s'

/-- No call is under way, and the target is off or runs. -/
structure OnStart (s : OnSystem E) : Prop where
  idle : ∀ c, s.caller c = .idle
  unlocked : s.cpuLock = none
  quiet : s.powerRequested = false
  target : s.affInfoState = .off ∧ s.target = .down ∨ s.affInfoState = .on ∧ s.target = .running
  history : s.history = []

/-! ## Histories -/

/-- What callers and target may see: after a success every other caller is refused until the target turns
off; a platform error leaves it off; and it starts with what the caller that succeeded has given. -/
structure Serial (h : List (OnEvent E)) : Prop where
  single : ∀ a c e v b c' rc e' v' d,
    h = a ++ .returned c PSCI_E_SUCCESS e v :: (b ++ .returned c' rc e' v' :: d) → .off ∉ b →
    rc = PSCI_E_ALREADY_ON ∨ rc = PSCI_E_ON_PENDING
  failed : ∀ c e v, .returned c PSCI_E_INTERN_FAIL e v ∈ h → v = .off
  other : ∀ c rc e v, .returned c rc e v ∈ h → rc = PSCI_E_SUCCESS ∨ rc = PSCI_E_INTERN_FAIL ∨
    rc = PSCI_E_ALREADY_ON ∨ rc = PSCI_E_ON_PENDING
  started : ∀ a e d, h = a ++ .started e :: d →
    ∃ a₁ c v a₂, a = a₁ ++ .returned c PSCI_E_SUCCESS e v :: a₂ ∧ .off ∉ a₂

inductive OnPhase (E : Type) where
  | off
  | claimed (ep : E)
  | running

/-- The histories of the system, with the phase the target is in behind them. -/
inductive Admits (p₀ : OnPhase E) : List (OnEvent E) → OnPhase E → Prop
  | nil : Admits p₀ [] p₀
  | success {h : List (OnEvent E)} (c : ℕ) (e : E) (v : AffInfoState) (run : Admits p₀ h .off) :
      Admits p₀ (h ++ [.returned c PSCI_E_SUCCESS e v]) (.claimed e)
  | failed {h : List (OnEvent E)} (c : ℕ) (e : E) (run : Admits p₀ h .off) :
      Admits p₀ (h ++ [.returned c PSCI_E_INTERN_FAIL e .off]) .off
  | refused {h : List (OnEvent E)} {p : OnPhase E} {rc : Int} (c : ℕ) (e : E) (v : AffInfoState)
      (hrc : rc = PSCI_E_ALREADY_ON ∨ rc = PSCI_E_ON_PENDING) (run : Admits p₀ h p) :
      Admits p₀ (h ++ [.returned c rc e v]) p
  | started {h : List (OnEvent E)} {e : E} (run : Admits p₀ h (.claimed e)) :
      Admits p₀ (h ++ [.started e]) .running
  | off {h : List (OnEvent E)} (run : Admits p₀ h .running) : Admits p₀ (h ++ [.off]) .off

section Histories
variable {p₀ p : OnPhase E} {h : List (OnEvent E)}

theorem snoc_split {α : Type} {h a b : List α} {x y : α} (heq : h ++ [x] = a ++ y :: b) :
    b = [] ∧ h = a ∧ x = y ∨ ∃ b', b = b' ++ [x] ∧ h = a ++ y :: b' := by
  rcases List.eq_nil_or_concat b with rfl | ⟨b', z, rfl⟩
  · obtain ⟨rfl, hxy⟩ := List.append_inj' heq rfl
    exact .inl ⟨rfl, rfl, List.singleton_inj.mp hxy⟩
  · have heq' : h ++ [x] = (a ++ y :: b') ++ [z] := by
      rw [heq, List.append_assoc, List.cons_append, List.concat_eq_append]
    obtain ⟨rfl, hxz⟩ := List.append_inj' heq' rfl
    rw [List.singleton_inj.mp hxz]
    exact .inr ⟨b', List.concat_eq_append .., rfl⟩

theorem Admits.since_success (run : Admits p₀ h p) {a b : List (OnEvent E)} {c : ℕ} {e : E}
    {v : AffInfoState} (heq : h = a ++ .returned c PSCI_E_SUCCESS e v :: b) (hoff : .off ∉ b) :
    p ≠ .off ∧ ∀ c' rc e' v', .returned c' rc e' v' ∈ b →
      rc = PSCI_E_ALREADY_ON ∨ rc = PSCI_E_ON_PENDING := by
  induction run generalizing b with
  | nil => simp at heq
  | success c' e' v' run ih =>
    rcases snoc_split heq with ⟨rfl, -, -⟩ | ⟨b', rfl, rfl⟩
    · exact ⟨(fun hc => nomatch hc), fun _ _ _ _ hm => absurd hm List.not_mem_nil⟩
    · -- a second success would need the target to be off
      exact absurd rfl (ih rfl fun hm => hoff (List.mem_append_left _ hm)).1
  | failed c' e' run ih =>
    rcases snoc_split heq with ⟨-, -, hx⟩ | ⟨b', rfl, rfl⟩
    · injection hx with _ hrc
      exact absurd hrc (by decide)
    · exact absurd rfl (ih rfl fun hm => hoff (List.mem_append_left _ hm)).1
  | refused c' e' v' hrc run ih =>
    rcases snoc_split heq with ⟨-, -, hx⟩ | ⟨b', rfl, rfl⟩
    · injection hx with _ hrc'
      rw [hrc'] at hrc
      exact absurd hrc (by decide)
    · obtain ⟨hp, hall⟩ := ih rfl fun hm => hoff (List.mem_append_left _ hm)
      refine ⟨hp, fun c1 rc1 e1 v1 hm => ?_⟩
      rcases List.mem_append.mp hm with hm | hm
      · exact hall c1 rc1 e1 v1 hm
      · injection List.mem_singleton.mp hm with _ hrc1
        rw [hrc1]
        exact hrc
  | started run ih =>
    rcases snoc_split heq with ⟨-, -, hx⟩ | ⟨b', rfl, rfl⟩
    · cases hx
    · obtain ⟨-, hall⟩ := ih rfl fun hm => hoff (List.mem_append_left _ hm)
      refine ⟨(fun hc => nomatch hc), fun c1 rc1 e1 v1 hm => ?_⟩
      rcases List.mem_append.mp hm with hm | hm
      · exact hall c1 rc1 e1 v1 hm
      · cases List.mem_singleton.mp hm
  | off run ih =>
    rcases snoc_split heq with ⟨-, -, hx⟩ | ⟨b', rfl, rfl⟩
    · cases hx
    · exact absurd (List.mem_append_right _ (List.mem_singleton.mpr rfl)) hoff

theorem Admits.of_claimed {e : E} (run : Admits p₀ h (.claimed e)) (h0 : ∀ e, p₀ ≠ .claimed e) :
    ∃ a c v b, h = a ++ .returned c PSCI_E_SUCCESS e v :: b ∧ .off ∉ b := by
  generalize hp : OnPhase.claimed e = p at run
  induction run with
  | nil => exact absurd hp.symm (h0 e)
  | success c' e' v' run _ =>
    cases hp
    exact ⟨_, c', v', [], rfl, List.not_mem_nil⟩
  | failed => cases hp
  | refused c' e' v' hrc run ih =>
    obtain ⟨a, c, v, b, rfl, hoff⟩ := ih hp
    refine ⟨a, c, v, b ++ [_], by rw [List.append_assoc, List.cons_append], fun hm => ?_⟩
    rcases List.mem_append.mp hm with hm | hm
    · exact hoff hm
    · cases List.mem_singleton.mp hm
  | started => cases hp
  | off => cases hp

def OnEvent.Follows (p : OnPhase E) : OnEvent E → Prop
  | .returned _ rc _ v => rc = PSCI_E_SUCCESS ∨ rc = PSCI_E_INTERN_FAIL ∧ v = .off ∨
      rc = PSCI_E_ALREADY_ON ∨ rc = PSCI_E_ON_PENDING
  | .started e => p = .claimed e
  | .off => True

theorem Admits.init {x : OnEvent E} (run : Admits p₀ (h ++ [x]) p) :
    ∃ p', Admits p₀ h p' ∧ x.Follows p' := by
  generalize heq : h ++ [x] = h' at run
  cases run with
  | nil => simp at heq
  | success c e v run =>
    obtain ⟨rfl, hx⟩ := List.append_inj' heq rfl
    cases hx
    exact ⟨_, run, .inl rfl⟩
  | failed c e run =>
    obtain ⟨rfl, hx⟩ := List.append_inj' heq rfl
    cases hx
    exact ⟨_, run, .inr (.inl ⟨rfl, rfl⟩)⟩
  | refused c e v hrc run =>
    obtain ⟨rfl, hx⟩ := List.append_inj' heq rfl
    cases hx
    exact ⟨_, run, .inr (.inr hrc)⟩
  | started run =>
    obtain ⟨rfl, hx⟩ := List.append_inj' heq rfl
    cases hx
    exact ⟨_, run, rfl⟩
  | off run =>
    obtain ⟨rfl, hx⟩ := List.append_inj' heq rfl
    cases hx
    exact ⟨_, run, trivial⟩

theorem Admits.of_append {x : List (OnEvent E)} (y : List (OnEvent E)) (run : Admits p₀ (x ++ y) p) :
    ∃ p', Admits p₀ x p' := by
  induction y using List.reverseRecOn generalizing p with
  | nil =>
    rw [List.append_nil] at run
    exact ⟨p, run⟩
  | append_singleton y z ih =>
    rw [← List.append_assoc] at run
    obtain ⟨p', run', -⟩ := run.init
    exact ih run'

theorem Admits.serial (run : Admits p₀ h p) (h0 : ∀ e, p₀ ≠ .claimed e) : Serial h := by
  have hmem : ∀ {x : OnEvent E}, x ∈ h → ∃ a p, Admits p₀ (a ++ [x]) p := by
    intro x hx
    obtain ⟨a, d, rfl⟩ := List.append_of_mem hx
    have hcut : a ++ x :: d = (a ++ [x]) ++ d := by simp
    rw [hcut] at run
    obtain ⟨p', run'⟩ := run.of_append
    exact ⟨a, p', run'⟩
  refine ⟨fun a c e v b c' rc e' v' d heq hoff => ?_, fun c e v hm => ?_, fun c rc e v hm => ?_,
    fun a e d heq => ?_⟩
  · have hcut : h = (a ++ .returned c PSCI_E_SUCCESS e v :: (b ++ [.returned c' rc e' v'])) ++ d := by
      rw [heq]
      simp
    rw [hcut] at run
    obtain ⟨p', run'⟩ := run.of_append
    refine (run'.since_success rfl fun hm => ?_).2 c' rc e' v'
      (List.mem_append_right _ (List.mem_singleton.mpr rfl))
    rcases List.mem_append.mp hm with hm | hm
    · exact hoff hm
    · cases List.mem_singleton.mp hm
  · obtain ⟨a, p', run'⟩ := hmem hm
    obtain ⟨-, -, hrc | ⟨-, hv⟩ | hrc⟩ := run'.init
    · exact absurd hrc (by decide)
    · exact hv
    · exact absurd hrc (by decide)
  · obtain ⟨a, p', run'⟩ := hmem hm
    obtain ⟨-, -, hrc | ⟨hrc, -⟩ | hrc⟩ := run'.init
    · exact .inl hrc
    · exact .inr (.inl hrc)
    · exact .inr (.inr hrc)
  · have hcut : h = (a ++ [.started e]) ++ d := by
      rw [heq]
      simp
    rw [hcut] at run
    obtain ⟨p', run'⟩ := run.of_append
    obtain ⟨_, hclaim, rfl⟩ := run'.init
    obtain ⟨a₁, c, v, a₂, ha, hoff⟩ := hclaim.of_claimed h0
    exact ⟨a₁, c, v, a₂, ha, hoff⟩

end Histories

/-! ## The invariant -/

def TargetPc.Asleep (pc : TargetPc) : Prop := pc = .down ∨ pc = .goingDown

instance (pc : TargetPc) : Decidable pc.Asleep := inferInstanceAs (Decidable (_ ∨ _))

structure Resting (s : OnSystem E) : Prop where
  aff : s.affInfoState = .off
  target : s.target.Asleep
  quiet : s.powerRequested = false

/-- Turned on for `e`, before the platform is asked. -/
structure Pended (s : OnSystem E) (e : E) : Prop where
  aff : s.affInfoState = .onPending
  target : s.target.Asleep
  quiet : s.powerRequested = false
  ep : s.warmbootEpInfo = e

/-- The platform has been asked; the target comes up, as far as the pcs in `reached`. -/
structure Coming (s : OnSystem E) (reached : TargetPc → Prop) : Prop where
  aff : s.affInfoState = .onPending
  target : s.powerRequested = true ∧ s.target.Asleep ∨ s.powerRequested = false ∧ reached s.target

def TargetPc.BeforeLock (pc : TargetPc) : Prop := pc = .entry ∨ pc = .finish

instance (pc : TargetPc) : Decidable pc.BeforeLock := inferInstanceAs (Decidable (_ ∨ _))

def TargetPc.BeforeStart (pc : TargetPc) : Prop := pc.BeforeLock ∨ pc = .finishCheck ∨ pc = .initContext

/-- What holds while no caller is past its check of the affinity state. -/
inductive Free (s : OnSystem E) : OnPhase E → Prop
  | off (h : Resting s) : Free s .off
  | claimed (h : Coming s TargetPc.BeforeStart) : Free s (.claimed s.warmbootEpInfo)
  | starts (ha : s.affInfoState = .onPending) (ht : s.target = .toRun)
      (hq : s.powerRequested = false) : Free s .running
  | runs (ha : s.affInfoState = .on) (ht : s.target = .running)
      (hq : s.powerRequested = false) : Free s .running

/-- What holds while the holder of the lock is at a point of its call. -/
inductive Holding (s : OnSystem E) : CallerPc E → OnPhase E → Prop
  | validate (e : E) {p : OnPhase E} (h : Free s p) : Holding s (.validate e) p
  | publish (e : E) (h : Resting s) : Holding s (.publish e) .off
  | pend {e : E} (h : Resting s) (hep : s.warmbootEpInfo = e) : Holding s (.pend e) .off
  | recheck {e : E} (h : Pended s e) : Holding s (.recheck e) .off
  | powerOn {e : E} (h : Pended s e) : Holding s (.powerOn e) .off
  | restore {e : E} (h : Pended s e) : Holding s (.restore e) .off
  | succeeded {e : E} (h : Coming s TargetPc.BeforeLock) (hep : s.warmbootEpInfo = e) :
      Holding s (.leave e PSCI_E_SUCCESS) .off
  | failed (e : E) (h : Resting s) : Holding s (.leave e PSCI_E_INTERN_FAIL) .off
  | refused (e : E) {rc : Int} {p : OnPhase E} (h : Free s p)
      (hrc : rc = PSCI_E_ALREADY_ON ∨ rc = PSCI_E_ON_PENDING) : Holding s (.leave e rc) p

structure OnInv (p₀ : OnPhase E) (s : OnSystem E) (p : OnPhase E) : Prop where
  history : Admits p₀ s.history p
  outside : ∀ c, s.cpuLock ≠ some c → s.caller c = .idle ∨ ∃ e, s.caller c = .lock e
  free : s.cpuLock = none → Free s p
  held : ∀ c, s.cpuLock = some c → Holding s (s.caller c) p

section Steps
variable {p₀ p : OnPhase E} {s s' s1 : OnSystem E} {c : ℕ} {e : E}

/-- Two systems that differ in their callers, the lock or the history only. -/
structure SameTarget (s s' : OnSystem E) : Prop where
  aff : s'.affInfoState = s.affInfoState
  ep : s'.warmbootEpInfo = s.warmbootEpInfo
  power : s'.powerRequested = s.powerRequested
  target : s'.target = s.target

theorem Resting.same (h : Resting s) (hs : SameTarget s s') : Resting s' :=
  ⟨hs.aff.trans h.aff, hs.target ▸ h.target, hs.power.trans h.quiet⟩

theorem Pended.same (h : Pended s e) (hs : SameTarget s s') : Pended s' e :=
  ⟨hs.aff.trans h.aff, hs.target ▸ h.target, hs.power.trans h.quiet, hs.ep.trans h.ep⟩

theorem Coming.same {reached : TargetPc → Prop} (h : Coming s reached) (hs : SameTarget s s') :
    Coming s' reached := by
  refine ⟨hs.aff.trans h.aff, ?_⟩
  rw [hs.power, hs.target]
  exact h.target

theorem Free.same (h : Free s p) (hs : SameTarget s s') : Free s' p := by
  cases h with
  | off h => exact .off (h.same hs)
  | claimed h =>
    rw [← hs.ep]
    exact .claimed (h.same hs)
  | starts ha ht hq => exact .starts (hs.aff.trans ha) (hs.target.trans ht) (hs.power.trans hq)
  | runs ha ht hq => exact .runs (hs.aff.trans ha) (hs.target.trans ht) (hs.power.trans hq)

theorem Holding.same {pc : CallerPc E} (h : Holding s pc p) (hs : SameTarget s s') :
    Holding s' pc p := by
  cases h with
  | validate e h => exact .validate e (h.same hs)
  | publish e h => exact .publish e (h.same hs)
  | pend h hep => exact .pend (h.same hs) (hs.ep.trans hep)
  | recheck h => exact .recheck (h.same hs)
  | powerOn h => exact .powerOn (h.same hs)
  | restore h => exact .restore (h.same hs)
  | succeeded h hep => exact .succeeded (h.same hs) (hs.ep.trans hep)
  | failed e h => exact .failed e (h.same hs)
  | refused e h hrc => exact .refused e (h.same hs) hrc

theorem goto_same (s : OnSystem E) (c : ℕ) (pc : CallerPc E) : SameTarget s (s.goto c pc) :=
  ⟨rfl, rfl, rfl, rfl⟩

theorem OnInv.holder (h : OnInv p₀ s p) (h1 : s.caller c ≠ .idle) (h2 : ∀ e, s.caller c ≠ .lock e) :
    s.cpuLock = some c := by
  by_contra hl
  rcases h.outside c hl with hc | ⟨e, hc⟩
  · exact h1 hc
  · exact h2 e hc

theorem OnInv.goto {pc : CallerPc E} (h : OnInv p₀ s p) (hl : s1.cpuLock = some c)
    (hl' : s.cpuLock = some c ∨ s.cpuLock = none) (hcaller : s1.caller = s.caller)
    (hhist : s1.history = s.history) (hpc : Holding s1 pc p) : OnInv p₀ (s1.goto c pc) p := by
  refine ⟨hhist.symm ▸ h.history, fun c' hc' => ?_, fun hn => ?_, fun c' hc' => ?_⟩
  · have hcc : c' ≠ c := fun heq => hc' (heq ▸ hl)
    have hsame : (s1.goto c pc).caller c' = s.caller c' := by
      rw [← hcaller]
      exact Function.update_of_ne hcc _ _
    rw [hsame]
    refine h.outside c' fun hs => ?_
    rcases hl' with hl' | hl'
    · exact hcc (Option.some.inj (hs.symm.trans hl'))
    · cases hs.symm.trans hl'
  · cases hl.symm.trans hn
  · obtain rfl : c = c' := Option.some.inj (hl.symm.trans hc')
    have hself : (s1.goto c pc).caller c = pc := Function.update_self ..
    rw [hself]
    exact hpc.same (goto_same s1 c pc)

theorem OnInv.leave {rc : Int} {p' : OnPhase E} (h : OnInv p₀ s p) (hl : s.cpuLock = some c)
    (hev : Admits p₀ (s.history ++ [.returned c rc e s.affInfoState]) p') (hfree : Free s p') :
    OnInv p₀ (OnSystem.goto { s with
      cpuLock := none
      history := s.history ++ [.returned c rc e s.affInfoState] } c .idle) p' := by
  refine ⟨hev, fun c' _ => ?_, fun _ => hfree.same ⟨rfl, rfl, rfl, rfl⟩, (fun c' hc' => nomatch hc')⟩
  by_cases hcc : c' = c
  · subst hcc
    exact .inl (Function.update_self ..)
  · have hsame : (OnSystem.goto { s with
        cpuLock := none
        history := s.history ++ [.returned c rc e s.affInfoState] } c .idle).caller c' = s.caller c' :=
      Function.update_of_ne hcc _ _
    rw [hsame]
    exact h.outside c' fun hs => hcc (Option.some.inj (hs.symm.trans hl))

theorem OnInv.advance {platFails : Bool} (h : OnInv p₀ s p) (hs : advanceCaller s c platFails = some s') :
    ∃ p', OnInv p₀ s' p' := by
  unfold advanceCaller at hs
  by_cases hidle : s.caller c = .idle
  · rw [hidle] at hs
    cases hs
  by_cases hlock : ∃ e, s.caller c = .lock e
  · obtain ⟨ep, hpc⟩ := hlock
    rw [hpc] at hs
    dsimp only at hs
    split at hs
    · next hl =>
      cases hs
      exact ⟨p, h.goto rfl (.inr hl) rfl rfl (.validate ep ((h.free hl).same ⟨rfl, rfl, rfl, rfl⟩))⟩
    · cases hs
  -- the caller is the holder; what holds there says which step comes next
  have hl := h.holder hidle fun e he => hlock ⟨e, he⟩
  have hheld := h.held c hl
  generalize s.caller c = pc at hs hheld
  cases hheld with
  | validate ep hfree =>
    dsimp only at hs
    split at hs
    · cases hs
      exact ⟨p, h.goto hl (.inl hl) rfl rfl (.refused ep hfree (.inl rfl))⟩
    · cases hs
      exact ⟨p, h.goto hl (.inl hl) rfl rfl (.refused ep hfree (.inr rfl))⟩
    · next haff =>
      cases hs
      cases hfree with
      | off hrest => exact ⟨_, h.goto hl (.inl hl) rfl rfl (.publish ep hrest)⟩
      | claimed hcom => cases haff.symm.trans hcom.aff
      | starts ha => cases haff.symm.trans ha
      | runs ha => cases haff.symm.trans ha
  | publish ep hrest =>
    cases hs
    exact ⟨_, h.goto hl (.inl hl) rfl rfl (.pend ⟨hrest.aff, hrest.target, hrest.quiet⟩ rfl)⟩
  | pend hrest hep =>
    cases hs
    exact ⟨_, h.goto hl (.inl hl) rfl rfl (.recheck ⟨rfl, hrest.target, hrest.quiet, hep⟩)⟩
  | recheck hpend =>
    dsimp only at hs
    rw [hpend.aff] at hs
    cases hs
    exact ⟨_, h.goto hl (.inl hl) rfl rfl (.powerOn hpend)⟩
  | powerOn hpend =>
    dsimp only at hs
    split at hs
    · cases hs
      exact ⟨_, h.goto hl (.inl hl) rfl rfl (.restore hpend)⟩
    · cases hs
      exact ⟨_, h.goto hl (.inl hl) rfl rfl (.succeeded ⟨hpend.aff, .inl ⟨rfl, hpend.target⟩⟩ hpend.ep)⟩
  | restore hpend =>
    cases hs
    exact ⟨_, h.goto hl (.inl hl) rfl rfl (.failed _ ⟨rfl, hpend.target, hpend.quiet⟩)⟩
  | succeeded hcom hep =>
    cases hs
    subst hep
    exact ⟨_, h.leave hl (.success c _ _ h.history)
      (.claimed ⟨hcom.aff, hcom.target.imp_right fun ht => ⟨ht.1, .inl ht.2⟩⟩)⟩
  | failed ep hrest =>
    cases hs
    have hev := Admits.failed c ep h.history
    rw [← hrest.aff] at hev
    exact ⟨_, h.leave hl hev (.off hrest)⟩
  | refused ep hfree hrc =>
    cases hs
    exact ⟨p, h.leave hl (.refused c ep _ hrc h.history) hfree⟩

/-! ### The target -/

theorem Holding.past {pc : CallerPc E} (h : Holding s pc p) (h1 : ¬ s.target.Asleep)
    (h2 : ¬ s.target.BeforeLock) :
    Free s p ∧ ∀ {s' : OnSystem E} {p' : OnPhase E}, Free s' p' → Holding s' pc p' := by
  cases h with
  | validate e h => exact ⟨h, fun h' => .validate e h'⟩
  | publish e h => exact absurd h.target h1
  | pend h => exact absurd h.target h1
  | recheck h => exact absurd h.target h1
  | powerOn h => exact absurd h.target h1
  | restore h => exact absurd h.target h1
  | succeeded h => exact (h.target.elim (fun ht => h1 ht.2) fun ht => h2 ht.2).elim
  | failed e h => exact absurd h.target h1
  | refused e h hrc => exact ⟨h, fun h' => .refused e h' hrc⟩

theorem OnInv.past {p' : OnPhase E} (h : OnInv p₀ s p) (h1 : ¬ s.target.Asleep)
    (h2 : ¬ s.target.BeforeLock) (hlock : s'.cpuLock = s.cpuLock) (hcaller : s'.caller = s.caller)
    (hfree : Free s p → Free s' p') (hhist : Free s p → Admits p₀ s'.history p') : OnInv p₀ s' p' := by
  have hp : Free s p := by
    cases hl : s.cpuLock with
    | none => exact h.free hl
    | some c => exact ((h.held c hl).past h1 h2).1
  refine ⟨hhist hp, fun c hc => ?_, fun _ => hfree hp, fun c hc => ?_⟩
  · rw [hcaller]
    exact h.outside c fun hs => hc (hlock.trans hs)
  · rw [hcaller]
    exact ((h.held c (hlock.symm.trans hc)).past h1 h2).2 (hfree hp)

theorem TargetPc.BeforeStart.awake {pc : TargetPc} (h : pc.BeforeStart) : ¬ pc.Asleep := by
  rcases h with (rfl | rfl) | rfl | rfl
  · decide
  · decide
  · decide
  · decide

theorem OnInv.before (h : OnInv p₀ s p) (hlock : s'.cpuLock = s.cpuLock)
    (hcaller : s'.caller = s.caller) (hhist : s'.history = s.history)
    (hep : s'.warmbootEpInfo = s.warmbootEpInfo) (hrest : Resting s → Resting s')
    (hpend : ∀ e, Pended s e → Pended s' e)
    (hcom : ∀ reached : TargetPc → Prop, (∀ pc, pc.BeforeLock → reached pc) →
      (∀ pc, reached pc → ¬ pc.Asleep) → Coming s reached → Coming s' reached)
    (h1 : s.target ≠ .toRun) (h2 : s.target ≠ .running) : OnInv p₀ s' p := by
  have hfree : ∀ {q : OnPhase E}, Free s q → Free s' q := by
    intro q hq
    cases hq with
    | off hr => exact .off (hrest hr)
    | claimed hc =>
      rw [← hep]
      exact .claimed (hcom _ (fun _ hpc => .inl hpc) (fun _ => TargetPc.BeforeStart.awake) hc)
    | starts _ ht => exact absurd ht h1
    | runs _ ht => exact absurd ht h2
  refine ⟨hhist.symm ▸ h.history, fun c hc => ?_, fun hl => hfree (h.free (hlock.symm.trans hl)),
    fun c hc => ?_⟩
  · rw [hcaller]
    exact h.outside c fun hs => hc (hlock.trans hs)
  · have hheld := h.held c (hlock.symm.trans hc)
    rw [hcaller]
    generalize s.caller c = pc at hheld
    cases hheld with
    | validate e hf => exact .validate e (hfree hf)
    | publish e hr => exact .publish e (hrest hr)
    | pend hr he => exact .pend (hrest hr) (hep.trans he)
    | recheck hp => exact .recheck (hpend _ hp)
    | powerOn hp => exact .powerOn (hpend _ hp)
    | restore hp => exact .restore (hpend _ hp)
    | succeeded hc he =>
      exact .succeeded (hcom _ (fun _ hpc => hpc) (fun _ hpc => TargetPc.BeforeStart.awake (.inl hpc)) hc)
        (hep.trans he)
    | failed e hr => exact .failed e (hrest hr)
    | refused e hf hrc => exact .refused e (hfree hf) hrc

theorem Free.coming (hf : Free s p) (h1 : ¬ s.target.Asleep) (h2 : s.target ≠ .toRun)
    (h3 : s.target ≠ .running) :
    p = .claimed s.warmbootEpInfo ∧ s.affInfoState = .onPending ∧ s.powerRequested = false := by
  cases hf with
  | off hr => exact absurd hr.target h1
  | claimed hc => exact ⟨rfl, hc.aff, (hc.target.resolve_left fun ht => h1 ht.2).1⟩
  | starts _ ht => exact absurd ht h2
  | runs _ ht => exact absurd ht h3

theorem Free.up (hf : Free s p) (h1 : ¬ s.target.Asleep) (h2 : ¬ s.target.BeforeStart) :
    p = .running ∧ s.powerRequested = false := by
  cases hf with
  | off hr => exact absurd hr.target h1
  | claimed hc => exact (hc.target.elim (fun ht => h1 ht.2) fun ht => h2 ht.2).elim
  | starts _ _ hq => exact ⟨rfl, hq⟩
  | runs _ _ hq => exact ⟨rfl, hq⟩

theorem OnInv.target (h : OnInv p₀ s p) (hs : advanceTarget s = some s') : ∃ p', OnInv p₀ s' p' := by
  unfold advanceTarget at hs
  split at hs
  · next ht =>
    -- released: it leaves `down`
    split at hs
    · next hreq =>
      cases hs
      refine ⟨p, h.before rfl rfl rfl rfl (fun hr => ?_) (fun e hp => ?_) (fun reached hb _ hc => ?_)
        (by rw [ht]; decide) (by rw [ht]; decide)⟩
      · cases hreq.symm.trans hr.quiet
      · cases hreq.symm.trans hp.quiet
      · exact ⟨hc.aff, .inr ⟨rfl, hb _ (.inl rfl)⟩⟩
    · cases hs
  · next ht =>
    have hawake : ¬ s.target.Asleep := by rw [ht]; decide
    split at hs
    · cases hs
      refine ⟨p, h.before rfl rfl rfl rfl (fun hr => absurd hr.target hawake)
        (fun e hp => absurd hp.target hawake) (fun reached hb _ hc => ?_) (by rw [ht]; decide)
        (by rw [ht]; decide)⟩
      have hq := hc.target.resolve_left fun ht' => hawake ht'.2
      exact ⟨hc.aff, .inr ⟨hq.1, hb _ (.inr rfl)⟩⟩
    · cases hs
  · next ht =>
    -- the lock is free, so no caller is in between
    split at hs
    · next hl =>
      cases hs
      obtain ⟨rfl, ha, hq⟩ := (h.free hl).coming (by rw [ht]; decide) (by rw [ht]; decide)
        (by rw [ht]; decide)
      exact ⟨_, h.history, h.outside, fun _ => .claimed ⟨ha, .inr ⟨hq, .inr (.inl rfl)⟩⟩,
        fun c hc => nomatch hl.symm.trans hc⟩
    · cases hs
  · next ht =>
    split at hs
    · cases hs
      refine ⟨p, h.past (by rw [ht]; decide) (by rw [ht]; decide) rfl rfl (fun hf => ?_) fun _ => h.history⟩
      obtain ⟨rfl, ha, hq⟩ := hf.coming (by rw [ht]; decide) (by rw [ht]; decide) (by rw [ht]; decide)
      exact .claimed ⟨ha, .inr ⟨hq, .inr (.inr rfl)⟩⟩
    · cases hs
  · next ht =>
    cases hs
    refine ⟨.running, h.past (by rw [ht]; decide) (by rw [ht]; decide) rfl rfl (fun hf => ?_) fun hf => ?_⟩
    · obtain ⟨-, ha, hq⟩ := hf.coming (by rw [ht]; decide) (by rw [ht]; decide) (by rw [ht]; decide)
      exact .starts ha rfl hq
    · obtain ⟨rfl, -, -⟩ := hf.coming (by rw [ht]; decide) (by rw [ht]; decide) (by rw [ht]; decide)
      exact .started h.history
  · next ht =>
    cases hs
    have hup : ∀ {q : OnPhase E}, Free s q → q = .running ∧ s.powerRequested = false := fun hf =>
      hf.up (by rw [ht]; decide) (by rw [ht]; simp [TargetPc.BeforeStart, TargetPc.BeforeLock])
    refine ⟨.running, h.past (by rw [ht]; decide) (by rw [ht]; decide) rfl rfl
      (fun hf => .runs rfl rfl (hup hf).2) fun hf => ?_⟩
    obtain ⟨rfl, -⟩ := hup hf
    exact h.history
  · cases hs
  · next ht =>
    cases hs
    refine ⟨p, h.before rfl rfl rfl rfl (fun hr => ⟨hr.aff, .inl rfl, hr.quiet⟩)
      (fun e hp => ⟨hp.aff, .inl rfl, hp.quiet, hp.ep⟩) (fun reached _ hr hc => ⟨hc.aff, ?_⟩)
      (by rw [ht]; decide) (by rw [ht]; decide)⟩
    rcases hc.target with ⟨hq, -⟩ | ⟨-, hpc⟩
    · exact .inl ⟨hq, .inl rfl⟩
    · exact absurd (.inr ht) (hr _ hpc)

theorem OnInv.step {a : OnAction E} (h : OnInv p₀ s p) (hs : OnSteps s a s') :
    ∃ p', OnInv p₀ s' p' := by
  have hrunning : s.target = .running → ∀ {q : OnPhase E}, Free s q →
      q = .running ∧ s.powerRequested = false := fun ht q hf =>
    hf.up (by rw [ht]; decide) (by rw [ht]; simp [TargetPc.BeforeStart, TargetPc.BeforeLock])
  cases a with
  | call c ep =>
    rw [OnSteps, onStep] at hs
    split at hs
    · next hidle =>
      cases hs
      -- the caller does not hold the lock
      have hl : s.cpuLock ≠ some c := fun hl => by
        have hheld := h.held c hl
        rw [hidle] at hheld
        cases hheld
      have hother : ∀ c', c' ≠ c → (s.goto c (.lock ep)).caller c' = s.caller c' :=
        fun c' hcc => Function.update_of_ne hcc _ _
      refine ⟨p, h.history, fun c' hc' => ?_, fun hn => (h.free hn).same (goto_same ..), fun c' hc' => ?_⟩
      · by_cases hcc : c' = c
        · subst hcc
          exact .inr ⟨ep, Function.update_self ..⟩
        · rw [hother c' hcc]
          exact h.outside c' hc'
      · rw [hother c' fun hcc => hl (hcc ▸ hc')]
        exact (h.held c' hc').same (goto_same ..)
    · cases hs
  | advance c platFails => exact h.advance hs
  | target => exact h.target hs
  | suspendEntry ep =>
    rw [OnSteps, onStep] at hs
    split at hs
    · next ht =>
      cases hs
      refine ⟨.running, h.past (by rw [ht]; decide) (by rw [ht]; decide) rfl rfl (fun hf => ?_) fun hf => ?_⟩
      · obtain ⟨rfl, hq⟩ := hrunning ht hf
        cases hf with
        | starts _ ht' => cases ht.symm.trans ht'
        | runs ha _ _ => exact .runs ha ht hq
      · obtain ⟨rfl, -⟩ := hrunning ht hf
        exact h.history
    · cases hs
  | cpuOff =>
    rw [OnSteps, onStep] at hs
    split at hs
    · next ht =>
      cases hs
      refine ⟨.off, h.past (by rw [ht]; decide) (by rw [ht]; decide) rfl rfl
        (fun hf => .off ⟨rfl, .inr rfl, (hrunning ht hf).2⟩) fun hf => ?_⟩
      obtain ⟨rfl, -⟩ := hrunning ht hf
      exact .off h.history
    · cases hs

theorem onInv_start (h : OnStart s) : ∃ p₀, (∀ e, p₀ ≠ .claimed e) ∧ OnInv p₀ s p₀ := by
  have hfree : ∀ {p₀ : OnPhase E}, Free s p₀ → OnInv p₀ s p₀ := fun hf =>
    ⟨h.history.symm ▸ .nil, fun c _ => .inl (h.idle c), fun _ => hf,
      fun c hc => nomatch h.unlocked.symm.trans hc⟩
  rcases h.target with ⟨ha, ht⟩ | ⟨ha, ht⟩
  · exact ⟨.off, (fun _ hc => nomatch hc), hfree (.off ⟨ha, .inl ht, h.quiet⟩)⟩
  · exact ⟨.running, (fun _ hc => nomatch hc), hfree (.runs ha ht h.quiet)⟩

end Steps

/-- **One caller wins.** In every interleaving of calls with each other and with the target, the history is
serial. -/
theorem cpuOn_calls_serial {s₀ s : OnSystem E} (h₀ : OnStart s₀) (h : Reach OnSteps s₀ s) :
    Serial s.history := by
  obtain ⟨p₀, hp₀, hinv₀⟩ := onInv_start h₀
  obtain ⟨p, hinv⟩ := h.invariant (I := fun s => ∃ p, OnInv p₀ s p) ⟨p₀, hinv₀⟩
    fun u a v ⟨p, hp⟩ hs => hp.step hs
  exact hinv.history.serial hp₀

end Model

def targetOff : OnSystem ℕ := ⟨.off, 0, none, false, .down, fun _ => .idle, []⟩

theorem cpuOn_calls_serial_two : ∃ s, Reach OnSteps targetOff s ∧
    s.history = [.returned 2 PSCI_E_SUCCESS 20 .onPending, .returned 1 PSCI_E_ON_PENDING 10 .onPending,
      .started 20] ∧ Serial s.history := by
  have hrun : ([.call 1 10, .call 2 20, .advance 2 false, .advance 2 false, .advance 2 false,
      .advance 2 false, .advance 2 false, .advance 2 false, .target, .advance 2 false,
      .advance 1 false, .target, .advance 1 false, .advance 1 false, .target, .target,
      .target].foldlM onStep targetOff).any (fun s => s.history ==
        [.returned 2 PSCI_E_SUCCESS 20 .onPending, .returned 1 PSCI_E_ON_PENDING 10 .onPending,
          .started 20]) = true := by decide +kernel
  obtain ⟨s, hs, hhist⟩ := (Option.any_eq_true _ _).mp hrun
  have hreach : Reach OnSteps targetOff s := Reach.of_foldlM hs
  exact ⟨s, hreach, beq_iff_eq.mp hhist,
    cpuOn_calls_serial ⟨fun _ => rfl, rfl, rfl, .inl ⟨rfl, rfl⟩, rfl⟩ hreach⟩

/-! ## A call on its own -/

section Uninterrupted
variable {E : Type} {s₀ s : OnSystem E} {c : ℕ} {ep : E} {platFails : Bool}

theorem goto_caller (s : OnSystem E) (c : ℕ) (pc : CallerPc E) : (s.goto c pc).caller c = pc :=
  Function.update_self ..

theorem reach_advance (platFails : Bool) {pc : CallerPc E} {s' : OnSystem E}
    (h : Reach OnSteps s₀ (s.goto c pc)) (hs : advanceCaller (s.goto c pc) c platFails = some s') :
    Reach OnSteps s₀ s' := Reach.tail h (show OnSteps _ (.advance c platFails) _ from hs)

theorem reach_leave {rc : Int} (h : Reach OnSteps s₀ (s.goto c (.leave ep rc))) :
    ∃ s', Reach OnSteps s₀ s' ∧ s'.affInfoState = s.affInfoState ∧
      s'.history = s.history ++ [.returned c rc ep s.affInfoState] := by
  have hidle := reach_advance false h (by rw [advanceCaller, goto_caller])
  exact ⟨_, hidle, rfl, rfl⟩

theorem reach_powerOn (platFails : Bool) (h : Reach OnSteps s₀ (s.goto c (.publish ep))) :
    ∃ s', Reach OnSteps s₀ s' ∧ s'.affInfoState = (if platFails then .off else .onPending) ∧
      s'.history = s.history ++ [.returned c (if platFails then PSCI_E_INTERN_FAIL else PSCI_E_SUCCESS) ep
        s'.affInfoState] := by
  have hpend := reach_advance platFails h (by rw [advanceCaller, goto_caller])
  have hrecheck := reach_advance platFails hpend (by rw [advanceCaller, goto_caller])
  have hon := reach_advance platFails hrecheck (by rw [advanceCaller, goto_caller]; rfl)
  cases platFails with
  | true =>
    have hrestore := reach_advance true hon (by rw [advanceCaller, goto_caller]; rfl)
    have hleave := reach_advance true hrestore (by rw [advanceCaller, goto_caller])
    obtain ⟨s', hr, ha, hh⟩ := reach_leave hleave
    exact ⟨s', hr, ha, by rw [hh, ha]; rfl⟩
  | false =>
    have hleave := reach_advance false hon (by rw [advanceCaller, goto_caller]; rfl)
    obtain ⟨s', hr, ha, hh⟩ := reach_leave hleave
    exact ⟨s', hr, ha, by rw [hh, ha]; rfl⟩

/-- A call that nothing interrupts does what `psciCpuOnStart` says. -/
theorem advance_uninterrupted {P : Platform} {ps : PsciState} {t : ℕ} (ht : t < P.coreCount)
    (platFails : Bool) (hl : s.cpuLock = none) (hc : s.caller c = .lock ep)
    (haff : s.affInfoState = ps.affInfoState t) :
    ∃ s', Reach OnSteps s s' ∧ s'.affInfoState = (psciCpuOnStart P t platFails ps).2.affInfoState t ∧
      s'.history = s.history ++
        [.returned c (psciCpuOnStart P t platFails ps).1 ep s'.affInfoState] := by
  obtain ⟨v, hv, hvc, hva, hvh⟩ : ∃ v, Reach OnSteps s v ∧ v.caller c = .validate ep ∧
      v.affInfoState = ps.affInfoState t ∧ v.history = s.history := by
    refine ⟨OnSystem.goto { s with cpuLock := some c } c (.validate ep), ?_, goto_caller .., haff, rfl⟩
    refine (Reach.refl OnSteps s).tail (show OnSteps _ (.advance c platFails) _ from ?_)
    rw [OnSteps, onStep, advanceCaller, hc]
    exact if_pos hl
  unfold psciCpuOnStart
  rw [if_neg (by omega)]
  cases hps : ps.affInfoState t with
  | on =>
    have hleave : OnSteps v (.advance c platFails) (v.goto c (.leave ep PSCI_E_ALREADY_ON)) := by
      rw [OnSteps, onStep, advanceCaller, hvc]
      dsimp only
      rw [hva, hps]
    obtain ⟨s', hr, ha, hh⟩ := reach_leave (hv.tail hleave)
    exact ⟨s', hr, ha.trans hva, by rw [hh, hvh, ha]⟩
  | onPending =>
    have hleave : OnSteps v (.advance c platFails) (v.goto c (.leave ep PSCI_E_ON_PENDING)) := by
      rw [OnSteps, onStep, advanceCaller, hvc]
      dsimp only
      rw [hva, hps]
    obtain ⟨s', hr, ha, hh⟩ := reach_leave (hv.tail hleave)
    exact ⟨s', hr, ha.trans hva, by rw [hh, hvh, ha]⟩
  | off =>
    have hpublish : OnSteps v (.advance c platFails) (v.goto c (.publish ep)) := by
      rw [OnSteps, onStep, advanceCaller, hvc]
      dsimp only
      rw [hva, hps]
    obtain ⟨s', hr, ha, hh⟩ := reach_powerOn platFails (hv.tail hpublish)
    refine ⟨s', hr, ?_, ?_⟩
    · cases platFails with
      | true => exact ha.trans (@Function.update_self ℕ (fun _ => AffInfoState) _ t .off _).symm
      | false => exact ha.trans (@Function.update_self ℕ (fun _ => AffInfoState) _ t .onPending _).symm
    · cases platFails with
      | true => rw [hh, hvh]; rfl
      | false => rw [hh, hvh]; rfl

end Uninterrupted

end TrustedFirmware.Psci
