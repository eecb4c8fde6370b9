import TrustedFirmware.Foundations.Runs
import TrustedFirmware.Lfa.Service

/-! # Sequences of calls

Calls that run one after another. A component's activator is to be reached only on the
image that its own prime loaded and authenticated, and only once. The service forgets to
look at the component when a prime is complete, and it forgets no prime when an activation
ends, so this holds under a condition on the calls. -/
namespace TrustedFirmware.Lfa
open Libc Runs
set_option autoImplicit false

structure ActivatorAnswers where
  ret : Int
  leads : Bool
  deriving DecidableEq, Repr

inductive Call where
  | getInventory (x1 : UInt64) (isPlatLfaActivationPending : Bool)
  | prime (x1 : UInt64) (a : PrimeAnswers)
  | activate (x1 x2 : UInt64) (p : PrepareAnswers) (a : ActivatorAnswers)
  | cancel (x1 : UInt64) (a : CancelAnswers)

inductive Event where
  | refused (ret : Int)
  | inventory (id : ℕ)
  /-- The image of `id` was loaded and authenticated, and its prime is complete. -/
  | primed (id : ℕ)
  /-- The load, the authentication or the activator's prime failed, or is to be called again. -/
  | primeFailed (id : ℕ)
  /-- The activator of `id` was reached and returned `ret`. -/
  | activated (id : ℕ) (ret : Int)
  | cancelled (id : ℕ)
  deriving DecidableEq, Repr

def fwSeqId (x1 : UInt64) : ℕ := x1.toNat % 2 ^ 32

def skipRequested (x2 : UInt64) : Bool := x2.toNat.testBit 0

def runActivator (s : Service) (ops : ComponentOps) (a : ActivatorAnswers) : Service × Int :=
  if ops.activate then
    (if ops.leaderResets ∧ a.leads then lfaResetActivation s else s, a.ret)
  else (s, LFA_SUCCESS)

def lfaActivate (s : Service) (id : ℕ) (skip : Bool) (p : PrepareAnswers) (a : ActivatorAnswers) :
    Service × Event :=
  match lfaActivateEnter s id skip p with
  | (s, .error ret) => (s, .refused ret)
  | (s, .ok ops) =>
    (lfaActivateReturned (runActivator s ops a).1 id (runActivator s ops a).2,
      .activated id (runActivator s ops a).2)

def lfaSmcHandler (s : Service) : Call → Option (Service × Event)
  | .getInventory x1 pending =>
    some ((lfaGetInventory s (fwSeqId x1) pending).1, .inventory (fwSeqId x1))
  | .prime x1 a =>
    some ((lfaPrime s (fwSeqId x1) a).1, match lfaPrimeBegin s (fwSeqId x1) with
      | .error ret => .refused ret
      | .ok (_, ops) => if a.succeeds ops then .primed (fwSeqId x1) else .primeFailed (fwSeqId x1))
  | .activate x1 x2 p a => some (lfaActivate s (fwSeqId x1) (skipRequested x2) p a)
  | .cancel x1 a =>
    (lfaCancel s (fwSeqId x1) a).map fun x =>
      (x.1, if x.2 = LFA_SUCCESS then .cancelled (fwSeqId x1) else .refused x.2)

/-- The events behind which an earlier prime allows no activation. An activation in several stages
goes on after `-EAGAIN`. -/
def Event.ends : Event → Bool
  | refused _ => false
  | inventory _ => false
  | primed _ => true
  | primeFailed _ => true
  | activated _ ret => decide (ret ≠ -EAGAIN)
  | cancelled _ => true

/-- The image loaded last is that of `id`, its prime was complete, and since then there was no
prime, no cancel and no activation. -/
def Primed (id : ℕ) (t : List Event) : Prop := t.reverse.find? Event.ends = some (.primed id)

instance (id : ℕ) (t : List Event) : Decidable (Primed id t) := by
  unfold Primed
  infer_instance

theorem primed_snoc {id : ℕ} {t : List Event} : Primed id (t ++ [.primed id]) := by
  simp [Primed, Event.ends]

theorem Primed.snoc {id : ℕ} {t : List Event} {e : Event} (h : Primed id t) (he : e.ends = false) :
    Primed id (t ++ [e]) := by
  simpa [Primed, he] using h

/-! ## The condition -/

/-- While a prime is complete, only the same component is primed again, and successfully. An
activator that fails has reset the activation. The platform announces no update of a component
that was activated and not primed since. -/
def Disciplined (s : Service) : Call → Prop
  | .getInventory x1 pending =>
    pending = true → s.current.componentId = fwSeqId x1 → s.current.primeStatus = .complete →
      s.activationPending (fwSeqId x1) = true
  | .prime x1 a =>
    s.current.primeStatus = .complete → s.activationPending (fwSeqId x1) = true →
      ∀ ops ∈ s.activator (fwSeqId x1),
        fwSeqId x1 = s.current.componentId ∧ a.succeeds ops = true
  | .activate x1 _ _ a =>
    ∀ ops ∈ s.activator (fwSeqId x1), ops.activate = true → a.ret ≠ LFA_SUCCESS → a.ret ≠ -EAGAIN →
      ops.leaderResets = true ∧ a.leads = true
  | .cancel _ _ => True

instance (s : Service) (c : Call) : Decidable (Disciplined s c) := by
  cases c <;> unfold Disciplined <;> infer_instance

/-! ## Runs -/

variable {s s' : Service} {id : ℕ} {t : List Event}

/-- Between two calls no CPU is inside LFA_ACTIVATE, and a component that could be activated was
primed last. -/
structure PrimeInv (t : List Event) (s : Service) : Prop where
  users : s.activationUsers = 0
  failed : s.activationInProgress = true → s.activationFailed = false
  primed : s.current.primeStatus = .complete →
    s.activationPending s.current.componentId = true → Primed s.current.componentId t

theorem PrimeInv.reset (s : Service) : PrimeInv t (lfaResetActivation s) :=
  ⟨rfl, fun h => absurd h (by simp [lfaResetActivation]),
    fun h => absurd h (by simp [lfaResetActivation])⟩

theorem PrimeInv.same {e : Event} (h : PrimeInv t s) (hs : SamePrime s s')
    (hu : s'.activationUsers = 0)
    (hf : s'.activationInProgress = true → s'.activationFailed = false) (he : e.ends = false) :
    PrimeInv (t ++ [e]) s' := by
  refine ⟨hu, hf, fun hc hp => ?_⟩
  rw [hs.primeStatus] at hc
  rw [hs.activationPending, hs.componentId] at hp
  rw [hs.componentId]
  exact (h.primed hc hp).snoc he

theorem PrimeInv.getInventory {x1 : UInt64} {p : Bool} (h : PrimeInv t s)
    (hd : Disciplined s (.getInventory x1 p)) :
    PrimeInv (t ++ [.inventory (fwSeqId x1)]) (lfaGetInventory s (fwSeqId x1) p).1 := by
  rw [lfaGetInventory]
  split
  · exact h.same ⟨rfl, rfl, rfl⟩ h.users h.failed rfl
  · refine ⟨h.users, h.failed, fun hc hp => ?_⟩
    change s.current.primeStatus = .complete at hc
    change (s.setPending (fwSeqId x1) p).activationPending s.current.componentId = true at hp
    change Primed s.current.componentId _
    refine (h.primed hc ?_).snoc rfl
    rw [setPending_activationPending] at hp
    split at hp
    · rename_i heq
      rw [heq.1]
      exact hd hp heq.1 hc
    · exact hp

theorem primeBegin_ok {ops : ComponentOps} (h : lfaPrimeBegin s id = .ok (s', ops)) :
    s.activationPending id = true ∧ s.activator id = some ops ∧
    s'.activationUsers = s.activationUsers ∧ s'.activationInProgress = s.activationInProgress ∧
    s'.activationFailed = s.activationFailed ∧
    ((s'.current.primeStatus = .started ∧ s'.current.componentId = id) ∨
      (s' = s ∧ s.current.primeStatus = .complete)) := by
  rw [lfaPrimeBegin] at h
  split at h
  · cases h
  split at h
  · cases h
  rename_i hpend
  have hp : s.activationPending id = true := by simpa using hpend
  cases hact : s.activator id with
  | none =>
    rw [hact] at h
    cases h
  | some ops' =>
    rw [hact] at h
    cases hst : s.current.primeStatus with
    | none =>
      simp only [hst, Except.ok.injEq, Prod.mk.injEq] at h
      obtain ⟨rfl, rfl⟩ := h
      exact ⟨hp, rfl, rfl, rfl, rfl, Or.inl ⟨rfl, rfl⟩⟩
    | started =>
      simp only [hst] at h
      split at h
      · cases h
      · rename_i hid
        simp only [Except.ok.injEq, Prod.mk.injEq] at h
        obtain ⟨rfl, rfl⟩ := h
        exact ⟨hp, rfl, rfl, rfl, rfl, Or.inl ⟨hst, not_not.mp hid⟩⟩
    | complete =>
      simp only [hst, Except.ok.injEq, Prod.mk.injEq] at h
      obtain ⟨rfl, rfl⟩ := h
      exact ⟨hp, rfl, rfl, rfl, rfl, Or.inr ⟨rfl, rfl⟩⟩

theorem PrimeInv.prime {x1 : UInt64} {a : PrimeAnswers} {e : Event} (h : PrimeInv t s)
    (hd : Disciplined s (.prime x1 a))
    (hs : lfaSmcHandler s (.prime x1 a) = some (s', e)) : PrimeInv (t ++ [e]) s' := by
  simp only [lfaSmcHandler, lfaPrime, Option.some.injEq, Prod.mk.injEq] at hs
  cases hb : lfaPrimeBegin s (fwSeqId x1) with
  | error ret =>
    simp only [hb] at hs
    obtain ⟨rfl, rfl⟩ := hs
    exact h.same ⟨rfl, rfl, rfl⟩ h.users h.failed rfl
  | ok x =>
    obtain ⟨u, ops⟩ := x
    obtain ⟨hpend, hact, hu, hp, hf, hor⟩ := primeBegin_ok hb
    simp only [hb] at hs
    obtain ⟨hs1, hs2⟩ := hs
    by_cases hok : a.succeeds ops = true
    · rw [if_pos hok] at hs1 hs2
      have hid : u.current.componentId = fwSeqId x1 := by
        rcases hor with ⟨-, hid⟩ | ⟨rfl, hcomp⟩
        · exact hid
        · exact (hd hcomp hpend ops hact).1.symm
      subst hs1 hs2
      refine ⟨hu.trans h.users, fun hin => ?_, fun _ _ => ?_⟩
      · exact hf.trans (h.failed (hp.symm.trans hin))
      · change Primed u.current.componentId _
        rw [hid]
        exact primed_snoc
    · rw [if_neg hok] at hs1 hs2
      subst hs1 hs2
      refine ⟨hu.trans h.users, fun hin => hf.trans (h.failed (hp.symm.trans hin)), fun hc _ => ?_⟩
      rcases hor with ⟨hst, -⟩ | ⟨rfl, hcomp⟩
      · exact absurd (hst.symm.trans hc) (by simp)
      · exact absurd (hd hcomp hpend ops hact).2 hok

theorem PrimeInv.returned {ops : ComponentOps} {ret : Int} (h : PrimeInv t s)
    (he : Entered s s' id ops) (hret : ret = LFA_SUCCESS ∨ ret = -EAGAIN) :
    PrimeInv (t ++ [.activated id ret]) (lfaActivateReturned s' id ret) := by
  have hu : s'.activationUsers = 1 := by simp [he.users, h.users]
  have hf : s'.activationFailed = false := by
    rw [he.failed]
    cases hin : s.activationInProgress with
    | false => rfl
    | true => simp [h.failed hin]
  by_cases hagain : ret = -EAGAIN
  · rw [lfaActivateReturned, if_pos hagain, lfaActivateFinish]
    simp only [if_true]
    refine h.same ⟨he.components, he.componentId, he.primeStatus⟩ ?_ (fun _ => hf) ?_
    · change s'.activationUsers - 1 = 0
      rw [hu]
    · simp [Event.ends, hagain]
  · have hok : ret = LFA_SUCCESS := hret.resolve_right hagain
    have hid : s'.current.componentId = id := he.componentId.trans he.current
    rw [lfaActivateReturned, if_neg hagain, lfaActivateFinish]
    simp only [hu, hf, hok, Bool.true_eq_false, if_false, ne_eq, not_true_eq_false, decide_false,
      Bool.or_self, Bool.false_eq_true, if_true]
    refine ⟨rfl, fun hin => absurd hin (by simp [Service.setPending]), fun _ hp => ?_⟩
    change Service.activationPending (Service.setPending _ id false) s'.current.componentId = true at hp
    rw [setPending_activationPending, hid] at hp
    split at hp
    · cases hp
    · rename_i hlt
      have hnone : s'.components[id]? = none := by
        refine List.getElem?_eq_none (Nat.le_of_not_lt fun hl => hlt ⟨rfl, hl⟩)
      rw [Service.activationPending] at hp
      change (s'.components[id]?).any _ = true at hp
      rw [hnone] at hp
      cases hp

theorem PrimeInv.activate {x1 x2 : UInt64} {p : PrepareAnswers} {a : ActivatorAnswers} {e : Event}
    (h : PrimeInv t s) (hd : Disciplined s (.activate x1 x2 p a))
    (hs : lfaSmcHandler s (.activate x1 x2 p a) = some (s', e)) : PrimeInv (t ++ [e]) s' := by
  simp only [lfaSmcHandler, lfaActivate, Option.some.injEq] at hs
  rcases henter : lfaActivateEnter s (fwSeqId x1) (skipRequested x2) p with ⟨u, r⟩
  simp only [henter] at hs
  rcases activateEnter_cases henter with ⟨ret, rfl, href⟩ | ⟨ops, rfl, hent⟩
  · cases hs
    refine h.same href.toSamePrime (href.users.trans h.users) (fun hin => ?_) rfl
    have hf := h.failed (href.inProgress.symm.trans hin)
    rcases href.failed with hf' | hf'
    · rw [hf', hf, Bool.and_false]
    · exact hf'.trans hf
  · cases hs
    rw [runActivator]
    by_cases hact : ops.activate = true
    · rw [if_pos hact]
      by_cases hlead : ops.leaderResets = true ∧ a.leads = true
      · -- the record of the prime is gone, whatever the activator returned
        rw [if_pos hlead]
        have hret := activateReturned_spec (lfaResetActivation u) (fwSeqId x1) a.ret
        have hprog := hret.inProgress.mpr (Or.inl rfl)
        refine ⟨hret.users, fun hin => absurd hprog (by simp [hin]), fun hc => ?_⟩
        rw [hret.current] at hc
        cases hc
      · rw [if_neg hlead]
        refine h.returned hent ?_
        by_contra hne
        rw [not_or] at hne
        exact hlead (hd ops hent.activator hact hne.1 hne.2)
    · rw [if_neg hact]
      exact h.returned hent (Or.inl rfl)

theorem PrimeInv.cancel {x1 : UInt64} {a : CancelAnswers} {e : Event} (h : PrimeInv t s)
    (hs : lfaSmcHandler s (.cancel x1 a) = some (s', e)) : PrimeInv (t ++ [e]) s' := by
  simp only [lfaSmcHandler, Option.map_eq_some_iff, Prod.mk.injEq, Prod.exists] at hs
  obtain ⟨u, ret, hu, rfl, rfl⟩ := hs
  rcases cancel_cases hu with ⟨rfl, hret⟩ | ⟨rfl, -⟩
  · rw [if_neg hret]
    exact h.same ⟨rfl, rfl, rfl⟩ h.users h.failed rfl
  · exact PrimeInv.reset s

theorem PrimeInv.step {c : Call} {e : Event} (h : PrimeInv t s) (hd : Disciplined s c)
    (hs : lfaSmcHandler s c = some (s', e)) : PrimeInv (t ++ [e]) s' := by
  cases c with
  | getInventory x1 p =>
    simp only [lfaSmcHandler, Option.some.injEq, Prod.mk.injEq] at hs
    obtain ⟨rfl, rfl⟩ := hs
    exact h.getInventory hd
  | prime x1 a => exact h.prime hd hs
  | activate x1 x2 p a => exact h.activate hd hs
  | cancel x1 a => exact h.cancel hs

def events (t : List (Call × Event)) : List Event := t.map Prod.snd

theorem activated_entered {c : Call} {ret : Int}
    (hs : lfaSmcHandler s c = some (s', .activated id ret)) :
    ∃ u ops, Entered s u id ops := by
  cases c with
  | getInventory x1 p => cases hs
  | prime x1 a =>
    simp only [lfaSmcHandler, Option.some.injEq, Prod.mk.injEq] at hs
    have he := hs.2
    split at he
    · cases he
    · split at he
      · cases he
      · cases he
  | activate x1 x2 p a =>
    simp only [lfaSmcHandler, lfaActivate, Option.some.injEq] at hs
    rcases henter : lfaActivateEnter s (fwSeqId x1) (skipRequested x2) p with ⟨u, r⟩
    simp only [henter] at hs
    rcases activateEnter_cases henter with ⟨ret, rfl, href⟩ | ⟨ops, rfl, hent⟩
    · cases hs
    · simp only [Prod.mk.injEq, Event.activated.injEq] at hs
      exact ⟨u, ops, hs.2.1 ▸ hent⟩
  | cancel x1 a =>
    simp only [lfaSmcHandler, Option.map_eq_some_iff, Prod.mk.injEq] at hs
    obtain ⟨x, -, -, he⟩ := hs
    split at he
    · cases he
    · cases he

def twoComponents : List Component := [⟨some bl31Activator, true⟩, ⟨some bl31Activator, true⟩]

def activateCall (x1 : UInt64) : Call := .activate x1 0 ⟨0, 1⟩ ⟨LFA_SUCCESS, true⟩

def primeCall (x1 : UInt64) : Call := .prime x1 ⟨0, LFA_SUCCESS⟩

end TrustedFirmware.Lfa
