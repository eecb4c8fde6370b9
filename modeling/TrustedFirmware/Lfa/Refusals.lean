import TrustedFirmware.Lfa.Service

/-! # Calls of LFA_ACTIVATE that are refused

The first caller of a round sets the policy of the round before the last checks. A refusal behind
that point leaves the policy as it is; the next first caller sets all of it again but one flag, which
is read before. -/
namespace TrustedFirmware.Lfa
open Libc
set_option autoImplicit false

variable {s s' : Service} {id : ℕ} {skip : Bool} {ops : ComponentOps} {a : PrepareAnswers}

structure SameBookkeeping (s s' : Service) : Prop extends SamePrime s s' where
  skip : s'.activationSkipCpuRendezvous = s.activationSkipCpuRendezvous
  users : s'.activationUsers = s.activationUsers

/-- A refused call keeps the bookkeeping, and the next call for the component that is primed gets
the answer and leads to the state that it would without the refused one. -/
def Undone (s : Service) (id : ℕ) (skip : Bool) (a : PrepareAnswers) : Prop :=
  ∀ s' ret, lfaActivateEnter s id skip a = (s', .error ret) → SameBookkeeping s s' ∧
    ∀ skip' a', (lfaActivateEnter s' s.current.componentId skip' a').2 =
        (lfaActivateEnter s s.current.componentId skip' a').2 ∧
      SameBookkeeping (lfaActivateEnter s s.current.componentId skip' a').1
        (lfaActivateEnter s' s.current.componentId skip' a').1 ∧
      ∀ ops, (lfaActivateEnter s s.current.componentId skip' a').2 = .ok ops →
        (lfaActivateEnter s' s.current.componentId skip' a').1 =
          (lfaActivateEnter s s.current.componentId skip' a').1

structure ReadyFor (s : Service) (id : ℕ) (ops : ComponentOps) : Prop where
  inRange : id < s.componentCount
  current : s.current.componentId = id
  pending : s.activationPending id = true
  complete : s.current.primeStatus = .complete
  activator : s.activator id = some ops

/-- The first caller of a round asks to skip the rendezvous, and is refused with the flag changed: it
is set when the platform refuses the activation, and cleared when the rendezvous is required. -/
def ChangesFlag (s : Service) (id : ℕ) (skip : Bool) (a : PrepareAnswers) : Prop :=
  skip = true ∧ s.activationInProgress = false ∧ ∃ ops, ReadyFor s id ops ∧
    if ops.cpuRendezvousRequired then s.activationSkipCpuRendezvous = true
    else s.activationSkipCpuRendezvous = false ∧ a.platLfaNotifyActivate ≠ 0

theorem lfaActivateEnter_ready (h : ReadyFor s id ops)
    (hskip : ¬ (skip = false ∧ s.activationSkipCpuRendezvous = true)) :
    lfaActivateEnter s id skip a = prepareReady s ops skip a := by
  rw [lfaActivateEnter, if_neg hskip, lfaActivatePrepare,
    if_neg (not_or.mpr ⟨Nat.not_le.mpr h.inRange, not_not.mpr h.current⟩),
    if_neg (not_or.mpr ⟨by rw [h.pending]; decide, not_not.mpr h.complete⟩), h.activator]

/-- States that differ in what the first caller of a round sets. -/
def Retouched (s s' : Service) : Prop :=
  ∃ rendezvous failed locked, s' = { s with
    current := { s.current with cpuRendezvous := rendezvous }
    activationFailed := failed
    activationCancelLocked := locked }

theorem Retouched.same (h : Retouched s s') : SameBookkeeping s s' := by
  obtain ⟨c, f, k, rfl⟩ := h
  exact ⟨⟨rfl, rfl, rfl⟩, rfl, rfl⟩

theorem Retouched.refl (s : Service) : Retouched s s := ⟨_, _, _, rfl⟩

/-- A call that is refused is refused before anything is written, for reasons that the policy of a
round has no part in, or goes on for a component that is ready. -/
theorem lfaActivateEnter_cases (s : Service) (id : ℕ) (skip : Bool) (a : PrepareAnswers) :
    (∃ ret, ∀ u, Retouched s u → lfaActivateEnter u id skip a = (u, .error ret)) ∨
      ∃ ops, ReadyFor s id ops ∧ ¬ (skip = false ∧ s.activationSkipCpuRendezvous = true) := by
  by_cases hskip : skip = false ∧ s.activationSkipCpuRendezvous = true
  · exact .inl ⟨_, fun u ⟨c, f, k, hu⟩ => by subst hu; exact if_pos hskip⟩
  by_cases hid : id ≥ s.componentCount ∨ s.current.componentId ≠ id
  · exact .inl ⟨LFA_INVALID_PARAMETERS, fun u ⟨c, f, k, hu⟩ => by
      subst hu
      exact (if_neg hskip).trans (if_pos hid)⟩
  by_cases hready : s.activationPending id = false ∨ s.current.primeStatus ≠ .complete
  · exact .inl ⟨LFA_COMPONENT_WRONG_STATE, fun u ⟨c, f, k, hu⟩ => by
      subst hu
      exact (if_neg hskip).trans ((if_neg hid).trans (if_pos hready))⟩
  cases hact : s.activator id with
  | none =>
    refine .inl ⟨LFA_NOT_SUPPORTED, fun u ⟨c, f, k, hu⟩ => ?_⟩
    have hact' : u.activator id = none := by
      subst hu
      exact hact
    rw [lfaActivateEnter, lfaActivatePrepare, hact']
    subst hu
    exact (if_neg hskip).trans ((if_neg hid).trans (if_neg hready))
  | some ops =>
    rw [not_or, Nat.not_le, not_not] at hid
    rw [not_or, Bool.not_eq_false, not_not] at hready
    exact .inr ⟨ops, ⟨hid.1, hid.2, hready.1, hready.2, hact⟩, hskip⟩

theorem Retouched.prepareReady (h : Retouched s s') (hfirst : s.activationInProgress = false)
    (ops : ComponentOps) (skip : Bool) (a : PrepareAnswers) :
    prepareReady s' ops skip a = prepareReady s ops skip a := by
  have hpolicy : prepareFirst s' ops skip = prepareFirst s ops skip := by
    obtain ⟨c, f, k, rfl⟩ := h
    rw [prepareFirst, prepareFirst, hfirst]
    rfl
  have hprogress : s'.activationInProgress = s.activationInProgress := by
    obtain ⟨c, f, k, rfl⟩ := h
    rfl
  rw [Lfa.prepareReady, Lfa.prepareReady, hpolicy, hprogress]

/-- The next call goes the same way, as the first caller of a round sets what differs. -/
theorem Retouched.enter (h : Retouched s s') (hfirst : s.activationInProgress = false) (id : ℕ)
    (skip : Bool) (a : PrepareAnswers) :
    (lfaActivateEnter s' id skip a).2 = (lfaActivateEnter s id skip a).2 ∧
      SameBookkeeping (lfaActivateEnter s id skip a).1 (lfaActivateEnter s' id skip a).1 ∧
      ∀ ops, (lfaActivateEnter s id skip a).2 = .ok ops →
        (lfaActivateEnter s' id skip a).1 = (lfaActivateEnter s id skip a).1 := by
  rcases lfaActivateEnter_cases s id skip a with ⟨ret, hret⟩ | ⟨ops, hops, hskip⟩
  · rw [hret s (.refl s), hret s' h]
    exact ⟨rfl, h.same, fun ops hok => absurd hok (by simp)⟩
  · have hops' : ReadyFor s' id ops ∧ s'.activationSkipCpuRendezvous = s.activationSkipCpuRendezvous := by
      obtain ⟨c, f, k, rfl⟩ := h
      exact ⟨⟨hops.inRange, hops.current, hops.pending, hops.complete, hops.activator⟩, rfl⟩
    rw [lfaActivateEnter_ready hops hskip,
      lfaActivateEnter_ready hops'.1 (by rw [hops'.2]; exact hskip), h.prepareReady hfirst]
    exact ⟨rfl, ⟨⟨rfl, rfl, rfl⟩, rfl, rfl⟩, fun _ _ => rfl⟩

/-! ## Refusals of a component that is ready -/

/-- While a round is in progress a refusal writes nothing. -/
theorem prepareReady_later {ret : Int} (hlater : s.activationInProgress = true)
    (h : prepareReady s ops skip a = (s', .error ret)) : s' = s := by
  rw [prepareReady, prepareFirst, if_pos hlater, hlater, prepareSkip] at h
  split at h
  · rename_i u r hr
    split at hr
    · split at hr
      · exact (Prod.mk.inj h).1.symm.trans (Prod.mk.inj hr).1.symm
      split at hr
      · exact (Prod.mk.inj h).1.symm.trans (Prod.mk.inj hr).1.symm
      · exact absurd (Prod.mk.inj hr).2 (by simp)
    · exact absurd (Prod.mk.inj hr).2 (by simp)
  · rw [if_neg (by simp)] at h
    exact absurd (Prod.mk.inj h).2 (by simp)

/-- What the first caller of a round does for a component that is ready. -/
theorem prepareReady_first (hfirst : s.activationInProgress = false) (ops : ComponentOps)
    (skip : Bool) (a : PrepareAnswers) :
    ∃ u, Retouched { s with activationSkipCpuRendezvous := skip && !ops.cpuRendezvousRequired } u ∧
      prepareReady s ops skip a =
        if skip = true ∧ ops.cpuRendezvousRequired = true then (u, .error LFA_INVALID_PARAMETERS)
        else if a.platLfaNotifyActivate ≠ 0 then (u, .error LFA_ACTIVATION_FAILED)
        else (countUser u a.cpusRunning, .ok ops) := by
  rw [prepareReady, prepareFirst, hfirst, prepareSkip]
  cases skip with
  | false => exact ⟨_, ⟨true, false, false, rfl⟩, by simp⟩
  | true =>
    cases hreq : ops.cpuRendezvousRequired with
    | false => exact ⟨_, ⟨false, false, false, rfl⟩, by simp⟩
    | true => exact ⟨_, ⟨true, false, false, rfl⟩, by simp⟩

/-- A refused call of LFA_ACTIVATE leaves no trace unless it is the first of a round, asks to skip the
rendezvous and changes the flag. -/
theorem refusal_undone_iff (s : Service) (id : ℕ) (skip : Bool) (a : PrepareAnswers) :
    Undone s id skip a ↔ ¬ ChangesFlag s id skip a := by
  constructor
  · rintro hundone ⟨rfl, hfirst, ops, hready, hflag⟩
    obtain ⟨u, hu, hcall⟩ := prepareReady_first hfirst ops true a
    rw [← lfaActivateEnter_ready hready (by simp)] at hcall
    have hskip : u.activationSkipCpuRendezvous = (true && !ops.cpuRendezvousRequired) := hu.same.skip
    split at hflag
    · rename_i hreq
      rw [if_pos ⟨rfl, hreq⟩] at hcall
      have hsame := (hundone u _ hcall).1.skip
      rw [hskip, hflag, hreq] at hsame
      exact absurd hsame (by decide)
    · rename_i hreq
      rw [if_neg fun h => hreq h.2, if_pos hflag.2] at hcall
      have hsame := (hundone u _ hcall).1.skip
      rw [hskip, hflag.1, Bool.eq_false_iff.mpr hreq] at hsame
      exact absurd hsame (by decide)
  · intro hkeeps s' ret hcall
    -- It is enough that the states differ in what the next first caller sets.
    suffices h : s' = s ∨ s.activationInProgress = false ∧ Retouched s s' by
      rcases h with rfl | ⟨hfirst, h⟩
      · exact ⟨⟨⟨rfl, rfl, rfl⟩, rfl, rfl⟩, fun _ _ =>
          ⟨rfl, ⟨⟨rfl, rfl, rfl⟩, rfl, rfl⟩, fun _ _ => rfl⟩⟩
      · exact ⟨h.same, fun skip' a' => h.enter hfirst _ skip' a'⟩
    rcases lfaActivateEnter_cases s id skip a with ⟨ret', hret⟩ | ⟨ops, hops, hskip⟩
    · rw [hret s (.refl s)] at hcall
      exact .inl (Prod.mk.inj hcall).1.symm
    rw [lfaActivateEnter_ready hops hskip] at hcall
    cases hfirst : s.activationInProgress with
    | true => exact .inl (prepareReady_later hfirst hcall)
    | false =>
      refine .inr ⟨rfl, ?_⟩
      obtain ⟨u, hu, hu'⟩ := prepareReady_first hfirst ops skip a
      rw [hcall] at hu'
      have hflag : (skip && !ops.cpuRendezvousRequired) = s.activationSkipCpuRendezvous ∧ s' = u := by
        split at hu'
        · rename_i hreq
          refine ⟨?_, (Prod.mk.inj hu').1⟩
          have hclear : ¬ s.activationSkipCpuRendezvous = true := fun hset =>
            hkeeps ⟨hreq.1, hfirst, ops, hops, by rw [if_pos hreq.2]; exact hset⟩
          rw [hreq.2, Bool.eq_false_iff.mpr hclear, Bool.not_true, Bool.and_false]
        split at hu'
        · rename_i hreq hnotify
          refine ⟨?_, (Prod.mk.inj hu').1⟩
          cases skip with
          | false => simpa using hskip
          | true =>
            have hreq : ¬ ops.cpuRendezvousRequired = true := fun h => hreq ⟨rfl, h⟩
            have hset : ¬ s.activationSkipCpuRendezvous = false := fun hclear =>
              hkeeps ⟨rfl, hfirst, ops, hops, by rw [if_neg hreq]; exact ⟨hclear, hnotify⟩⟩
            rw [Bool.eq_false_iff.mpr hreq, (Bool.not_eq_false _).mp hset]
            rfl
        · exact absurd (Prod.mk.inj hu').2 (by simp)
      rw [hflag.1] at hu
      rw [hflag.2]
      exact hu

def optionalRendezvous : Service where
  components := [⟨some { bl31Activator with cpuRendezvousRequired := false }, true⟩]
  current := ⟨0, .complete, true, true⟩
  activationInProgress := false
  activationSkipCpuRendezvous := false
  activationUsers := 0
  activationFailed := false
  activationCancelLocked := false

/-- The platform refuses an activation that is to skip the rendezvous; the next activation, which does
not ask for that, is answered LFA_BUSY. -/
theorem refused_skip_blocks : ∃ s', lfaActivateEnter optionalRendezvous 0 true ⟨-1, 1⟩ =
      (s', .error LFA_ACTIVATION_FAILED) ∧
    s'.activationSkipCpuRendezvous ≠ optionalRendezvous.activationSkipCpuRendezvous ∧
    lfaActivateEnter s' 0 false ⟨0, 1⟩ = (s', .error LFA_BUSY) ∧
    (lfaActivateEnter optionalRendezvous 0 false ⟨0, 1⟩).2 ≠ .error LFA_BUSY :=
  ⟨_, rfl, by decide, rfl, by decide⟩

end TrustedFirmware.Lfa
