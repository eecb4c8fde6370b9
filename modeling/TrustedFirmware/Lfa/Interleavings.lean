import TrustedFirmware.Foundations.Tables
import TrustedFirmware.Foundations.Runs
import TrustedFirmware.Lfa.Service

/-! # Interleavings of activations

LFA_ACTIVATE runs on several CPUs at once. It holds `lfa_lock` in
`lfa_activate_prepare()` and in `lfa_activate_finish()`, and through the activator only
when it skips the rendezvous. The activator of the RMM resets the whole activation, without
the lock, while CPUs are still inside. -/
namespace TrustedFirmware.Lfa
open Libc Runs Counting
set_option autoImplicit false

/-! ## The system -/

inductive Phase where
  | outside
  /-- Behind `lfa_activate_prepare()`, in the activator of `id`. -/
  | activating (id : ℕ)
  /-- The activator has returned; `lfa_activate_finish()` comes next. -/
  | returned (id : ℕ) (ret : Int)
  deriving DecidableEq, Repr

structure System (n : ℕ) where
  service : Service
  phase : Fin n → Phase
  /-- The CPU that keeps `lfa_lock` for its whole activation. -/
  lockedBy : Option (Fin n)

def start (n : ℕ) (components : List Component) : System n :=
  ⟨lfaSetup components, fun _ => .outside, none⟩

def System.setPhase {n : ℕ} (s : System n) (cpu : Fin n) (p : Phase) : System n :=
  { s with phase := Function.update s.phase cpu p }

/-- What a CPU does next, with what the platform and the activator answer. -/
inductive Action (n : ℕ) where
  | enter (cpu : Fin n) (id : ℕ) (skip : Bool) (a : PrepareAnswers)
  /-- The leading CPU of `lfa_rmm_activate()` is done. -/
  | lead (cpu : Fin n) (ret : Int)
  /-- The activator returns on a CPU that does not lead. -/
  | activate (cpu : Fin n) (ret : Int)
  | finish (cpu : Fin n)
  | cancel (cpu : Fin n) (id : ℕ) (a : CancelAnswers)
  | prime (cpu : Fin n) (id : ℕ) (a : PrimeAnswers)
  | getInventory (cpu : Fin n) (id : ℕ) (isPlatLfaActivationPending : Bool)

inductive Effect (n : ℕ) where
  | internal
  | refused (ret : Int)
  /-- The CPU passed `lfa_activate_prepare()`; the first CPU of a round notified the platform. -/
  | entered (cpu : Fin n) (notified : Bool)
  /-- The CPU passed `lfa_activate_finish()`; its activator had returned `ret`. -/
  | finished (cpu : Fin n) (ret : Int)
  deriving DecidableEq, Repr

def enter {n : ℕ} (s : System n) (cpu : Fin n) (id : ℕ) (skip : Bool) (a : PrepareAnswers) :
    System n × Effect n :=
  match lfaActivateEnter s.service id skip a with
  | (u, .error ret) => ({ s with service := u }, .refused ret)
  | (u, .ok ops) =>
    ({ s with
        service := u
        phase := Function.update s.phase cpu
          (if ops.activate then .activating id else .returned id LFA_SUCCESS)
        lockedBy := if u.activationSkipCpuRendezvous then some cpu else none },
      .entered cpu (!s.service.activationInProgress))

/-- `none` where the CPU is elsewhere, spins on the lock, or the code faults. -/
def act {n : ℕ} (s : System n) : Action n → Option (System n × Effect n)
  | .enter cpu id skip a =>
    if s.phase cpu ≠ .outside then none
    else if s.lockedBy.isSome then if skip then some (s, .refused LFA_BUSY) else none
    else some (enter s cpu id skip a)
  | .lead cpu ret =>
    match s.phase cpu with
    | .activating id =>
      if (s.service.activator id).any ComponentOps.leaderResets then
        some ({ s with service := lfaResetActivation s.service }.setPhase cpu
          (.returned id (if ret = LFA_SUCCESS then LFA_SUCCESS else LFA_ACTIVATION_FAILED)), .internal)
      else none
    | _ => none
  | .activate cpu ret =>
    match s.phase cpu with
    | .activating id => some (s.setPhase cpu (.returned id ret), .internal)
    | _ => none
  | .finish cpu =>
    match s.phase cpu with
    | .returned id ret =>
      if s.lockedBy.isSome ∧ s.lockedBy ≠ some cpu then none
      else some ({ s with
          service := lfaActivateReturned s.service id ret
          lockedBy := none }.setPhase cpu .outside, .finished cpu ret)
    | _ => none
  | .cancel cpu id a =>
    if s.phase cpu ≠ .outside then none
    else if s.lockedBy.isSome then some (s, .refused LFA_BUSY)
    else (lfaCancel s.service id a).map fun x => ({ s with service := x.1 }, .internal)
  | .prime cpu id a =>
    if s.phase cpu ≠ .outside then none
    else if s.lockedBy.isSome then some (s, .refused LFA_BUSY)
    else some ({ s with service := (lfaPrime s.service id a).1 }, .internal)
  | .getInventory cpu id pending =>
    if s.phase cpu ≠ .outside then none
    else some ({ s with service := (lfaGetInventory s.service id pending).1 }, .internal)

/-- The CPU is between `lfa_activate_prepare()` and `lfa_activate_finish()`. -/
def System.inside {n : ℕ} (s : System n) (cpu : Fin n) : Bool := decide (s.phase cpu ≠ .outside)

/-! ## Rounds -/

def Effect.notified {n : ℕ} : Effect n → Bool
  | entered _ notified => notified
  | _ => false

def Effect.failed {n : ℕ} : Effect n → Bool
  | finished _ ret => decide (ret ≠ LFA_SUCCESS ∧ ret ≠ -EAGAIN)
  | _ => false

def roundFailed {n : ℕ} (t : List (Action n × Effect n)) : Bool :=
  (t.reverse.takeWhile fun x => !x.2.notified).any fun x => x.2.failed

theorem roundFailed_snoc {n : ℕ} (t : List (Action n × Effect n)) (x : Action n × Effect n) :
    roundFailed (t ++ [x]) = if x.2.notified then false else x.2.failed || roundFailed t := by
  rw [roundFailed, List.reverse_append, List.reverse_singleton, List.singleton_append,
    List.takeWhile_cons]
  cases x.2.notified with
  | true => simp
  | false => simp [roundFailed]

/-- The whole activation is reset only when no CPU is counted: LFA_CANCEL of the component in
activation comes at such a moment or too late, and no leading CPU resets. -/
def ResetsUnused {n : ℕ} (s : System n) : Action n → Prop
  | .cancel _ id _ => id < s.service.componentCount → id = s.service.current.componentId →
      s.service.cancelDenied = false → s.service.activationUsers = 0
  | .lead _ _ => s.service.activationUsers = 0
  | _ => True

instance {n : ℕ} (s : System n) (a : Action n) : Decidable (ResetsUnused s a) := by
  cases a <;> unfold ResetsUnused <;> infer_instance

/-! ## Runs -/

variable {n : ℕ} {s s' : System n} {t : List (Action n × Effect n)} {x : Action n × Effect n}

structure UsersInv (t : List (Action n × Effect n)) (s : System n) : Prop where
  users : s.service.activationUsers = tally s.inside
  idle : s.service.activationInProgress = false → ∀ cpu, s.inside cpu = false
  failed : s.service.activationInProgress = true → s.service.activationFailed = roundFailed t

theorem UsersInv.same (h : UsersInv t s) (hin : ∀ cpu, s'.inside cpu = s.inside cpu)
    (hu : s'.service.activationUsers = s.service.activationUsers)
    (hp : s'.service.activationInProgress = s.service.activationInProgress)
    (hf : s.service.activationInProgress = true →
      s'.service.activationFailed = s.service.activationFailed)
    (hx : x.2.notified = false ∧ x.2.failed = false) : UsersInv (t ++ [x]) s' := by
  refine ⟨?_, fun hi cpu => ?_, fun hi => ?_⟩
  · rw [hu, h.users, tally_congr hin]
  · rw [hin]
    exact h.idle (hp.symm.trans hi) cpu
  · have hi' := hp.symm.trans hi
    rw [hf hi', h.failed hi', roundFailed_snoc, hx.1, hx.2, Bool.false_or]
    rfl

theorem UsersInv.reset (h : UsersInv t s) (h0 : s.service.activationUsers = 0) :
    UsersInv (t ++ [x]) { s with service := lfaResetActivation s.service } := by
  have hnone : ∀ cpu, s.inside cpu = false := tally_eq_zero.mp (h.users.symm.trans h0)
  exact ⟨(tally_eq_zero.mpr hnone).symm, fun _ => hnone, fun hi => absurd hi (by
    simp [lfaResetActivation])⟩

theorem inside_setPhase (s : System n) (cpu j : Fin n) (p : Phase) :
    (s.setPhase cpu p).inside j = if j = cpu then decide (p ≠ .outside) else s.inside j := by
  by_cases hj : j = cpu
  · subst hj
    simp [System.inside, System.setPhase]
  · simp [System.inside, System.setPhase, hj]

theorem UsersInv.enter (hn : n < 2 ^ 32) {cpu : Fin n} {id : ℕ} {skip : Bool} {a : PrepareAnswers}
    (h : UsersInv t s) (hout : s.phase cpu = .outside) {c : Action n} :
    UsersInv (t ++ [(c, (enter s cpu id skip a).2)]) (enter s cpu id skip a).1 := by
  rw [Lfa.enter]
  rcases henter : lfaActivateEnter s.service id skip a with ⟨u, r⟩
  rcases activateEnter_cases henter with ⟨ret, rfl, href⟩ | ⟨ops, rfl, hent⟩
  · refine h.same (fun _ => rfl) href.users href.inProgress (fun hi => ?_) ⟨rfl, rfl⟩
    rcases href.failed with hf | hf
    · rw [hi, Bool.true_and] at hf
      exact hf
    · exact hf
  · have hcpu : s.inside cpu = false := by simp [System.inside, hout]
    have hroom : tally s.inside < n := by
      have hlt := tally_lt hcpu
      rwa [Fintype.card_fin] at hlt
    refine ⟨?_, fun hi => absurd (hent.inProgress.symm.trans hi) (by simp), fun _ => ?_⟩
    · change u.activationUsers = _
      rw [hent.users, h.users, Nat.mod_eq_of_lt (by omega)]
      refine (@tally_gain _ _ _ s.inside _ cpu (fun j hj => ?_) hcpu ?_).symm
      · simp [System.inside, hj]
      · simp only [System.inside, Function.update_self]
        split
        · exact decide_eq_true (by simp)
        · exact decide_eq_true (by simp)
    · change u.activationFailed = _
      rw [hent.failed, roundFailed_snoc]
      cases hi : s.service.activationInProgress with
      | false => rfl
      | true =>
        rw [Bool.true_and, h.failed hi]
        rfl

theorem UsersInv.busy {cpu : Fin n} (h : UsersInv t s) (hcpu : s.inside cpu = true) :
    s.service.activationInProgress = true := by
  by_contra hi
  exact absurd (h.idle (by simpa using hi) cpu) (by simp [hcpu])

theorem UsersInv.finish_failed {cpu : Fin n} {id : ℕ} {ret : Int} {c : Action n} (h : UsersInv t s)
    (hphase : s.phase cpu = .returned id ret) :
    (lfaActivateReturned s.service id ret).activationFailed =
      roundFailed (t ++ [(c, .finished cpu ret)]) := by
  have hbusy := @UsersInv.busy n s t cpu h (by simp [System.inside, hphase])
  rw [(activateReturned_spec s.service id ret).failed, h.failed hbusy, roundFailed_snoc,
    Bool.or_comm]
  rfl

theorem UsersInv.finish {cpu : Fin n} {id : ℕ} {ret : Int} {c : Action n} (h : UsersInv t s)
    (hphase : s.phase cpu = .returned id ret) :
    UsersInv (t ++ [(c, .finished cpu ret)])
      ({ s with
          service := lfaActivateReturned s.service id ret
          lockedBy := none }.setPhase cpu .outside) := by
  have hret := activateReturned_spec s.service id ret
  have hcpu : s.inside cpu = true := by simp [System.inside, hphase]
  have hbusy := h.busy hcpu
  obtain ⟨s', hs'⟩ : ∃ s', s' = { s with
      service := lfaActivateReturned s.service id ret
      lockedBy := none }.setPhase cpu .outside := ⟨_, rfl⟩
  have hservice : s'.service = lfaActivateReturned s.service id ret := by rw [hs']; rfl
  have hinside : ∀ j, s'.inside j = if j = cpu then false else s.inside j := by
    intro j
    rw [hs', inside_setPhase]
    rfl
  have htally : tally s.inside = tally s'.inside + 1 := by
    refine tally_gain (i := cpu) (fun j hj => ?_) ?_ hcpu
    · rw [hinside, if_neg hj]
    · rw [hinside, if_pos rfl]
  have husers : s'.service.activationUsers = tally s'.inside := by
    rw [hservice, hret.users, h.users, htally, Nat.add_sub_cancel]
  rw [← hs']
  refine ⟨husers, fun hi => ?_, fun _ => ?_⟩
  · rw [hservice] at hi husers
    rcases hret.inProgress.mp hi with hi' | ⟨-, h0⟩
    · exact absurd hi' (by simp [hbusy])
    · exact tally_eq_zero.mp (husers.symm.trans h0)
  · rw [hservice]
    exact h.finish_failed hphase

theorem prime_same (s : Service) (id : ℕ) (a : PrimeAnswers) :
    (lfaPrime s id a).1.components = s.components ∧
    (lfaPrime s id a).1.activationUsers = s.activationUsers ∧
    (lfaPrime s id a).1.activationInProgress = s.activationInProgress ∧
    (lfaPrime s id a).1.activationFailed = s.activationFailed := by
  rw [lfaPrime]
  cases hb : lfaPrimeBegin s id with
  | error ret => exact ⟨rfl, rfl, rfl, rfl⟩
  | ok x =>
    obtain ⟨u, ops⟩ := x
    have hu : u.components = s.components ∧ u.activationUsers = s.activationUsers ∧
        u.activationInProgress = s.activationInProgress ∧
        u.activationFailed = s.activationFailed := by
      rw [lfaPrimeBegin] at hb
      repeat' split at hb
      all_goals simp only [Except.ok.injEq, Prod.mk.injEq, reduceCtorEq] at hb
      all_goals
        rw [← hb.1]
        exact ⟨rfl, rfl, rfl, rfl⟩
    simp only
    split
    · exact hu
    · exact hu

theorem UsersInv.step (hn : n < 2 ^ 32) {c : Action n} {e : Effect n} (h : UsersInv t s)
    (hc : ResetsUnused s c) (hs : act s c = some (s', e)) : UsersInv (t ++ [(c, e)]) s' := by
  have hrefused : ∀ r : Int, some (s, Effect.refused r) = some (s', e) →
      UsersInv (t ++ [(c, e)]) s' := by
    intro r h'
    simp only [Option.some.injEq, Prod.mk.injEq] at h'
    obtain ⟨rfl, rfl⟩ := h'
    exact h.same (fun _ => rfl) rfl rfl (fun _ => rfl) ⟨rfl, rfl⟩
  cases c with
  | enter cpu id skip a =>
    rw [act] at hs
    split at hs
    · cases hs
    rename_i hout
    split at hs
    · split at hs
      · exact hrefused _ hs
      · cases hs
    · rw [Option.some.injEq] at hs
      have hent := @UsersInv.enter n s t hn cpu id skip a h (not_not.mp hout) (.enter cpu id skip a)
      rwa [hs] at hent
  | lead cpu ret =>
    -- the leading CPU is inside, so it is counted
    rw [act] at hs
    cases hp : s.phase cpu with
    | activating id =>
      have hpos := @tally_pos _ _ s.inside cpu (by simp [System.inside, hp])
      have h0 : s.service.activationUsers = 0 := hc
      rw [h.users] at h0
      omega
    | outside => simp [hp] at hs
    | returned id r => simp [hp] at hs
  | activate cpu ret =>
    rw [act] at hs
    cases hp : s.phase cpu with
    | activating id =>
      simp only [hp, Option.some.injEq, Prod.mk.injEq] at hs
      obtain ⟨rfl, rfl⟩ := hs
      refine h.same (fun j => ?_) rfl rfl (fun _ => rfl) ⟨rfl, rfl⟩
      rw [inside_setPhase]
      by_cases hj : j = cpu
      · simp [hj, System.inside, hp]
      · simp [hj]
    | outside => simp [hp] at hs
    | returned id r => simp [hp] at hs
  | finish cpu =>
    rw [act] at hs
    cases hp : s.phase cpu with
    | returned id ret =>
      simp only [hp] at hs
      split at hs
      · cases hs
      · cases hs
        exact h.finish hp
    | outside => simp [hp] at hs
    | activating id => simp [hp] at hs
  | cancel cpu id a =>
    rw [act] at hs
    split at hs
    · cases hs
    split at hs
    · exact hrefused _ hs
    · obtain ⟨⟨u, ret⟩, hu, heq⟩ := Option.map_eq_some_iff.mp hs
      cases heq
      rcases cancel_cases hu with ⟨rfl, -⟩ | ⟨rfl, hlt, hid, hden⟩
      · exact h.same (fun _ => rfl) rfl rfl (fun _ => rfl) ⟨rfl, rfl⟩
      · exact h.reset (hc hlt hid hden)
  | prime cpu id a =>
    rw [act] at hs
    split at hs
    · cases hs
    split at hs
    · exact hrefused _ hs
    · cases hs
      obtain ⟨-, hu, hp, hf⟩ := prime_same s.service id a
      exact h.same (fun _ => rfl) hu hp (fun _ => hf) ⟨rfl, rfl⟩
  | getInventory cpu id p =>
    rw [act] at hs
    split at hs
    · cases hs
    · cases hs
      refine h.same (fun _ => rfl) ?_ ?_ (fun _ => ?_) ⟨rfl, rfl⟩
      all_goals
        simp only [lfaGetInventory]
        split
      all_goals rfl

theorem pending_cleared {c : Action n} {e : Effect n} {id : ℕ} (hs : act s c = some (s', e))
    (hinv : ∀ cpu j p, c ≠ .getInventory cpu j p)
    (hp : s'.service.activationPending id ≠ s.service.activationPending id) :
    ∃ cpu j ret, c = .finish cpu ∧ e = .finished cpu ret ∧ s.phase cpu = .returned j ret ∧
      s'.service = lfaActivateReturned s.service j ret := by
  cases c with
  | enter cpu j skip a =>
    rw [act] at hs
    split at hs
    · cases hs
    split at hs
    · split at hs
      · simp only [Option.some.injEq, Prod.mk.injEq] at hs
        exact absurd (by rw [hs.1]) hp
      · cases hs
    · simp only [Option.some.injEq, enter] at hs
      rcases henter : lfaActivateEnter s.service j skip a with ⟨u, r⟩
      simp only [henter] at hs
      rcases activateEnter_cases henter with ⟨ret, rfl, href⟩ | ⟨ops, rfl, hent⟩
      · simp only [Prod.mk.injEq] at hs
        exact absurd (by rw [← hs.1]; exact href.activationPending) hp
      · simp only [Prod.mk.injEq] at hs
        exact absurd (by rw [← hs.1]; exact hent.activationPending) hp
  | lead cpu ret =>
    rw [act] at hs
    split at hs
    · split at hs
      · simp only [Option.some.injEq, Prod.mk.injEq] at hs
        exact absurd (by rw [← hs.1]; rfl) hp
      · cases hs
    · cases hs
  | activate cpu ret =>
    rw [act] at hs
    split at hs
    · simp only [Option.some.injEq, Prod.mk.injEq] at hs
      exact absurd (by rw [← hs.1]; rfl) hp
    · cases hs
  | finish cpu =>
    rw [act] at hs
    split at hs
    · rename_i j ret hphase
      split at hs
      · cases hs
      · cases hs
        exact ⟨cpu, j, ret, rfl, rfl, hphase, rfl⟩
    · cases hs
  | cancel cpu j a =>
    rw [act] at hs
    split at hs
    · cases hs
    split at hs
    · simp only [Option.some.injEq, Prod.mk.injEq] at hs
      exact absurd (by rw [hs.1]) hp
    · obtain ⟨⟨u, ret⟩, hu, heq⟩ := Option.map_eq_some_iff.mp hs
      simp only [Prod.mk.injEq] at heq
      rw [← heq.1] at hp
      rcases cancel_cases hu with ⟨rfl, -⟩ | ⟨rfl, -⟩
      · exact absurd rfl hp
      · exact absurd rfl hp
  | prime cpu j a =>
    rw [act] at hs
    split at hs
    · cases hs
    split at hs
    · simp only [Option.some.injEq, Prod.mk.injEq] at hs
      exact absurd (by rw [hs.1]) hp
    · cases hs
      obtain ⟨hcomp, -⟩ := prime_same s.service j a
      exact absurd (by simp only [Service.activationPending, hcomp]) hp
  | getInventory cpu j p => exact absurd rfl (hinv cpu j p)

/-- Two CPUs have passed `lfa_activate_prepare()` for component 0. -/
def bothEnter : List (Action 2) :=
  [.prime 0 0 ⟨0, LFA_SUCCESS⟩, .enter 0 0 false ⟨0, 2⟩, .enter 1 0 false ⟨0, 2⟩]

end TrustedFirmware.Lfa
