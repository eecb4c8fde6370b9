import TrustedFirmware.Psci.Calls

/-! # What a step can do

Each step changes the data of one CPU and the nodes of its path up to some level.
`Move` lists the ways, `moves_of_step` says that there are no others; the invariants
of the two suspend modes are proved from it alone. -/
namespace TrustedFirmware.Psci
set_option autoImplicit false

structure CpuView where
  aff : AffInfoState
  target : ℕ
  loc : ℕ
  req : ℕ → ℕ
  sleep : Option Sleep

def PsciState.view (s : PsciState) (c : ℕ) : CpuView :=
  ⟨s.affInfoState c, s.targetPwrlvl c, s.cpuLocalState c, fun l => s.reqLocalPwrStates l c,
    s.sleep c⟩

namespace CpuView

def requesting (v : CpuView) (n : ℕ) (f : ℕ → ℕ) : CpuView :=
  { v with req := fun l => if l < n then f l else v.req l }

/-- After `psci_set_pwr_domains_to_run()` up to level `n`. -/
def woken (v : CpuView) (n : ℕ) : CpuView :=
  { v.requesting n fun _ => PSCI_LOCAL_STATE_RUN with
    aff := .on, loc := PSCI_LOCAL_STATE_RUN, sleep := none }

end CpuView

/-- The CPU has view `v` now, and the first `j` nodes of its path hold `f`. -/
structure Change (P : Platform) (cpu j : ℕ) (f : ℕ → ℕ) (v : CpuView) (s s' : PsciState) :
    Prop where
  node : PathHolds P cpu j f s.nodeLocalState s'.nodeLocalState
  self : s'.view cpu = v
  others : ∀ c, c ≠ cpu → s'.view c = s.view c
  mode : s'.suspendMode = s.suspendMode

/-- The targets `f` are no deeper than what the CPU and the others below the nodes ask for. -/
def NoDeeper (P : Platform) (s : PsciState) (cpu e : ℕ) (request f : ℕ → ℕ) : Prop :=
  ∀ l < e, f l ≤ request l ∧ ∀ c < P.coreCount, c ≠ cpu → P.ancestor c l = P.ancestor cpu l →
    f l ≤ s.reqLocalPwrStates l c

/-- A valid composite state with target level `lvl`. -/
structure Requested (P : Platform) (lvl : ℕ) (states : ℕ → ℕ) : Prop where
  le : lvl ≤ P.maxPwrLvl
  suspend_le : P.osInitMode = true → lvl ≤ P.maxCpuSuspendPwrLvl
  ne_run : ∀ k ≤ lvl, states k ≠ PSCI_LOCAL_STATE_RUN

theorem SuspendReq.requested {P : Platform} (req : SuspendReq P) {lvl : ℕ}
    (h : psciFindTargetSuspendLvl P req.info = some lvl) :
    Requested P lvl req.info.pwrDomainState :=
  ⟨by have := (findHighestLvl_some h).1; omega, fun hos => req.lvl_le hos lvl h,
    psciValidateSuspendReq_success req.valid h⟩

def OsInitiated (P : Platform) (s : PsciState) : Prop :=
  P.osInitMode = true ∧ s.suspendMode = .osInit

inductive Source where
  | call
  | reset (cpu : ℕ)
  | wake (cpu : ℕ)

def Action.source {P : Platform} : Action P → Source
  | .warmBoot cpu => .reset cpu
  | .wake cpu => .wake cpu
  | _ => .call

inductive Move (P : Platform) (s : PsciState) (cpu : ℕ) :
    Source → ℕ → (ℕ → ℕ) → CpuView → Prop
  | stay (f : ℕ → ℕ) : Move P s cpu .call 0 f (s.view cpu)
  | pend (f : ℕ → ℕ) (h : s.affInfoState cpu = .off) :
    Move P s cpu .call 0 f { s.view cpu with aff := .onPending }
  | boot (h : s.affInfoState cpu = .onPending) (hle : s.targetPwrlvl cpu ≤ P.maxPwrLvl) :
    Move P s cpu (.reset cpu) (s.targetPwrlvl cpu) (fun _ => PSCI_LOCAL_STATE_RUN)
      ((s.view cpu).woken (s.targetPwrlvl cpu))
  | resume {e : ℕ} {mode : SuspendMode} (h : s.sleep cpu = some (.suspended e true mode))
    (ha : s.affInfoState cpu = .on) (hle : s.targetPwrlvl cpu ≤ P.maxPwrLvl) :
    Move P s cpu (.reset cpu) (s.targetPwrlvl cpu) (fun _ => PSCI_LOCAL_STATE_RUN)
      { (s.view cpu).woken (s.targetPwrlvl cpu) with target := P.maxPwrLvl }
  | finish {e : ℕ} {pd : Bool} {mode : SuspendMode}
    (h : s.sleep cpu = some (.suspended e pd mode)) :
    Move P s cpu (.wake cpu) e (fun _ => PSCI_LOCAL_STATE_RUN)
      { (s.view cpu).woken e with target := P.maxPwrLvl }
  | standby (f : ℕ → ℕ) {v : ℕ} (hr : Running s cpu) (hv : v ≠ PSCI_LOCAL_STATE_RUN) :
    Move P s cpu .call 0 f { s.view cpu with loc := v, sleep := some .standby }
  | standbyWake (f : ℕ → ℕ) (h : s.sleep cpu = some .standby) :
    Move P s cpu (.wake cpu) 0 f { s.view cpu with loc := PSCI_LOCAL_STATE_RUN, sleep := none }
  | off {f : ℕ → ℕ} (hr : Running s cpu)
    (hf : NoDeeper P s cpu P.maxPwrLvl (fun _ => P.maxOffState) f) :
    Move P s cpu .call P.maxPwrLvl f
      { (s.view cpu).requesting P.maxPwrLvl (fun _ => P.maxOffState) with
        aff := .off, loc := P.maxOffState }
  | suspendPlat {e : ℕ} {states f : ℕ → ℕ} (pd : Bool) (hr : Running s cpu)
    (hos : ¬ OsInitiated P s) (hq : Requested P e states)
    (hf : NoDeeper P s cpu e (fun l => states (l + 1)) f) :
    Move P s cpu .call e f
      { (s.view cpu).requesting e (fun l => states (l + 1)) with
        loc := states 0
        target := if pd = true then e else s.targetPwrlvl cpu
        sleep := some (.suspended e pd s.suspendMode) }
  | suspendOs {e : ℕ} {states : ℕ → ℕ} (pd : Bool) (hr : Running s cpu) (hos : OsInitiated P s)
    (hq : Requested P e states) (hdeep : SiblingsDeep P s cpu e states) :
    Move P s cpu .call e (fun l => states (l + 1))
      { (s.view cpu).requesting P.maxCpuSuspendPwrLvl (recorded e states) with
        loc := states 0
        target := if pd = true then P.maxCpuSuspendPwrLvl else s.targetPwrlvl cpu
        sleep := some (.suspended e pd s.suspendMode) }
  | refused (hr : Running s cpu) (hos : ¬ OsInitiated P s) :
    Move P s cpu .call P.maxCpuSuspendPwrLvl (fun _ => PSCI_LOCAL_STATE_RUN)
      ((s.view cpu).woken P.maxCpuSuspendPwrLvl)

def Moves (P : Platform) (src : Source) (s s' : PsciState) : Prop :=
  ∃ cpu < P.coreCount, ∃ j f v, Move P s cpu src j f v ∧ Change P cpu j f v s s'

section Inversion
variable {P : Platform} {s s' : PsciState} {cpu : ℕ}

theorem Change.refl (f : ℕ → ℕ) : Change P cpu 0 f (s.view cpu) s s :=
  ⟨PathHolds.refl _ _, rfl, fun _ _ => rfl, rfl⟩

theorem Moves.refl (hcpu : cpu < P.coreCount) : Moves P .call s s :=
  ⟨cpu, hcpu, 0, fun _ => 0, _, .stay _, Change.refl _⟩

theorem Change.of_wake {e : ℕ} (t : ℕ) (hcpu : cpu < P.coreCount) (he : e ≤ P.maxPwrLvl) :
    Change P cpu e (fun _ => PSCI_LOCAL_STATE_RUN) { (s.view cpu).woken e with target := t } s
      ((psciSetPwrDomainsToRun P cpu e (s.setSuspendPwrlvl cpu t)).setSleep cpu none) := by
  obtain ⟨hnode, hreq, nodes, req, hs'⟩ :=
    @psciSetPwrDomainsToRun_spec P (s.setSuspendPwrlvl cpu t) cpu e hcpu he
  rw [hs'] at hnode hreq ⊢
  have hrow : ∀ l c, req l c = if l < e ∧ c = cpu then PSCI_LOCAL_STATE_RUN
      else s.reqLocalPwrStates l c := hreq
  refine ⟨hnode, ?_, fun c hc => ?_, rfl⟩
  · simp [PsciState.view, PsciState.setSleep, PsciState.setSuspendPwrlvl, CpuView.woken,
      CpuView.requesting, hrow]
  · simp [PsciState.view, PsciState.setSleep, PsciState.setSuspendPwrlvl, hrow, hc]

theorem setSuspendPwrlvl_self : s.setSuspendPwrlvl cpu (s.targetPwrlvl cpu) = s := by
  rw [PsciState.setSuspendPwrlvl, Function.update_eq_self]

theorem moves_cpuOn {target : ℕ} {platFails : Bool} (hcpu : cpu < P.coreCount) :
    Moves P .call s (psciCpuOnStart P target platFails s).2 := by
  unfold psciCpuOnStart
  split
  · exact Moves.refl hcpu
  next ht =>
  split
  · exact Moves.refl hcpu
  · exact Moves.refl hcpu
  next haff =>
  split
  · have hsame : (s.setAff target .onPending).setAff target .off = s := by
      simp [PsciState.setAff, ← haff]
    rw [hsame]
    exact Moves.refl hcpu
  · refine ⟨target, by omega, 0, fun _ => 0, _, .pend _ haff, PathHolds.refl _ _, ?_, ?_, rfl⟩
    · simp [PsciState.view, PsciState.setAff]
    · intro c hc
      simp [PsciState.view, PsciState.setAff, hc]

theorem psciCpuSuspendToPowerdownFinish_some {states : ℕ → ℕ}
    (h : psciCpuSuspendToPowerdownFinish P cpu states s = some s') :
    s.affInfoState cpu = .on ∧ s' = s.setSuspendPwrlvl cpu P.maxPwrLvl := by
  unfold psciCpuSuspendToPowerdownFinish at h
  split at h
  · next hc => exact ⟨hc.1, (Option.some.inj h).symm⟩
  · cases h

theorem moves_warmBoot (hcpu : cpu < P.coreCount) (hr : Resettable s cpu)
    (h : psciWarmbootEntrypoint P cpu s = some s') : Moves P (.reset cpu) s s' := by
  unfold psciWarmbootEntrypoint at h
  dsimp only at h
  split at h
  · cases h
  next hok =>
  have hle : s.targetPwrlvl cpu ≤ P.maxPwrLvl := by
    by_contra hgt
    exact hok (Or.inr (by omega))
  split at h
  · next hon =>
    cases h
    have hchange := @Change.of_wake P s cpu _ (s.targetPwrlvl cpu) hcpu hle
    rw [setSuspendPwrlvl_self] at hchange
    exact ⟨cpu, hcpu, _, _, _, .boot hon hle, hchange⟩
  next hnp =>
  split at h
  · cases h
  obtain ⟨s1, hs1, rfl⟩ := Option.map_eq_some_iff.mp h
  obtain ⟨ha, rfl⟩ := psciCpuSuspendToPowerdownFinish_some hs1
  obtain hp | ⟨e, mode, hsleep⟩ := hr
  · exact absurd hp hnp
  · exact ⟨cpu, hcpu, _, _, _, .resume hsleep ha hle, Change.of_wake _ hcpu hle⟩

theorem moves_wake (hcpu : cpu < P.coreCount)
    (hbound : ∀ e pd mode, s.sleep cpu = some (.suspended e pd mode) → e ≤ P.maxPwrLvl)
    (h : wakeInCall P cpu s = some s') : Moves P (.wake cpu) s s' := by
  unfold wakeInCall at h
  split at h
  · cases h
  · next hsleep =>
    cases h
    refine ⟨cpu, hcpu, 0, fun _ => 0, _, .standbyWake _ hsleep, PathHolds.refl _ _, ?_, ?_, rfl⟩
    · simp [PsciState.view, PsciState.setCpuLocalState, PsciState.setSleep]
    · intro c hc
      simp [PsciState.view, PsciState.setCpuLocalState, PsciState.setSleep, hc]
  · next e pd mode hsleep =>
    obtain ⟨s1, hs1, rfl⟩ := Option.map_eq_some_iff.mp h
    have hs1' : s1 = s.setSuspendPwrlvl cpu P.maxPwrLvl := by
      split at hs1
      · exact (psciCpuSuspendToPowerdownFinish_some hs1).2
      · exact (Option.some.inj hs1).symm
    subst hs1'
    exact ⟨cpu, hcpu, _, _, _, .finish hsleep, Change.of_wake _ hcpu (hbound e pd mode hsleep)⟩

theorem Change.of_targets {n e : ℕ} {g st : ℕ → ℕ} {s1 : PsciState} (hreqs : ReqSet cpu n g s s1)
    (hcpu : cpu < P.coreCount) (he : e ≤ P.maxPwrLvl) :
    Change P cpu e (fun l => st (l + 1)) { (s.view cpu).requesting n g with loc := st 0 } s
      (psciSetTargetLocalPwrStates P cpu e st s1) := by
  obtain ⟨hnode, nodes, hs'⟩ := @psciSetTargetLocalPwrStates_spec P s1 cpu e st hcpu he
  obtain ⟨hreq, req, rfl⟩ := hreqs
  rw [hs'] at hnode ⊢
  have hrow : ∀ l c, req l c = if l < n ∧ c = cpu then g l else s.reqLocalPwrStates l c := hreq
  refine ⟨hnode, ?_, fun c hc => ?_, rfl⟩
  · simp [PsciState.view, CpuView.requesting, hrow]
  · simp [PsciState.view, hrow, hc]

theorem Change.setAff {j : ℕ} {f : ℕ → ℕ} {v : CpuView} (h : Change P cpu j f v s s')
    (a : AffInfoState) : Change P cpu j f { v with aff := a } s (s'.setAff cpu a) := by
  obtain ⟨hnode, rfl, hothers, hmode⟩ := h
  refine ⟨hnode, ?_, fun c hc => (hothers c hc).symm ▸ ?_, hmode⟩
  · simp [PsciState.view, PsciState.setAff]
  · simp [PsciState.view, PsciState.setAff, hc]

theorem Change.setSuspendPwrlvl {j : ℕ} {f : ℕ → ℕ} {v : CpuView} (h : Change P cpu j f v s s')
    (t : ℕ) : Change P cpu j f { v with target := t } s (s'.setSuspendPwrlvl cpu t) := by
  obtain ⟨hnode, rfl, hothers, hmode⟩ := h
  refine ⟨hnode, ?_, fun c hc => (hothers c hc).symm ▸ ?_, hmode⟩
  · simp [PsciState.view, PsciState.setSuspendPwrlvl]
  · simp [PsciState.view, PsciState.setSuspendPwrlvl, hc]

theorem Change.setSleep {j : ℕ} {f : ℕ → ℕ} {v : CpuView} (h : Change P cpu j f v s s')
    (a : Option Sleep) : Change P cpu j f { v with sleep := a } s (s'.setSleep cpu a) := by
  obtain ⟨hnode, rfl, hothers, hmode⟩ := h
  refine ⟨hnode, ?_, fun c hc => (hothers c hc).symm ▸ ?_, hmode⟩
  · simp [PsciState.view, PsciState.setSleep]
  · simp [PsciState.view, PsciState.setSleep, hc]

theorem Coordinated.noDeeper {e : ℕ} {states : ℕ → ℕ} {r : (ℕ → ℕ) × PsciState}
    (h : Coordinated P cpu e states s r) (hcpu : cpu < P.coreCount) :
    NoDeeper P s cpu e (fun l => states (l + 1)) fun l => r.1 (l + 1) := by
  intro l hl
  refine ⟨?_, fun c hc hne hm => ?_⟩
  · have hself := h.le l hl cpu hcpu rfl
    rwa [h.reqs.req, if_pos ⟨hl, rfl⟩] at hself
  · have hother := h.le l hl c hc hm
    rwa [h.reqs.req, if_neg fun hc' => hne hc'.2] at hother

theorem moves_cpuOff {denied : Bool} (hcpu : cpu < P.coreCount) (hr : Running s cpu) :
    Moves P .call s (psciDoCpuOff P cpu denied s).2 := by
  unfold psciDoCpuOff
  split
  · exact Moves.refl hcpu
  have hcoord := @psciDoStateCoordination_spec P cpu P.maxPwrLvl (fun _ => P.maxOffState) s hcpu
    (Nat.le_refl _)
  have hchange := (@Change.of_targets P s cpu _ P.maxPwrLvl _
    (psciDoStateCoordination P cpu P.maxPwrLvl (fun _ => P.maxOffState) s).1 _ hcoord.reqs hcpu
    (Nat.le_refl _)).setAff .off
  rw [hcoord.cpuState] at hchange
  exact ⟨cpu, hcpu, _, _, _, .off hr (hcoord.noDeeper hcpu), hchange⟩

theorem Change.of_enterSuspend {n e : ℕ} {g st : ℕ → ℕ} {s1 : PsciState} (pd : Bool)
    (hreqs : ReqSet cpu n g s s1) (hcpu : cpu < P.coreCount) (he : e ≤ P.maxPwrLvl) :
    Change P cpu e (fun l => st (l + 1))
      { (s.view cpu).requesting n g with
        loc := st 0
        target := if pd = true then suspendPwrlvl P e s else s.targetPwrlvl cpu
        sleep := some (.suspended e pd s.suspendMode) } s (enterSuspend P cpu e pd st s1) := by
  have hchange := @Change.of_targets P s cpu n e g st s1 hreqs hcpu he
  have hmode := hchange.mode
  have hlvl : suspendPwrlvl P e (psciSetTargetLocalPwrStates P cpu e st s1) =
      suspendPwrlvl P e s := by
    rw [suspendPwrlvl, suspendPwrlvl, hmode]
  cases pd with
  | false =>
    have h := hchange.setSleep (some (.suspended e false s.suspendMode))
    rw [← hmode] at h ⊢
    exact h
  | true =>
    have h := (hchange.setSuspendPwrlvl (suspendPwrlvl P e s)).setSleep
      (some (.suspended e true s.suspendMode))
    rw [← hlvl, ← hmode] at h ⊢
    exact h

theorem Change.of_refused {n : ℕ} {g : ℕ → ℕ} {s1 : PsciState} (hreqs : ReqSet cpu n g s s1)
    (hn : n ≤ P.maxCpuSuspendPwrLvl) (hcpu : cpu < P.coreCount) (hr : Running s cpu) :
    Change P cpu P.maxCpuSuspendPwrLvl (fun _ => PSCI_LOCAL_STATE_RUN)
      ((s.view cpu).woken P.maxCpuSuspendPwrLvl) s
      (psciSetPwrDomainsToRun P cpu P.maxCpuSuspendPwrLvl s1) := by
  obtain ⟨hnode, hreq, nodes, req, hs'⟩ :=
    @psciSetPwrDomainsToRun_spec P s1 cpu P.maxCpuSuspendPwrLvl hcpu P.suspend_le
  obtain ⟨hreq1, req1, rfl⟩ := hreqs
  rw [hs'] at hnode hreq ⊢
  have hrow1 : ∀ l c, req1 l c = if l < n ∧ c = cpu then g l else s.reqLocalPwrStates l c := hreq1
  have hrow : ∀ l c, req l c = if l < P.maxCpuSuspendPwrLvl ∧ c = cpu then PSCI_LOCAL_STATE_RUN
      else s.reqLocalPwrStates l c := by
    intro l c
    refine (hreq l c).trans ?_
    by_cases hl : l < P.maxCpuSuspendPwrLvl ∧ c = cpu
    · rw [if_pos hl, if_pos hl]
    · rw [if_neg hl, if_neg hl]
      exact (hrow1 l c).trans (if_neg fun h => hl ⟨by omega, h.2⟩)
  refine ⟨hnode, ?_, fun c hc => ?_, rfl⟩
  · simp [PsciState.view, CpuView.woken, CpuView.requesting, hrow, hr.2]
  · simp [PsciState.view, hrow, hc]

theorem moves_suspendStart_plat {e : ℕ} {info : PowerState} {pd : Bool} {hooks : SuspendHooks}
    {rc : Int} (hcpu : cpu < P.coreCount) (hr : Running s cpu) (hos : ¬ OsInitiated P s)
    (hq : Requested P e info.pwrDomainState)
    (h : psciCpuSuspendStart P cpu e info pd hooks s = some (rc, s')) : Moves P .call s s' := by
  have hcoord := @psciDoStateCoordination_spec P cpu e info.pwrDomainState s hcpu hq.le
  unfold psciCpuSuspendStart suspendCoordination at h
  rw [if_neg (show ¬ (P.osInitMode = true ∧ s.suspendMode = .osInit) from hos)] at h
  split at h
  · cases h
    exact Moves.refl hcpu
  rw [Option.map_some] at h
  dsimp only at h
  rw [if_neg (fun hne => hne rfl)] at h
  split at h
  · next hhook =>
    cases h
    exact ⟨cpu, hcpu, _, _, _, .refused hr hos,
      Change.of_refused hcoord.reqs (hq.suspend_le hhook.1) hcpu hr⟩
  · cases h
    have hchange := @Change.of_enterSuspend P s cpu _ e _
      (psciDoStateCoordination P cpu e info.pwrDomainState s).1 _ pd hcoord.reqs hcpu hq.le
    rw [hcoord.cpuState, suspendPwrlvl,
      if_neg (show ¬ (P.osInitMode = true ∧ s.suspendMode = .osInit) from hos)] at hchange
    exact ⟨cpu, hcpu, _, _, _, .suspendPlat pd hr hos hq (hcoord.noDeeper hcpu), hchange⟩

theorem moves_suspendStart_os {e : ℕ} {info : PowerState} {pd : Bool} {hooks : SuspendHooks}
    (hcpu : cpu < P.coreCount) (hr : Running s cpu) (hos : OsInitiated P s)
    (hq : Requested P e info.pwrDomainState)
    (h : psciCpuSuspendStart P cpu e info pd hooks s = some (PSCI_E_SUCCESS, s')) :
    Moves P .call s s' := by
  unfold psciCpuSuspendStart suspendCoordination at h
  rw [if_pos (show P.osInitMode = true ∧ s.suspendMode = .osInit from hos)] at h
  split at h
  · cases h
    exact Moves.refl hcpu
  obtain ⟨⟨rc1, st, s2⟩, hval', hres⟩ := Option.map_eq_some_iff.mp h
  obtain ⟨⟨rc, s1⟩, hval, heq⟩ := Option.map_eq_some_iff.mp hval'
  cases heq
  dsimp only at hres
  split at hres
  · next hrc => exact absurd (congrArg Prod.fst hres) hrc
  next hrc =>
  split at hres
  · next hhook => exact absurd (congrArg Prod.fst hres) hhook.2
  rw [not_not.mp hrc] at hval
  obtain ⟨hreqs, hdeep⟩ := psciValidateStateCoordination_success hcpu hq.le hval
  have hchange := @Change.of_enterSuspend P s cpu _ e _ info.pwrDomainState _ pd hreqs hcpu hq.le
  rw [suspendPwrlvl,
    if_pos (show P.osInitMode = true ∧ s.suspendMode = .osInit from hos)] at hchange
  obtain rfl : enterSuspend P cpu e pd info.pwrDomainState s1 = s' := congrArg Prod.snd hres
  exact ⟨cpu, hcpu, _, _, _, .suspendOs pd hr hos hq hdeep, hchange⟩

def Accepting (P : Platform) (s : PsciState) : Action P → Prop
  | .cpuSuspend cpu req hooks => OsInitiated P s → ∀ r,
    psciCpuSuspend P cpu req hooks s = some r → r.1 = PSCI_E_SUCCESS
  | _ => True

theorem moves_cpuSuspend {req : SuspendReq P} {hooks : SuspendHooks} {rc : Int}
    (hcpu : cpu < P.coreCount) (hr : Running s cpu)
    (hacc : OsInitiated P s → rc = PSCI_E_SUCCESS)
    (h : psciCpuSuspend P cpu req hooks s = some (rc, s')) : Moves P .call s s' := by
  unfold psciCpuSuspend at h
  split at h
  · cases h
  next lvl hlvl =>
  have hq := req.requested hlvl
  split at h
  · split at h
    · cases h
      refine ⟨cpu, hcpu, 0, fun _ => 0, _, .standby _ hr (hq.ne_run 0 (Nat.zero_le _)),
        PathHolds.refl _ _, ?_, ?_, rfl⟩
      · simp [PsciState.view, PsciState.setCpuLocalState, PsciState.setSleep, PSCI_CPU_PWR_LVL]
      · intro c hc
        simp [PsciState.view, PsciState.setCpuLocalState, PsciState.setSleep, hc]
    · cases h
      exact Moves.refl hcpu
  split at h
  · cases h
    exact Moves.refl hcpu
  by_cases hos : OsInitiated P s
  · rw [hacc hos] at h
    exact moves_suspendStart_os hcpu hr hos hq h
  · exact moves_suspendStart_plat hcpu hr hos hq h

/-- **What a step can do.** The suspend levels of sleeping CPUs have to be levels of the tree. -/
theorem moves_of_step {a : Action P} (h : Steps P s a s') (hacc : Accepting P s a)
    (hmode : ∀ c mode, a ≠ .setSuspendMode c mode)
    (hbound : ∀ c < P.coreCount, ∀ e pd mode, s.sleep c = some (.suspended e pd mode) →
      e ≤ P.maxPwrLvl) : Moves P a.source s s' := by
  cases a with
  | cpuOn caller target platFails =>
    obtain ⟨hcpu, -, rfl⟩ := h
    exact moves_cpuOn hcpu
  | warmBoot cpu => exact moves_warmBoot h.1 h.2.1 h.2.2
  | cpuOff cpu denied =>
    obtain ⟨hcpu, hr, rfl⟩ := h
    exact moves_cpuOff hcpu hr
  | cpuSuspend cpu req hooks =>
    obtain ⟨hcpu, hr, rc, hres⟩ := h
    exact moves_cpuSuspend hcpu hr (fun hos => hacc hos _ hres) hres
  | wake cpu => exact moves_wake h.1 (hbound cpu h.1) h.2
  | setSuspendMode cpu mode => exact absurd rfl (hmode cpu mode)

end Inversion

/-! ## Nodes and requests -/

/-- From row `lo` on, no node is deeper than a request for it. -/
def Bounded (P : Platform) (lo : ℕ) (s : PsciState) : Prop :=
  ∀ c < P.coreCount, ∀ l, lo ≤ l → l < P.maxPwrLvl →
    s.nodeLocalState (P.ancestor c l) ≤ s.reqLocalPwrStates l c

/-- A move keeps the nodes from row `lo` on within the requests for them. -/
structure Within (P : Platform) (lo : ℕ) (s : PsciState) (cpu j : ℕ) (f : ℕ → ℕ) (v : CpuView) :
    Prop where
  low : ∀ l, lo ≤ l → l < j → f l ≤ v.req l
  high : ∀ l, lo ≤ l → j ≤ l → l < P.maxPwrLvl →
    s.nodeLocalState (P.ancestor cpu l) ≤ v.req l
  others : ∀ l, lo ≤ l → l < j → ∀ c < P.coreCount, c ≠ cpu →
    P.ancestor c l = P.ancestor cpu l → f l ≤ s.reqLocalPwrStates l c

section Nodes
variable {P : Platform} {s s' : PsciState} {src : Source} {cpu j lo : ℕ} {f : ℕ → ℕ} {v : CpuView}

theorem Change.bounded (hcpu : cpu < P.coreCount) (h : Change P cpu j f v s s')
    (hw : Within P lo s cpu j f v) (hle : Bounded P lo s) : Bounded P lo s' := by
  intro c hc l hlo hl
  have hnode := h.node c hc l hl
  by_cases hcc : c = cpu
  · subst hcc
    have hreq : s'.reqLocalPwrStates l c = v.req l := congrArg (fun w => w.req l) h.self
    rw [hnode, hreq]
    by_cases hlj : l < j
    · rw [if_pos ⟨hlj, rfl⟩]
      exact hw.low l hlo hlj
    · rw [if_neg fun hk => hlj hk.1]
      exact hw.high l hlo (by omega) hl
  · have hreq : s'.reqLocalPwrStates l c = s.reqLocalPwrStates l c :=
      congrArg (fun w => w.req l) (h.others c hcc)
    rw [hnode, hreq]
    by_cases hk : l < j ∧ P.ancestor c l = P.ancestor cpu l
    · rw [if_pos hk]
      exact hw.others l hlo hk.1 c hc hcc hk.2
    · rw [if_neg hk]
      exact hle c hc l hlo hl

theorem Move.within (hm : Move P s cpu src j f v) (hle : Bounded P lo s) (hcpu : cpu < P.coreCount)
    (hos : OsInitiated P s → P.maxCpuSuspendPwrLvl ≤ lo) : Within P lo s cpu j f v := by
  have hkeep : ∀ n g l, n ≤ l → ((s.view cpu).requesting n g).req l = s.reqLocalPwrStates l cpu :=
    fun n g l hl => if_neg (Nat.not_lt.mpr hl)
  have hold : ∀ l, lo ≤ l → l < P.maxPwrLvl →
      s.nodeLocalState (P.ancestor cpu l) ≤ s.reqLocalPwrStates l cpu := hle cpu hcpu
  -- nodes that are not written
  have hnone : ∀ {f : ℕ → ℕ} {v : CpuView}, (∀ l, v.req l = s.reqLocalPwrStates l cpu) →
      Within P lo s cpu 0 f v := fun hv =>
    ⟨fun l _ h => absurd h (Nat.not_lt_zero l), fun l h1 _ h2 => (hv l).symm ▸ hold l h1 h2,
      fun l _ h => absurd h (Nat.not_lt_zero l)⟩
  -- nodes that start to run
  have hrun : ∀ {j : ℕ} {v : CpuView}, (∀ l, j ≤ l → v.req l = s.reqLocalPwrStates l cpu) →
      Within P lo s cpu j (fun _ => PSCI_LOCAL_STATE_RUN) v := fun hv =>
    ⟨fun _ _ _ => Nat.zero_le _, fun l h1 hj h2 => (hv l hj).symm ▸ hold l h1 h2,
      fun _ _ _ _ _ _ _ => Nat.zero_le _⟩
  -- nodes with coordinated targets
  have hcoord : ∀ {j : ℕ} {f request : ℕ → ℕ} {v : CpuView}, NoDeeper P s cpu j request f →
      (∀ l < j, v.req l = request l) → (∀ l, j ≤ l → v.req l = s.reqLocalPwrStates l cpu) →
      Within P lo s cpu j f v := fun hf hlow hhigh =>
    ⟨fun l _ hl => (hlow l hl).symm ▸ (hf l hl).1,
      fun l h1 hj h2 => (hhigh l hj).symm ▸ hold l h1 h2, fun l _ hl => (hf l hl).2⟩
  cases hm with
  | stay => exact hnone fun _ => rfl
  | pend => exact hnone fun _ => rfl
  | boot => exact hrun (hkeep _ _)
  | resume => exact hrun (hkeep _ _)
  | finish => exact hrun (hkeep _ _)
  | standby => exact hnone fun _ => rfl
  | standbyWake => exact hnone fun _ => rfl
  | off hr hf => exact hcoord hf (fun l hl => if_pos hl) (hkeep _ _)
  | suspendPlat pd hr hos hq hf => exact hcoord hf (fun l hl => if_pos hl) (hkeep _ _)
  | suspendOs pd hr hos' hq hdeep =>
    -- the call stays below row `lo`
    have hlo := hos hos'
    have hsus := hq.suspend_le hos'.1
    refine ⟨fun l h1 h2 => by omega, fun l h1 _ h2 => ?_, fun l h1 h2 => by omega⟩
    exact Nat.le_trans (hold l h1 h2) (Nat.le_of_eq (hkeep _ _ l (Nat.le_trans hlo h1)).symm)
  | refused => exact hrun (hkeep _ _)

end Nodes

end TrustedFirmware.Psci
