import TrustedFirmware.Psci.PlatCoord

/-! # OS-initiated mode

An accepted CPU_SUSPEND records a request at every level up to the highest one of
CPU_SUSPEND, whatever its target level. A wake-up inside the call restores the levels
up to the target only, and the standby path restores none; a warm boot restores them
all. So whether a CPU that runs again has its whole path running depends on how it
wakes, and `RestoresPath` says exactly when. -/
namespace TrustedFirmware.Psci
open Runs
set_option autoImplicit false

def recordedLvl (P : Platform) (e : ℕ) : SuspendMode → ℕ
  | .platCoord => e
  | .osInit => P.maxCpuSuspendPwrLvl

/-- The nodes of the CPU above level `e` run. -/
def RunsAbove (P : Platform) (s : PsciState) (cpu e : ℕ) : Prop :=
  ∀ l, e ≤ l → l < P.maxPwrLvl → s.nodeLocalState (P.ancestor cpu l) = PSCI_LOCAL_STATE_RUN

/-- The wake-ups after which the path of the CPU runs: from an OS-initiated call only if its
target was the highest level, from standby or a call of platform-coordinated mode only if nothing
above what it restores has gone to sleep since. -/
def RestoresPath (P : Platform) (s : PsciState) : Source → Prop
  | .call => True
  | .reset cpu => ∀ e pd, s.sleep cpu = some (.suspended e pd .platCoord) → RunsAbove P s cpu e
  | .wake cpu => (∀ e pd, s.sleep cpu = some (.suspended e pd .osInit) →
      e = P.maxCpuSuspendPwrLvl) ∧
    (∀ e pd, s.sleep cpu = some (.suspended e pd .platCoord) → RunsAbove P s cpu e) ∧
    (s.sleep cpu = some .standby → RunsAbove P s cpu 0)

/-- Above every CPU that runs all nodes are recorded as RUN, and so are its requests. -/
def RunningRestored (P : Platform) (s : PsciState) : Prop :=
  ∀ c < P.coreCount, Running s c → ∀ l < P.maxPwrLvl,
    s.nodeLocalState (P.ancestor c l) = PSCI_LOCAL_STATE_RUN ∧
      s.reqLocalPwrStates l c = PSCI_LOCAL_STATE_RUN

structure OsCpuOk (P : Platform) (v : CpuView) : Prop where
  running : v.aff = .on → v.sleep = none → v.loc = PSCI_LOCAL_STATE_RUN ∧
    ∀ l < P.maxPwrLvl, v.req l = PSCI_LOCAL_STATE_RUN
  standby : v.sleep = some .standby → ∀ l < P.maxPwrLvl, v.req l = PSCI_LOCAL_STATE_RUN
  suspended : ∀ e pd mode, v.sleep = some (.suspended e pd mode) → e ≤ P.maxCpuSuspendPwrLvl ∧
    (∀ l, recordedLvl P e mode ≤ l → l < P.maxPwrLvl → v.req l = PSCI_LOCAL_STATE_RUN) ∧
    v.target = if pd = true then recordedLvl P e mode else P.maxPwrLvl
  stale : ∀ e pd, v.sleep = some (.suspended e pd .osInit) →
    ∀ l, e ≤ l → l < P.maxCpuSuspendPwrLvl → v.req l ≠ PSCI_LOCAL_STATE_RUN
  target : (∀ e pd mode, v.sleep ≠ some (.suspended e pd mode)) → v.target = P.maxPwrLvl
  off : v.aff ≠ .on → v.sleep = none

structure OsInitInv (P : Platform) (s : PsciState) : Prop where
  os : OsInitiated P s
  cpu : ∀ c < P.coreCount, OsCpuOk P (s.view c)
  node : ∀ c < P.coreCount, Running s c → RunsAbove P s c 0
  le : Bounded P P.maxCpuSuspendPwrLvl s

section Cpu
variable {P : Platform} {s : PsciState} {src : Source} {cpu j : ℕ} {f : ℕ → ℕ} {v : CpuView}

theorem OsCpuOk.at_rest (h : OsCpuOk P (s.view cpu)) (hr : Running s cpu) :
    s.targetPwrlvl cpu = P.maxPwrLvl ∧
      ∀ l < P.maxPwrLvl, s.reqLocalPwrStates l cpu = PSCI_LOCAL_STATE_RUN :=
  ⟨h.target fun _ _ _ hs => (nomatch hr.2.symm.trans hs), (h.running hr.1 hr.2).2⟩

theorem OsCpuOk.target_of_off (h : OsCpuOk P (s.view cpu)) (hne : s.affInfoState cpu ≠ .on) :
    s.targetPwrlvl cpu = P.maxPwrLvl := by
  have hnone : s.sleep cpu = none := h.off hne
  exact h.target fun e pd mode hs => (nomatch hnone.symm.trans hs)

theorem OsCpuOk.woken {e t : ℕ} (ht : t = P.maxPwrLvl)
    (h : ∀ l, e ≤ l → l < P.maxPwrLvl → v.req l = PSCI_LOCAL_STATE_RUN) :
    OsCpuOk P { v.woken e with target := t } := by
  refine ⟨fun _ _ => ⟨rfl, fun l hl => ?_⟩, (fun hs => nomatch hs), (fun e pd mode hs => nomatch hs),
    (fun e pd hs => nomatch hs), fun _ => ht, fun hne => absurd rfl hne⟩
  by_cases hle : l < e
  · exact if_pos hle
  · exact (if_neg hle).trans (h l (by omega) hl)

theorem Move.osCpuOk_suspend {e : ℕ} {states : ℕ → ℕ} {pd : Bool} (h : OsCpuOk P (s.view cpu))
    (hr : Running s cpu) (hos : OsInitiated P s) (hq : Requested P e states) :
    OsCpuOk P { (s.view cpu).requesting P.maxCpuSuspendPwrLvl (recorded e states) with
      loc := states 0
      target := if pd = true then P.maxCpuSuspendPwrLvl else s.targetPwrlvl cpu
      sleep := some (.suspended e pd s.suspendMode) } := by
  obtain ⟨htarget, hreq⟩ := h.at_rest hr
  refine ⟨(fun _ hc => nomatch hc), (fun hc => nomatch hc), fun e' pd' mode hc => ?_,
    fun e' pd' hc l h1 h2 => ?_, fun hc => absurd rfl (hc _ _ _), fun hne => absurd hr.1 hne⟩
  · cases hc
    rw [hos.2, htarget]
    exact ⟨hq.suspend_le hos.1,
      fun l h1 h2 => (if_neg (Nat.not_lt.mpr h1)).trans (hreq l h2), rfl⟩
  · obtain rfl : e = e' := by
      injection hc with hc
      injection hc
    -- rows above the target level hold the state of the target level
    have hrow : recorded e states l = states e := if_neg (by omega)
    have hreq' : (if l < P.maxCpuSuspendPwrLvl then recorded e states l
        else s.reqLocalPwrStates l cpu) ≠ PSCI_LOCAL_STATE_RUN := by
      rw [if_pos h2, hrow]
      exact hq.ne_run e (Nat.le_refl e)
    exact hreq'

theorem Move.osCpuOk (hm : Move P s cpu src j f v) (h : OsCpuOk P (s.view cpu))
    (hos : OsInitiated P s) (hg : RestoresPath P s src) : OsCpuOk P v := by
  cases hm with
  | stay => exact h
  | pend _ hoff =>
    have hne : (s.view cpu).aff ≠ .on := by
      intro hon
      cases hoff.symm.trans hon
    exact ⟨(fun hc => nomatch hc), h.standby, h.suspended, h.stale, h.target, fun _ => h.off hne⟩
  | boot hon hle =>
    have htarget := h.target_of_off fun hc => (nomatch hon.symm.trans hc)
    exact OsCpuOk.woken htarget fun l h1 h2 => by omega
  | resume hs ha hle =>
    obtain ⟨-, hreq, htarget⟩ := h.suspended _ _ _ hs
    have htarget' : s.targetPwrlvl cpu = _ := htarget
    rw [if_pos rfl] at htarget'
    rw [htarget']
    exact OsCpuOk.woken rfl hreq
  | @finish e pd mode hs =>
    obtain ⟨-, hreq, -⟩ := h.suspended _ _ _ hs
    cases mode with
    | platCoord => exact OsCpuOk.woken rfl hreq
    | osInit =>
      obtain rfl := hg.1 _ _ hs
      exact OsCpuOk.woken rfl hreq
  | standby _ hr hv =>
    obtain ⟨htarget, hreq⟩ := h.at_rest hr
    exact ⟨(fun _ hc => nomatch hc), fun _ => hreq, (fun e pd mode hc => nomatch hc),
      (fun e pd hc => nomatch hc), fun _ => htarget, fun hne => absurd hr.1 hne⟩
  | standbyWake _ hs =>
    have htarget := h.target fun e pd mode hc => (nomatch hs.symm.trans hc)
    exact ⟨fun _ _ => ⟨rfl, h.standby hs⟩, (fun hc => nomatch hc), (fun e pd mode hc => nomatch hc),
      (fun e pd hc => nomatch hc), fun _ => htarget, fun _ => rfl⟩
  | off hr hf =>
    have hsleep : (s.view cpu).sleep = none := hr.2
    refine ⟨(fun hc => nomatch hc), (fun hc => nomatch hsleep.symm.trans hc),
      (fun e pd mode hc => nomatch hsleep.symm.trans hc),
      (fun e pd hc => nomatch hsleep.symm.trans hc), fun _ => (h.at_rest hr).1, fun _ => hsleep⟩
  | suspendPlat pd hr hos' => exact absurd hos hos'
  | suspendOs pd hr hos' hq => exact Move.osCpuOk_suspend h hr hos hq
  | refused hr hos' => exact absurd hos hos'

end Cpu

/-! ## Nodes above running CPUs -/

section Nodes
variable {P : Platform} {s s' : PsciState} {src : Source} {cpu j c l : ℕ} {f : ℕ → ℕ} {v : CpuView}

theorem exists_meeting (hne : c ≠ cpu) (h : P.ancestor c l = P.ancestor cpu l) :
    ∃ k ≤ l, P.ancestor c k = P.ancestor cpu k ∧ P.pathNode c k ≠ P.pathNode cpu k := by
  induction l with
  | zero => exact ⟨0, Nat.le_refl 0, h, hne⟩
  | succ l ih =>
    by_cases hl : P.ancestor c l = P.ancestor cpu l
    · obtain ⟨k, hk, hm⟩ := ih hl
      exact ⟨k, by omega, hm⟩
    · exact ⟨l + 1, Nat.le_refl _, h, hl⟩

theorem SiblingsDeep.not_running {e : ℕ} {states : ℕ → ℕ} (h : SiblingsDeep P s cpu e states)
    (hq : Requested P e states) (hc : c < P.coreCount) (hne : c ≠ cpu)
    (hloc : s.cpuLocalState c = PSCI_LOCAL_STATE_RUN) (hnodes : RunsAbove P s c 0) (hl : l < e)
    (hm : P.ancestor c l = P.ancestor cpu l) : False := by
  obtain ⟨k, hk, hmeet, hpath⟩ := exists_meeting hne hm
  have hdeep := h k (by omega) c hc hmeet hpath
  have hle := hq.le
  refine hq.ne_run (k + 1) (by omega) (Nat.le_zero.mp ?_)
  cases k with
  | zero =>
    have hge : s.cpuLocalState c ≥ states 1 := by
      simpa [psciValidateSubtreeState, PSCI_CPU_PWR_LVL, Platform.pathNode] using hdeep
    rwa [hloc] at hge
  | succ k =>
    have hge : s.nodeLocalState (P.ancestor c k) ≥ states (k + 2) := by
      simpa [psciValidateSubtreeState, PSCI_CPU_PWR_LVL, Platform.pathNode] using hdeep
    rwa [hnodes k (Nat.zero_le k) (by omega)] at hge

theorem Move.spares (hm : Move P s cpu src j f v) (h : OsInitInv P s) (hc : c < P.coreCount)
    (hne : c ≠ cpu) (hr : Running s c) (hl : l < j) (hlm : l < P.maxPwrLvl)
    (hshare : P.ancestor c l = P.ancestor cpu l) : f l = PSCI_LOCAL_STATE_RUN := by
  cases hm with
  | stay => exact absurd hl (Nat.not_lt_zero l)
  | pend => exact absurd hl (Nat.not_lt_zero l)
  | boot => rfl
  | resume => rfl
  | finish => rfl
  | standby => exact absurd hl (Nat.not_lt_zero l)
  | standbyWake => exact absurd hl (Nat.not_lt_zero l)
  | off _ hf =>
    have hle := (hf l hl).2 c hc hne hshare
    rw [((h.cpu c hc).at_rest hr).2 l hlm] at hle
    exact Nat.le_zero.mp hle
  | suspendPlat pd hr hos' => exact absurd h.os hos'
  | suspendOs pd _ _ hq hdeep =>
    exact (hdeep.not_running hq hc hne ((h.cpu c hc).running hr.1 hr.2).1 (h.node c hc hr) hl
      hshare).elim
  | refused => rfl

theorem OsInitInv.runsAbove_of_le (h : OsInitInv P s) (hcpu : cpu < P.coreCount)
    (hreq : ∀ l, P.maxCpuSuspendPwrLvl ≤ l → l < P.maxPwrLvl →
      s.reqLocalPwrStates l cpu = PSCI_LOCAL_STATE_RUN) :
    RunsAbove P s cpu P.maxCpuSuspendPwrLvl := by
  intro l h1 h2
  have hle := h.le cpu hcpu l h1 h2
  rw [hreq l h1 h2] at hle
  exact Nat.le_zero.mp hle

theorem Move.restores (hm : Move P s cpu src j f v) (h : OsInitInv P s) (hcpu : cpu < P.coreCount)
    (hg : RestoresPath P s src) (ha : v.aff = .on) (hs : v.sleep = none) :
    (∀ l < j, f l = PSCI_LOCAL_STATE_RUN) ∧ RunsAbove P s cpu j := by
  have hok := h.cpu cpu hcpu
  have hwake : ∀ {e : ℕ}, RunsAbove P s cpu e →
      (∀ l < e, (fun _ : ℕ => PSCI_LOCAL_STATE_RUN) l = PSCI_LOCAL_STATE_RUN) ∧
        RunsAbove P s cpu e := fun hr => ⟨fun _ _ => rfl, hr⟩
  cases hm with
  | stay => exact ⟨fun l hl => absurd hl (Nat.not_lt_zero l), h.node cpu hcpu ⟨ha, hs⟩⟩
  | pend => cases ha
  | boot hon hle =>
    have htarget := hok.target_of_off fun hc => (nomatch hon.symm.trans hc)
    exact hwake fun l h1 h2 => by omega
  | @resume e mode hsl _ hle =>
    obtain ⟨-, hreq, htarget⟩ := hok.suspended _ _ _ hsl
    have htarget' : s.targetPwrlvl cpu = recordedLvl P e mode := htarget
    rw [htarget']
    cases mode with
    | platCoord => exact hwake (hg _ _ hsl)
    | osInit => exact hwake (h.runsAbove_of_le hcpu hreq)
  | @finish e pd mode hsl =>
    cases mode with
    | platCoord => exact hwake (hg.2.1 _ _ hsl)
    | osInit =>
      obtain rfl := hg.1 _ _ hsl
      exact hwake (h.runsAbove_of_le hcpu (hok.suspended _ _ _ hsl).2.1)
  | standby => cases hs
  | standbyWake _ hsl => exact ⟨fun l hl => absurd hl (Nat.not_lt_zero l), hg.2.2 hsl⟩
  | off => cases ha
  | suspendPlat => cases hs
  | suspendOs => cases hs
  | refused hr hos' => exact absurd h.os hos'

theorem running_of_view (hv : s'.view c = s.view c) (hr : Running s' c) : Running s c :=
  ⟨(congrArg CpuView.aff hv).symm.trans hr.1, (congrArg CpuView.sleep hv).symm.trans hr.2⟩

theorem OsInitInv.moves (h : OsInitInv P s) (hm : Moves P src s s') (hg : RestoresPath P s src) :
    OsInitInv P s' := by
  obtain ⟨cpu, hcpu, j, f, v, hmove, hchange⟩ := hm
  refine ⟨⟨h.os.1, hchange.mode.trans h.os.2⟩, fun c hc => ?_, fun c hc hr l _ hl => ?_,
    hchange.bounded hcpu (hmove.within h.le hcpu fun _ => Nat.le_refl _) h.le⟩
  · by_cases hcc : c = cpu
    · rw [hcc, hchange.self]
      exact hmove.osCpuOk (h.cpu cpu hcpu) h.os hg
    · rw [hchange.others c hcc]
      exact h.cpu c hc
  · rw [hchange.node c hc l hl]
    by_cases hcc : c = cpu
    · subst hcc
      obtain ⟨hlow, hhigh⟩ := hmove.restores h hc hg
        ((congrArg CpuView.aff hchange.self).symm.trans hr.1)
        ((congrArg CpuView.sleep hchange.self).symm.trans hr.2)
      by_cases hlj : l < j
      · rw [if_pos ⟨hlj, rfl⟩]
        exact hlow l hlj
      · rw [if_neg fun hk => hlj hk.1]
        exact hhigh l (by omega) hl
    · have hr' := running_of_view (hchange.others c hcc) hr
      split
      · next hk => exact hmove.spares h hc hcc hr' hk.1 hl hk.2
      · exact h.node c hc hr' l (Nat.zero_le l) hl

theorem OsInitInv.restored (h : OsInitInv P s) : RunningRestored P s :=
  fun c hc hr l hl => ⟨h.node c hc hr l (Nat.zero_le l) hl, ((h.cpu c hc).at_rest hr).2 l hl⟩

theorem Change.above_of_restored (hchange : Change P cpu j f v s s') (hcpu : cpu < P.coreCount)
    (ha : v.aff = .on) (hs : v.sleep = none) (hr : RunningRestored P s') :
    RunsAbove P s cpu j ∧ ∀ l < P.maxPwrLvl, v.req l = PSCI_LOCAL_STATE_RUN := by
  have hrun : Running s' cpu :=
    ⟨(congrArg CpuView.aff hchange.self).trans ha, (congrArg CpuView.sleep hchange.self).trans hs⟩
  refine ⟨fun l h1 h2 => ?_, fun l hl => ?_⟩
  · have hnode := hchange.node cpu hcpu l h2
    rw [if_neg fun hk => absurd hk.1 (Nat.not_lt.mpr h1)] at hnode
    rw [← hnode]
    exact (hr cpu hcpu hrun l h2).1
  · have hreq : s'.reqLocalPwrStates l cpu = v.req l := congrArg (fun w => w.req l) hchange.self
    rw [← hreq]
    exact (hr cpu hcpu hrun l hl).2

theorem Move.restoresPath (hm : Move P s cpu src j f v) (hchange : Change P cpu j f v s s')
    (h : OsInitInv P s) (hcpu : cpu < P.coreCount) (hr : RunningRestored P s') :
    RestoresPath P s src := by
  have hok := h.cpu cpu hcpu
  cases hm with
  | boot hon =>
    intro e pd hsl
    have hnone : s.sleep cpu = none := hok.off fun hc => (nomatch hon.symm.trans hc)
    cases hnone.symm.trans hsl
  | resume hsl =>
    intro e' pd hsl'
    obtain ⟨habove, -⟩ := hchange.above_of_restored hcpu rfl rfl hr
    have htarget : s.targetPwrlvl cpu = _ := (hok.suspended _ _ _ hsl).2.2
    cases hsl.symm.trans hsl'
    rwa [htarget] at habove
  | finish hsl =>
    obtain ⟨habove, hreq⟩ := hchange.above_of_restored hcpu rfl rfl hr
    refine ⟨fun e' pd' hsl' => ?_, fun e' pd' hsl' => ?_, fun hsl' => ?_⟩
    · cases hsl.symm.trans hsl'
      by_contra hne
      have hle := (hok.suspended _ _ _ hsl).1
      have hmax := P.suspend_le
      -- the row above the target level still holds the request of the call
      have hrow := hreq j (by omega)
      exact hok.stale _ _ hsl j (Nat.le_refl j) (by omega)
        ((if_neg (Nat.lt_irrefl j)).symm.trans hrow)
    · cases hsl.symm.trans hsl'
      exact habove
    · cases hsl.symm.trans hsl'
  | standbyWake _ hsl =>
    have hon : s.affInfoState cpu = .on := by
      by_contra hne
      have hnone : s.sleep cpu = none := hok.off hne
      cases hnone.symm.trans hsl
    obtain ⟨habove, -⟩ := hchange.above_of_restored hcpu hon rfl hr
    exact ⟨fun e pd hsl' => (nomatch hsl.symm.trans hsl'),
      fun e pd hsl' => (nomatch hsl.symm.trans hsl'), fun _ => habove⟩
  | _ => trivial

end Nodes

/-! ## Runs -/

/-- The steps of a run in OS-initiated mode: accepted calls, resets and wake-ups. -/
def OsStep {P : Platform} (s : PsciState) (a : Action P) : Prop :=
  Accepting P s a ∧ ∀ c mode, a ≠ .setSuspendMode c mode

/-- A successful SET_SUSPEND_MODE at the end of a platform-coordinated run. -/
def OsStart (P : Platform) (bootCpu : ℕ) (s : PsciState) : Prop :=
  ∃ s0 cpu, Reach (Guarded (Steps P) StaysCoordinated) (initialState P bootCpu) s0 ∧
    Steps P s0 (.setSuspendMode cpu .osInit) s ∧ s.suspendMode = .osInit

section RunsOfMode
variable {P : Platform} {s s' : PsciState} {bootCpu : ℕ}

theorem OsCpuOk.of_cpuOk {v : CpuView} (hos : P.osInitMode = true) (h : CpuOk P v) :
    OsCpuOk P v := by
  refine ⟨fun ha hs => ⟨h.running ha hs, h.awake (h.running ha hs)⟩, h.standby,
    fun e pd mode hs => ?_, fun e pd hs => ?_, h.target, h.off⟩
  · obtain ⟨-, hreq, htarget⟩ := h.suspended e pd mode hs
    obtain ⟨rfl, hle⟩ := h.frame e pd mode hs
    exact ⟨hle hos, hreq, htarget⟩
  · cases (h.frame e pd _ hs).1

theorem osInitInv_start (hboot : bootCpu < P.coreCount) (h : OsStart P bootCpu s) :
    OsInitInv P s := by
  obtain ⟨s0, cpu, hreach, ⟨-, hos, -, hs⟩, hmode⟩ := h
  have hinv : PlatCoordInv P s0 := hreach.invariant (platCoordInv_initialState hboot)
    fun u a v hu hstep => hu.step hstep
  -- a refused call leaves the mode as it was
  have hs' : s = { s0 with suspendMode := .osInit } := by
    unfold psciSetSuspendMode at hs
    split at hs
    · next hm => cases hinv.mode.symm.trans hm
    split at hs
    · rw [hs] at hmode
      cases hinv.mode.symm.trans hmode
    split at hs
    · rw [hs] at hmode
      cases hinv.mode.symm.trans hmode
    · exact hs
  subst hs'
  refine ⟨⟨hos, rfl⟩, fun c hc => OsCpuOk.of_cpuOk hos (hinv.cpu c hc), fun c hc hr l h0 hl => ?_,
    fun c hc l _ hl => hinv.le c hc l (Nat.zero_le l) hl⟩
  have hle := hinv.le c hc l h0 hl
  have hreq : s0.reqLocalPwrStates l c = PSCI_LOCAL_STATE_RUN :=
    ((hinv.cpu c hc).at_rest hr).2 l hl
  rw [hreq] at hle
  exact Nat.le_zero.mp hle

theorem OsInitInv.moves_of_step {a : Action P} (h : OsInitInv P s) (ha : OsStep s a)
    (hs : Steps P s a s') : Moves P a.source s s' :=
  Psci.moves_of_step hs ha.1 ha.2 fun c hc e pd mode hsl =>
    Nat.le_trans ((h.cpu c hc).suspended e pd mode hsl).1 P.suspend_le

/-- **Wake-ups in OS-initiated mode.** While every wake-up restores its path, all nodes above a
running CPU and all its requests are RUN; and the first wake-up that does not ends in a state
where they are not. -/
theorem osInit_running_restored (hboot : bootCpu < P.coreCount) {s0 : PsciState}
    (h0 : OsStart P bootCpu s0)
    (h : Reach (Guarded (Steps P) fun s a => OsStep s a ∧ RestoresPath P s a.source) s0 s) :
    RunningRestored P s ∧ ∀ a s', OsStep s a → Steps P s a s' →
      (RunningRestored P s' ↔ RestoresPath P s a.source) := by
  have hinv : OsInitInv P s := h.invariant (osInitInv_start hboot h0)
    fun u a v hu hs => hu.moves (hu.moves_of_step hs.1.1 hs.2) hs.1.2
  refine ⟨hinv.restored, fun a s' ha hs => ⟨fun hr => ?_, fun hg => ?_⟩⟩
  · obtain ⟨cpu, hcpu, j, f, v, hmove, hchange⟩ := hinv.moves_of_step ha hs
    exact hmove.restoresPath hchange hinv hcpu hr
  · exact (hinv.moves (hinv.moves_of_step ha hs) hg).restored

end RunsOfMode

def clusterRequest (isPowerDownState : Bool) : SuspendReq twoClusters where
  info := ⟨fun l => if l ≤ 1 then (if isPowerDownState then 2 else 1) else 0, 1⟩
  isPowerDownState := isPowerDownState
  valid := by cases isPowerDownState <;> decide
  lvl_le := by
    intro _ lvl h
    exact Nat.le_of_lt_succ (findHighestLvl_some h).1

def quietHooks : SuspendHooks := ⟨true, false, PSCI_E_SUCCESS⟩

def twoClustersOsInit : PsciState :=
  (psciSetSuspendMode twoClusters 0 .osInit
    ((psciSetPwrDomainsToRun twoClusters 1 2
      (psciCpuOnStart twoClusters 1 false (initialState twoClusters 0)).2).setSleep 1 none)).2

theorem osStart_twoClusters : OsStart twoClusters 0 twoClustersOsInit := by
  refine ⟨_, 0, ?_, ⟨by decide, by decide, by decide, rfl⟩, by decide⟩
  have hon : Guarded (Steps twoClusters) StaysCoordinated (initialState twoClusters 0)
      (.cpuOn 0 1 false) (psciCpuOnStart twoClusters 1 false (initialState twoClusters 0)).2 :=
    ⟨(fun _ h => nomatch h), by decide, by decide, rfl⟩
  exact ((Reach.refl _ _).tail hon).tail
    (show Guarded _ _ _ (.warmBoot 1) _ from
      ⟨(fun _ h => nomatch h), by decide, Or.inl (by decide), rfl⟩)

theorem osInit_running_restored_warmBoot :
    let s1 := ((psciCpuSuspend twoClusters 0 (clusterRequest true) quietHooks
      twoClustersOsInit).getD (0, twoClustersOsInit)).2
    let s2 := (psciWarmbootEntrypoint twoClusters 0 s1).getD s1
    Running s2 0 ∧ RunningRestored twoClusters s2 := by
  intro s1 s2
  have hsus : Guarded (Steps twoClusters)
      (fun s a => OsStep s a ∧ RestoresPath twoClusters s a.source) twoClustersOsInit
      (.cpuSuspend 0 (clusterRequest true) quietHooks) s1 := by
    refine ⟨⟨⟨fun _ r hr => ?_, (fun _ _ h => nomatch h)⟩, trivial⟩, by decide, by decide, 0, rfl⟩
    exact congrArg Prod.fst (Option.some.inj hr).symm
  have hboot : Guarded (Steps twoClusters)
      (fun s a => OsStep s a ∧ RestoresPath twoClusters s a.source) s1 (.warmBoot 0) s2 :=
    ⟨⟨⟨trivial, (fun _ _ h => nomatch h)⟩, fun e pd h => (nomatch Option.some.inj h)⟩, by decide,
      Or.inr ⟨1, .osInit, rfl⟩, rfl⟩
  exact ⟨by decide, (osInit_running_restored (by decide) osStart_twoClusters
    (((Reach.refl _ _).tail hsus).tail hboot)).1⟩

/-- CPU 0 puts its cluster into retention and wakes inside the call; its request for the system
node stays behind, and CPU_OFF on CPU 1 then takes the system node down below CPU 0. -/
theorem system_node_sleeps_above_running_cpu :
    ∃ s, Reach (Guarded (Steps twoClusters) OsStep) twoClustersOsInit s ∧
      OsStart twoClusters 0 twoClustersOsInit ∧ Running s 0 ∧
      s.reqLocalPwrStates 1 0 ≠ PSCI_LOCAL_STATE_RUN ∧
      s.nodeLocalState (twoClusters.ancestor 0 1) ≠ PSCI_LOCAL_STATE_RUN := by
  let s1 := ((psciCpuSuspend twoClusters 0 (clusterRequest false) quietHooks
    twoClustersOsInit).getD (0, twoClustersOsInit)).2
  let s2 := (wakeInCall twoClusters 0 s1).getD s1
  let s3 := (psciDoCpuOff twoClusters 1 false s2).2
  have hsus : Guarded (Steps twoClusters) OsStep twoClustersOsInit
      (.cpuSuspend 0 (clusterRequest false) quietHooks) s1 := by
    refine ⟨⟨fun _ r hr => ?_, (fun _ _ h => nomatch h)⟩, by decide, by decide, 0, rfl⟩
    exact congrArg Prod.fst (Option.some.inj hr).symm
  have hwake : Guarded (Steps twoClusters) OsStep s1 (.wake 0) s2 :=
    ⟨⟨trivial, (fun _ _ h => nomatch h)⟩, by decide, rfl⟩
  have hoff : Guarded (Steps twoClusters) OsStep s2 (.cpuOff 1 false) s3 :=
    ⟨⟨trivial, (fun _ _ h => nomatch h)⟩, by decide, by decide, rfl⟩
  exact ⟨s3, (((Reach.refl _ _).tail hsus).tail hwake).tail hoff, osStart_twoClusters, by decide,
    by decide, by decide⟩

end TrustedFirmware.Psci
