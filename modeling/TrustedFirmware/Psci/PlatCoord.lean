import TrustedFirmware.Psci.Moves

/-! # Platform-coordinated mode

The nodes above a CPU that runs are running, in every state a run can reach. A node is
never deeper than a request for it, and a CPU that runs requests RUN everywhere. What
makes this inductive is that a sleeping CPU requests RUN above the level it restores. -/
namespace TrustedFirmware.Psci
open Runs
set_option autoImplicit false

structure CpuOk (P : Platform) (v : CpuView) : Prop where
  running : v.aff = .on → v.sleep = none → v.loc = PSCI_LOCAL_STATE_RUN
  awake : v.loc = PSCI_LOCAL_STATE_RUN → ∀ l < P.maxPwrLvl, v.req l = PSCI_LOCAL_STATE_RUN
  standby : v.sleep = some .standby → ∀ l < P.maxPwrLvl, v.req l = PSCI_LOCAL_STATE_RUN
  suspended : ∀ e pd mode, v.sleep = some (.suspended e pd mode) → e ≤ P.maxPwrLvl ∧
    (∀ l, e ≤ l → l < P.maxPwrLvl → v.req l = PSCI_LOCAL_STATE_RUN) ∧
    v.target = if pd = true then e else P.maxPwrLvl
  target : (∀ e pd mode, v.sleep ≠ some (.suspended e pd mode)) → v.target = P.maxPwrLvl
  off : v.aff ≠ .on → v.sleep = none
  frame : ∀ e pd mode, v.sleep = some (.suspended e pd mode) →
    mode = .platCoord ∧ (P.osInitMode = true → e ≤ P.maxCpuSuspendPwrLvl)

structure PlatCoordInv (P : Platform) (s : PsciState) : Prop where
  mode : s.suspendMode = .platCoord
  cpu : ∀ c < P.coreCount, CpuOk P (s.view c)
  le : Bounded P 0 s

section Cpu
variable {P : Platform} {s : PsciState} {src : Source} {cpu j : ℕ} {f : ℕ → ℕ} {v : CpuView}

theorem CpuOk.at_rest (h : CpuOk P (s.view cpu)) (hr : Running s cpu) :
    s.targetPwrlvl cpu = P.maxPwrLvl ∧
      ∀ l < P.maxPwrLvl, s.reqLocalPwrStates l cpu = PSCI_LOCAL_STATE_RUN :=
  ⟨h.target fun _ _ _ hs => (nomatch hr.2.symm.trans hs), h.awake (h.running hr.1 hr.2)⟩

theorem CpuOk.woken {e t : ℕ} (ht : t = P.maxPwrLvl)
    (h : ∀ l, e ≤ l → l < P.maxPwrLvl → v.req l = PSCI_LOCAL_STATE_RUN) :
    CpuOk P { v.woken e with target := t } := by
  refine ⟨fun _ _ => rfl, fun _ l hl => ?_, (fun hs => nomatch hs), (fun e pd mode hs => nomatch hs),
    fun _ => ht, fun hne => absurd rfl hne, (fun e pd mode hs => nomatch hs)⟩
  by_cases hle : l < e
  · exact if_pos hle
  · exact (if_neg hle).trans (h l (by omega) hl)

theorem Move.cpuOk (h : CpuOk P (s.view cpu)) (hmode : s.suspendMode = .platCoord)
    (hm : Move P s cpu src j f v) : CpuOk P v := by
  cases hm with
  | stay => exact h
  | pend _ hoff =>
    have hne : (s.view cpu).aff ≠ .on := by
      intro hon
      cases hoff.symm.trans hon
    exact ⟨(fun hc => nomatch hc), h.awake, h.standby, h.suspended, h.target, fun _ => h.off hne,
      h.frame⟩
  | boot hon hle =>
    have hnone := h.off fun hc => (nomatch hon.symm.trans hc)
    have htarget : s.targetPwrlvl cpu = P.maxPwrLvl := h.target fun e pd mode hs =>
      (nomatch hnone.symm.trans hs)
    exact CpuOk.woken htarget fun l h1 h2 => by omega
  | resume hs ha hle =>
    obtain ⟨-, hreq, htarget⟩ := h.suspended _ _ _ hs
    have htarget' : s.targetPwrlvl cpu = _ := htarget
    rw [if_pos rfl] at htarget'
    rw [htarget']
    exact CpuOk.woken rfl hreq
  | finish hs => exact CpuOk.woken rfl (h.suspended _ _ _ hs).2.1
  | standby _ hr hv =>
    obtain ⟨htarget, hreq⟩ := h.at_rest hr
    exact ⟨(fun _ hc => nomatch hc), fun hc => absurd hc hv, fun _ => hreq,
      (fun e pd mode hc => nomatch hc), fun _ => htarget, fun hne => absurd hr.1 hne,
      (fun e pd mode hc => nomatch hc)⟩
  | standbyWake _ hs =>
    have htarget := h.target fun e pd mode hc => by cases hs.symm.trans hc
    exact ⟨fun _ _ => rfl, fun _ => h.standby hs, (fun hc => nomatch hc),
      (fun e pd mode hc => nomatch hc), fun _ => htarget, fun _ => rfl,
      (fun e pd mode hc => nomatch hc)⟩
  | off hr hf =>
    have hne : P.maxOffState ≠ PSCI_LOCAL_STATE_RUN := Nat.ne_of_gt (Nat.zero_lt_of_lt P.ret_lt_off)
    have hsleep : (s.view cpu).sleep = none := hr.2
    exact ⟨(fun hc => nomatch hc), fun hc => absurd hc hne, (fun hc => nomatch hsleep.symm.trans hc),
      (fun e pd mode hc => nomatch hsleep.symm.trans hc), fun _ => (h.at_rest hr).1, fun _ => hsleep,
      (fun e pd mode hc => nomatch hsleep.symm.trans hc)⟩
  | suspendPlat pd hr hos hq hf =>
    obtain ⟨htarget, hreq⟩ := h.at_rest hr
    refine ⟨(fun _ hc => nomatch hc), fun hc => absurd hc (hq.ne_run 0 (Nat.zero_le _)),
      (fun hc => nomatch hc), fun e pd mode hc => ?_, fun hc => absurd rfl (hc _ _ _),
      fun hne => absurd hr.1 hne, fun e pd mode hc => ?_⟩
    · cases hc
      refine ⟨hq.le, fun l h1 h2 => (if_neg (by omega)).trans (hreq l h2), ?_⟩
      dsimp only
      rw [htarget]
    · cases hc
      exact ⟨hmode, hq.suspend_le⟩
  | suspendOs pd hr hos =>
    cases hmode.symm.trans hos.2
  | refused hr =>
    obtain ⟨htarget, hreq⟩ := h.at_rest hr
    exact CpuOk.woken htarget fun l _ hl => hreq l hl

end Cpu

/-! ## Runs -/

def StaysCoordinated {P : Platform} (_ : PsciState) (a : Action P) : Prop :=
  ∀ cpu, a ≠ .setSuspendMode cpu .osInit

section RunsOfMode
variable {P : Platform} {s s' : PsciState} {src : Source}

theorem PlatCoordInv.not_os (h : PlatCoordInv P s) : ¬ OsInitiated P s := by
  intro hos
  cases h.mode.symm.trans hos.2

theorem PlatCoordInv.moves (h : PlatCoordInv P s) (hm : Moves P src s s') : PlatCoordInv P s' := by
  obtain ⟨cpu, hcpu, j, f, v, hmove, hchange⟩ := hm
  refine ⟨hchange.mode.trans h.mode, fun c hc => ?_, ?_⟩
  · by_cases hcc : c = cpu
    · rw [hcc, hchange.self]
      exact hmove.cpuOk (h.cpu cpu hcpu) h.mode
    · rw [hchange.others c hcc]
      exact h.cpu c hc
  · exact hchange.bounded hcpu (hmove.within h.le hcpu fun hos => absurd hos h.not_os) h.le

theorem PlatCoordInv.step {a : Action P} (h : PlatCoordInv P s)
    (hs : Guarded (Steps P) StaysCoordinated s a s') : PlatCoordInv P s' := by
  obtain ⟨hguard, hstep⟩ := hs
  have hbound : ∀ c < P.coreCount, ∀ e pd mode, s.sleep c = some (.suspended e pd mode) →
      e ≤ P.maxPwrLvl := fun c hc e pd mode hsl => ((h.cpu c hc).suspended e pd mode hsl).1
  by_cases hmode : ∀ c mode, a ≠ .setSuspendMode c mode
  · have hacc : Accepting P s a := by
      cases a with
      | cpuSuspend cpu req hooks => exact fun hos => absurd hos h.not_os
      | _ => trivial
    exact h.moves (moves_of_step hstep hacc hmode hbound)
  · -- the mode is already the one asked for
    obtain ⟨c, hc⟩ := not_forall.mp hmode
    obtain ⟨mode, hc⟩ := not_forall.mp hc
    obtain rfl := not_not.mp hc
    cases mode with
    | osInit => exact absurd rfl (hguard c)
    | platCoord =>
      obtain ⟨-, -, -, rfl⟩ := hstep
      rw [psciSetSuspendMode, if_pos h.mode]
      exact h

theorem platCoordInv_initialState {bootCpu : ℕ} (hboot : bootCpu < P.coreCount) :
    PlatCoordInv P (initialState P bootCpu) := by
  have hoff : P.maxOffState ≠ PSCI_LOCAL_STATE_RUN :=
    Nat.ne_of_gt (Nat.zero_lt_of_lt P.ret_lt_off)
  obtain ⟨hnode, hreq, nodes, req, hs⟩ := @psciSetPwrDomainsToRun_spec P
    { affInfoState := fun _ => .off
      targetPwrlvl := fun _ => P.maxPwrLvl
      cpuLocalState := fun _ => P.maxOffState
      nodeLocalState := fun _ => P.maxOffState
      reqLocalPwrStates := fun _ _ => P.maxOffState
      suspendMode := .platCoord
      sleep := fun _ => none } bootCpu P.maxPwrLvl hboot (Nat.le_refl _)
  rw [initialState, hs]
  rw [hs] at hnode hreq
  have hrow : ∀ l c, req l c = if l < P.maxPwrLvl ∧ c = bootCpu then PSCI_LOCAL_STATE_RUN
      else P.maxOffState := hreq
  refine ⟨rfl, fun c hc => ?_, fun c hc l _ hl => ?_⟩
  · refine ⟨fun ha _ => ?_, fun hloc l hl => ?_, (fun h => nomatch h), (fun _ _ _ h => nomatch h),
      fun _ => rfl, fun _ => rfl, (fun _ _ _ h => nomatch h)⟩
    · by_cases hcb : c = bootCpu
      · simp [PsciState.view, hcb]
      · simp [PsciState.view, hcb] at ha
    · by_cases hcb : c = bootCpu
      · simp [PsciState.view, hrow, hcb, hl]
      · simp [PsciState.view, hcb] at hloc
        exact absurd hloc hoff
  · refine Nat.le_trans (Nat.le_of_eq (hnode c hc l hl)) ?_
    refine Nat.le_trans ?_ (Nat.le_of_eq (hrow l c).symm)
    by_cases hcb : c = bootCpu
    · rw [if_pos ⟨hl, by rw [hcb]⟩]
      exact Nat.zero_le _
    · rw [if_neg (show ¬ (l < P.maxPwrLvl ∧ c = bootCpu) from fun h => hcb h.2)]
      split
      · exact Nat.zero_le _
      · exact Nat.le_refl _

/-- **Above a CPU that runs everything runs**, and no node is deeper than the shallowest request
for it. -/
theorem platCoord_ancestors_run {bootCpu : ℕ} (hboot : bootCpu < P.coreCount)
    (h : Reach (Guarded (Steps P) StaysCoordinated) (initialState P bootCpu) s) :
    (∀ c < P.coreCount, s.cpuLocalState c = PSCI_LOCAL_STATE_RUN → ∀ l < P.maxPwrLvl,
      s.nodeLocalState (P.ancestor c l) = PSCI_LOCAL_STATE_RUN) ∧
    ∀ c < P.coreCount, ∀ l < P.maxPwrLvl,
      s.nodeLocalState (P.ancestor c l) ≤ s.reqLocalPwrStates l c := by
  have hinv : PlatCoordInv P s := h.invariant (platCoordInv_initialState hboot)
    fun u a v hu hs => hu.step hs
  refine ⟨fun c hc hrun l hl => ?_, fun c hc l hl => hinv.le c hc l (Nat.zero_le l) hl⟩
  have hreq : s.reqLocalPwrStates l c = PSCI_LOCAL_STATE_RUN := (hinv.cpu c hc).awake hrun l hl
  have hle := hinv.le c hc l (Nat.zero_le l) hl
  rw [hreq] at hle
  exact Nat.le_zero.mp hle

end RunsOfMode

def twoClusterNodes : ℕ → NonCpuPdNode
  | 0 => ⟨0, 2, 0, 1, 2⟩
  | n + 1 => ⟨n, 1, 0, n, 1⟩

def twoClusters : Platform where
  maxPwrLvl := 2
  maxRetState := 1
  maxOffState := 2
  osInitMode := true
  maxCpuSuspendPwrLvl := 2
  cpuStandby := true
  coreCount := 2
  cpuParent := fun c => c + 1
  nodes := twoClusterNodes
  ret_lt_off := by decide
  suspend_le := by decide
  range := by
    intro l hl c hc c'
    obtain rfl | rfl := Nat.le_one_iff_eq_zero_or_eq_one.mp (Nat.le_of_lt_succ hl)
    · simp only [parentPwrDomainNode, twoClusterNodes, Nat.lt_succ_iff, ← Nat.le_antisymm_iff]
      exact ⟨fun h => ⟨Nat.le_of_lt_succ (h ▸ hc), congrArg _ h.symm⟩, fun h => (Nat.succ.inj h.2).symm⟩
    · simp [parentPwrDomainNode, twoClusterNodes]
  level_unique := by decide
  child_cpu := by decide
  child_node := by
    intro l hl
    obtain rfl := Nat.lt_one_iff.mp (Nat.lt_of_succ_lt_succ hl)
    decide

theorem platCoord_ancestors_run_cpuOff :
    let s1 := (psciCpuOnStart twoClusters 1 false (initialState twoClusters 0)).2
    let s2 := (psciSetPwrDomainsToRun twoClusters 1 2 s1).setSleep 1 none
    let s3 := (psciDoCpuOff twoClusters 1 false s2).2
    s3.cpuLocalState 0 = PSCI_LOCAL_STATE_RUN ∧
      ∀ l < 2, s3.nodeLocalState (twoClusters.ancestor 0 l) = PSCI_LOCAL_STATE_RUN := by
  intro s1 s2 s3
  have hon : Guarded (Steps twoClusters) StaysCoordinated (initialState twoClusters 0)
      (.cpuOn 0 1 false) s1 := ⟨(fun _ h => nomatch h), by decide, by decide, rfl⟩
  have hboot : Guarded (Steps twoClusters) StaysCoordinated s1 (.warmBoot 1) s2 :=
    ⟨(fun _ h => nomatch h), by decide, Or.inl (by decide), rfl⟩
  have hoff : Guarded (Steps twoClusters) StaysCoordinated s2 (.cpuOff 1 false) s3 :=
    ⟨(fun _ h => nomatch h), by decide, by decide, rfl⟩
  have hrun : s3.cpuLocalState 0 = PSCI_LOCAL_STATE_RUN := by decide
  exact ⟨hrun, (platCoord_ancestors_run (by decide)
    ((((Reach.refl _ _).tail hon).tail hboot).tail hoff)).1 0 (by decide) hrun⟩

end TrustedFirmware.Psci
