import TrustedFirmware.Psci.Refusals
import TrustedFirmware.Foundations.LockTrace

/-! # Locks of the power domains

The order in which `psci_cpu_suspend_start()` and `psci_warmboot_entrypoint()` take the
locks of the nodes above a CPU, write the local states of nodes and give the locks back.
The writes of a path are those of the model: replayed on the nodes of the state before
they give the nodes of the state after. -/
namespace TrustedFirmware.Psci
open LockTrace
set_option autoImplicit false

abbrev LockEvent : Type := Event ℕ ℕ

def psciAcquirePwrDomainLocks (endPwrlvl : ℕ) (parentNodes : ℕ → ℕ) : List LockEvent :=
  ((List.range endPwrlvl).map parentNodes).map .acquire

def psciReleasePwrDomainLocks (endPwrlvl : ℕ) (parentNodes : ℕ → ℕ) : List LockEvent :=
  ((List.range endPwrlvl).map parentNodes).reverse.map .release

/-- The writes of a loop over the power domains of a CPU, as in `forEachParent`. -/
def nodeWrites (P : Platform) (value : ℕ → ℕ) : ℕ → ℕ → ℕ → List LockEvent
  | 0, _, _ => []
  | n + 1, lvl, parentIdx =>
    .write parentIdx (value lvl) :: nodeWrites P value n (lvl + 1) (P.nodes parentIdx).parentNode

def setTargetWrites (P : Platform) (cpuIdx endPwrlvl : ℕ) (states : ℕ → ℕ) : List LockEvent :=
  nodeWrites P states endPwrlvl 1 (P.cpuParent cpuIdx)

def setToRunWrites (P : Platform) (cpuIdx endPwrlvl : ℕ) : List LockEvent :=
  nodeWrites P (fun _ => PSCI_LOCAL_STATE_RUN) endPwrlvl 1 (P.cpuParent cpuIdx)

/-! ## Paths -/

def underLocks (P : Platform) (cpuIdx endPwrlvl : ℕ) (writes : List LockEvent) : List LockEvent :=
  psciAcquirePwrDomainLocks endPwrlvl (P.ancestor cpuIdx) ++ writes ++
    psciReleasePwrDomainLocks endPwrlvl (P.ancestor cpuIdx)

/-- `psci_cpu_suspend_start()` up to its return or to the low-power state; the flag tells the two apart. -/
def suspendPath (P : Platform) (cpuIdx endPwrlvl : ℕ) (info : PowerState) (hooks : SuspendHooks)
    (s : PsciState) : Option (Bool × List LockEvent) :=
  let locked := underLocks P cpuIdx endPwrlvl
  if hooks.interruptPending then some (false, locked [])
  else (suspendCoordination P cpuIdx endPwrlvl info s).map fun (rc, states, _) =>
    if rc ≠ PSCI_E_SUCCESS then (false, locked [])
    else if P.osInitMode = true ∧ hooks.validateSuspend ≠ PSCI_E_SUCCESS then
      (false, locked (setToRunWrites P cpuIdx P.maxCpuSuspendPwrLvl))
    else (true, locked (setTargetWrites P cpuIdx endPwrlvl states))

/-- The rest of `psci_cpu_suspend_start()` after a wake-up in state `s`; `none` if an assertion fails. -/
def wakePath (P : Platform) (cpuIdx endPwrlvl : ℕ) (isPowerDownState : Bool) (s : PsciState) :
    Option (List LockEvent) :=
  let states := psciGetTargetLocalPwrStates P s cpuIdx endPwrlvl
  let finished := if isPowerDownState then psciCpuSuspendToPowerdownFinish P cpuIdx states s
    else some (s.setSuspendPwrlvl cpuIdx P.maxPwrLvl)
  finished.map fun _ => underLocks P cpuIdx endPwrlvl (setToRunWrites P cpuIdx endPwrlvl)

/-- The paths through `psci_cpu_suspend_start()`: it returns early, powers down for good, or goes on
when it wakes up, in whatever state the other CPUs have left behind. -/
inductive SuspendStartPath (P : Platform) (cpuIdx endPwrlvl : ℕ) (info : PowerState)
    (isPowerDownState : Bool) (hooks : SuspendHooks) (s : PsciState) : List LockEvent → Prop
  | ends {asleep : Bool} {es : List LockEvent}
      (h : suspendPath P cpuIdx endPwrlvl info hooks s = some (asleep, es)) :
      SuspendStartPath P cpuIdx endPwrlvl info isPowerDownState hooks s es
  | wakes {es es' : List LockEvent} {s' : PsciState}
      (h : suspendPath P cpuIdx endPwrlvl info hooks s = some (true, es))
      (hw : wakePath P cpuIdx endPwrlvl isPowerDownState s' = some es') :
      SuspendStartPath P cpuIdx endPwrlvl info isPowerDownState hooks s (es ++ .rest :: es')

/-- The path through `psci_warmboot_entrypoint()`; `none` where it panics or an assertion fails. -/
def warmbootPath (P : Platform) (cpuIdx : ℕ) (s : PsciState) : Option (List LockEvent) :=
  let endPwrlvl := s.targetPwrlvl cpuIdx
  (psciWarmbootEntrypoint P cpuIdx s).map fun _ =>
    underLocks P cpuIdx endPwrlvl (setToRunWrites P cpuIdx endPwrlvl)

/-! ## The writes are those of the calls -/

section Replay
variable {P : Platform} {s s' : PsciState} {cpu endPwrlvl : ℕ} {info : PowerState}
  {hooks : SuspendHooks} {es : List LockEvent}

theorem forEachParent_replay {body : ℕ → ℕ → PsciState → PsciState} {value : ℕ → ℕ}
    (hbody : ∀ lvl node s, (body lvl node s).nodeLocalState =
      Function.update s.nodeLocalState node (value lvl)) (n lvl parent : ℕ) (s : PsciState) :
    (forEachParent P body n lvl parent s).nodeLocalState =
      replay s.nodeLocalState (nodeWrites P value n lvl parent) := by
  induction n generalizing lvl parent s with
  | zero => rfl
  | succ n ih =>
    rw [forEachParent, ih, hbody]
    rfl

theorem setTarget_replay (states : ℕ → ℕ) (e : ℕ) :
    (psciSetTargetLocalPwrStates P cpu e states s).nodeLocalState =
      replay s.nodeLocalState (setTargetWrites P cpu e states) :=
  forEachParent_replay (fun _ _ _ => rfl) e 1 _ _

theorem setToRun_replay (e : ℕ) : (psciSetPwrDomainsToRun P cpu e s).nodeLocalState =
    replay s.nodeLocalState (setToRunWrites P cpu e) := by
  refine forEachParent_replay (fun lvl node s => ?_) e 1 _ s
  obtain ⟨req, heq⟩ := @setReq_eq P (s.setNonCpuPdNodeLocalState node PSCI_LOCAL_STATE_RUN) cpu
    PSCI_LOCAL_STATE_RUN lvl
  rw [heq]
  rfl

theorem section_replay (e : ℕ) (cells : ℕ → ℕ) (ws : List LockEvent) :
    replay cells (underLocks P cpu e ws) = replay cells ws := by
  have hacq := replay_map cells (Event.acquire : ℕ → LockEvent) ((List.range e).map (P.ancestor cpu))
    fun _ _ _ hc => nomatch hc
  have hrel := replay_map (replay cells ws) (Event.release : ℕ → LockEvent)
    ((List.range e).map (P.ancestor cpu)).reverse fun _ _ _ hc => nomatch hc
  rw [underLocks, replay_append, replay_append, psciAcquirePwrDomainLocks, hacq, psciReleasePwrDomainLocks, hrel]

theorem suspendCoordination_nodes {rc : Int} {states : ℕ → ℕ} (hcpu : cpu < P.coreCount)
    (hend : endPwrlvl ≤ P.maxPwrLvl)
    (h : suspendCoordination P cpu endPwrlvl info s = some (rc, states, s')) :
    s'.nodeLocalState = s.nodeLocalState := by
  unfold suspendCoordination at h
  split at h
  · obtain ⟨⟨rc', s1⟩, hval, heq⟩ := Option.map_eq_some_iff.mp h
    cases heq
    obtain ⟨s2, hreqs, ⟨-, rfl⟩ | ⟨-, rfl, -⟩⟩ := psciValidateStateCoordination_cases hcpu hval
    · rfl
    · obtain ⟨req, rfl⟩ := hreqs.rest
      rfl
  · have hco := @psciDoStateCoordination_spec P cpu endPwrlvl info.pwrDomainState s hcpu hend
    have hres : psciDoStateCoordination P cpu endPwrlvl info.pwrDomainState s = (states, s') :=
      congrArg Prod.snd (Option.some.inj h)
    rw [hres] at hco
    obtain ⟨req, hs'⟩ := hco.reqs.rest
    have hs : s' = { s with reqLocalPwrStates := req } := hs'
    rw [hs]

theorem suspendPath_replay {rc : Int} {asleep pd : Bool} (hcpu : cpu < P.coreCount)
    (hend : endPwrlvl ≤ P.maxPwrLvl)
    (hpath : suspendPath P cpu endPwrlvl info hooks s = some (asleep, es))
    (hcall : psciCpuSuspendStart P cpu endPwrlvl info pd hooks s = some (rc, s')) :
    s'.nodeLocalState = replay s.nodeLocalState es := by
  unfold suspendPath at hpath
  unfold psciCpuSuspendStart at hcall
  dsimp only at hpath
  split at hpath
  · next hint =>
    rw [if_pos hint] at hcall
    cases hpath
    cases hcall
    rw [section_replay]
    rfl
  · next hint =>
    rw [if_neg hint] at hcall
    obtain ⟨⟨rc1, states, s1⟩, hco, hpath⟩ := Option.map_eq_some_iff.mp hpath
    rw [hco] at hcall
    have hnodes := suspendCoordination_nodes hcpu hend hco
    have hcall := Option.some.inj hcall
    dsimp only at hpath hcall
    split at hpath
    · next hrc =>
      rw [if_pos hrc] at hcall
      cases hpath
      cases hcall
      rw [section_replay]
      exact hnodes
    next hrc =>
    rw [if_neg hrc] at hcall
    split at hpath
    · next hhook =>
      rw [if_pos hhook] at hcall
      cases hpath
      cases hcall
      rw [section_replay, setToRun_replay, hnodes]
    · next hhook =>
      rw [if_neg hhook] at hcall
      cases hpath
      cases hcall
      rw [section_replay, ← hnodes, ← setTarget_replay, enterSuspend]
      cases pd <;> rfl

theorem wakePath_replay {pd : Bool} {mode : SuspendMode}
    (hsleep : s.sleep cpu = some (.suspended endPwrlvl pd mode))
    (hpath : wakePath P cpu endPwrlvl pd s = some es) (hcall : wakeInCall P cpu s = some s') :
    s'.nodeLocalState = replay s.nodeLocalState es := by
  unfold wakePath at hpath
  unfold wakeInCall at hcall
  rw [hsleep] at hcall
  dsimp only at hpath hcall
  obtain ⟨s1, hfin, rfl⟩ := Option.map_eq_some_iff.mp hpath
  rw [hfin] at hcall
  cases hcall
  have hnodes : s1.nodeLocalState = s.nodeLocalState := by
    split at hfin
    · obtain ⟨-, rfl⟩ := psciCpuSuspendToPowerdownFinish_some hfin
      rfl
    · cases hfin
      rfl
  rw [section_replay, ← hnodes]
  exact setToRun_replay endPwrlvl

theorem warmbootPath_replay (hpath : warmbootPath P cpu s = some es)
    (hcall : psciWarmbootEntrypoint P cpu s = some s') :
    s'.nodeLocalState = replay s.nodeLocalState es := by
  unfold warmbootPath at hpath
  dsimp only at hpath
  rw [hcall] at hpath
  cases hpath
  rw [section_replay]
  unfold psciWarmbootEntrypoint at hcall
  dsimp only at hcall
  split at hcall
  · cases hcall
  split at hcall
  · cases hcall
    exact setToRun_replay _
  split at hcall
  · cases hcall
  · obtain ⟨s1, hfin, rfl⟩ := Option.map_eq_some_iff.mp hcall
    obtain ⟨-, rfl⟩ := psciCpuSuspendToPowerdownFinish_some hfin
    exact setToRun_replay _

end Replay

/-! ## The discipline -/

section Discipline
variable {P : Platform} {s : PsciState} {cpu endPwrlvl : ℕ} {info : PowerState}
  {hooks : SuspendHooks}

theorem nodeWrites_eq (value : ℕ → ℕ) (n : ℕ) : nodeWrites P value n 1 (P.cpuParent cpu) =
    ((List.range n).map fun l => (P.ancestor cpu l, value (l + 1))).map fun w => .write w.1 w.2 := by
  have hgen : ∀ n i, nodeWrites P value n (i + 1) (P.ancestor cpu i) =
      (List.range' i n).map fun l => .write (P.ancestor cpu l) (value (l + 1)) := by
    intro n
    induction n with
    | zero => exact fun _ => rfl
    | succ n ih => exact fun i => congrArg _ (ih (i + 1))
  rw [List.map_map, List.range_eq_range']
  exact hgen n 0

theorem path_nodup (hcpu : cpu < P.coreCount) {e : ℕ} (he : e ≤ P.maxPwrLvl) :
    ((List.range e).map (P.ancestor cpu)).Nodup := by
  refine List.Nodup.map_on (fun l hl k hk heq => ?_) List.nodup_range
  rw [List.mem_range] at hl hk
  exact P.ancestor_unique (by omega) (by omega) hcpu hcpu heq

theorem section_disciplined (value : ℕ → ℕ) (hcpu : cpu < P.coreCount) {e n : ℕ}
    (he : e ≤ P.maxPwrLvl) (hn : n ≤ P.maxPwrLvl) :
    Disciplined (underLocks P cpu e (nodeWrites P value n 1 (P.cpuParent cpu))) ↔ n ≤ e := by
  rw [underLocks, nodeWrites_eq, psciAcquirePwrDomainLocks, psciReleasePwrDomainLocks,
    disciplined_section (path_nodup hcpu he)]
  constructor
  · intro hall
    by_contra hlt
    -- the node of level `e + 1` is written but not locked
    have hmem := hall (P.ancestor cpu e, value (e + 1))
      (List.mem_map.mpr ⟨e, List.mem_range.mpr (by omega), rfl⟩)
    obtain ⟨l, hl, heq⟩ := List.mem_map.mp hmem
    rw [List.mem_range] at hl
    have := P.ancestor_unique (by omega) (by omega) hcpu hcpu heq
    omega
  · intro hle w hw
    obtain ⟨l, hl, rfl⟩ := List.mem_map.mp hw
    rw [List.mem_range] at hl
    exact List.mem_map.mpr ⟨l, List.mem_range.mpr (by omega), rfl⟩

theorem section_disciplined_nil (hcpu : cpu < P.coreCount) {e : ℕ} (he : e ≤ P.maxPwrLvl) :
    Disciplined (underLocks P cpu e []) :=
  (section_disciplined (n := 0) (fun _ => 0) hcpu he (Nat.zero_le _)).mpr (Nat.zero_le e)

theorem wakePath_disciplined {pd : Bool} {es : List LockEvent} (hcpu : cpu < P.coreCount)
    (hend : endPwrlvl ≤ P.maxPwrLvl) (h : wakePath P cpu endPwrlvl pd s = some es) :
    Disciplined es := by
  obtain ⟨_, -, rfl⟩ := Option.map_eq_some_iff.mp h
  exact (section_disciplined _ hcpu hend hend).mpr (Nat.le_refl endPwrlvl)

theorem warmbootPath_disciplined {es : List LockEvent} (hcpu : cpu < P.coreCount)
    (h : warmbootPath P cpu s = some es) : Disciplined es := by
  obtain ⟨s', hcall, rfl⟩ := Option.map_eq_some_iff.mp h
  have hle : s.targetPwrlvl cpu ≤ P.maxPwrLvl := by
    by_contra hlt
    unfold psciWarmbootEntrypoint at hcall
    dsimp only at hcall
    rw [if_pos (Or.inr (by omega))] at hcall
    cases hcall
  exact (section_disciplined _ hcpu hle hle).mpr (Nat.le_refl _)

/-- What the checks of `psci_validate_state_coordination()` ask of the state before the call. -/
def Acceptable (P : Platform) (cpu endPwrlvl : ℕ) (info : PowerState) (s : PsciState) : Prop :=
  psciValidateHierarchicalStateConsistency P s cpu endPwrlvl info.pwrDomainState = PSCI_E_SUCCESS ∧
  info.lastAtPwrlvl ≤ P.maxPwrLvl ∧
  (info.lastAtPwrlvl > endPwrlvl → psciIsLastCpuToIdleAtPwrlvl P s cpu info.lastAtPwrlvl = some true)

theorem psciIsLastCpuToIdleAtPwrlvl_requests (req : ℕ → ℕ → ℕ) (lvl : ℕ) :
    psciIsLastCpuToIdleAtPwrlvl P { s with reqLocalPwrStates := req } cpu lvl =
      psciIsLastCpuToIdleAtPwrlvl P s cpu lvl := by
  have hloop : ∀ n c, lastIdleLoop { s with reqLocalPwrStates := req } cpu n c =
      lastIdleLoop s cpu n c := by
    intro n
    induction n with
    | zero => exact fun _ => rfl
    | succ n ih =>
      intro c
      rw [lastIdleLoop, lastIdleLoop, ih]
  cases lvl with
  | zero => rfl
  | succ l => exact hloop _ _

theorem psciValidateStateCoordination_accepts (hcpu : cpu < P.coreCount) :
    (∃ s1, psciValidateStateCoordination P cpu endPwrlvl info s = some (PSCI_E_SUCCESS, s1)) ↔
      Acceptable P cpu endPwrlvl info s := by
  obtain ⟨hreqs, -⟩ := @psciUpdateReqLocalPwrStates_spec P cpu endPwrlvl info.pwrDomainState s hcpu
  obtain ⟨req, hs1⟩ := hreqs.rest
  have hrefused : ∀ {rc : Int} {s2 : PsciState}, rc ≠ PSCI_E_SUCCESS →
      ¬ ∃ s1, some (rc, s2) = some (PSCI_E_SUCCESS, s1) :=
    fun hrc hc => hrc (congrArg Prod.fst (Option.some.inj hc.choose_spec))
  unfold psciValidateStateCoordination Acceptable
  dsimp only
  -- the checks are made on a state with other requests
  rw [hs1, psciIsLastCpuToIdleAtPwrlvl_requests]
  simp only [psciValidateHierarchicalStateConsistency, hierarchyLoop_requests]
  by_cases hh : hierarchyLoop P s info.pwrDomainState endPwrlvl 1 cpu (P.cpuParent cpu) = true
  · rw [if_pos hh, if_neg (not_not.mpr rfl)]
    by_cases hlast : info.lastAtPwrlvl > P.maxPwrLvl
    · rw [if_pos hlast]
      exact iff_of_false (hrefused (by decide)) fun hc => absurd hc.2.1 (by omega)
    rw [if_neg hlast]
    by_cases hend : info.lastAtPwrlvl > endPwrlvl
    · rw [if_pos hend]
      cases hidle : psciIsLastCpuToIdleAtPwrlvl P s cpu info.lastAtPwrlvl with
      | none => exact iff_of_false (by simp) fun hc => absurd (hc.2.2 hend) (by decide)
      | some b =>
        cases b with
        | true => exact iff_of_true ⟨_, rfl⟩ ⟨rfl, by omega, fun _ => rfl⟩
        | false => exact iff_of_false (hrefused (by decide)) fun hc => absurd (hc.2.2 hend) (by decide)
    · rw [if_neg hend]
      exact iff_of_true ⟨_, rfl⟩ ⟨rfl, by omega, fun hc => absurd hc hend⟩
  · rw [if_neg hh, if_pos (by decide)]
    exact iff_of_false (hrefused (by decide)) fun hc => absurd hc.1 (by decide)

/-- The locks taken cover the nodes that a refusal by the platform sets back to RUN. -/
def LocksCover (P : Platform) (cpu endPwrlvl : ℕ) (info : PowerState) (hooks : SuspendHooks)
    (s : PsciState) : Prop :=
  P.osInitMode = true → hooks.interruptPending = false →
    (s.suspendMode = .osInit → Acceptable P cpu endPwrlvl info s) →
    hooks.validateSuspend ≠ PSCI_E_SUCCESS → P.maxCpuSuspendPwrLvl ≤ endPwrlvl

theorem suspendCoordination_succeeds (hcpu : cpu < P.coreCount) (hos : P.osInitMode = true) :
    (∃ states s1, suspendCoordination P cpu endPwrlvl info s = some (PSCI_E_SUCCESS, states, s1)) ↔
      (s.suspendMode = .osInit → Acceptable P cpu endPwrlvl info s) := by
  rw [← psciValidateStateCoordination_accepts hcpu]
  unfold suspendCoordination
  by_cases hmode : s.suspendMode = .osInit
  · rw [if_pos ⟨hos, hmode⟩]
    constructor
    · rintro ⟨states, s1, hco⟩ -
      obtain ⟨⟨rc, s2⟩, hval, heq⟩ := Option.map_eq_some_iff.mp hco
      cases heq
      exact ⟨_, hval⟩
    · intro hacc
      obtain ⟨s1, hval⟩ := hacc hmode
      exact ⟨_, s1, by rw [hval]; rfl⟩
  · rw [if_neg fun hc => hmode hc.2]
    exact iff_of_true ⟨_, _, rfl⟩ fun hc => absurd hc hmode

theorem suspendPath_disciplined {asleep : Bool} {es : List LockEvent} (hcpu : cpu < P.coreCount)
    (hend : endPwrlvl ≤ P.maxPwrLvl) (hcover : LocksCover P cpu endPwrlvl info hooks s)
    (h : suspendPath P cpu endPwrlvl info hooks s = some (asleep, es)) : Disciplined es := by
  unfold suspendPath at h
  dsimp only at h
  split at h
  · cases h
    exact section_disciplined_nil hcpu hend
  next hint =>
  obtain ⟨⟨rc, states, s1⟩, hco, h⟩ := Option.map_eq_some_iff.mp h
  dsimp only at h
  split at h
  · cases h
    exact section_disciplined_nil hcpu hend
  next hrc =>
  split at h
  · next hhook =>
    cases h
    refine (section_disciplined _ hcpu hend P.suspend_le).mpr (hcover hhook.1 ?_ ?_ hhook.2)
    · exact Bool.eq_false_iff.mpr hint
    · rw [not_not.mp hrc] at hco
      exact (suspendCoordination_succeeds hcpu hhook.1).mp ⟨states, s1, hco⟩
  · cases h
    exact (section_disciplined _ hcpu hend hend).mpr (Nat.le_refl endPwrlvl)

/-- **Lock discipline.** Every path writes nodes under their locks only and gives each lock back before it
returns or powers down: for a suspend exactly if the locks cover a refusal, for a warm boot always. -/
theorem node_writes_locked_iff {isPowerDownState : Bool} (hcpu : cpu < P.coreCount)
    (hend : endPwrlvl ≤ P.maxPwrLvl) :
    ((∀ es, SuspendStartPath P cpu endPwrlvl info isPowerDownState hooks s es → Disciplined es) ↔
      LocksCover P cpu endPwrlvl info hooks s) ∧
    ∀ s' es, warmbootPath P cpu s' = some es → Disciplined es := by
  refine ⟨⟨fun hall hos hint hacc hhook => ?_, fun hcover es hpath => ?_⟩,
    fun s' es h => warmbootPath_disciplined hcpu h⟩
  · obtain ⟨states, s1, hco⟩ := (suspendCoordination_succeeds hcpu hos).mpr hacc
    have hpath : suspendPath P cpu endPwrlvl info hooks s = some (false,
        underLocks P cpu endPwrlvl (setToRunWrites P cpu P.maxCpuSuspendPwrLvl)) := by
      unfold suspendPath
      dsimp only
      rw [if_neg (Bool.eq_false_iff.mp hint), hco, Option.map_some, if_neg (not_not.mpr rfl),
        if_pos ⟨hos, hhook⟩]
    exact (section_disciplined _ hcpu hend P.suspend_le).mp (hall _ (.ends hpath))
  · cases hpath with
    | ends h => exact suspendPath_disciplined hcpu hend hcover h
    | wakes h hw =>
      exact (disciplined_then (suspendPath_disciplined hcpu hend hcover h) _).mpr
        (wakePath_disciplined hcpu hend hw)

theorem node_writes_locked_iff_cluster :
    (∀ es, SuspendStartPath twoClusters 0 1 (clusterRequest true).info true quietHooks twoClustersOsInit es →
      Disciplined es) ∧
    ∀ s' es, warmbootPath twoClusters 0 s' = some es → Disciplined es := by
  obtain ⟨hiff, hboot⟩ := @node_writes_locked_iff twoClusters twoClustersOsInit 0 1
    (clusterRequest true).info quietHooks true (by decide) (by decide)
  exact ⟨hiff.mpr fun _ _ _ hhook => absurd rfl hhook, hboot⟩

/-- The platform refuses the same request: the system node is set to RUN without its lock. -/
theorem refusal_writes_unlocked_node : ∃ es,
    SuspendStartPath twoClusters 0 1 (clusterRequest true).info true ⟨true, false, PSCI_E_DENIED⟩
      twoClustersOsInit es ∧
    es = [.acquire 1, .write 1 PSCI_LOCAL_STATE_RUN, .write 0 PSCI_LOCAL_STATE_RUN, .release 1] ∧
    ¬ Disciplined es :=
  ⟨_, .ends rfl, by decide, by decide⟩

end Discipline

end TrustedFirmware.Psci
