import TrustedFirmware.Psci.State

/-! # Validation of OS-initiated requests

In OS-initiated mode the caller names the state of every domain it takes down.
`psci_validate_state_coordination()` records the request and then checks that every
other child of those domains is at least as deep; a refused request is taken back. -/
namespace TrustedFirmware.Psci
set_option autoImplicit false

/-- The loop of `psci_update_req_local_pwr_states()`, with the saved requests in `prev`. -/
def updateReqLoop (P : Platform) (endPwrlvl cpuIdx : ℕ) (states : ℕ → ℕ) :
    ℕ → ℕ → (ℕ → ℕ) → PsciState → (ℕ → ℕ) × PsciState
  | 0, _, prev, s => (prev, s)
  | n + 1, lvl, prev, s =>
    updateReqLoop P endPwrlvl cpuIdx states n (lvl + 1)
      (Function.update prev (lvl - 1) (s.reqLocalPwrStates (lvl - 1) cpuIdx))
      (psciSetReqLocalPwrState P lvl cpuIdx
        (if lvl ≤ endPwrlvl then states lvl else states endPwrlvl) s)

def psciUpdateReqLocalPwrStates (P : Platform) (endPwrlvl cpuIdx : ℕ) (states : ℕ → ℕ)
    (s : PsciState) : (ℕ → ℕ) × PsciState :=
  updateReqLoop P endPwrlvl cpuIdx states P.maxCpuSuspendPwrLvl 1 (fun _ => 0) s

def restoreReqLoop (P : Platform) (cpuIdx : ℕ) (prev : ℕ → ℕ) : ℕ → ℕ → PsciState → PsciState
  | 0, _, s => s
  | n + 1, lvl, s =>
    restoreReqLoop P cpuIdx prev n (lvl + 1)
      (psciSetReqLocalPwrState P lvl cpuIdx (prev (lvl - 1)) s)

def psciRestoreReqLocalPwrStates (P : Platform) (cpuIdx : ℕ) (prev : ℕ → ℕ) (s : PsciState) :
    PsciState :=
  restoreReqLoop P cpuIdx prev P.maxCpuSuspendPwrLvl 1 s

def psciValidateSubtreeState (s : PsciState) (nodeIdx lvl targetState : ℕ) : Bool :=
  if lvl = PSCI_CPU_PWR_LVL then decide (s.cpuLocalState nodeIdx ≥ targetState)
  else decide (s.nodeLocalState nodeIdx ≥ targetState)

/-- The inner loop: `n` children from `node` on, without the one on the path. -/
def childrenDeepEnough (s : PsciState) (pathNodeIdx lvl target : ℕ) : ℕ → ℕ → Bool
  | 0, _ => true
  | n + 1, node =>
    if node = pathNodeIdx then childrenDeepEnough s pathNodeIdx lvl target n (node + 1)
    else if psciValidateSubtreeState s node lvl target then
      childrenDeepEnough s pathNodeIdx lvl target n (node + 1)
    else false

def hierarchyLoop (P : Platform) (s : PsciState) (states : ℕ → ℕ) : ℕ → ℕ → ℕ → ℕ → Bool
  | 0, _, _, _ => true
  | n + 1, lvl, pathNodeIdx, parentNodeIdx =>
    if childrenDeepEnough s pathNodeIdx (lvl - 1) (states lvl)
        (P.nodes parentNodeIdx).numChildren (P.nodes parentNodeIdx).firstChildIdx then
      hierarchyLoop P s states n (lvl + 1) parentNodeIdx (P.nodes parentNodeIdx).parentNode
    else false

def psciValidateHierarchicalStateConsistency (P : Platform) (s : PsciState) (cpuIdx endPwrlvl : ℕ)
    (states : ℕ → ℕ) : Int :=
  if hierarchyLoop P s states endPwrlvl 1 cpuIdx (P.cpuParent cpuIdx) then PSCI_E_SUCCESS
  else PSCI_E_DENIED

/-- The loop of `psci_is_last_cpu_to_idle_at_pwrlvl()`; `none` if its assertion fails. -/
def lastIdleLoop (s : PsciState) (myIdx : ℕ) : ℕ → ℕ → Option Bool
  | 0, _ => some true
  | n + 1, cpuIdx =>
    if cpuIdx = myIdx then
      if isLocalStateRun (s.cpuLocalState cpuIdx) then lastIdleLoop s myIdx n (cpuIdx + 1) else none
    else if isLocalStateRun (s.cpuLocalState cpuIdx) then some false
    else lastIdleLoop s myIdx n (cpuIdx + 1)

def psciIsLastCpuToIdleAtPwrlvl (P : Platform) (s : PsciState) (myIdx : ℕ) : ℕ → Option Bool
  | 0 => some true
  | l + 1 => lastIdleLoop s myIdx (P.nodes (P.ancestor myIdx l)).ncpus
      (P.nodes (P.ancestor myIdx l)).cpuStartIdx

/-- The return value and the state; `none` if an assertion fails. -/
def psciValidateStateCoordination (P : Platform) (cpuIdx endPwrlvl : ℕ) (info : PowerState)
    (s : PsciState) : Option (Int × PsciState) :=
  let (prev, s') := psciUpdateReqLocalPwrStates P endPwrlvl cpuIdx info.pwrDomainState s
  let rc := psciValidateHierarchicalStateConsistency P s' cpuIdx endPwrlvl info.pwrDomainState
  if rc ≠ PSCI_E_SUCCESS then some (rc, psciRestoreReqLocalPwrStates P cpuIdx prev s')
  else if info.lastAtPwrlvl > P.maxPwrLvl then some (PSCI_E_INVALID_PARAMS, s')
  else if info.lastAtPwrlvl > endPwrlvl then
    match psciIsLastCpuToIdleAtPwrlvl P s' cpuIdx info.lastAtPwrlvl with
    | none => none
    | some true => some (PSCI_E_SUCCESS, s')
    | some false => some (PSCI_E_DENIED, psciRestoreReqLocalPwrStates P cpuIdx prev s')
  else some (PSCI_E_SUCCESS, s')

/-! ## The request recorded -/

section Request
variable {P : Platform} {cpu endPwrlvl i n : ℕ} {states prev : ℕ → ℕ} {s s1 : PsciState}

/-- The request of a CPU for level `l + 1`: that of the target level above it. -/
def recorded (endPwrlvl : ℕ) (states : ℕ → ℕ) (l : ℕ) : ℕ :=
  if l + 1 ≤ endPwrlvl then states (l + 1) else states endPwrlvl

theorem updateReqLoop_spec (h : ReqSet cpu i (recorded endPwrlvl states) s s1)
    (hprev : ∀ l < i, prev l = s.reqLocalPwrStates l cpu) (hcpu : cpu < P.coreCount)
    (hn : i + n ≤ P.maxPwrLvl) :
    ReqSet cpu (i + n) (recorded endPwrlvl states) s
        (updateReqLoop P endPwrlvl cpu states n (i + 1) prev s1).2 ∧
      ∀ l < i + n, (updateReqLoop P endPwrlvl cpu states n (i + 1) prev s1).1 l =
        s.reqLocalPwrStates l cpu := by
  induction n generalizing i prev s1 with
  | zero => exact ⟨h, hprev⟩
  | succ n ih =>
    have hidx : i + (n + 1) = i + 1 + n := by omega
    rw [updateReqLoop, hidx]
    refine ih (h.step hcpu (by omega)) (fun l hl => ?_) (by omega)
    rw [Nat.add_sub_cancel]
    by_cases hli : l = i
    · subst hli
      rw [Function.update_self, h.req, if_neg fun hc => Nat.lt_irrefl _ hc.1]
    · rw [Function.update_of_ne hli]
      exact hprev l (by omega)

theorem psciUpdateReqLocalPwrStates_spec (hcpu : cpu < P.coreCount) :
    ReqSet cpu P.maxCpuSuspendPwrLvl (recorded endPwrlvl states) s
        (psciUpdateReqLocalPwrStates P endPwrlvl cpu states s).2 ∧
      ∀ l < P.maxCpuSuspendPwrLvl, (psciUpdateReqLocalPwrStates P endPwrlvl cpu states s).1 l =
        s.reqLocalPwrStates l cpu := by
  have h := @updateReqLoop_spec P cpu endPwrlvl 0 P.maxCpuSuspendPwrLvl states (fun _ => 0) s s
    (ReqSet.refl _) (fun l hl => absurd hl (Nat.not_lt_zero l)) hcpu
    (by rw [Nat.zero_add]; exact P.suspend_le)
  rwa [Nat.zero_add] at h

theorem restoreReqLoop_spec (h : ReqSet cpu i prev s s1) (hcpu : cpu < P.coreCount)
    (hn : i + n ≤ P.maxPwrLvl) :
    ReqSet cpu (i + n) prev s (restoreReqLoop P cpu prev n (i + 1) s1) := by
  induction n generalizing i s1 with
  | zero => exact h
  | succ n ih =>
    have hidx : i + (n + 1) = i + 1 + n := by omega
    rw [restoreReqLoop, hidx]
    exact ih (h.step hcpu (by omega)) (by omega)

theorem psciRestoreReqLocalPwrStates_eq {f : ℕ → ℕ} (h : ReqSet cpu P.maxCpuSuspendPwrLvl f s s1)
    (hprev : ∀ l < P.maxCpuSuspendPwrLvl, prev l = s.reqLocalPwrStates l cpu)
    (hcpu : cpu < P.coreCount) : psciRestoreReqLocalPwrStates P cpu prev s1 = s := by
  have hres := @restoreReqLoop_spec P cpu 0 P.maxCpuSuspendPwrLvl prev s1 s1 (ReqSet.refl _) hcpu
    (by rw [Nat.zero_add]; exact P.suspend_le)
  rw [Nat.zero_add] at hres
  obtain ⟨req1, hs1⟩ := h.rest
  obtain ⟨req, hreq⟩ := hres.rest
  have hrow : req = s.reqLocalPwrStates := by
    funext l c
    have h1 := hres.req l c
    rw [hreq] at h1
    refine h1.trans ?_
    by_cases hl : l < P.maxCpuSuspendPwrLvl ∧ c = cpu
    · rw [if_pos hl, hprev l hl.1, hl.2]
    · rw [if_neg hl, h.req, if_neg hl]
  change restoreReqLoop P cpu prev P.maxCpuSuspendPwrLvl 1 s1 = s
  rw [hreq, hrow, hs1]

end Request

/-! ## The check -/

/-- The child of `ancestor cpu l` on the path of the CPU. -/
def Platform.pathNode (P : Platform) (cpu : ℕ) : ℕ → ℕ
  | 0 => cpu
  | l + 1 => P.ancestor cpu l

section Check
variable {P : Platform} {cpu endPwrlvl : ℕ} {states : ℕ → ℕ} {s s' : PsciState} {info : PowerState}

theorem childrenDeepEnough_true {path lvl target n node : ℕ}
    (h : childrenDeepEnough s path lvl target n node = true) {k : ℕ} (h1 : node ≤ k)
    (h2 : k < node + n) (hk : k ≠ path) : psciValidateSubtreeState s k lvl target = true := by
  induction n generalizing node with
  | zero => omega
  | succ n ih =>
    rw [childrenDeepEnough] at h
    split at h
    · next hp => exact ih h (by omega) (by omega)
    next hp =>
    split at h
    · next hv =>
      by_cases hkn : k = node
      · rw [hkn]
        exact hv
      · exact ih h (by omega) (by omega)
    · cases h

theorem hierarchyLoop_true {n i : ℕ}
    (h : hierarchyLoop P s states n (i + 1) (P.pathNode cpu i) (P.ancestor cpu i) = true) {l : ℕ}
    (h1 : i ≤ l) (h2 : l < i + n) {k : ℕ}
    (hk1 : (P.nodes (P.ancestor cpu l)).firstChildIdx ≤ k)
    (hk2 : k < (P.nodes (P.ancestor cpu l)).firstChildIdx + (P.nodes (P.ancestor cpu l)).numChildren)
    (hk : k ≠ P.pathNode cpu l) : psciValidateSubtreeState s k l (states (l + 1)) = true := by
  induction n generalizing i with
  | zero => omega
  | succ n ih =>
    rw [hierarchyLoop] at h
    split at h
    · next hc =>
      by_cases hli : l = i
      · subst hli
        exact childrenDeepEnough_true hc hk1 hk2 hk
      · exact ih h (by omega) (by omega)
    · cases h

def SiblingsDeep (P : Platform) (s : PsciState) (cpu e : ℕ) (states : ℕ → ℕ) : Prop :=
  ∀ l < e, ∀ c < P.coreCount, P.ancestor c l = P.ancestor cpu l →
    P.pathNode c l ≠ P.pathNode cpu l →
    psciValidateSubtreeState s (P.pathNode c l) l (states (l + 1)) = true

structure Accepted (P : Platform) (cpu endPwrlvl : ℕ) (info : PowerState) (s s' : PsciState) :
    Prop where
  reqs : ReqSet cpu P.maxCpuSuspendPwrLvl (recorded endPwrlvl info.pwrDomainState) s s'
  deep : SiblingsDeep P s cpu endPwrlvl info.pwrDomainState

theorem pathNode_child {c l : ℕ} (hc : c < P.coreCount) (hl : l < P.maxPwrLvl) :
    (P.nodes (P.ancestor c l)).firstChildIdx ≤ P.pathNode c l ∧ P.pathNode c l <
      (P.nodes (P.ancestor c l)).firstChildIdx + (P.nodes (P.ancestor c l)).numChildren := by
  cases l with
  | zero => exact P.child_cpu c hc
  | succ l => exact P.child_node l hl c hc

theorem psciValidateStateCoordination_cases {rc : Int} (hcpu : cpu < P.coreCount)
    (h : psciValidateStateCoordination P cpu endPwrlvl info s = some (rc, s')) :
    ∃ s1, ReqSet cpu P.maxCpuSuspendPwrLvl (recorded endPwrlvl info.pwrDomainState) s s1 ∧
      (rc = PSCI_E_DENIED ∧ s' = s ∨
        hierarchyLoop P s1 info.pwrDomainState endPwrlvl 1 cpu (P.cpuParent cpu) = true ∧ s' = s1 ∧
          (rc = PSCI_E_SUCCESS ∨
            rc = PSCI_E_INVALID_PARAMS ∧ info.lastAtPwrlvl > P.maxPwrLvl)) := by
  obtain ⟨hreqs, hprev⟩ := @psciUpdateReqLocalPwrStates_spec P cpu endPwrlvl info.pwrDomainState s
    hcpu
  rw [psciValidateStateCoordination] at h
  dsimp only at h
  generalize (psciUpdateReqLocalPwrStates P endPwrlvl cpu info.pwrDomainState s).1 = prev at h hprev
  generalize (psciUpdateReqLocalPwrStates P endPwrlvl cpu info.pwrDomainState s).2 = s1 at h hreqs
  have hrestore := psciRestoreReqLocalPwrStates_eq hreqs hprev hcpu
  refine ⟨s1, hreqs, ?_⟩
  unfold psciValidateHierarchicalStateConsistency at h
  by_cases hh : hierarchyLoop P s1 info.pwrDomainState endPwrlvl 1 cpu (P.cpuParent cpu) = true
  · rw [if_pos hh, if_neg (by decide)] at h
    split at h
    · next hlast =>
      cases h
      exact Or.inr ⟨hh, rfl, Or.inr ⟨rfl, hlast⟩⟩
    split at h
    · split at h
      · cases h
      · cases h
        exact Or.inr ⟨hh, rfl, Or.inl rfl⟩
      · cases h
        exact Or.inl ⟨rfl, hrestore⟩
    · cases h
      exact Or.inr ⟨hh, rfl, Or.inl rfl⟩
  · rw [if_neg hh, if_pos (by decide)] at h
    cases h
    exact Or.inl ⟨rfl, hrestore⟩

theorem psciValidateStateCoordination_success (hcpu : cpu < P.coreCount)
    (hend : endPwrlvl ≤ P.maxPwrLvl)
    (h : psciValidateStateCoordination P cpu endPwrlvl info s = some (PSCI_E_SUCCESS, s')) :
    Accepted P cpu endPwrlvl info s s' := by
  obtain ⟨s1, hreqs, ⟨hrc, -⟩ | ⟨hh, rfl, -⟩⟩ := psciValidateStateCoordination_cases hcpu h
  · exact absurd hrc (by decide)
  refine ⟨hreqs, fun l hl c hc hm hne => ?_⟩
  obtain ⟨h1, h2⟩ := pathNode_child hc (by omega : l < P.maxPwrLvl)
  rw [hm] at h1 h2
  have hv := hierarchyLoop_true (i := 0) hh (Nat.zero_le l) (by omega) h1 h2 hne
  obtain ⟨req, rfl⟩ := hreqs.rest
  exact hv

end Check

end TrustedFirmware.Psci
