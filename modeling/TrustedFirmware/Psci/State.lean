import Mathlib.Logic.Function.Basic
import TrustedFirmware.Psci.Topology

/-! # Recorded states

The states PSCI keeps of CPUs and power domains, and the functions of `psci_common.c`
that read and write them. Row `l` of the request matrix and entry `l` of a path belong
to level `l + 1`, as in the source. -/
namespace TrustedFirmware.Psci
set_option autoImplicit false

inductive AffInfoState where
  | on
  | off
  | onPending
  deriving DecidableEq, Repr

inductive SuspendMode where
  | platCoord
  | osInit
  deriving DecidableEq, Repr

/-- What a CPU in a low-power state goes on with when it wakes inside its call: the arguments of
`psci_cpu_suspend_start()`, and the mode at the time of the call. -/
inductive Sleep where
  | standby
  | suspended (endPwrlvl : ℕ) (isPowerDownState : Bool) (mode : SuspendMode)
  deriving DecidableEq, Repr

structure PsciState where
  affInfoState : ℕ → AffInfoState
  targetPwrlvl : ℕ → ℕ
  cpuLocalState : ℕ → ℕ
  nodeLocalState : ℕ → ℕ
  reqLocalPwrStates : ℕ → ℕ → ℕ
  suspendMode : SuspendMode
  sleep : ℕ → Option Sleep

namespace PsciState
variable (s : PsciState)

def setAff (c : ℕ) (v : AffInfoState) : PsciState :=
  { s with affInfoState := Function.update s.affInfoState c v }

def setSuspendPwrlvl (c v : ℕ) : PsciState :=
  { s with targetPwrlvl := Function.update s.targetPwrlvl c v }

def setCpuLocalState (c v : ℕ) : PsciState :=
  { s with cpuLocalState := Function.update s.cpuLocalState c v }

def setNonCpuPdNodeLocalState (n v : ℕ) : PsciState :=
  { s with nodeLocalState := Function.update s.nodeLocalState n v }

def setSleep (c : ℕ) (v : Option Sleep) : PsciState :=
  { s with sleep := Function.update s.sleep c v }

end PsciState

def psciSetReqLocalPwrState (P : Platform) (pwrlvl cpuIdx reqPwrState : ℕ) (s : PsciState) :
    PsciState :=
  if pwrlvl > PSCI_CPU_PWR_LVL ∧ pwrlvl ≤ P.maxPwrLvl ∧ cpuIdx < P.coreCount then
    { s with
      reqLocalPwrStates := fun l c =>
        if l = pwrlvl - 1 ∧ c = cpuIdx then reqPwrState else s.reqLocalPwrStates l c }
  else s

/-- The loops over the power domains of a CPU: `n` levels from `lvl` and its node `parentIdx` on. -/
def forEachParent (P : Platform) (body : ℕ → ℕ → PsciState → PsciState) :
    ℕ → ℕ → ℕ → PsciState → PsciState
  | 0, _, _, s => s
  | n + 1, lvl, parentIdx, s =>
    forEachParent P body n (lvl + 1) (P.nodes parentIdx).parentNode (body lvl parentIdx s)

def psciGetTargetLocalPwrStates (P : Platform) (s : PsciState) (cpuIdx endPwrlvl : ℕ) : ℕ → ℕ
  | 0 => s.cpuLocalState cpuIdx
  | l + 1 => if l + 1 ≤ endPwrlvl then s.nodeLocalState (P.ancestor cpuIdx l)
    else PSCI_LOCAL_STATE_RUN

def psciSetTargetLocalPwrStates (P : Platform) (cpuIdx endPwrlvl : ℕ) (states : ℕ → ℕ)
    (s : PsciState) : PsciState :=
  forEachParent P (fun lvl parentIdx s => s.setNonCpuPdNodeLocalState parentIdx (states lvl))
    endPwrlvl 1 (P.cpuParent cpuIdx) (s.setCpuLocalState cpuIdx (states PSCI_CPU_PWR_LVL))

def psciSetPwrDomainsToRun (P : Platform) (cpuIdx endPwrlvl : ℕ) (s : PsciState) : PsciState :=
  ((forEachParent P (fun lvl parentIdx s =>
      psciSetReqLocalPwrState P lvl cpuIdx PSCI_LOCAL_STATE_RUN
        (s.setNonCpuPdNodeLocalState parentIdx PSCI_LOCAL_STATE_RUN))
    endPwrlvl 1 (P.cpuParent cpuIdx) s).setAff cpuIdx .on).setCpuLocalState cpuIdx
      PSCI_LOCAL_STATE_RUN

/-! ## What the loops write -/

section Loops
variable {P : Platform} {s : PsciState} {cpu c l v : ℕ}

/-- **The loop rule.** What holds before level 1 and is carried from each level to the next holds
after the last one. -/
theorem forEachParent_rule {body : ℕ → ℕ → PsciState → PsciState} {n : ℕ}
    {I : ℕ → PsciState → Prop} (h0 : I 0 s)
    (hstep : ∀ j < n, ∀ s, I j s → I (j + 1) (body (j + 1) (P.ancestor cpu j) s)) :
    I n (forEachParent P body n 1 (P.cpuParent cpu) s) := by
  have hgen : ∀ k i s, i + k = n → I i s →
      I n (forEachParent P body k (i + 1) (P.ancestor cpu i) s) := by
    intro k
    induction k with
    | zero =>
      intro i s hi h
      obtain rfl : i = n := by omega
      exact h
    | succ k ih =>
      intro i s hi h
      exact ih (i + 1) _ (by omega) (hstep i (by omega) s h)
  exact hgen n 0 s (Nat.zero_add n) h0

theorem req_setReq (hv : l < P.maxPwrLvl) (hc : cpu < P.coreCount) (l' c' : ℕ) :
    (psciSetReqLocalPwrState P (l + 1) cpu v s).reqLocalPwrStates l' c' =
      if l' = l ∧ c' = cpu then v else s.reqLocalPwrStates l' c' := by
  rw [psciSetReqLocalPwrState, if_pos ⟨Nat.succ_pos l, hv, hc⟩]
  rfl

theorem setReq_eq (pwrlvl : ℕ) : ∃ req, psciSetReqLocalPwrState P pwrlvl cpu v s =
    { s with reqLocalPwrStates := req } := by
  unfold psciSetReqLocalPwrState
  split
  · exact ⟨_, rfl⟩
  · exact ⟨_, rfl⟩

/-- Rows below `i` of the CPU hold `f`, the rest of the matrix and of the state is that of `s`. -/
structure ReqSet (cpu i : ℕ) (f : ℕ → ℕ) (s s1 : PsciState) : Prop where
  req : ∀ l c, s1.reqLocalPwrStates l c = if l < i ∧ c = cpu then f l else s.reqLocalPwrStates l c
  rest : ∃ req, s1 = { s with reqLocalPwrStates := req }

theorem ReqSet.refl (f : ℕ → ℕ) : ReqSet cpu 0 f s s :=
  ⟨fun l c => by rw [if_neg fun h => absurd h.1 (Nat.not_lt_zero l)], ⟨_, rfl⟩⟩

theorem ReqSet.step {f : ℕ → ℕ} {i : ℕ} {s1 : PsciState} (h : ReqSet cpu i f s s1) (hcpu : cpu < P.coreCount)
    (hi : i < P.maxPwrLvl) :
    ReqSet cpu (i + 1) f s (psciSetReqLocalPwrState P (i + 1) cpu (f i) s1) := by
  obtain ⟨hreq, req, rfl⟩ := h
  refine ⟨fun l c => ?_, ?_⟩
  · rw [req_setReq hi hcpu, hreq l c]
    by_cases hlc : l = i ∧ c = cpu
    · obtain ⟨rfl, rfl⟩ := hlc
      rw [if_pos ⟨rfl, rfl⟩, if_pos ⟨Nat.lt_succ_self l, rfl⟩]
    · rw [if_neg hlc]
      have hiff : (l < i ∧ c = cpu) ↔ (l < i + 1 ∧ c = cpu) := by omega
      simp only [hiff]
  · obtain ⟨req', he⟩ := @setReq_eq P { s with reqLocalPwrStates := req } cpu (f i) (i + 1)
    exact ⟨req', he⟩

/-- The nodes of `cpu` below level `j + 1` hold the values of `f`, all others those of `old`. -/
def PathHolds (P : Platform) (cpu j : ℕ) (f old nodes : ℕ → ℕ) : Prop :=
  ∀ c < P.coreCount, ∀ l < P.maxPwrLvl, nodes (P.ancestor c l) =
    if l < j ∧ P.ancestor c l = P.ancestor cpu l then f l else old (P.ancestor c l)

theorem PathHolds.refl (f nodes : ℕ → ℕ) : PathHolds P cpu 0 f nodes nodes := by
  intro c _ l _
  rw [if_neg fun h => absurd h.1 (Nat.not_lt_zero l)]

theorem PathHolds.extend {f old nodes : ℕ → ℕ} {j : ℕ} (h : PathHolds P cpu j f old nodes)
    (hcpu : cpu < P.coreCount) (hj : j < P.maxPwrLvl) :
    PathHolds P cpu (j + 1) f old (Function.update nodes (P.ancestor cpu j) (f j)) := by
  intro c hc l hl
  by_cases hm : P.ancestor c l = P.ancestor cpu j
  · obtain rfl := P.ancestor_unique hl hj hc hcpu hm
    rw [hm, Function.update_self, if_pos ⟨Nat.lt_succ_self l, rfl⟩]
  · rw [Function.update_of_ne hm, h c hc l hl]
    have hiff : (l < j ∧ P.ancestor c l = P.ancestor cpu l) ↔
        (l < j + 1 ∧ P.ancestor c l = P.ancestor cpu l) := by
      refine and_congr_left fun hml => ?_
      have hne : l ≠ j := by
        rintro rfl
        exact hm hml
      omega
    simp only [hiff]

/-- What `psci_set_target_local_pwr_states()` leaves behind. -/
structure TargetsSet (P : Platform) (cpu endPwrlvl : ℕ) (states : ℕ → ℕ) (s s' : PsciState) :
    Prop where
  node : PathHolds P cpu endPwrlvl (fun l => states (l + 1)) s.nodeLocalState s'.nodeLocalState
  rest : ∃ nodes, s' = { s with
    nodeLocalState := nodes
    cpuLocalState := Function.update s.cpuLocalState cpu (states 0) }

theorem psciSetTargetLocalPwrStates_spec {endPwrlvl : ℕ} (states : ℕ → ℕ)
    (hcpu : cpu < P.coreCount) (hend : endPwrlvl ≤ P.maxPwrLvl) :
    TargetsSet P cpu endPwrlvl states s (psciSetTargetLocalPwrStates P cpu endPwrlvl states s) := by
  apply forEachParent_rule (I := fun j s' => TargetsSet P cpu j states s s')
  · exact ⟨PathHolds.refl _ _, ⟨_, rfl⟩⟩
  · rintro j hj s1 ⟨hnode, nodes, rfl⟩
    exact ⟨hnode.extend hcpu (by omega), ⟨_, rfl⟩⟩

/-- The loop of `psci_set_pwr_domains_to_run()`. -/
structure PathRuns (P : Platform) (cpu endPwrlvl : ℕ) (s s' : PsciState) : Prop where
  node : PathHolds P cpu endPwrlvl (fun _ => PSCI_LOCAL_STATE_RUN) s.nodeLocalState
    s'.nodeLocalState
  req : ∀ l c, s'.reqLocalPwrStates l c =
    if l < endPwrlvl ∧ c = cpu then PSCI_LOCAL_STATE_RUN else s.reqLocalPwrStates l c
  rest : ∃ nodes req, s' = { s with nodeLocalState := nodes, reqLocalPwrStates := req }

theorem pathRuns_step {j : ℕ} {s1 : PsciState} (h : PathRuns P cpu j s s1)
    (hcpu : cpu < P.coreCount) (hj : j < P.maxPwrLvl) :
    PathRuns P cpu (j + 1) s (psciSetReqLocalPwrState P (j + 1) cpu PSCI_LOCAL_STATE_RUN
      (s1.setNonCpuPdNodeLocalState (P.ancestor cpu j) PSCI_LOCAL_STATE_RUN)) := by
  obtain ⟨hnode, hreq, nodes, req, rfl⟩ := h
  have hrow := fun l c => @req_setReq P (PsciState.setNonCpuPdNodeLocalState
    { s with nodeLocalState := nodes, reqLocalPwrStates := req } (P.ancestor cpu j)
    PSCI_LOCAL_STATE_RUN) cpu j PSCI_LOCAL_STATE_RUN hj hcpu l c
  obtain ⟨req', he⟩ := @setReq_eq P (PsciState.setNonCpuPdNodeLocalState
    { s with nodeLocalState := nodes, reqLocalPwrStates := req } (P.ancestor cpu j)
    PSCI_LOCAL_STATE_RUN) cpu PSCI_LOCAL_STATE_RUN (j + 1)
  rw [he] at hrow ⊢
  refine ⟨hnode.extend hcpu hj, fun l c => (hrow l c).trans ?_, ⟨_, _, rfl⟩⟩
  have hold : req l c = if l < j ∧ c = cpu then PSCI_LOCAL_STATE_RUN
      else s.reqLocalPwrStates l c := hreq l c
  by_cases hlj : l = j ∧ c = cpu
  · rw [if_pos hlj, if_pos ⟨by omega, hlj.2⟩]
  · rw [if_neg hlj]
    refine hold.trans ?_
    have hiff : (l < j ∧ c = cpu) ↔ (l < j + 1 ∧ c = cpu) := by omega
    simp only [hiff]

/-- What `psci_set_pwr_domains_to_run()` leaves behind. -/
structure Woken (P : Platform) (cpu endPwrlvl : ℕ) (s s' : PsciState) : Prop where
  node : PathHolds P cpu endPwrlvl (fun _ => PSCI_LOCAL_STATE_RUN) s.nodeLocalState
    s'.nodeLocalState
  req : ∀ l c, s'.reqLocalPwrStates l c =
    if l < endPwrlvl ∧ c = cpu then PSCI_LOCAL_STATE_RUN else s.reqLocalPwrStates l c
  rest : ∃ nodes req, s' = { s with
    nodeLocalState := nodes
    reqLocalPwrStates := req
    affInfoState := Function.update s.affInfoState cpu .on
    cpuLocalState := Function.update s.cpuLocalState cpu PSCI_LOCAL_STATE_RUN }

theorem psciSetPwrDomainsToRun_spec {endPwrlvl : ℕ} (hcpu : cpu < P.coreCount)
    (hend : endPwrlvl ≤ P.maxPwrLvl) :
    Woken P cpu endPwrlvl s (psciSetPwrDomainsToRun P cpu endPwrlvl s) := by
  have hloop : PathRuns P cpu endPwrlvl s (forEachParent P (fun lvl parentIdx s =>
      psciSetReqLocalPwrState P lvl cpu PSCI_LOCAL_STATE_RUN
        (s.setNonCpuPdNodeLocalState parentIdx PSCI_LOCAL_STATE_RUN))
      endPwrlvl 1 (P.cpuParent cpu) s) := by
    apply forEachParent_rule (I := fun j s' => PathRuns P cpu j s s')
    · refine ⟨PathHolds.refl _ _, fun l c => ?_, ⟨_, _, rfl⟩⟩
      rw [if_neg fun h => absurd h.1 (Nat.not_lt_zero l)]
    · exact fun j hj s1 h => pathRuns_step h hcpu (by omega)
  obtain ⟨hnode, hreq, nodes, req, he⟩ := hloop
  refine ⟨hnode, hreq, ⟨nodes, req, ?_⟩⟩
  rw [psciSetPwrDomainsToRun, he]
  rfl

end Loops

end TrustedFirmware.Psci
