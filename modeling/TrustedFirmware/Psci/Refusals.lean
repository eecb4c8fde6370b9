import TrustedFirmware.Psci.OsInit

/-! # Refused requests

`psci_validate_state_coordination()` records a request before it checks it. Two of its three refusals take
the request back; the one for a `last_at_pwrlvl` that is no power level does not. -/
namespace TrustedFirmware.Psci
set_option autoImplicit false

variable {P : Platform} {cpu endPwrlvl : ℕ} {s s1 s' : PsciState} {info : PowerState}

theorem hierarchyLoop_requests (req : ℕ → ℕ → ℕ) (states : ℕ → ℕ) (n lvl path parent : ℕ) :
    hierarchyLoop P { s with reqLocalPwrStates := req } states n lvl path parent =
      hierarchyLoop P s states n lvl path parent := by
  have hchildren : ∀ n path lvl target node,
      childrenDeepEnough { s with reqLocalPwrStates := req } path lvl target n node =
        childrenDeepEnough s path lvl target n node := by
    intro n path lvl target
    induction n with
    | zero => exact fun _ => rfl
    | succ n ih =>
      intro node
      rw [childrenDeepEnough, childrenDeepEnough, ih]
      rfl
  induction n generalizing lvl path parent with
  | zero => rfl
  | succ n ih => rw [hierarchyLoop, hierarchyLoop, hchildren, ih]

/-- The condition under which a refused request leaves no trace. -/
def TakenBack (P : Platform) (cpu endPwrlvl : ℕ) (info : PowerState) (s : PsciState) : Prop :=
  info.lastAtPwrlvl ≤ P.maxPwrLvl ∨
  psciValidateHierarchicalStateConsistency P s cpu endPwrlvl info.pwrDomainState ≠ PSCI_E_SUCCESS ∨
  ∀ l < P.maxCpuSuspendPwrLvl, recorded endPwrlvl info.pwrDomainState l = s.reqLocalPwrStates l cpu

theorem ReqSet.requests_eq {f : ℕ → ℕ} (h : ReqSet cpu P.maxCpuSuspendPwrLvl f s s1) :
    s1.reqLocalPwrStates = s.reqLocalPwrStates ↔
      ∀ l < P.maxCpuSuspendPwrLvl, f l = s.reqLocalPwrStates l cpu := by
  constructor
  · intro heq l hl
    have hreq := h.req l cpu
    rw [if_pos ⟨hl, rfl⟩, heq] at hreq
    exact hreq.symm
  · intro heq
    funext l c
    rw [h.req]
    split
    · rename_i hlc
      rw [heq l hlc.1, hlc.2]
    · rfl

theorem psciValidateStateCoordination_invalid (hlast : info.lastAtPwrlvl > P.maxPwrLvl)
    (hok : psciValidateHierarchicalStateConsistency P s cpu endPwrlvl info.pwrDomainState = PSCI_E_SUCCESS)
    (hcpu : cpu < P.coreCount) :
    ∃ s1, psciValidateStateCoordination P cpu endPwrlvl info s = some (PSCI_E_INVALID_PARAMS, s1) ∧
      ReqSet cpu P.maxCpuSuspendPwrLvl (recorded endPwrlvl info.pwrDomainState) s s1 := by
  obtain ⟨hreqs, -⟩ := @psciUpdateReqLocalPwrStates_spec P cpu endPwrlvl info.pwrDomainState s hcpu
  refine ⟨_, ?_, hreqs⟩
  obtain ⟨req, hs1⟩ := hreqs.rest
  have hok1 : psciValidateHierarchicalStateConsistency P
      (psciUpdateReqLocalPwrStates P endPwrlvl cpu info.pwrDomainState s).2 cpu endPwrlvl
      info.pwrDomainState = PSCI_E_SUCCESS := by
    rw [hs1, psciValidateHierarchicalStateConsistency, hierarchyLoop_requests]
    exact hok
  unfold psciValidateStateCoordination
  dsimp only
  rw [if_neg (not_not.mpr hok1), if_pos hlast]

/-- **Refused requests.** The requests of all CPUs are as before whenever an error is returned, exactly if
the level in the request is a power level, or the request is refused before it is looked at, or the
request was on record already. -/
theorem refused_request_taken_back_iff (hcpu : cpu < P.coreCount) :
    (∀ rc s', psciValidateStateCoordination P cpu endPwrlvl info s = some (rc, s') → rc ≠ PSCI_E_SUCCESS →
      s'.reqLocalPwrStates = s.reqLocalPwrStates) ↔ TakenBack P cpu endPwrlvl info s := by
  constructor
  · intro hback
    by_cases hlast : info.lastAtPwrlvl ≤ P.maxPwrLvl
    · exact .inl hlast
    by_cases hok : psciValidateHierarchicalStateConsistency P s cpu endPwrlvl info.pwrDomainState = PSCI_E_SUCCESS
    · obtain ⟨s1, hcall, hreqs⟩ := psciValidateStateCoordination_invalid (by omega) hok hcpu
      exact .inr (.inr (hreqs.requests_eq.mp (hback _ s1 hcall (by decide))))
    · exact .inr (.inl hok)
  · intro hcond rc s' hcall hrc
    obtain ⟨s1, hreqs, ⟨-, rfl⟩ | ⟨hh, rfl, hrc' | ⟨-, hlast⟩⟩⟩ := psciValidateStateCoordination_cases hcpu hcall
    · rfl
    · exact absurd hrc' hrc
    · rcases hcond with hle | hno | heq
      · omega
      · obtain ⟨req, rfl⟩ := hreqs.rest
        rw [hierarchyLoop_requests] at hh
        rw [psciValidateHierarchicalStateConsistency, if_pos hh] at hno
        exact absurd rfl hno
      · exact hreqs.requests_eq.mpr heq

def noSuchLevel : PowerState := ⟨fun l => if l ≤ 1 then 2 else 0, 3⟩

theorem refused_request_taken_back_iff_level :
    0 < twoClusters.coreCount ∧ ∀ rc s',
      psciValidateStateCoordination twoClusters 0 1 ⟨noSuchLevel.pwrDomainState, 1⟩ twoClustersOsInit =
        some (rc, s') →
      rc ≠ PSCI_E_SUCCESS → s'.reqLocalPwrStates = twoClustersOsInit.reqLocalPwrStates :=
  ⟨by decide, (@refused_request_taken_back_iff twoClusters 0 1 twoClustersOsInit ⟨noSuchLevel.pwrDomainState, 1⟩
    (by decide)).mpr (.inl (by decide))⟩

/-- The refused request stays on record. -/
theorem refused_request_kept : ∃ s',
    psciValidateStateCoordination twoClusters 0 1 noSuchLevel twoClustersOsInit =
      some (PSCI_E_INVALID_PARAMS, s') ∧
    twoClustersOsInit.reqLocalPwrStates 0 0 = PSCI_LOCAL_STATE_RUN ∧ s'.reqLocalPwrStates 0 0 = 2 :=
  ⟨_, rfl, by decide, by decide⟩

end TrustedFirmware.Psci
