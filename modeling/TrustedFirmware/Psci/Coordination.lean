import TrustedFirmware.Psci.State

/-! # State coordination

`psci_do_state_coordination()` records the requests of a CPU and computes the target
state of each of its power domains from the requests of all CPUs below it. -/
namespace TrustedFirmware.Psci
set_option autoImplicit false

/-- The loop of `plat_get_target_pwr_state()` over `n` CPUs from `i` on. -/
def minLoop (row : ℕ → ℕ) : ℕ → ℕ → ℕ → ℕ
  | 0, _, target => target
  | n + 1, i, target => minLoop row n (i + 1) (if row i < target then row i else target)

/-- The platform's default: the minimum of the requests of `ncpu` CPUs from `startIdx` on. -/
def platGetTargetPwrState (P : Platform) (row : ℕ → ℕ) (startIdx ncpu : ℕ) : ℕ :=
  minLoop row ncpu startIdx P.maxOffState

/-- The second loop, for the levels above one whose target is RUN. -/
def coordinateRest (P : Platform) (cpuIdx : ℕ) :
    ℕ → ℕ → (ℕ → ℕ) → PsciState → (ℕ → ℕ) × PsciState
  | 0, _, states, s => (states, s)
  | n + 1, lvl, states, s =>
    coordinateRest P cpuIdx n (lvl + 1) (Function.update states lvl PSCI_LOCAL_STATE_RUN)
      (psciSetReqLocalPwrState P lvl cpuIdx (states lvl) s)

def coordinateLoop (P : Platform) (cpuIdx : ℕ) :
    ℕ → ℕ → ℕ → (ℕ → ℕ) → PsciState → (ℕ → ℕ) × PsciState
  | 0, _, _, states, s => (states, s)
  | n + 1, lvl, parentIdx, states, s =>
    let s := psciSetReqLocalPwrState P lvl cpuIdx (states lvl) s
    let target := platGetTargetPwrState P (s.reqLocalPwrStates (lvl - 1))
      (P.nodes parentIdx).cpuStartIdx (P.nodes parentIdx).ncpus
    let states := Function.update states lvl target
    if isLocalStateRun target then coordinateRest P cpuIdx n (lvl + 1) states s
    else coordinateLoop P cpuIdx n (lvl + 1) (P.nodes parentIdx).parentNode states s

def psciDoStateCoordination (P : Platform) (cpuIdx endPwrlvl : ℕ) (states : ℕ → ℕ) (s : PsciState) :
    (ℕ → ℕ) × PsciState :=
  coordinateLoop P cpuIdx endPwrlvl 1 (P.cpuParent cpuIdx) states s

section Minimum
variable {row : ℕ → ℕ}

theorem minLoop_le_target (n i target : ℕ) : minLoop row n i target ≤ target := by
  induction n generalizing i target with
  | zero => exact Nat.le_refl target
  | succ n ih =>
    refine Nat.le_trans (ih (i + 1) _) ?_
    split <;> omega

theorem minLoop_le {n i k : ℕ} (target : ℕ) (h1 : i ≤ k) (h2 : k < i + n) :
    minLoop row n i target ≤ row k := by
  induction n generalizing i target with
  | zero => omega
  | succ n ih =>
    by_cases hk : k = i
    · subst hk
      refine Nat.le_trans (minLoop_le_target n (k + 1) _) ?_
      split <;> omega
    · exact ih _ (by omega) (by omega)

end Minimum

/-- After the levels below `i + 1`: the requests of the CPU are those of `states`, and no target
is deeper than a request for its node. -/
structure Coordinated (P : Platform) (cpu i : ℕ) (states : ℕ → ℕ) (s : PsciState)
    (r : (ℕ → ℕ) × PsciState) : Prop where
  todo : ∀ l, i ≤ l → r.1 (l + 1) = states (l + 1)
  cpuState : r.1 0 = states 0
  reqs : ReqSet cpu i (fun l => states (l + 1)) s r.2
  le : ∀ l < i, ∀ c < P.coreCount, P.ancestor c l = P.ancestor cpu l →
    r.1 (l + 1) ≤ r.2.reqLocalPwrStates l c

section Coordination
variable {P : Platform} {cpu i n : ℕ} {states st : ℕ → ℕ} {s s1 : PsciState}

theorem Coordinated.step (h : Coordinated P cpu i states s (st, s1)) (hcpu : cpu < P.coreCount)
    (hi : i < P.maxPwrLvl) (target : ℕ)
    (ht : ∀ c < P.coreCount, P.ancestor c i = P.ancestor cpu i →
      target ≤ (psciSetReqLocalPwrState P (i + 1) cpu (st (i + 1)) s1).reqLocalPwrStates i c) :
    Coordinated P cpu (i + 1) states s (Function.update st (i + 1) target,
      psciSetReqLocalPwrState P (i + 1) cpu (st (i + 1)) s1) := by
  have htodo : st (i + 1) = states (i + 1) := h.todo i (Nat.le_refl i)
  have hreqs : ReqSet cpu i (fun l => states (l + 1)) s s1 := h.reqs
  refine ⟨fun l hl => ?_, h.cpuState, ?_, fun l hl c hc hm => ?_⟩
  · dsimp only
    rw [Function.update_of_ne (by omega)]
    exact h.todo l (by omega)
  · dsimp only
    rw [htodo]
    exact hreqs.step hcpu hi
  · dsimp only
    by_cases hli : l = i
    · subst hli
      rw [Function.update_self]
      exact ht c hc hm
    · rw [Function.update_of_ne (by omega), req_setReq hi hcpu, if_neg (by omega)]
      exact h.le l (by omega) c hc hm

theorem coordinateRest_spec (h : Coordinated P cpu i states s (st, s1)) (hcpu : cpu < P.coreCount)
    (hn : i + n ≤ P.maxPwrLvl) :
    Coordinated P cpu (i + n) states s (coordinateRest P cpu n (i + 1) st s1) := by
  induction n generalizing i st s1 with
  | zero => exact h
  | succ n ih =>
    have hnext := h.step hcpu (by omega) PSCI_LOCAL_STATE_RUN fun c _ _ => Nat.zero_le _
    have hres := ih hnext (by omega)
    rwa [Nat.add_right_comm, Nat.add_assoc] at hres

theorem coordinateLoop_spec (h : Coordinated P cpu i states s (st, s1)) (hcpu : cpu < P.coreCount)
    (hn : i + n ≤ P.maxPwrLvl) :
    Coordinated P cpu (i + n) states s
      (coordinateLoop P cpu n (i + 1) (P.ancestor cpu i) st s1) := by
  induction n generalizing i st s1 with
  | zero => exact h
  | succ n ih =>
    rw [coordinateLoop]
    -- the CPUs the platform sees are those below the node
    have hnext := h.step hcpu (by omega) (platGetTargetPwrState P
      ((psciSetReqLocalPwrState P (i + 1) cpu (st (i + 1)) s1).reqLocalPwrStates i)
      (P.nodes (P.ancestor cpu i)).cpuStartIdx (P.nodes (P.ancestor cpu i)).ncpus) fun c hc hm => by
        obtain ⟨h1, h2⟩ := (P.range i (by omega) cpu hcpu c).mpr ⟨hc, hm⟩
        exact minLoop_le _ h1 h2
    have hidx : i + (n + 1) = i + 1 + n := by omega
    rw [hidx]
    split
    · exact coordinateRest_spec hnext hcpu (by omega)
    · exact ih hnext (by omega)

theorem psciDoStateCoordination_spec (hcpu : cpu < P.coreCount) (hn : n ≤ P.maxPwrLvl) :
    Coordinated P cpu n states s (psciDoStateCoordination P cpu n states s) := by
  have h0 : Coordinated P cpu 0 states s (states, s) :=
    ⟨fun _ _ => rfl, rfl, ReqSet.refl _, fun l hl => absurd hl (Nat.not_lt_zero l)⟩
  have h := coordinateLoop_spec (n := n) h0 hcpu (by omega)
  rwa [Nat.zero_add] at h

end Coordination

end TrustedFirmware.Psci
