import TrustedFirmware.Locks.BakerySafety

/-! # The bakery lock does not get stuck

A CPU waits for another one only while that one chooses, or while it has a lower priority than its own
stored. So the CPU with the lowest priority of those that contend is not held up by any other one. -/
namespace TrustedFirmware.Bakery
open Runs
set_option autoImplicit false

variable {n : ℕ} {s s' : State n} {me : Fin n} {e : Event n}

/-! ## The work left -/

/-- At most so many loads and stores are left for a CPU until it has released the lock, but for those
that find nothing changed. -/
def Pc.work (n : ℕ) : Pc → ℕ
  | idle => 0
  | choosing they _ => 2 * n + 3 + (n - they) + 1
  | scan they _ => 2 * (n - they) + 2
  | waiting they _ _ => 2 * (n - they) + 1
  | critical _ => 1

def State.work (s : State n) : ℕ := ∑ i, (s.pc i).work n

theorem Move.work (h : Move s me s' e) (hpc : s.pc me ≠ .idle) : s' = s ∨ s'.work < s.work := by
  have hless : (s'.pc me).work n < (s.pc me).work n → s'.work < s.work := fun hlt =>
    Finset.sum_lt_sum (fun i _ => by
      by_cases hi : i = me
      · rw [hi]
        exact hlt.le
      · rw [(h.other hi).1]) ⟨me, Finset.mem_univ me, hlt⟩
  cases h with
  | start h => exact absurd h hpc
  | stay => exact .inl rfl
  | look h | choose h _ | self h | wait h _ _ _ | pass h _ _ _ | woken h _ | enter h _ | release h =>
    refine .inr (hless ?_)
    simp only [State.store, State.goto, Function.update_self, h, Pc.work]
    omega

/-! ## Waiting -/

def Waits (s : State n) : Prop := ∀ i they k t, s.pc i = .waiting they k t →
  they < n ∧ t ≠ 0 ∧ bakeryGetPriority t they < bakeryGetPriority k i

theorem Waits.step (hw : Waits s) (h : step s me = some (s', e)) : Waits s' := by
  intro i they k t hi
  by_cases hne : i = me
  · subst hne
    cases step_move h with
    | stay => exact hw i they k t hi
    | @wait j k' hpc hne hchosen hprio =>
      simp only [State.goto, Function.update_self, Pc.waiting.injEq] at hi
      obtain ⟨rfl, rfl, rfl⟩ := hi
      refine ⟨j.isLt, fun hzero => ?_, hprio⟩
      -- Without a ticket the other CPU would have been passed.
      have hpass : Bakery.step s i = some (s.goto i (.scan (j + 1) k'), .internal) := by
        simp [Bakery.step, hpc, Fin.val_ne_of_ne hne, hchosen, hzero]
      have hsame := congrArg (Option.map fun x => x.1.pc i) (h.symm.trans hpass)
      simp [State.goto] at hsame
    | _ => simp [State.store, State.goto] at hi
  · rw [((step_move h).other hne).1] at hi
    exact hw i they k t hi

/-- A CPU is held up by one that chooses, or that still has the ticket it waits for. -/
def HeldUp (s : State n) (me : Fin n) : Prop := ∃ (j : Fin n) (k : ℕ),
  s.pc me = .scan j k ∧ bakeryIsChoosing (s.lockData j) = true ∨
    s.pc me = .waiting j k (bakeryTicketNumber (s.lockData j))

theorem heldUp_of_stays (h : step s me = some (s, e)) (hidle : s.pc me ≠ .idle) : HeldUp s me := by
  -- The CPU is where it was.
  have hnext := congrArg (Option.map fun x => x.1.pc me) h
  unfold step at hnext
  cases hpc : s.pc me with
  | idle => exact absurd hpc hidle
  | choosing they m =>
    simp only [hpc] at hnext
    split_ifs at hnext <;> simp [State.goto, State.store, hpc] at hnext
  | scan they k =>
    simp only [hpc] at hnext
    split_ifs at hnext with hlt _ hch
    all_goals first
      | exact ⟨⟨they, hlt⟩, k, .inl ⟨hpc, hch⟩⟩
      | simp [State.goto, hpc] at hnext
  | waiting they k t =>
    simp only [hpc] at hnext
    split_ifs at hnext with hlt heq
    · exact ⟨⟨they, hlt⟩, k, .inr (heq ▸ hpc)⟩
    · simp [State.goto, hpc] at hnext
    · cases hnext
  | critical k =>
    simp only [hpc] at hnext
    split_ifs at hnext <;> simp [State.store, hpc] at hnext

theorem step_isSome (hI : BakeryInv s) (hw : Waits s) (me : Fin n) :
    ∃ s' e, step s me = some (s', e) := by
  have hstores := hI.stores me
  rw [← Prod.exists (p := fun x => step s me = some x), ← Option.isSome_iff_exists, step]
  cases hpc : s.pc me with
  | idle =>
    rw [hpc] at hstores
    dsimp only
    rw [if_pos (by rw [show s.lockData me = 0 from hstores]; rfl)]
    rfl
  | choosing they m =>
    dsimp only
    split <;> rfl
  | scan they k =>
    dsimp only
    split_ifs <;> rfl
  | waiting they k t =>
    dsimp only
    rw [dif_pos (hw me they k t hpc).1]
    split <;> rfl
  | critical k =>
    rw [hpc] at hstores
    dsimp only
    rw [if_pos (by rw [hstores.number rfl]; exact hstores.2.1.ne')]
    rfl

/-! ## Runs -/

/-- **The bakery lock does not get stuck.** With at most 256 CPUs, in every interleaving in which the
tickets fit into their field, no assertion fails, no step of a CPU that contends adds work, and as long
as a CPU contends there is one that gets on with its work. -/
theorem bakery_lock_progress (n : ℕ) (hn : n ≤ 256) (t : List (Fin n × Event n)) (s : State n)
    (hrun : Traced (Performs step TicketFits) (start n) t s) :
    (∀ me, (∃ s' e, step s me = some (s', e)) ∧
      ∀ s' e, step s me = some (s', e) → s.pc me ≠ .idle → s' = s ∨ s'.work < s.work) ∧
    ((∃ me, s.pc me ≠ .idle) →
      ∃ me s' e, s.pc me ≠ .idle ∧ step s me = some (s', e) ∧ s'.work < s.work) := by
  obtain ⟨hI, hw⟩ : BakeryInv s ∧ Waits s := by
    refine hrun.invariant (I := fun _ s => BakeryInv s ∧ Waits s) ⟨bakeryInv_start, nofun⟩ ?_
    rintro t u ⟨me, e⟩ v ⟨hI, hw⟩ ⟨hfit, hstep⟩
    exact ⟨hI.move hn hfit (step_move hstep), hw.step hstep⟩
  have hwork : ∀ me s' e, step s me = some (s', e) → s.pc me ≠ .idle → s' = s ∨ s'.work < s.work :=
    fun _ _ _ hstep hme => (step_move hstep).work hme
  refine ⟨fun me => ⟨step_isSome hI hw me, hwork me⟩, fun hsome => ?_⟩
  by_contra hnone
  have hheld : ∀ me, s.pc me ≠ .idle → HeldUp s me := fun me hme => by
    obtain ⟨s', e, hstep⟩ := step_isSome hI hw me
    obtain rfl | hless := hwork me s' e hstep hme
    · exact heldUp_of_stays hstep hme
    · exact absurd ⟨me, s', e, hme, hstep, hless⟩ hnone
  have hticket : ∀ i, s.pc i ≠ .idle → ∃ k, (s.pc i).ticket = some k := fun i hi => by
    obtain ⟨j, k, ⟨hpc, -⟩ | hpc⟩ := hheld i hi
    · exact ⟨k, hpc ▸ rfl⟩
    · exact ⟨k, hpc ▸ rfl⟩
  -- Of those that contend take the one with the lowest priority.
  obtain ⟨me, hme, hmin⟩ := Finset.exists_min_image {i | s.pc i ≠ .idle}
    (fun i => bakeryGetPriority (bakeryTicketNumber (s.lockData i)) i)
    (hsome.imp fun me h => by simpa using h)
  simp only [Finset.mem_filter, Finset.mem_univ, true_and] at hme hmin
  obtain ⟨j, k, ⟨hpc, hch⟩ | hpc⟩ := hheld me hme
  · have heven : s.lockData j % 2 = 0 := by
      by_cases hj : s.pc j = .idle
      · rw [show s.lockData j = 0 from (congrArg (Stores _) hj).mp (hI.stores j)]
      · obtain ⟨k', hk'⟩ := hticket j hj
        rw [((hI.stores j).of_ticket hk').1, Nat.mul_mod_right]
    rw [bakeryIsChoosing, Nat.and_one_is_mod, heven] at hch
    exact absurd hch (by decide)
  · obtain ⟨-, hzero, hlt⟩ := hw me j k _ hpc
    have hj : s.pc j ≠ .idle := fun hj => hzero (by
      rw [show s.lockData j = 0 from (congrArg (Stores _) hj).mp (hI.stores j)]
      rfl)
    have hme' := (hI.stores me).number (k := k) (hpc ▸ rfl)
    have hle := hmin j hj
    rw [hme'] at hle
    omega

theorem bakery_lock_progress_two :
    ∃ t s, Traced (Performs step TicketFits) (start 2) t s ∧ s.pc 0 = .critical 1 ∧
      s.pc 1 = .waiting 0 2 1 ∧
      ∃ me s' e, s.pc me ≠ .idle ∧ step s me = some (s', e) ∧ s'.work < s.work := by
  obtain ⟨t, s, hrun, hq⟩ := @execute_traced _ _ _ (step (n := 2)) TicketFits _
    (fun _ s => decide (s.pc 0 = .critical 1 ∧ s.pc 1 = .waiting 0 2 1)) (start 2)
    [0, 0, 0, 0, 0, 0, 0, 1, 1, 1, 1, 1] (by decide +kernel)
  obtain ⟨h0, h1⟩ := of_decide_eq_true hq
  exact ⟨t, s, hrun, h0, h1,
    (bakery_lock_progress 2 (by decide) t s hrun).2 ⟨0, h0 ▸ nofun⟩⟩

end TrustedFirmware.Bakery
