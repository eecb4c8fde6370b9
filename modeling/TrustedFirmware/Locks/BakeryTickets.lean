import TrustedFirmware.Locks.BakerySafety

/-! # The field of a ticket

A ticket is one more than the highest ticket that a CPU finds, and it only starts again from 1 when
no CPU contends. A CPU that finds the highest ticket of the 15-bit field takes one that does not
fit; two CPUs that take turns get there. -/
namespace TrustedFirmware.Bakery
open Runs
set_option autoImplicit false

variable {n : ℕ}

def Loads (s : State n) (me : Fin n) (s' : State n) : Prop := (step s me).map Prod.fst = some s'

/-- A CPU in the loop of `bakery_get_ticket()` does not look at a CPU with the highest ticket that
the field can hold. -/
def LooksBelow (s : State n) (me : Fin n) : Prop :=
  ∀ they m, s.pc me = .choosing they m → ∀ h : they < n,
    bakeryTicketNumber (s.lockData ⟨they, h⟩) < 0x7FFF

instance (s : State n) (me : Fin n) : Decidable (LooksBelow s me) :=
  match h : s.pc me with
  | .choosing they _ => decidable_of_iff
      (∀ h : they < n, bakeryTicketNumber (s.lockData ⟨they, h⟩) < 0x7FFF) (by simp [LooksBelow, h])
  | .idle | .scan _ _ | .waiting _ _ _ | .critical _ => isTrue (by simp [LooksBelow, h])

/-- The ticket that a CPU stores at the end of its choice is the one it goes on with, and it has
stopped choosing. -/
def StoredWhole (s' : State n) (me : Fin n) : Prop :=
  ∃ ticket, s'.pc me = .scan 0 ticket ∧ bakeryTicketNumber (s'.lockData me) = ticket ∧
    bakeryIsChoosing (s'.lockData me) = false

theorem Loads.exists {s s' : State n} {me : Fin n} (h : Loads s me s') : ∃ e, Move s me s' e := by
  obtain ⟨⟨_, e⟩, hs, rfl⟩ := Option.map_eq_some_iff.mp h
  exact ⟨e, step_move hs⟩

def FoundBelow (s : State n) : Prop := ∀ i they m, s.pc i = .choosing they m → m < 0x7FFF

theorem FoundBelow.move {s s' : State n} {me : Fin n} {e : Event n} (hI : FoundBelow s)
    (hlook : LooksBelow s me) (h : Move s me s' e) : FoundBelow s' := by
  intro i they m hpc
  by_cases hi : i = me
  · subst hi
    cases h with
    | start h =>
      simp only [State.store, Function.update_self, Pc.choosing.injEq] at hpc
      omega
    | @look j m' h =>
      simp only [State.goto, Function.update_self, Pc.choosing.injEq] at hpc
      have hm := hI i j m' h
      have hj := hlook j m' h j.isLt
      rw [← hpc.2]
      exact max_lt hm hj
    | stay => exact hI i they m hpc
    | choose h hend => simp [State.store] at hpc
    | release h => simp [State.store] at hpc
    | self h => simp [State.goto] at hpc
    | wait h hne hchosen hprio => simp [State.goto] at hpc
    | pass h hne hchosen hprio => simp [State.goto] at hpc
    | woken h hne => simp [State.goto] at hpc
    | enter h hend => simp [State.goto] at hpc
  · rw [(h.other hi).1] at hpc
    exact hI i they m hpc

theorem step_choose {s : State n} {me : Fin n} {they m : ℕ} (h : s.pc me = .choosing they m)
    (hend : n ≤ they) : step s me =
      some (s.store me (makeBakeryData CHOSEN_TICKET (m + 1)) (.scan 0 (m + 1)), .chose me) := by
  simp [step, h, not_lt.mpr hend]

theorem makeBakeryData_whole {num : ℕ} (h : num < 2 ^ 15) :
    bakeryTicketNumber (makeBakeryData CHOSEN_TICKET num) = num ∧
      bakeryIsChoosing (makeBakeryData CHOSEN_TICKET num) = false := by
  rw [makeBakeryData_chosen h, bakeryTicketNumber_eq, bakeryIsChoosing, decide_eq_false_iff_not,
    Nat.and_one_is_mod, CHOOSING_TICKET]
  omega

/-- **Tickets fit.** In every run, of any number of CPUs, in which no CPU looks at one with the
highest ticket of the field, every ticket that is chosen is stored whole. -/
theorem chosen_ticket_fits (n : ℕ) (s : State n)
    (hrun : Reach (Guarded Loads LooksBelow) (start n) s) (me : Fin n) (s' : State n)
    (hchoose : step s me = some (s', .chose me)) : StoredWhole s' me := by
  have hI : FoundBelow s := by
    refine hrun.invariant ?_ ?_
    · intro i they m h
      cases h
    · intro u a v hu ⟨hlook, hload⟩
      obtain ⟨e, hmove⟩ := hload.exists
      exact hu.move hlook hmove
  cases step_move hchoose with
  | @choose they m h hend =>
    have hm := hI me they m h
    refine ⟨m + 1, by simp [State.store], ?_⟩
    simp only [State.store, Function.update_self]
    exact makeBakeryData_whole (by omega)

theorem chosen_ticket_fits_two : ∃ s s' : State 2, s.pc 0 = .critical 1 ∧
    step s 1 = some (s', .chose 1) ∧ StoredWhole s' 1 := by
  obtain ⟨t, s, e, s', hrun, hs, hq⟩ := @execute_next _ _ _ (step (n := 2)) LooksBelow _
    (fun _ s e _ => decide (s.pc 0 = .critical 1 ∧ e = .chose 1)) (start 2)
    (List.replicate 7 0 ++ List.replicate 3 1) 1 (by decide +kernel)
  obtain ⟨hpc, rfl⟩ := of_decide_eq_true hq
  have hreach : Reach (Guarded Loads LooksBelow) (start 2) s :=
    hrun.invariant (I := fun _ s => Reach (Guarded Loads LooksBelow) (start 2) s) (.refl _ _)
      fun _ _ _ _ h hstep => h.tail ⟨hstep.1, congrArg (Option.map Prod.fst) hstep.2⟩
  exact ⟨s, s', hpc, hs, chosen_ticket_fits 2 s hreach 1 s' hs⟩

/-! ## Two CPUs that take turns -/

def holding (i : Fin 2) (k : ℕ) : State 2 :=
  ⟨fun c => if c = i then 2 * k else 0, fun c => if c = i then .critical k else .idle⟩

def found (i o : Fin 2) (k : ℕ) : State 2 := (holding i k).store o 1 (.choosing 2 k)

theorem bakeryTicketNumber_double {k : ℕ} (h : k < 2 ^ 15) : bakeryTicketNumber (2 * k) = k := by
  rw [bakeryTicketNumber_eq]
  omega

theorem two_ext {α : Type} {f g : Fin 2 → α} (h0 : f 0 = g 0) (h1 : f 1 = g 1) : f = g := by
  funext c
  fin_cases c
  · exact h0
  · exact h1

theorem finds {i o : Fin 2} (hio : o ≠ i) {k : ℕ} (h0 : 0 < k) (hk : k < 2 ^ 15) :
    Reach Loads (holding i k) (found i o k) := by
  refine @Reach.of_foldlM _ _ _ [o, o, o] _ _ ?_
  have hzero : bakeryTicketNumber 0 = 0 := by decide
  have hone : bakeryTicketNumber 1 = 0 := by decide
  have hnum := bakeryTicketNumber_double hk
  fin_cases i <;> fin_cases o <;>
    first
    | exact absurd rfl hio
    | simp [step, holding, found, State.store, State.goto, makeBakeryData_choosing, hone, hzero, hnum,
        h0]

/-- The first CPU lets go as soon as the other one has chosen. -/
theorem takes_turn {i o : Fin 2} (hio : o ≠ i) {k : ℕ} (h0 : 0 < k) (hk : k + 1 < 2 ^ 15) :
    Reach Loads (found i o k) (holding o (k + 1)) := by
  refine @Reach.of_foldlM _ _ _ [o, i, o, o, o] _ _ ?_
  have hzero : bakeryTicketNumber 0 = 0 := by decide
  have hidle : bakeryIsChoosing 0 = false := by decide
  have hnum := bakeryTicketNumber_double (k := k) (by omega)
  have hdata := makeBakeryData_chosen hk
  fin_cases i <;> fin_cases o <;> try exact absurd rfl hio
  all_goals
    simp [step, holding, found, State.store, State.goto, hzero, hidle, hnum, hdata, h0.ne']
    exact ⟨two_ext (by simp) (by simp), two_ext (by simp) (by simp)⟩

theorem reaches_ticket {k : ℕ} (hk : k + 1 < 2 ^ 15) :
    ∃ i, Reach Loads (start 2) (holding i (k + 1)) := by
  induction k with
  | zero =>
    refine ⟨0, @Reach.of_foldlM _ _ _ (List.replicate 7 0) _ _ ?_⟩
    simp [step, holding, start, State.store, State.goto, makeBakeryData, bakeryTicketNumber,
      bakeryIsChoosing, CHOSEN_TICKET, CHOOSING_TICKET, List.replicate]
    exact ⟨two_ext (by simp) (by simp), two_ext (by simp) (by simp)⟩
  | succ k ih =>
    obtain ⟨i, hi⟩ := ih (by omega)
    have hio : i + 1 ≠ i := by
      fin_cases i <;> decide
    exact ⟨i + 1, (hi.trans (finds hio (by omega) (by omega))).trans (takes_turn hio (by omega) hk)⟩

/-- The highest ticket of the field is taken, and the next CPU chooses: it stores the ticket 0. -/
theorem ticket_overflows : ∃ s s' me, Reach Loads (start 2) s ∧ step s me = some (s', .chose me) ∧
    ¬ StoredWhole s' me := by
  obtain ⟨i, hi⟩ := reaches_ticket (k := 0x7FFE) (by omega)
  have hio : i + 1 ≠ i := by
    fin_cases i <;> decide
  have hfound := hi.trans (finds hio (by omega) (by omega))
  refine ⟨_, _, _, hfound, step_choose (Function.update_self _ _ _) le_rfl, ?_⟩
  rintro ⟨ticket, hpc, hnum, -⟩
  simp only [State.store, Function.update_self, Pc.scan.injEq, true_and] at hpc hnum
  rw [← hpc] at hnum
  exact absurd hnum (by decide)

end TrustedFirmware.Bakery
