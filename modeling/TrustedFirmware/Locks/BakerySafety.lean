import TrustedFirmware.Locks.Bakery

/-! # Mutual exclusion and the order of entry

A CPU that has compared itself with another one and gone on is served first: the other one does not
contend, or has a later ticket, or is still choosing and will find the ticket. With at most 256 CPUs
the priorities of two CPUs differ. -/
namespace TrustedFirmware.Bakery
open Runs
set_option autoImplicit false
set_option maxRecDepth 100000

variable {n : ℕ}

variable {s s' : State n} {me i j : Fin n} {e : Event n} {k : ℕ} {pc : Pc}

/-! ## What a step can do -/

inductive Move (s : State n) (me : Fin n) : State n → Event n → Prop
  | start (h : s.pc me = .idle) :
      Move s me (s.store me (makeBakeryData CHOOSING_TICKET 0) (.choosing 0 0)) (.start me)
  | look {j : Fin n} {m : ℕ} (h : s.pc me = .choosing j m) :
      Move s me (s.goto me
        (.choosing (j + 1) (max m (bakeryTicketNumber (s.lockData j))))) .internal
  | choose {they m : ℕ} (h : s.pc me = .choosing they m) (hend : n ≤ they) :
      Move s me (s.store me (makeBakeryData CHOSEN_TICKET (m + 1)) (.scan 0 (m + 1))) (.chose me)
  | stay : Move s me s .internal
  | self {k : ℕ} (h : s.pc me = .scan me k) : Move s me (s.goto me (.scan (me + 1) k)) .internal
  | wait {j : Fin n} {k : ℕ} (h : s.pc me = .scan j k) (hne : me ≠ j)
      (hchosen : bakeryIsChoosing (s.lockData j) = false)
      (hprio : bakeryGetPriority (bakeryTicketNumber (s.lockData j)) j <
        bakeryGetPriority k me) :
      Move s me (s.goto me (.waiting j k (bakeryTicketNumber (s.lockData j)))) .internal
  | pass {j : Fin n} {k : ℕ} (h : s.pc me = .scan j k) (hne : me ≠ j)
      (hchosen : bakeryIsChoosing (s.lockData j) = false)
      (hprio : bakeryTicketNumber (s.lockData j) ≠ 0 → bakeryGetPriority k me ≤
        bakeryGetPriority (bakeryTicketNumber (s.lockData j)) j) :
      Move s me (s.goto me (.scan (j + 1) k)) .internal
  | woken {j : Fin n} {k t : ℕ} (h : s.pc me = .waiting j k t)
      (hne : t ≠ bakeryTicketNumber (s.lockData j)) :
      Move s me (s.goto me (.scan (j + 1) k)) .internal
  | enter {they k : ℕ} (h : s.pc me = .scan they k) (hend : n ≤ they) :
      Move s me (s.goto me (.critical k)) (.enter me)
  | release {k : ℕ} (h : s.pc me = .critical k) : Move s me (s.store me 0 .idle) (.release me)

theorem step_move (h : step s me = some (s', e)) : Move s me s' e := by
  unfold step at h
  split at h
  · rename_i hpc
    split at h
    · cases h
      exact .start hpc
    · cases h
  · rename_i they m hpc
    split at h
    · rename_i hlt
      cases h
      have hmax (t : ℕ) : (if t > m then t else m) = max m t := by
        split <;> omega
      rw [hmax]
      exact .look (j := ⟨they, hlt⟩) hpc
    · rename_i hlt
      cases h
      exact .choose hpc (by omega)
  · rename_i they k hpc
    split at h
    · rename_i hlt
      split at h
      · rename_i heq
        cases h
        subst heq
        exact .self hpc
      · rename_i hne
        have hne' : me ≠ ⟨they, hlt⟩ := fun h => hne (congrArg Fin.val h)
        dsimp only at h
        split at h
        · cases h
          exact .stay
        · rename_i hchosen
          rw [Bool.not_eq_true] at hchosen
          split at h
          · rename_i hprio
            cases h
            exact .wait (j := ⟨they, hlt⟩) hpc hne' hchosen hprio.2
          · rename_i hprio
            cases h
            refine .pass (j := ⟨they, hlt⟩) hpc hne' hchosen ?_
            intro hzero
            by_contra hlt'
            exact hprio ⟨hzero, Nat.lt_of_not_le hlt'⟩
    · rename_i hlt
      cases h
      exact .enter hpc (by omega)
  · rename_i they k t hpc
    split at h
    · rename_i hlt
      split at h
      · cases h
        exact .stay
      · rename_i hne
        cases h
        exact .woken (j := ⟨they, hlt⟩) hpc hne
    · cases h
  · rename_i k hpc
    split at h
    · cases h
      exact .release hpc
    · cases h

theorem Move.other (h : Move s me s' e) (hi : i ≠ me) :
    s'.pc i = s.pc i ∧ s'.lockData i = s.lockData i := by
  cases h <;> simp [State.store, State.goto, Function.update_of_ne hi]

/-! ## Tickets -/

def Pc.ticket : Pc → Option ℕ
  | scan _ k | waiting _ k _ | critical k => some k
  | _ => none

def Pc.passed : Pc → ℕ → Prop
  | scan they _, j | waiting they _ _, j => j < they
  | critical _, _ => True
  | _, _ => False

def Stores (info : ℕ) : Pc → Prop
  | .idle => info = 0
  | .choosing _ _ => info = 1
  | .scan _ k | .waiting _ k _ | .critical k => info = 2 * k ∧ 0 < k ∧ k < 2 ^ 15

theorem Stores.of_ticket {info : ℕ} (h : Stores info pc) (hk : pc.ticket = some k) :
    info = 2 * k ∧ 0 < k ∧ k < 2 ^ 15 := by
  cases pc with
  | idle => cases hk
  | choosing they m => cases hk
  | scan they k' =>
    cases hk
    exact h
  | waiting they k' t =>
    cases hk
    exact h
  | critical k' =>
    cases hk
    exact h

theorem Stores.number {info : ℕ} (h : Stores info pc) (hk : pc.ticket = some k) :
    bakeryTicketNumber info = k := by
  obtain ⟨rfl, -, hlt⟩ := h.of_ticket hk
  rw [bakeryTicketNumber_eq]
  omega

theorem Stores.idle {info : ℕ} (h : Stores info pc) (hc : bakeryIsChoosing info = false) :
    pc = .idle ∨ ∃ k, pc.ticket = some k := by
  cases pc with
  | idle => exact .inl rfl
  | choosing they m =>
    have hinfo : info = 1 := h
    rw [hinfo] at hc
    exact absurd hc (by decide)
  | scan they k => exact .inr ⟨k, rfl⟩
  | waiting they k t => exact .inr ⟨k, rfl⟩
  | critical k => exact .inr ⟨k, rfl⟩

/-- CPU `j` at this place comes after CPU `i` with ticket `k`: it does not contend, or it has a later
ticket, or it is choosing and has found the ticket or will find it. -/
def Yields (i j : Fin n) (k : ℕ) : Pc → Prop
  | .idle => True
  | .choosing they m => i.val < they → k ≤ m
  | .scan _ k' | .waiting _ k' _ | .critical k' => k < k' ∨ (k = k' ∧ i < j)

theorem yields_ticket {l : ℕ} (h : pc.ticket = some l) :
    Yields i j k pc ↔ k < l ∨ (k = l ∧ i < j) := by
  cases pc with
  | idle => cases h
  | choosing they m => cases h
  | scan they m =>
    cases h
    rfl
  | waiting they m t =>
    cases h
    rfl
  | critical m =>
    cases h
    rfl

/-! ## The invariant -/

structure BakeryInv (s : State n) : Prop where
  stores : ∀ i, Stores (s.lockData i) (s.pc i)
  passed : ∀ i j k, i ≠ j → (s.pc i).ticket = some k → (s.pc i).passed j → Yields i j k (s.pc j)
  waits : ∀ i j k t, s.pc i = .waiting j.val k t →
    (s.pc j).ticket = some t ∨ Yields i j k (s.pc j)

theorem bakeryInv_start : BakeryInv (start n) := by
  refine ⟨fun _ => rfl, ?_, ?_⟩
  · intro i j k _ hk
    cases hk
  · intro i j k t h
    cases h

theorem stores_move (hI : BakeryInv s) (hfit : TicketFits s me) (h : Move s me s' e) (i : Fin n) :
    Stores (s'.lockData i) (s'.pc i) := by
  by_cases hi : i = me
  · subst hi
    have hs := hI.stores i
    cases h with
    | start h => simp [State.store, makeBakeryData_choosing, Stores]
    | look h =>
      rw [h] at hs
      simpa [State.goto, Stores] using hs
    | @choose they m h hend =>
      have hlt : m + 1 < 2 ^ 15 := by
        unfold TicketFits at hfit
        rw [h] at hfit
        exact hfit hend
      simp only [State.store, Function.update_self, Stores]
      exact ⟨makeBakeryData_chosen hlt, by omega, hlt⟩
    | stay => exact hs
    | self h =>
      rw [h] at hs
      simpa [State.goto, Stores] using hs
    | wait h hne hchosen hprio =>
      rw [h] at hs
      simpa [State.goto, Stores] using hs
    | pass h hne hchosen hprio =>
      rw [h] at hs
      simpa [State.goto, Stores] using hs
    | woken h hne =>
      rw [h] at hs
      simpa [State.goto, Stores] using hs
    | enter h hend =>
      rw [h] at hs
      simpa [State.goto, Stores] using hs
    | release h => simp [State.store, Stores]
  · obtain ⟨hpc, hlock⟩ := h.other hi
    rw [hpc, hlock]
    exact hI.stores i

theorem yields_move (hI : BakeryInv s) (hk : (s.pc i).ticket = some k) (h : Move s me s' e)
    (hy : Yields i me k (s.pc me)) : Yields i me k (s'.pc me) := by
  cases h with
  | start h =>
    simp only [State.store, Function.update_self, Yields]
    omega
  | @look they m h =>
    rw [h] at hy
    simp only [State.goto, Function.update_self, Yields] at hy ⊢
    intro hlt
    by_cases hthey : they = i
    · rw [hthey, (hI.stores i).number hk]
      exact le_max_right _ _
    · have hne : they.val ≠ i.val := fun h => hthey (Fin.ext h)
      have hm := hy (by omega)
      exact hm.trans (le_max_left _ _)
  | choose h hend =>
    rw [h] at hy
    simp only [State.store, Function.update_self, Yields] at hy ⊢
    have hm := hy (by omega)
    exact .inl (by omega)
  | stay => exact hy
  | self h =>
    rw [h] at hy
    simpa [State.goto, Yields] using hy
  | wait h hne hchosen hprio =>
    rw [h] at hy
    simpa [State.goto, Yields] using hy
  | pass h hne hchosen hprio =>
    rw [h] at hy
    simpa [State.goto, Yields] using hy
  | woken h hne =>
    rw [h] at hy
    simpa [State.goto, Yields] using hy
  | enter h hend =>
    rw [h] at hy
    simpa [State.goto, Yields] using hy
  | release h => simp [State.store, Yields]

theorem yields_of_pass {they : Fin n} (hn : n ≤ 256) (hI : BakeryInv s) (hne : me ≠ they)
    (hchosen : bakeryIsChoosing (s.lockData they) = false)
    (hprio : bakeryTicketNumber (s.lockData they) ≠ 0 →
      bakeryGetPriority k me ≤ bakeryGetPriority (bakeryTicketNumber (s.lockData they)) they) :
    Yields me they k (s.pc they) := by
  rcases (hI.stores they).idle hchosen with hidle | ⟨k', hk'⟩
  · rw [hidle]
    trivial
  · rw [yields_ticket hk']
    have hpos := ((hI.stores they).of_ticket hk').2.1
    rw [(hI.stores they).number hk', bakeryGetPriority_eq (by omega),
      bakeryGetPriority_eq (by omega)] at hprio
    have hle := hprio (by omega)
    have hval : me.val ≠ they.val := fun h => hne (Fin.ext h)
    rw [Fin.lt_def]
    omega

theorem yields_of_woken {they : Fin n} {t : ℕ} (hI : BakeryInv s) (h : s.pc me = .waiting they k t)
    (hne : t ≠ bakeryTicketNumber (s.lockData they)) : Yields me they k (s.pc they) := by
  refine (hI.waits me they k t h).resolve_left ?_
  intro ht
  exact hne ((hI.stores they).number ht).symm

theorem ticket_move {t : ℕ} (h : Move s me s' e) (ht : (s.pc me).ticket = some t) :
    (s'.pc me).ticket = some t ∨ s'.pc me = .idle := by
  cases h with
  | start h =>
    rw [h] at ht
    cases ht
  | look h =>
    rw [h] at ht
    cases ht
  | choose h hend =>
    rw [h] at ht
    cases ht
  | stay => exact .inl ht
  | self h =>
    rw [h] at ht
    exact .inl (by simpa [State.goto, Pc.ticket] using ht)
  | wait h hne hchosen hprio =>
    rw [h] at ht
    exact .inl (by simpa [State.goto, Pc.ticket] using ht)
  | pass h hne hchosen hprio =>
    rw [h] at ht
    exact .inl (by simpa [State.goto, Pc.ticket] using ht)
  | woken h hne =>
    rw [h] at ht
    exact .inl (by simpa [State.goto, Pc.ticket] using ht)
  | enter h hend =>
    rw [h] at ht
    exact .inl (by simpa [State.goto, Pc.ticket] using ht)
  | release h => exact .inr (by simp [State.store])

theorem passed_own (hn : n ≤ 256) (hI : BakeryInv s) (h : Move s me s' e) (hj : me ≠ j)
    (hk : (s'.pc me).ticket = some k) (hp : (s'.pc me).passed j) : Yields me j k (s.pc j) := by
  have hval : me.val ≠ j.val := fun h => hj (Fin.ext h)
  -- The comparison with `they` is behind the CPU; the earlier ones were before the step.
  have next (they : Fin n) {pc : Pc} (hpc : s'.pc me = .scan (they + 1) k)
      (hold : s.pc me = pc) (hkt : pc.ticket = some k) (hps : ∀ x, x < they.val → pc.passed x)
      (hthey : j = they → Yields me j k (s.pc j)) : Yields me j k (s.pc j) := by
    rw [hpc] at hp
    have hlt : j.val < they.val + 1 := hp
    by_cases heq : j = they
    · exact hthey heq
    · have hne : j.val ≠ they.val := fun h => heq (Fin.ext h)
      exact hI.passed me j k hj (by rw [hold]; exact hkt) (by rw [hold]; exact hps _ (by omega))
  cases h with
  | start h => exact absurd hk (by simp [State.store, Pc.ticket])
  | look h => exact absurd hk (by simp [State.goto, Pc.ticket])
  | choose h hend => exact absurd hp (by simp [State.store, Pc.passed])
  | stay => exact hI.passed me j k hj hk hp
  | @self k' h =>
    obtain rfl : k' = k := by simpa [State.goto, Pc.ticket] using hk
    refine next me (by simp [State.goto]) h rfl (fun x hx => hx) ?_
    intro heq
    exact absurd heq.symm hj
  | @wait they k' h hne hchosen hprio =>
    obtain rfl : k' = k := by simpa [State.goto, Pc.ticket] using hk
    have hlt : j.val < they.val := by simpa [State.goto, Pc.passed] using hp
    exact hI.passed me j k' hj (by rw [h]; rfl) (by rw [h]; exact hlt)
  | @pass they k' h hne hchosen hprio =>
    obtain rfl : k' = k := by simpa [State.goto, Pc.ticket] using hk
    refine next they (by simp [State.goto]) h rfl (fun x hx => hx) ?_
    rintro rfl
    exact yields_of_pass hn hI hne hchosen hprio
  | @woken they k' t h hne =>
    obtain rfl : k' = k := by simpa [State.goto, Pc.ticket] using hk
    refine next they (by simp [State.goto]) h rfl (fun x hx => hx) ?_
    rintro rfl
    exact yields_of_woken hI h hne
  | @enter they k' h hend =>
    obtain rfl : k' = k := by simpa [State.goto, Pc.ticket] using hk
    have hlt : j.val < they := by omega
    exact hI.passed me j k' hj (by rw [h]; rfl) (by rw [h]; exact hlt)
  | release h => exact absurd hk (by simp [State.store, Pc.ticket])

theorem waits_own {t : ℕ} (hI : BakeryInv s) (h : Move s me s' e) (hpc : s'.pc me = .waiting j k t) :
    (s'.pc j).ticket = some t ∨ Yields me j k (s'.pc j) := by
  cases h with
  | stay => exact hI.waits me j k t hpc
  | @wait they k' h hne hchosen hprio =>
    simp only [State.goto, Function.update_self, Pc.waiting.injEq] at hpc
    obtain ⟨hthey, rfl, rfl⟩ := hpc
    obtain rfl : they = j := Fin.ext hthey
    have hother : (s.goto me (.waiting they k' (bakeryTicketNumber (s.lockData they)))).pc they =
        s.pc they := Function.update_of_ne (fun h => hne h.symm) _ _
    rw [hother]
    rcases (hI.stores they).idle hchosen with hidle | ⟨k'', hk''⟩
    · right
      rw [hidle]
      trivial
    · left
      rw [(hI.stores they).number hk'', hk'']
  | start h => exact absurd hpc (by simp [State.store])
  | look h => exact absurd hpc (by simp [State.goto])
  | choose h hend => exact absurd hpc (by simp [State.store])
  | self h => exact absurd hpc (by simp [State.goto])
  | pass h hne hchosen hprio => exact absurd hpc (by simp [State.goto])
  | woken h hne => exact absurd hpc (by simp [State.goto])
  | enter h hend => exact absurd hpc (by simp [State.goto])
  | release h => exact absurd hpc (by simp [State.store])

theorem BakeryInv.move (hn : n ≤ 256) (hI : BakeryInv s) (hfit : TicketFits s me)
    (h : Move s me s' e) : BakeryInv s' := by
  refine ⟨stores_move hI hfit h, ?_, ?_⟩
  · intro i j k hij hk hp
    by_cases hi : i = me
    · subst hi
      rw [(h.other (i := j) fun h => hij h.symm).1]
      exact passed_own hn hI h hij hk hp
    · rw [(h.other hi).1] at hk hp
      have hold := hI.passed i j k hij hk hp
      by_cases hj : j = me
      · subst hj
        exact yields_move hI hk h hold
      · rw [(h.other hj).1]
        exact hold
  · intro i j k t hpc
    by_cases hi : i = me
    · subst hi
      exact waits_own hI h hpc
    · rw [(h.other hi).1] at hpc
      by_cases hj : j = me
      · subst hj
        rcases hI.waits i j k t hpc with ht | hy
        · rcases ticket_move h ht with ht' | hidle
          · exact .inl ht'
          · right
            rw [hidle]
            trivial
        · exact .inr (yields_move hI (by rw [hpc]; rfl) h hy)
      · rw [(h.other hj).1]
        exact hI.waits i j k t hpc

theorem BakeryInv.exclusive (hI : BakeryInv s) {k' : ℕ} (hi : s.pc i = .critical k)
    (hj : s.pc j = .critical k') : i = j := by
  by_contra hij
  have h1 := hI.passed i j k hij (by rw [hi]; rfl) (by rw [hi]; trivial)
  have h2 := hI.passed j i k' (fun h => hij h.symm) (by rw [hj]; rfl) (by rw [hj]; trivial)
  rw [yields_ticket (l := k') (by rw [hj]; rfl)] at h1
  rw [yields_ticket (l := k) (by rw [hi]; rfl)] at h2
  rw [Fin.lt_def] at h1 h2
  omega

/-! ## The order of entry -/

def Pc.queued : Pc → Option ℕ
  | scan _ k | waiting _ k _ => some k
  | _ => none

/-- A CPU that started to choose when CPU `i` was queued with ticket `k`: it finds the ticket, takes
a later one, and does not get past the comparison with `i`. -/
def Behind (i : Fin n) (k : ℕ) : Pc → Prop
  | .choosing they m => i.val < they → k ≤ m
  | .scan they k' => k < k' ∧ they ≤ i.val
  | .waiting they k' t => k < k' ∧ they ≤ i.val ∧ (they = i.val → t = k)
  | _ => False

theorem Pc.queued_ticket (h : pc.queued = some k) : pc.ticket = some k := by
  cases pc with
  | scan they k' => exact h
  | waiting they k' t => exact h
  | idle => cases h
  | choosing they m => cases h
  | critical k' => cases h

theorem Move.enter_eq (h : Move s me s' e) (he : e = .enter i) :
    i = me ∧ ∃ k, s'.pc me = .critical k := by
  cases h with
  | @enter they k h hend => exact ⟨(Event.enter.inj he).symm, k, by simp [State.goto]⟩
  | _ => cases he

theorem queued_move (h : Move s me s' e) (hq : (s.pc i).queued = some k) (he : e ≠ .enter i) :
    (s'.pc i).queued = some k := by
  by_cases hi : i = me
  · subst hi
    cases h with
    | start h =>
      rw [h] at hq
      cases hq
    | look h =>
      rw [h] at hq
      cases hq
    | choose h hend =>
      rw [h] at hq
      cases hq
    | stay => exact hq
    | self h =>
      rw [h] at hq
      simpa [State.goto, Pc.queued] using hq
    | wait h hne hchosen hprio =>
      rw [h] at hq
      simpa [State.goto, Pc.queued] using hq
    | pass h hne hchosen hprio =>
      rw [h] at hq
      simpa [State.goto, Pc.queued] using hq
    | woken h hne =>
      rw [h] at hq
      simpa [State.goto, Pc.queued] using hq
    | enter h hend => exact absurd rfl he
    | release h =>
      rw [h] at hq
      cases hq
  · rw [(h.other hi).1]
    exact hq

theorem behind_move (hn : n ≤ 256) (hI : BakeryInv s) (hq : (s.pc i).queued = some k)
    (h : Move s me s' e) (hb : Behind i k (s.pc j)) : Behind i k (s'.pc j) := by
  by_cases hj : j = me
  · subst hj
    have hnum := (hI.stores i).number (Pc.queued_ticket hq)
    have hk := (hI.stores i).of_ticket (Pc.queued_ticket hq)
    cases h with
    | start h =>
      rw [h] at hb
      exact absurd hb id
    | @look they m h =>
      rw [h] at hb
      simp only [State.goto, Function.update_self, Behind] at hb ⊢
      intro hlt
      by_cases hthey : they = i
      · rw [hthey, hnum]
        exact le_max_right _ _
      · have hne : they.val ≠ i.val := fun h => hthey (Fin.ext h)
        exact (hb (by omega)).trans (le_max_left _ _)
    | choose h hend =>
      rw [h] at hb
      simp only [State.store, Function.update_self, Behind] at hb ⊢
      have hm := hb (by omega)
      omega
    | stay => exact hb
    | @self k' h =>
      rw [h] at hb
      simp only [State.goto, Function.update_self, Behind] at hb ⊢
      -- The CPU is not `i` itself, whose ticket is `k`.
      have hne : j.val ≠ i.val := by
        intro heq
        obtain rfl : j = i := Fin.ext heq
        rw [h] at hq
        have : k' = k := by simpa [Pc.queued] using hq
        omega
      omega
    | @wait they k' h hne hchosen hprio =>
      rw [h] at hb
      simp only [State.goto, Function.update_self, Behind] at hb ⊢
      refine ⟨hb.1, hb.2, ?_⟩
      intro heq
      obtain rfl : they = i := Fin.ext heq
      exact hnum
    | @pass they k' h hne hchosen hprio =>
      rw [h] at hb
      simp only [State.goto, Function.update_self, Behind] at hb ⊢
      have hthey : they.val ≠ i.val := by
        intro heq
        obtain rfl : they = i := Fin.ext heq
        rw [hnum, bakeryGetPriority_eq (by omega), bakeryGetPriority_eq (by omega)] at hprio
        have hle := hprio (by omega)
        omega
      omega
    | @woken they k' t h hne =>
      rw [h] at hb
      simp only [State.goto, Function.update_self, Behind] at hb ⊢
      have hthey : they.val ≠ i.val := by
        intro heq
        have ht := hb.2.2 heq
        obtain rfl : they = i := Fin.ext heq
        exact hne (by rw [ht, hnum])
      omega
    | enter h hend =>
      rw [h] at hb
      have hle : _ ∧ _ := hb
      omega
    | release h =>
      rw [h] at hb
      exact absurd hb id
  · rw [(h.other hj).1]
    exact hb

theorem snoc_split {α : Type} {l x z : List α} {e y : α} (h : l ++ [e] = x ++ y :: z) :
    (z = [] ∧ y = e ∧ l = x) ∨ ∃ z', z = z' ++ [e] ∧ l = x ++ y :: z' := by
  rcases List.eq_nil_or_concat z with rfl | ⟨z', e', rfl⟩
  · obtain ⟨hl, he⟩ := List.append_inj' h rfl
    exact .inl ⟨rfl, (List.singleton_inj.mp he).symm, hl⟩
  · right
    rw [List.concat_eq_append] at h ⊢
    have h' : l ++ [e] = (x ++ y :: z') ++ [e'] := by
      rw [h]
      simp
    obtain ⟨hl, he⟩ := List.append_inj' h' rfl
    rw [List.singleton_inj.mp he]
    exact ⟨z', rfl, hl⟩

/-- The events of a run and where the CPUs are. -/
structure OrderInv (es : List (Event n)) (s : State n) : Prop where
  queued : ∀ i a b, es = a ++ .chose i :: b → .enter i ∉ b → ∃ k, (s.pc i).queued = some k
  behind : ∀ i j a b c, es = a ++ .chose i :: b ++ .start j :: c → .enter i ∉ b ++ c →
    ∃ k, (s.pc i).queued = some k ∧ Behind i k (s.pc j)
  order : ∀ i j a b c d, es = a ++ .chose i :: b ++ .start j :: c ++ .enter j :: d →
    .enter i ∈ b ++ c

theorem orderInv_start : OrderInv [] (start n) := by
  refine ⟨?_, ?_, ?_⟩
  · intro i a b h
    exact absurd h (by simp)
  · intro i j a b c h
    exact absurd h (by simp)
  · intro i j a b c d h
    exact absurd h (by simp)

theorem OrderInv.move {es : List (Event n)} (hn : n ≤ 256) (hI : BakeryInv s) (hO : OrderInv es s)
    (h : Move s me s' e) : OrderInv (es ++ [e]) s' := by
  refine ⟨?_, ?_, ?_⟩
  · intro i a b hes hno
    rcases snoc_split hes with ⟨rfl, he, -⟩ | ⟨b', rfl, hes'⟩
    · subst he
      cases h with
      | @choose they m h hend => exact ⟨m + 1, by simp [State.store, Pc.queued]⟩
    · rw [List.mem_append, not_or] at hno
      obtain ⟨k, hk⟩ := hO.queued i a b' hes' hno.1
      exact ⟨k, queued_move h hk fun he => hno.2 (by rw [he]; exact List.mem_singleton.mpr rfl)⟩
  · intro i j a b c hes hno
    rw [List.mem_append, not_or] at hno
    rcases snoc_split hes with ⟨rfl, he, hes'⟩ | ⟨c', rfl, hes'⟩
    · subst he
      obtain ⟨k, hk⟩ := hO.queued i a b hes' hno.1
      refine ⟨k, queued_move h hk (by simp), ?_⟩
      cases h with
      | start h =>
        simp only [State.store, Function.update_self, Behind]
        omega
    · rw [List.mem_append, not_or] at hno
      obtain ⟨k, hk, hb⟩ := hO.behind i j a b c' hes' (by
        rw [List.mem_append, not_or]
        exact ⟨hno.1, hno.2.1⟩)
      exact ⟨k, queued_move h hk fun he => hno.2.2 (by rw [he]; exact List.mem_singleton.mpr rfl),
        behind_move hn hI hk h hb⟩
  · intro i j a b c d hes
    rcases snoc_split hes with ⟨rfl, he, hes'⟩ | ⟨d', rfl, hes'⟩
    · by_contra hno
      obtain ⟨k, hk, hb⟩ := hO.behind i j a b c hes' hno
      obtain ⟨rfl, k', hcrit⟩ := h.enter_eq he.symm
      have hb' := behind_move hn hI hk h hb
      rw [hcrit] at hb'
      exact hb'
    · exact hO.order i j a b c d' hes'

/-! ## Runs -/

/-- **The bakery lock.** With at most 256 CPUs, in every interleaving in which the tickets fit into
their field, at most one CPU is in the critical section; and a CPU that finished choosing before
another one started to choose enters before it. -/
theorem bakery_lock_exclusive (n : ℕ) (hn : n ≤ 256) (t : List (Fin n × Event n)) (s : State n)
    (hrun : Traced (Performs step TicketFits) (start n) t s) :
    (∀ i j k k', s.pc i = .critical k → s.pc j = .critical k' → i = j) ∧
    ∀ i j a b c d, t.map Prod.snd = a ++ .chose i :: b ++ .start j :: c ++ .enter j :: d →
      .enter i ∈ b ++ c := by
  have hI : BakeryInv s ∧ OrderInv (t.map Prod.snd) s := by
    refine hrun.invariant (I := fun t s => BakeryInv s ∧ OrderInv (t.map Prod.snd) s)
      ⟨bakeryInv_start, orderInv_start⟩ ?_
    rintro t u ⟨me, e⟩ v ⟨hI, hO⟩ ⟨hfit, hstep⟩
    have hmove := step_move hstep
    refine ⟨hI.move hn hfit hmove, ?_⟩
    rw [List.map_append]
    exact hO.move hn hI hmove
  exact ⟨fun i j k k' => hI.1.exclusive, hI.2.order⟩

theorem bakery_lock_exclusive_two :
    ∃ t s, Traced (Performs step TicketFits) (start 2) t s ∧ s.pc 0 = .critical 1 ∧
      s.pc 1 = .waiting 0 2 1 ∧ ∀ i k, s.pc i = .critical k → i = 0 := by
  obtain ⟨t, s, hrun, hq⟩ := @execute_traced _ _ _ (step (n := 2)) TicketFits _
    (fun _ s => decide (s.pc 0 = .critical 1 ∧ s.pc 1 = .waiting 0 2 1)) (start 2)
    [0, 0, 0, 0, 0, 0, 0, 1, 1, 1, 1, 1] (by decide +kernel)
  obtain ⟨h0, h1⟩ := of_decide_eq_true hq
  exact ⟨t, s, hrun, h0, h1, fun i k hi =>
    (bakery_lock_exclusive 2 (by decide) t s hrun).1 i 0 k 1 hi h0⟩

/-- The first and the last of 257 CPUs choose at the same time: with equal tickets they have the same
priority, and both enter. -/
def tie : List (Fin 257) :=
  [0, 256] ++ List.replicate 257 0 ++ List.replicate 257 256 ++ [0, 256] ++
    List.replicate 258 0 ++ List.replicate 258 256

theorem position_overflow :
    ∃ t s, Traced (Performs step TicketFits) (start 257) t s ∧ s.pc 0 = .critical 1 ∧
      s.pc 256 = .critical 1 := by
  obtain ⟨t, s, hrun, hq⟩ := @execute_traced _ _ _ (step (n := 257)) TicketFits _
    (fun _ s => decide (s.pc 0 = .critical 1 ∧ s.pc 256 = .critical 1)) (start 257) tie
    (by decide +kernel)
  exact ⟨t, s, hrun, of_decide_eq_true hq⟩

end TrustedFirmware.Bakery
