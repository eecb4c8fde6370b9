import Mathlib.Data.Fintype.Card
import Mathlib.Data.Multiset.Filter

/-! A table of slots that is searched for a slot with a wanted key, the first free slot standing in
when no slot has it. The search, what it can find, and what a write of the slot it found does to the
keys that the table holds. -/
namespace TrustedFirmware.SlotTable
set_option autoImplicit false

variable {α κ : Type}

/-- The index of the first hit, with `true`, or else of the first free slot, with `false`. `idx` is the
index of the list's first slot and `found` the free slot kept so far. -/
def search (hit free : α → Bool) : List α → ℕ → Option ℕ → Option (ℕ × Bool)
  | [], _, found => found.map fun i => (i, false)
  | a :: l, idx, found =>
    if hit a then some (idx, true)
    else if free a && found.isNone then search hit free l (idx + 1) (some idx)
    else search hit free l (idx + 1) found

/-- What a search from index `idx` with nothing kept can answer. -/
inductive Found (hit free : α → Bool) (l : List α) (idx : ℕ) : Option (ℕ × Bool) → Prop
  | hit {pre post : List α} {a : α} (split : l = pre ++ a :: post) (is : hit a = true) :
      Found hit free l idx (some (idx + pre.length, true))
  | free {pre post : List α} {a : α} (split : l = pre ++ a :: post) (is : free a = true)
      (miss : ∀ x ∈ l, hit x = false) : Found hit free l idx (some (idx + pre.length, false))
  | none (miss : ∀ x ∈ l, hit x = false) (full : ∀ x ∈ l, free x = false) : Found hit free l idx none

theorem search_kept (hit free : α → Bool) (l : List α) (idx i : ℕ) :
    (∃ pre a post, l = pre ++ a :: post ∧ hit a = true ∧
        search hit free l idx (some i) = some (idx + pre.length, true)) ∨
      ((∀ x ∈ l, hit x = false) ∧ search hit free l idx (some i) = some (i, false)) := by
  induction l generalizing idx with
  | nil => exact .inr ⟨by simp, rfl⟩
  | cons a l ih =>
    cases ha : hit a with
    | true => exact .inl ⟨[], a, l, rfl, ha, by simp [search, ha]⟩
    | false =>
      have hstep : search hit free (a :: l) idx (some i) = search hit free l (idx + 1) (some i) := by
        simp [search, ha]
      rw [hstep]
      obtain ⟨pre, b, post, rfl, hb, heq⟩ | ⟨hmiss, heq⟩ := ih (idx + 1)
      · refine .inl ⟨a :: pre, b, post, rfl, hb, heq.trans ?_⟩
        rw [List.length_cons, Nat.add_assoc, Nat.add_comm 1]
      · refine .inr ⟨?_, heq⟩
        exact List.forall_mem_cons.mpr ⟨ha, hmiss⟩

theorem search_found (hit free : α → Bool) (l : List α) (idx : ℕ) :
    Found hit free l idx (search hit free l idx none) := by
  induction l generalizing idx with
  | nil => exact .none (by simp) (by simp)
  | cons a l ih =>
    cases ha : hit a with
    | true =>
      have heq : search hit free (a :: l) idx none = some (idx + ([] : List α).length, true) := by
        simp [search, ha]
      rw [heq]
      exact .hit rfl ha
    | false =>
      cases hf : free a with
      | true =>
        have hstep : search hit free (a :: l) idx none = search hit free l (idx + 1) (some idx) := by
          simp [search, ha, hf]
        rw [hstep]
        obtain ⟨pre, b, post, rfl, hb, heq⟩ | ⟨hmiss, heq⟩ := search_kept hit free l (idx + 1) idx
        · rw [heq, show idx + 1 + pre.length = idx + (a :: pre).length by
            rw [List.length_cons]; omega]
          exact .hit rfl hb
        · rw [heq, show idx = idx + ([] : List α).length from rfl]
          exact .free rfl hf (List.forall_mem_cons.mpr ⟨ha, hmiss⟩)
      | false =>
        have hstep : search hit free (a :: l) idx none = search hit free l (idx + 1) none := by
          simp [search, ha, hf]
        rw [hstep]
        have hnext := ih (idx + 1)
        generalize search hit free l (idx + 1) none = r at hnext
        cases hnext with
        | @hit pre post b hl hb =>
          subst hl
          rw [show idx + 1 + pre.length = idx + (a :: pre).length by rw [List.length_cons]; omega]
          exact .hit rfl hb
        | @free pre post b hl hb hmiss =>
          subst hl
          rw [show idx + 1 + pre.length = idx + (a :: pre).length by rw [List.length_cons]; omega]
          exact .free rfl hb (List.forall_mem_cons.mpr ⟨ha, hmiss⟩)
        | none hmiss hfull =>
          exact .none (List.forall_mem_cons.mpr ⟨ha, hmiss⟩) (List.forall_mem_cons.mpr ⟨hf, hfull⟩)

theorem findIdx?_split {hit : α → Bool} {l : List α} {i : ℕ} (h : l.findIdx? hit = some i) :
    ∃ pre a post, l = pre ++ a :: post ∧ pre.length = i ∧ hit a = true := by
  induction l generalizing i with
  | nil => cases h
  | cons a l ih =>
    rw [List.findIdx?_cons] at h
    split at h
    · next ha =>
      cases h
      exact ⟨[], a, l, rfl, rfl, ha⟩
    · obtain ⟨j, hj, rfl⟩ := Option.map_eq_some_iff.mp h
      obtain ⟨pre, b, post, rfl, rfl, hb⟩ := ih hj
      exact ⟨a :: pre, b, post, rfl, rfl, hb⟩

theorem mem_of_split {l pre post : List α} {a : α} (h : l = pre ++ a :: post) : a ∈ l := by
  rw [h]
  exact List.mem_append_right _ (List.mem_cons_self ..)

theorem set_split (pre post : List α) (a b : α) :
    (pre ++ a :: post).set (0 + pre.length) b = pre ++ b :: post := by
  rw [Nat.zero_add, List.set_append_right _ _ (Nat.le_refl _), Nat.sub_self, List.set_cons_zero]

/-! ## The keys of the slots that are in use -/

variable (free : α → Bool) (key : α → κ)

def held (l : List α) : Multiset κ := ((l.filter fun a => !free a).map key : List κ)

variable {free key}

theorem mem_held {l : List α} {k : κ} :
    k ∈ held free key l ↔ ∃ a ∈ l, free a = false ∧ key a = k := by
  simp [held, and_assoc]

theorem held_split (pre post : List α) (a : α) :
    held free key (pre ++ a :: post) =
      (if free a then 0 else {key a}) + held free key (pre ++ post) := by
  rw [held, held, List.filter_append, List.filter_append, List.filter_cons]
  cases free a with
  | true => simp
  | false =>
    simp only [Bool.not_false, if_true, Bool.false_eq_true, if_false, List.map_append, List.map_cons,
      ← Multiset.coe_add, ← Multiset.cons_coe, Multiset.singleton_add]
    rw [Multiset.add_cons]

theorem card_held (l : List α) : (held free key l).card = l.countP fun a => !free a := by
  rw [held, Multiset.coe_card, List.length_map, List.countP_eq_length_filter]

end TrustedFirmware.SlotTable

/-! Counting the members of a finite type with a property. A step that changes one member
changes the count by at most one. -/
namespace TrustedFirmware.Counting
set_option autoImplicit false

variable {ι : Type} [Fintype ι]

def tally (marked : ι → Bool) : ℕ := (Finset.univ.filter fun i => marked i = true).card

theorem tally_congr {p q : ι → Bool} (h : ∀ i, p i = q i) : tally p = tally q := by
  rw [funext h]

theorem tally_eq_zero {p : ι → Bool} : tally p = 0 ↔ ∀ i, p i = false := by
  simp [tally, Finset.filter_eq_empty_iff]

theorem tally_le (p : ι → Bool) : tally p ≤ Fintype.card ι := Finset.card_filter_le _ _

theorem tally_pos {p : ι → Bool} {i : ι} (h : p i = true) : 0 < tally p := by
  rw [Nat.pos_iff_ne_zero]
  intro h0
  exact absurd ((tally_eq_zero.mp h0) i) (by simp [h])

variable [DecidableEq ι]

theorem tally_gain {p q : ι → Bool} {i : ι} (hoff : ∀ j, j ≠ i → q j = p j) (hp : p i = false)
    (hq : q i = true) : tally q = tally p + 1 := by
  have hset : (Finset.univ.filter fun j => q j = true) =
      insert i (Finset.univ.filter fun j => p j = true) := by
    ext j
    by_cases hj : j = i
    · subst hj
      simp [hq]
    · simp [hj, hoff j hj]
  rw [tally, hset, Finset.card_insert_of_notMem (by simp [hp]), tally]

theorem tally_lt {p : ι → Bool} {i : ι} (h : p i = false) : tally p < Fintype.card ι := by
  have hgain : tally (fun j => if j = i then true else p j) = tally p + 1 :=
    tally_gain (fun j hj => if_neg hj) h (if_pos rfl)
  have hle := tally_le fun j => if j = i then true else p j
  omega

end TrustedFirmware.Counting
