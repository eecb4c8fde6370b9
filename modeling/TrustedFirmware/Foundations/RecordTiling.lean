import TrustedFirmware.Foundations.ByteMemory

/-! Records laid end to end in a byte memory, each of a size that its own bytes
give. `Tiles` says that a list of records fills the memory from one offset to
another without a gap. The rules below say what keeps a memory tiled: writing
outside, rewriting one record in place, adding one at the end, and closing the
gap of one that is taken out. -/
namespace TrustedFirmware.RecordTiling
open ByteMemory
set_option autoImplicit false

/-- How a record is read from the bytes at its start. -/
structure Format (ρ : Type) where
  view : Bytes → ρ
  size : ρ → ℕ
  size_pos : ∀ r, 0 < size r
  /-- A record is read from its own bytes. -/
  own : ∀ m m', (∀ i < size (view m), m i = m' i) → view m' = view m

variable {ρ : Type} (F : Format ρ)

def extent (rs : List ρ) : ℕ := (rs.map F.size).sum

/-- The records fill the memory from `p` to `e`. -/
def Tiles (m : Bytes) : ℕ → ℕ → List ρ → Prop
  | p, e, [] => p = e
  | p, e, r :: rs => F.view (shift m p) = r ∧ Tiles m (p + F.size r) e rs

def withOffsets : ℕ → List ρ → List (ℕ × ρ)
  | _, [] => []
  | p, r :: rs => (p, r) :: withOffsets (p + F.size r) rs

/-- Step from record to record below `e`. The fuel bounds the number of steps. -/
def walk (m : Bytes) (e : ℕ) : ℕ → ℕ → List (ℕ × ρ)
  | 0, _ => []
  | n + 1, p =>
    if p < e then (p, F.view (shift m p)) :: walk m e n (p + F.size (F.view (shift m p))) else []

/-! ## Extents -/

@[simp] theorem extent_nil : extent F [] = 0 := rfl

@[simp] theorem extent_cons (r : ρ) (rs : List ρ) : extent F (r :: rs) = F.size r + extent F rs := by
  simp [extent]

@[simp] theorem extent_append (xs ys : List ρ) : extent F (xs ++ ys) = extent F xs + extent F ys := by
  simp [extent]

variable {F}

variable {m m' : Bytes} {p e : ℕ} {rs pre post : List ρ} {r : ρ}

theorem Tiles.extent (h : Tiles F m p e rs) : e = p + extent F rs := by
  induction rs generalizing p with
  | nil => exact h.symm
  | cons r rs ih =>
    rw [ih h.2, extent_cons, Nat.add_assoc]

theorem Tiles.le (h : Tiles F m p e rs) : p ≤ e := by
  rw [h.extent]
  exact Nat.le_add_right _ _

theorem tiles_append {xs ys : List ρ} :
    Tiles F m p e (xs ++ ys) ↔
      Tiles F m p (p + extent F xs) xs ∧ Tiles F m (p + extent F xs) e ys := by
  induction xs generalizing p with
  | nil => simp [Tiles]
  | cons x xs ih =>
    rw [List.cons_append, Tiles, ih, Tiles, extent_cons, ← Nat.add_assoc, and_assoc]

theorem Tiles.view_at (h : Tiles F m 0 e (pre ++ r :: post)) :
    F.view (shift m (RecordTiling.extent F pre)) = r := by
  have h2 := (tiles_append.mp h).2.1
  rw [Nat.zero_add] at h2
  exact h2

theorem Tiles.end_le (h : Tiles F m 0 e (pre ++ r :: post)) :
    RecordTiling.extent F pre + F.size r ≤ e := by
  have he := h.extent
  rw [extent_append, extent_cons] at he
  omega

/-! ## Keeping a memory tiled -/

theorem Tiles.moved {m m' : Bytes} {p e p' : ℕ} {rs : List ρ} (h : Tiles F m p e rs)
    (hm : ∀ i, p + i < e → m (p + i) = m' (p' + i)) : Tiles F m' p' (p' + (e - p)) rs := by
  induction rs generalizing p p' with
  | nil =>
    have hp : p = e := h
    rw [hp, Nat.sub_self]
    rfl
  | cons r rs ih =>
    obtain ⟨h1, h2⟩ := h
    have hle := h2.le
    have hv : F.view (shift m' p') = r := by
      rw [← h1]
      apply F.own
      intro i hi
      rw [h1] at hi
      exact hm i (by omega)
    refine ⟨hv, ?_⟩
    have hrest := @ih (p + F.size r) (p' + F.size r) h2 fun i hi => by
      have hi' := hm (F.size r + i) (by omega)
      rw [Nat.add_assoc, Nat.add_assoc]
      exact hi'
    have he : p' + F.size r + (e - (p + F.size r)) = p' + (e - p) := by omega
    rw [he] at hrest
    exact hrest

theorem Tiles.congr (h : Tiles F m p e rs) (hm : ∀ i, p ≤ i → i < e → m i = m' i) :
    Tiles F m' p e rs := by
  have hmoved := @Tiles.moved ρ F m m' p e p rs h fun i hi => hm (p + i) (by omega) hi
  rw [Nat.add_sub_cancel' h.le] at hmoved
  exact hmoved

theorem Tiles.snoc {m m' : Bytes} {e : ℕ} {rs : List ρ} {r : ρ} (h : Tiles F m 0 e rs)
    (hm : ∀ i < e, m i = m' i) (hr : F.view (shift m' e) = r) :
    Tiles F m' 0 (e + F.size r) (rs ++ [r]) := by
  have he : 0 + RecordTiling.extent F rs = e := h.extent.symm
  rw [tiles_append, he]
  exact ⟨h.congr fun i _ hi => hm i hi, hr, rfl⟩

theorem Tiles.update {r' : ρ} (h : Tiles F m 0 e (pre ++ r :: post)) (hs : F.size r' = F.size r)
    (hm : ∀ i, i < RecordTiling.extent F pre ∨ RecordTiling.extent F pre + F.size r ≤ i → m i = m' i)
    (hr : F.view (shift m' (RecordTiling.extent F pre)) = r') :
    Tiles F m' 0 e (pre ++ r' :: post) := by
  obtain ⟨h1, _, h3⟩ := tiles_append.mp h
  rw [Nat.zero_add] at h1 h3
  rw [tiles_append, Nat.zero_add]
  refine ⟨h1.congr fun i _ hi => hm i (Or.inl hi), hr, ?_⟩
  rw [hs]
  exact h3.congr fun i hi _ => hm i (Or.inr hi)

theorem Tiles.remove (h : Tiles F m 0 e (pre ++ r :: post))
    (hlow : ∀ i < RecordTiling.extent F pre, m i = m' i)
    (hmove : ∀ i, RecordTiling.extent F pre + F.size r + i < e →
      m (RecordTiling.extent F pre + F.size r + i) = m' (RecordTiling.extent F pre + i)) :
    Tiles F m' 0 (e - F.size r) (pre ++ post) := by
  have hend := h.end_le
  obtain ⟨h1, _, h3⟩ := tiles_append.mp h
  rw [Nat.zero_add] at h1 h3
  rw [tiles_append, Nat.zero_add]
  refine ⟨h1.congr fun i _ hi => hlow i hi, ?_⟩
  have hmoved := @Tiles.moved ρ F m m' _ e (RecordTiling.extent F pre) post h3 hmove
  have he : RecordTiling.extent F pre + (e - (RecordTiling.extent F pre + F.size r)) =
      e - F.size r := by omega
  rw [he] at hmoved
  exact hmoved

/-! ## Walking -/

theorem walk_eq {n : ℕ} (h : Tiles F m p e rs) (hn : e < p + n) :
    walk F m e n p = withOffsets F p rs := by
  induction n generalizing p rs with
  | zero =>
    have hle := h.le
    omega
  | succ n ih =>
    cases rs with
    | nil =>
      have hp : p = e := h
      exact if_neg (by omega)
    | cons r rs =>
      obtain ⟨h1, h2⟩ := h
      have hpos := F.size_pos r
      have hle := h2.le
      rw [walk, if_pos (by omega), h1, ih h2 (by omega)]
      rfl

theorem withOffsets_snd (p : ℕ) (rs : List ρ) : (withOffsets F p rs).map Prod.snd = rs := by
  induction rs generalizing p with
  | nil => rfl
  | cons r rs ih => rw [withOffsets, List.map_cons, ih]

theorem mem_withOffsets {q : ℕ} :
    (q, r) ∈ withOffsets F p rs ↔
      ∃ pre post, rs = pre ++ r :: post ∧ q = p + RecordTiling.extent F pre := by
  induction rs generalizing p with
  | nil => simp [withOffsets]
  | cons x xs ih =>
    rw [withOffsets, List.mem_cons, ih]
    constructor
    · rintro (hq | ⟨pre, post, rfl, rfl⟩)
      · cases hq
        exact ⟨[], xs, rfl, rfl⟩
      · refine ⟨x :: pre, post, rfl, ?_⟩
        rw [extent_cons, Nat.add_assoc]
    · rintro ⟨pre, post, hrs, rfl⟩
      cases pre with
      | nil =>
        cases hrs
        exact Or.inl rfl
      | cons y pre =>
        cases hrs
        refine Or.inr ⟨pre, post, rfl, ?_⟩
        rw [extent_cons, Nat.add_assoc]

theorem find_withOffsets (t : ρ → Bool) (p : ℕ) (rs : List ρ) :
    ((withOffsets F p rs).find? (fun x => t x.2) = none ∧ ∀ r ∈ rs, t r = false) ∨
      ∃ pre r post, rs = pre ++ r :: post ∧ t r = true ∧ (∀ x ∈ pre, t x = false) ∧
        (withOffsets F p rs).find? (fun x => t x.2) = some (p + RecordTiling.extent F pre, r) := by
  induction rs generalizing p with
  | nil => exact Or.inl ⟨rfl, fun _ h => absurd h List.not_mem_nil⟩
  | cons x xs ih =>
    cases hx : t x with
    | true =>
      refine Or.inr ⟨[], x, xs, rfl, hx, fun _ h => absurd h List.not_mem_nil, ?_⟩
      rw [withOffsets, @List.find?_cons_of_pos _ (fun x : ℕ × ρ => t x.2) (p, x) _ hx]
      rfl
    | false =>
      have hstep : (withOffsets F p (x :: xs)).find? (fun x => t x.2) =
          (withOffsets F (p + F.size x) xs).find? (fun x => t x.2) := by
        rw [withOffsets, List.find?_cons_of_neg (by simp [hx])]
      rw [hstep]
      rcases ih (p + F.size x) with ⟨hn, hall⟩ | ⟨pre, r, post, rfl, hr, hpre, hf⟩
      · exact Or.inl ⟨hn, List.forall_mem_cons.mpr ⟨hx, hall⟩⟩
      · refine Or.inr ⟨x :: pre, r, post, rfl, hr, List.forall_mem_cons.mpr ⟨hx, hpre⟩, ?_⟩
        rw [hf, extent_cons, Nat.add_assoc]

end TrustedFirmware.RecordTiling
