import Mathlib.Data.Nat.Basic
import Mathlib.Tactic.Ring

/-! A memory of bytes, little-endian numbers in it, and block copies. A pointer
is an offset, and what a pointer sees is the memory shifted to it. Two facts are
used throughout: a number read depends on its own bytes (`load_congr`), and a copy
changes the bytes it covers (`blit_inside`, `blit_outside`). -/
namespace TrustedFirmware.ByteMemory
set_option autoImplicit false

abbrev Bytes := ℕ → UInt8

/-- The memory as a pointer to `p` sees it. -/
def shift (m : Bytes) (p : ℕ) : Bytes := fun i => m (p + i)

/-- The little-endian number in `n` bytes at `a`. -/
def load (m : Bytes) (a : ℕ) : ℕ → ℕ
  | 0 => 0
  | n + 1 => (m a).toNat + 256 * load m (a + 1) n

def leBytes (v : ℕ) : Bytes := fun i => UInt8.ofNat (v / 256 ^ i)

/-- Copy `n` bytes to `a`. The source is read before anything is written, as by `memmove`. -/
def blit (m : Bytes) (a : ℕ) (src : Bytes) (n : ℕ) : Bytes :=
  fun i => if a ≤ i ∧ i < a + n then src (i - a) else m i

def store (m : Bytes) (a n v : ℕ) : Bytes := blit m a (leBytes v) n

/-- The first `n` bytes, and zeros behind them. -/
def clip (m : Bytes) (n : ℕ) : Bytes := fun i => if i < n then m i else 0

variable {m m' src : Bytes} {a b i k n : ℕ}

/-! ## Single bytes -/

theorem shift_apply (m : Bytes) (p i : ℕ) : shift m p i = m (p + i) := rfl

@[simp] theorem shift_zero (m : Bytes) : shift m 0 = m := by
  funext i
  rw [shift_apply, Nat.zero_add]

theorem shift_shift (m : Bytes) (p q : ℕ) : shift (shift m p) q = shift m (p + q) := by
  funext i
  rw [shift_apply, shift_apply, shift_apply, Nat.add_assoc]

theorem blit_inside (h1 : a ≤ i) (h2 : i < a + n) : blit m a src n i = src (i - a) := if_pos ⟨h1, h2⟩

theorem blit_outside (h : i < a ∨ a + n ≤ i) : blit m a src n i = m i := by
  apply if_neg
  omega

@[simp] theorem blit_zero (m src : Bytes) (a : ℕ) : blit m a src 0 = m := by
  funext i
  apply blit_outside
  omega

theorem clip_inside (h : i < n) : clip m n i = m i := if_pos h

theorem clip_outside (h : n ≤ i) : clip m n i = 0 := if_neg (Nat.not_lt.mpr h)

theorem clip_congr (h : ∀ i < n, m i = m' i) : clip m n = clip m' n := by
  funext i
  by_cases hi : i < n
  · rw [clip_inside hi, clip_inside hi, h i hi]
  · rw [clip_outside (Nat.le_of_not_lt hi), clip_outside (Nat.le_of_not_lt hi)]

theorem clip_blit (h : a + k ≤ n) : clip (blit m a src k) n = blit (clip m n) a src k := by
  funext i
  by_cases hi : i < n
  · rw [clip_inside hi]
    by_cases hc : a ≤ i ∧ i < a + k
    · rw [blit_inside hc.1 hc.2, blit_inside hc.1 hc.2]
    · rw [blit_outside (by omega), blit_outside (by omega), clip_inside hi]
  · have hn : n ≤ i := Nat.le_of_not_lt hi
    rw [clip_outside hn, blit_outside (by omega), clip_outside hn]

theorem shift_blit {p : ℕ} (h : p ≤ a) :
    shift (blit m a src n) p = blit (shift m p) (a - p) src n := by
  funext i
  rw [shift_apply]
  by_cases hi : a ≤ p + i ∧ p + i < a + n
  · rw [blit_inside hi.1 hi.2, blit_inside (by omega) (by omega)]
    congr 1
    omega
  · rw [blit_outside (by omega), blit_outside (by omega), shift_apply]

theorem shift_blit_below {p : ℕ} (h : a + n ≤ p) : shift (blit m a src n) p = shift m p := by
  funext i
  exact blit_outside (by omega)

/-! ## Numbers -/

theorem load_succ (m : Bytes) (a n : ℕ) :
    load m a (n + 1) = (m a).toNat + 256 * load m (a + 1) n := rfl

theorem load_lt (m : Bytes) (a n : ℕ) : load m a n < 256 ^ n := by
  induction n generalizing a with
  | zero => exact Nat.one_pos
  | succ n ih =>
    have hb : (m a).toNat < 256 := (m a).toNat_lt
    have hr := ih (a + 1)
    rw [load_succ, pow_succ]
    omega

theorem load_congr (h : ∀ i, a ≤ i → i < a + n → m i = m' i) : load m a n = load m' a n := by
  induction n generalizing a with
  | zero => rfl
  | succ n ih =>
    rw [load_succ, load_succ, h a (Nat.le_refl a) (by omega),
      ih fun i h1 h2 => h i (by omega) (by omega)]

theorem load_shift (m : Bytes) (p a n : ℕ) : load (shift m p) a n = load m (p + a) n := by
  induction n generalizing a with
  | zero => rfl
  | succ n ih => rw [load_succ, load_succ, shift_apply, ih, Nat.add_assoc]

theorem load_moved (h : ∀ j < n, m (a + j) = m' (b + j)) : load m a n = load m' b n := by
  have hs : load (shift m a) 0 n = load (shift m' b) 0 n :=
    load_congr fun i _ hi => h i (by omega)
  rw [load_shift, load_shift] at hs
  exact hs

theorem load_clip (h : a + k ≤ n) : load (clip m n) a k = load m a k :=
  load_congr fun i _ hi => clip_inside (by omega)

theorem load_blit_outside (h : b + k ≤ a ∨ a + n ≤ b) : load (blit m a src n) b k = load m b k :=
  load_congr fun i h1 h2 => blit_outside (by omega)

theorem load_blit_inside (h1 : a ≤ b) (h2 : b + k ≤ a + n) :
    load (blit m a src n) b k = load src (b - a) k := by
  have hs : load (shift src 0) (b - a) k = load (shift (blit m a src n) a) (b - a) k := by
    apply load_congr
    intro i hi1 hi2
    rw [shift_apply, shift_apply, blit_inside (by omega) (by omega)]
    congr 1
    omega
  rw [shift_zero, load_shift, Nat.add_sub_cancel' h1] at hs
  exact hs.symm

theorem load_leBytes_from (v a n : ℕ) : load (leBytes v) a n = v / 256 ^ a % 256 ^ n := by
  induction n generalizing a with
  | zero => rw [pow_zero, Nat.mod_one]; rfl
  | succ n ih =>
    have hb : (leBytes v a).toNat = v / 256 ^ a % 256 := by
      change (UInt8.ofNat _).toNat = _
      rw [UInt8.toNat_ofNat']
    have hd : v / 256 ^ (a + 1) = v / 256 ^ a / 256 := by
      rw [pow_succ, Nat.div_div_eq_div_mul]
    rw [load_succ, hb, ih, hd, pow_succ', Nat.mod_mul]

theorem load_leBytes (v n : ℕ) : load (leBytes v) 0 n = v % 256 ^ n := by
  rw [load_leBytes_from, pow_zero, Nat.div_one]

theorem load_store_self (m : Bytes) (a n v : ℕ) : load (store m a n v) a n = v % 256 ^ n := by
  rw [store, load_blit_inside (Nat.le_refl a) (Nat.le_refl _), Nat.sub_self, load_leBytes]

theorem load_store_outside {v : ℕ} (h : b + k ≤ a ∨ a + n ≤ b) :
    load (store m a n v) b k = load m b k := load_blit_outside h

theorem shift_store_below {p v : ℕ} (h : a + n ≤ p) : shift (store m a n v) p = shift m p :=
  shift_blit_below h

theorem store_load (m : Bytes) (a n : ℕ) : store m a n (load m a n) = m := by
  funext i
  by_cases hi : a ≤ i ∧ i < a + n
  · obtain ⟨k, rfl⟩ := Nat.exists_eq_add_of_le hi.1
    rw [store, blit_inside hi.1 hi.2, Nat.add_sub_cancel_left]
    have hk : k < n := by omega
    clear hi
    induction k generalizing a n with
    | zero =>
      obtain ⟨n, rfl⟩ : ∃ k, n = k + 1 := ⟨n - 1, by omega⟩
      change UInt8.ofNat _ = _
      rw [pow_zero, Nat.div_one, load_succ, ← UInt8.toNat_inj, UInt8.toNat_ofNat']
      have hb : (m a).toNat < 256 := (m a).toNat_lt
      have he : ((m a).toNat + 256 * load m (a + 1) n) % 2 ^ 8 = (m a).toNat := by omega
      exact he
    | succ k ih =>
      obtain ⟨n, rfl⟩ : ∃ k, n = k + 1 := ⟨n - 1, by omega⟩
      have hb : (m a).toNat < 256 := (m a).toNat_lt
      have hd : load m a (n + 1) / 256 ^ (k + 1) = load m (a + 1) n / 256 ^ k := by
        rw [pow_succ', ← Nat.div_div_eq_div_mul, load_succ]
        congr 1
        omega
      have hr := ih (a + 1) n (by omega)
      change UInt8.ofNat (load m a (n + 1) / 256 ^ (k + 1)) = m (a + (k + 1))
      rw [hd, Nat.add_comm k 1, ← Nat.add_assoc]
      exact hr
  · exact blit_outside (by omega)

theorem store_congr {x : Bytes} {w : ℕ} (h : ∀ i < n, m i = x i) :
    ∀ i < n, store m a k w i = store x a k w i := by
  intro i hi
  by_cases hin : a ≤ i ∧ i < a + k
  · rw [store, store, blit_inside hin.1 hin.2, blit_inside hin.1 hin.2]
  · rw [store, store, blit_outside (by omega), blit_outside (by omega)]
    exact h i hi

def readBytes (m : Bytes) (a n : ℕ) : List UInt8 := (List.range n).map fun i => m (a + i)

theorem readBytes_add (m : Bytes) (a n k : ℕ) :
    readBytes m a (n + k) = readBytes m a n ++ readBytes m (a + n) k := by
  rw [readBytes, List.range_add, List.map_append, List.map_map]
  congr 1
  refine List.map_congr_left fun i _ => ?_
  rw [Function.comp_apply, Nat.add_assoc]

theorem readBytes_congr (h : ∀ i < n, m (a + i) = m' (b + i)) :
    readBytes m a n = readBytes m' b n :=
  List.map_congr_left fun i hi => h i (List.mem_range.mp hi)

end TrustedFirmware.ByteMemory
