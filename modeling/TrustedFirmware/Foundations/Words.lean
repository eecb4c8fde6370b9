import Mathlib.Data.Nat.Bitwise
import Mathlib.Tactic

/-! # Bits of machine words

Fields of a 64-bit register given by a shift and a width: the mask of a field, its extraction as a
number, and single bits. -/
namespace TrustedFirmware.BitFields
set_option autoImplicit false

/-- Ones in the `width` bits from `shift` on. -/
def mask (shift width : ℕ) : BitVec 64 := ((~~~0#64) >>> (64 - width)) <<< shift

def extract (shift width : ℕ) (v : BitVec 64) : BitVec 64 := (v &&& mask shift width) >>> shift

theorem getLsbD_mask (shift width i : ℕ) (hw : shift + width ≤ 64) :
    (mask shift width).getLsbD i = decide (shift ≤ i ∧ i < shift + width) := by
  simp only [mask, BitVec.getLsbD_shiftLeft, BitVec.getLsbD_ushiftRight, BitVec.getLsbD_not,
    BitVec.getLsbD_zero, Bool.not_false, Bool.and_true]
  rw [Bool.eq_iff_iff]
  simp only [Bool.and_eq_true, decide_eq_true_eq, Bool.not_eq_true', decide_eq_false_iff_not]
  omega

theorem extract_toNat (shift width : ℕ) (v : BitVec 64) (hw : shift + width ≤ 64) :
    (extract shift width v).toNat = v.toNat / 2 ^ shift % 2 ^ width := by
  apply Nat.eq_of_testBit_eq
  intro i
  rw [Nat.testBit_mod_two_pow, Nat.testBit_div_two_pow]
  change (extract shift width v).getLsbD i = (decide (i < width) && v.getLsbD (i + shift))
  rw [extract, BitVec.getLsbD_ushiftRight, BitVec.getLsbD_and, getLsbD_mask _ _ _ hw,
    Nat.add_comm shift i, Bool.and_comm]
  congr 1
  exact decide_eq_decide.mpr (by omega)

theorem and_bit (v : BitVec 64) (i : ℕ) :
    v &&& BitVec.twoPow 64 i = if v.getLsbD i then BitVec.twoPow 64 i else 0 := by
  rw [BitVec.and_twoPow]; rfl

end TrustedFirmware.BitFields

/-! The sixteen nibbles of a 64-bit word. -/
namespace TrustedFirmware.Nibbles

def nib (d : BitVec 64) (k : ℕ) : ℕ := (d >>> (4 * k)).toNat % 16

theorem nib_lt (d : BitVec 64) (k : ℕ) : nib d k < 16 := Nat.mod_lt _ (by decide)

end TrustedFirmware.Nibbles

/-! Rounding to a power of two. A mask of the low bits gives the remainder, its
complement the multiple below, and setting them the last number below the next multiple. -/
namespace TrustedFirmware.Alignment
set_option autoImplicit false

variable {w : ℕ} {x b : BitVec w}

theorem toNat_sub_one (h : b ≠ 0) : (b - 1).toNat = b.toNat - 1 := by
  have hpos : 0 < b.toNat := Nat.pos_of_ne_zero fun h0 => h (BitVec.eq_of_toNat_eq h0)
  cases w with
  | zero => exact absurd (BitVec.of_length_zero) h
  | succ w =>
    have hone : (1 : BitVec (w + 1)).toNat = 1 := BitVec.toNat_one (Nat.succ_pos w)
    rw [BitVec.toNat_sub_of_le (by rw [BitVec.le_def, hone]; exact hpos), hone]

theorem isPowerOfTwo_iff : b ≠ 0 ∧ b &&& (b - 1) = 0 ↔ b.toNat.isPowerOfTwo := by
  rw [← Nat.ne_zero_and_sub_one_eq_zero_iff_isPowerOfTwo]
  have hzero : b ≠ 0 ↔ b.toNat ≠ 0 := by
    rw [ne_eq, ← BitVec.toNat_inj, BitVec.ofNat_eq_ofNat, BitVec.toNat_ofNat, Nat.zero_mod]
  rw [← hzero]
  refine and_congr_right fun h0 => ?_
  rw [← BitVec.toNat_inj, BitVec.toNat_and, toNat_sub_one h0, BitVec.ofNat_eq_ofNat,
    BitVec.toNat_ofNat, Nat.zero_mod]

theorem ne_zero_of_isPowerOfTwo (h : b.toNat.isPowerOfTwo) : b ≠ 0 := (isPowerOfTwo_iff.mpr h).1

theorem toNat_low (h : b.toNat.isPowerOfTwo) : (x &&& (b - 1)).toNat = x.toNat % b.toNat := by
  rw [BitVec.toNat_and, toNat_sub_one (ne_zero_of_isPowerOfTwo h)]
  obtain ⟨k, hk⟩ := h
  rw [hk, Nat.and_two_pow_sub_one_eq_mod]

theorem toNat_high (h : b.toNat.isPowerOfTwo) :
    (x &&& ~~~(b - 1)).toNat = x.toNat / b.toNat * b.toNat := by
  have hapart : (x &&& (b - 1)) &&& (x &&& ~~~(b - 1)) = 0#w := by
    ext i
    rw [BitVec.getElem_and, BitVec.getElem_and, BitVec.getElem_and, BitVec.getElem_not,
      BitVec.getElem_zero]
    cases x[i] <;> cases (b - 1)[i] <;> rfl
  have hwhole : (x &&& (b - 1)) + (x &&& ~~~(b - 1)) = x := by
    rw [BitVec.add_eq_or_of_and_eq_zero _ _ hapart]
    ext i
    rw [BitVec.getElem_or, BitVec.getElem_and, BitVec.getElem_and, BitVec.getElem_not,
      ← Bool.and_or_distrib_left, Bool.or_not_self, Bool.and_true]
  have hsum := BitVec.toNat_add_of_and_eq_zero hapart
  rw [hwhole, toNat_low h] at hsum
  have hdiv := Nat.div_add_mod' x.toNat b.toNat
  omega

theorem toNat_or_low (h : b.toNat.isPowerOfTwo) :
    (x ||| (b - 1)).toNat = x.toNat / b.toNat * b.toNat + (b.toNat - 1) := by
  have hapart : (x &&& ~~~(b - 1)) &&& (b - 1) = 0#w := by
    ext i
    rw [BitVec.getElem_and, BitVec.getElem_and, BitVec.getElem_not, BitVec.getElem_zero]
    cases x[i] <;> cases (b - 1)[i] <;> rfl
  have hwhole : (x &&& ~~~(b - 1)) + (b - 1) = x ||| (b - 1) := by
    rw [BitVec.add_eq_or_of_and_eq_zero _ _ hapart]
    ext i
    rw [BitVec.getElem_or, BitVec.getElem_or, BitVec.getElem_and, BitVec.getElem_not]
    cases x[i] <;> cases (b - 1)[i] <;> rfl
  rw [← hwhole, BitVec.toNat_add_of_and_eq_zero hapart, toNat_high h,
    toNat_sub_one (ne_zero_of_isPowerOfTwo h)]

end TrustedFirmware.Alignment

/-! A stack whose indices get smaller towards the top is the set of its indices. Its top is the lowest
set bit, pushing sets a bit, and popping clears the lowest one. -/
namespace TrustedFirmware.BitStack
set_option autoImplicit false

variable {i w : ℕ} {is : List ℕ}

/-- The bitmap of a stack, top first. -/
def bits : List ℕ → ℕ
  | [] => 0
  | i :: is => 2 ^ i + bits is

/-- The position of the lowest set bit of a word of `w` bits. -/
def lowestBit (w x : ℕ) : Option ℕ := (List.range w).find? x.testBit

def Ordered (is : List ℕ) : Prop := is.Pairwise (· < ·)

theorem dvd_bits {k : ℕ} (h : ∀ j ∈ is, k ≤ j) : 2 ^ k ∣ bits is := by
  induction is with
  | nil => exact Nat.dvd_zero _
  | cons j js ih =>
    have hhead : 2 ^ k ∣ 2 ^ j := Nat.pow_dvd_pow 2 (h j List.mem_cons_self)
    exact Nat.dvd_add hhead (ih fun m hm => h m (List.mem_cons_of_mem _ hm))

theorem bits_cons (h : Ordered (i :: is)) :
    ∃ r, bits is = 2 ^ (i + 1) * r ∧ bits (i :: is) = 2 ^ (i + 1) * r + 2 ^ i := by
  obtain ⟨r, hr⟩ := dvd_bits fun j hj => Nat.succ_le_of_lt ((List.pairwise_cons.mp h).1 j hj)
  exact ⟨r, hr, by rw [bits, hr, Nat.add_comm]⟩

theorem testBit_bits_cons (h : Ordered (i :: is)) (j : ℕ) (hj : j ≤ i) :
    (bits (i :: is)).testBit j = decide (j = i) := by
  obtain ⟨r, -, hbits⟩ := bits_cons h
  have hlt : 2 ^ i < 2 ^ (i + 1) := Nat.pow_lt_pow_right (by decide) (Nat.lt_succ_self i)
  rw [hbits, Nat.testBit_two_pow_mul_add r hlt, if_pos (Nat.lt_succ_of_le hj),
    Nat.testBit_two_pow]
  exact decide_eq_decide.mpr eq_comm

theorem lowestBit_bits (h : Ordered (i :: is)) (hw : i < w) :
    lowestBit w (bits (i :: is)) = some i := by
  rw [lowestBit, List.find?_range_eq_some]
  refine ⟨?_, List.mem_range.mpr hw, ?_⟩
  · rw [testBit_bits_cons h i le_rfl]
    exact decide_eq_true rfl
  · intro j hj
    rw [testBit_bits_cons h j hj.le, decide_eq_false hj.ne]
    rfl

theorem bits_eq_zero : bits is = 0 ↔ is = [] := by
  cases is with
  | nil => exact ⟨fun _ => rfl, fun _ => rfl⟩
  | cons i is =>
    have := Nat.two_pow_pos i
    simp only [bits, reduceCtorEq, iff_false]
    omega

theorem bits_push (h : Ordered (i :: is)) : bits is ||| 2 ^ i = bits (i :: is) := by
  obtain ⟨r, hrest, hbits⟩ := bits_cons h
  have hlt : 2 ^ i < 2 ^ (i + 1) := Nat.pow_lt_pow_right (by decide) (Nat.lt_succ_self i)
  rw [hrest, hbits, Nat.two_pow_add_eq_or_of_lt hlt]

theorem bits_pop (h : Ordered (i :: is)) :
    bits (i :: is) &&& (bits (i :: is) - 1) = bits is := by
  obtain ⟨r, hrest, hbits⟩ := bits_cons h
  have hpos := Nat.two_pow_pos i
  have hlt : 2 ^ i < 2 ^ (i + 1) := Nat.pow_lt_pow_right (by decide) (Nat.lt_succ_self i)
  have hpred : bits (i :: is) - 1 = 2 ^ (i + 1) * r + (2 ^ i - 1) := by
    rw [hbits]
    omega
  rw [hpred, hbits, hrest]
  apply Nat.eq_of_testBit_eq
  intro j
  have hzero : 2 ^ (i + 1) * r = 2 ^ (i + 1) * r + 0 := rfl
  rw [Nat.testBit_and, Nat.testBit_two_pow_mul_add r hlt, Nat.testBit_two_pow_mul_add r (by omega),
    hzero, Nat.testBit_two_pow_mul_add r (Nat.two_pow_pos _), Nat.testBit_two_pow,
    Nat.testBit_two_pow_sub_one, Nat.zero_testBit]
  by_cases hj : j < i + 1
  · simp only [if_pos hj, Bool.and_eq_false_imp, decide_eq_true_eq, decide_eq_false_iff_not]
    omega
  · simp only [if_neg hj, Bool.and_self]

end TrustedFirmware.BitStack
