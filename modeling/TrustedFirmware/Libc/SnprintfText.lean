import TrustedFirmware.Libc.SnprintfBuffer

/-! # The promised text

What the comment at the head of `vsnprintf()` says about numbers and widths, and when a conversion
keeps to it. A conversion does not if its number is cut to an `int`, if spaces come behind a sign or a
`0x`, if a width is given for a string, or if a short pointer is padded. -/
namespace TrustedFirmware.Snprintf
open ByteMemory
set_option autoImplicit false

/-! ## Numerals -/

def numeral (radix : ℕ) (capitalise : Bool) (n : ℕ) : Text :=
  (if n = 0 then [0] else Nat.digits radix n).reverse.map (asciiDigit capitalise)

theorem numBuf_eq {radix : ℕ} (hradix : 1 < radix) (cap : Bool) {room n : ℕ} (hpos : 0 < room)
    (hn : n < radix ^ room) :
    numBuf cap radix room n = (if n = 0 then [0] else Nat.digits radix n).map (asciiDigit cap) := by
  induction room generalizing n with
  | zero => exact absurd hpos (lt_irrefl 0)
  | succ room ih =>
    rw [numBuf]
    by_cases hdiv : n / radix = 0
    · have hlt : n < radix := by
        rcases Nat.div_eq_zero_iff.mp hdiv with h | h
        · omega
        · exact h
      rw [if_neg (by omega), Nat.mod_eq_of_lt hlt]
      by_cases hzero : n = 0
      · simp [hzero]
      · simp [hzero, Nat.digits_of_lt radix n hzero hlt]
    · have hn0 : n ≠ 0 := by
        rintro rfl
        exact hdiv (Nat.zero_div _)
      have hroom : 0 < room := by
        rcases Nat.eq_zero_or_pos room with rfl | h
        · rw [zero_add, pow_one] at hn
          exact absurd (Nat.div_eq_of_lt hn) hdiv
        · exact h
      rw [if_pos (Nat.pos_of_ne_zero hdiv),
        ih hroom (Nat.div_lt_of_lt_mul (by rw [← pow_succ']; exact hn)), if_neg hdiv, if_neg hn0,
        Nat.digits_def' hradix (Nat.pos_of_ne_zero hn0), List.map_cons]

theorem numBuf_reverse {radix : ℕ} (hradix : 10 ≤ radix) (cap : Bool) {n : ℕ} (hn : n < 2 ^ 64) :
    (numBuf cap radix 20 n).reverse = numeral radix cap n := by
  have hpow : 10 ^ 20 ≤ radix ^ 20 := Nat.pow_le_pow_left hradix 20
  rw [numBuf_eq (by omega) cap (by decide) (hn.trans_le (le_trans (by norm_num) hpow)), numeral,
    List.map_reverse]

/-! ## Padding -/

/-- The text is a number or string with the padding that the documentation promises. -/
def Padded (pad : Pad) (pre digits t : Text) : Prop :=
  match pad with
  | .none => t = pre ++ digits
  | .zeros nn => (∃ k, t = pre ++ (List.replicate k (ch '0') ++ digits)) ∧ nn ≤ t.length
  | .spaces nn _ => (∃ k, t = List.replicate k (ch ' ') ++ (pre ++ digits)) ∧ nn ≤ t.length
  | .right nn _ => (∃ k, t = pre ++ (digits ++ List.replicate k (ch ' '))) ∧ nn ≤ t.length

def Pad.nn : Pad → ℕ
  | none => 0
  | zeros nn | spaces nn _ | right nn _ => nn

/-- The width as a signed number, less what stands before the digits. -/
def Pad.padn (pad : Pad) (e : ℕ) : Int :=
  match pad with
  | .right nn _ => -nn - e
  | pad => pad.nn - e

/-- No signed overflow in the computation of the widths. -/
def Pad.InInt (pad : Pad) (e width : ℕ) : Prop :=
  pad.nn < 2 ^ 31 ∧ -2 ^ 31 ≤ pad.padn e - width ∧ width + pad.padn e < 2 ^ 31

def padding (padc : UInt8) (padn : Int) (digits : Text) : Text :=
  List.replicate (padn - digits.length).toNat padc ++ digits ++
    List.replicate (-(digits.length + padn)).toNat padc

/-- What has to hold for the padding to be as promised. -/
def PadFits (pad : Pad) (pre digits : Text) (e : ℕ) : Prop :=
  match pad with
  | .none | .zeros _ => e ≤ pad.nn + digits.length
  | .spaces nn _ => pre = [] ∨ nn ≤ e + digits.length
  | .right _ _ => True

theorem padded_none (pre digits : Text) (e : ℕ) :
    Padded .none pre digits (pre ++ padding 0 (-e) digits) ↔ e ≤ digits.length := by
  simp only [Padded, padding, List.append_cancel_left_eq]
  constructor
  · intro h
    have hlen := congrArg List.length h
    simp only [List.length_append, List.length_replicate] at hlen
    omega
  · intro h
    rw [show (-(e : Int) - digits.length).toNat = 0 by omega,
      show (-(digits.length + -(e : Int))).toNat = 0 by omega]
    simp

theorem padded_zeros (nn : ℕ) (pre digits : Text) (e : ℕ) (hdigits : 0 < digits.length)
    (he : e ≤ pre.length ∧ e ≤ 2) (hzero : e = 2 → digits ≠ [ch '0']) :
    Padded (.zeros nn) pre digits (pre ++ padding (ch '0') (nn - e) digits) ↔
      e ≤ nn + digits.length := by
  simp only [Padded, padding, List.append_cancel_left_eq, List.length_append, List.length_replicate]
  constructor
  · rintro ⟨⟨k, h⟩, -⟩
    by_contra hlt
    -- One digit, no width: the character behind the digit would have to be the digit.
    obtain ⟨d, hd⟩ := List.length_eq_one_iff.mp (show digits.length = 1 by omega)
    have hcount : ((nn : Int) - e - digits.length).toNat = 0 ∧
        (-(digits.length + ((nn : Int) - e))).toNat = 1 := by omega
    rw [hcount.1, hcount.2, hd] at h
    have hk : k = 1 := by
      have hlen := congrArg List.length h
      simp at hlen
      omega
    subst hk
    simp at h
    exact hzero (by omega) (by rw [hd, h.1])
  · intro h
    rw [show (-(digits.length + ((nn : Int) - e))).toNat = 0 by omega]
    exact ⟨⟨((nn : Int) - e - digits.length).toNat, by simp⟩, by omega⟩

theorem padded_spaces {nn : ℕ} (pos : 0 < nn) (pre digits : Text) (e : ℕ) (hdigits : 0 < digits.length)
    (he : e ≤ pre.length ∧ e ≤ 2) (hpre : pre.head? ≠ some (ch ' ')) :
    Padded (.spaces nn pos) pre digits (pre ++ padding (ch ' ') (nn - e) digits) ↔
      pre = [] ∨ nn ≤ e + digits.length := by
  have hbehind : (-(digits.length + ((nn : Int) - e))).toNat = 0 := by omega
  simp only [Padded, padding, hbehind, List.replicate_zero, List.append_nil, List.length_append,
    List.length_replicate]
  constructor
  · rintro ⟨⟨k, h⟩, -⟩
    rcases pre with _ | ⟨c, pre⟩
    · exact .inl rfl
    · cases k with
      | zero =>
        have hlen := congrArg List.length h
        simp only [List.length_append, List.length_replicate] at hlen
        exact .inr (by omega)
      | succ k =>
        simp only [List.replicate_succ, List.cons_append, List.cons.injEq] at h
        exact absurd (congrArg some h.1) hpre
  · rintro (rfl | h)
    · obtain rfl : e = 0 := by simpa using he.1
      exact ⟨⟨_, rfl⟩, by simp; omega⟩
    · rw [show ((nn : Int) - e - digits.length).toNat = 0 by omega]
      exact ⟨⟨0, by simp⟩, by omega⟩

theorem padded_right {nn : ℕ} (pos : 0 < nn) (pre digits : Text) (e : ℕ) :
    Padded (.right nn pos) pre digits (pre ++ padding (ch ' ') (-nn - e) digits) := by
  have hbefore : (-(nn : Int) - e - digits.length).toNat = 0 := by omega
  simp only [Padded, padding, hbefore, List.replicate_zero, List.nil_append]
  refine ⟨⟨_, rfl⟩, ?_⟩
  simp only [List.length_append, List.length_replicate]
  omega

theorem padded_iff (pad : Pad) (pre digits : Text) (e : ℕ) (hdigits : 0 < digits.length)
    (he : e ≤ pre.length ∧ e ≤ 2) (hpre : pre.head? ≠ some (ch ' '))
    (hzero : e = 2 → digits ≠ [ch '0']) :
    Padded pad pre digits (pre ++ padding pad.spec.padc (pad.padn e) digits) ↔
      PadFits pad pre digits e := by
  cases pad with
  | none =>
    have hpadn : Pad.none.padn e = -e := by
      simp [Pad.padn, Pad.nn]
    rw [hpadn, PadFits, Pad.nn, zero_add]
    exact padded_none pre digits e
  | zeros nn => exact padded_zeros nn pre digits e hdigits he hzero
  | spaces nn pos => exact padded_spaces pos pre digits e hdigits he hpre
  | right nn pos => exact iff_of_true (padded_right pos pre digits e) trivial

/-! ## The number in a text -/

def digitsIn (t : Text) : List ℕ := (t.filter isDigit).map digit

theorem digitsIn_append (t u : Text) : digitsIn (t ++ u) = digitsIn t ++ digitsIn u := by
  rw [digitsIn, List.filter_append, List.map_append]
  rfl

theorem digitsIn_replicate (k : ℕ) {c : UInt8} (hc : isDigit c = true → digit c = 0) :
    ∀ d ∈ digitsIn (List.replicate k c), d = 0 := by
  intro d hd
  obtain ⟨c', hmem, rfl⟩ := List.mem_map.mp hd
  obtain ⟨hrep, hdigit⟩ := List.mem_filter.mp hmem
  obtain rfl := List.eq_of_mem_replicate hrep
  exact hc hdigit

theorem digit_of_mem {n d : ℕ} (hd : d ∈ (if n = 0 then [0] else Nat.digits 10 n).reverse) :
    d < 10 := by
  split at hd
  · simp at hd
    omega
  · exact Nat.digits_lt_base (by decide) (List.mem_reverse.mp hd)

theorem mem_numeral {n : ℕ} {c : UInt8} (hc : c ∈ numeral 10 false n) : isDigit c = true := by
  obtain ⟨d, hd, rfl⟩ := List.mem_map.mp hc
  exact (asciiDigit_digit (digit_of_mem hd)).1

theorem horner_numeral (n : ℕ) : horner 0 (digitsIn (numeral 10 false n)) = n := by
  have hin : digitsIn (numeral 10 false n) = (if n = 0 then [0] else Nat.digits 10 n).reverse := by
    rw [digitsIn, List.filter_eq_self.mpr fun c hc => mem_numeral hc, numeral, List.map_map]
    refine (List.map_congr_left ?_).trans (List.map_id _)
    intro d hd
    exact (asciiDigit_digit (digit_of_mem hd)).2.1
  rw [hin]
  split
  · rename_i hzero
    rw [hzero]
    rfl
  · exact horner_digits n

theorem horner_zeros {ds : List ℕ} (h : ∀ d ∈ ds, d = 0) (es : List ℕ) :
    horner 0 (ds ++ es) = horner 0 es := by
  induction ds with
  | nil => rfl
  | cons d ds ih =>
    obtain rfl := h d (List.mem_cons_self ..)
    exact ih fun d hd => h d (List.mem_cons_of_mem _ hd)

theorem horner_text {a c : Text} (ha : ∀ d ∈ digitsIn a, d = 0) (hc : digitsIn c = []) (n : ℕ) :
    horner 0 (digitsIn (a ++ (numeral 10 false n ++ c))) = n := by
  rw [digitsIn_append, digitsIn_append, hc, List.append_nil, horner_zeros ha, horner_numeral]

/-! ## Conversions -/

/-- The value of the argument of `%d` and `%i`. -/
def signedValue (len : Len) (v : UInt64) : Int :=
  if len.count = 0 then getNum v else (v.toNat : Int).bmod (2 ^ 64)

def sign (x : Int) : Text := if x < 0 then [ch '-'] else []

def base (v : UInt64) : Text := if v.toNat > 0 then [ch '0', ch 'x'] else []

/-- What the documentation says that a conversion prints: a number in full, and padding for numbers and
strings. -/
def Conv.Promised (pad : Pad) (t : Text) : Conv → Prop
  | signed _ len v => Padded pad (sign (signedValue len v))
      (numeral 10 false (signedValue len v).natAbs) t
  | unsigned len v => Padded pad [] (numeral 10 false (getUnum len.count v)) t
  | hex capital len v => Padded pad [] (numeral 16 capital (getUnum len.count v)) t
  | pointer v => Padded pad (base v) (numeral 16 false v.toNat) t
  | char v => t = [v.toUInt8]
  | string s =>
    match pad with
    | .none | .zeros _ => t = s
    | .spaces _ _ | .right _ _ => Padded pad [] s t

def Conv.InInt (pad : Pad) : Conv → Prop
  | signed _ _ v => pad.InInt 0 (numeral 10 false (getNum v).natAbs).length
  | unsigned len v => pad.InInt 0 (numeral 10 false (getUnum len.count v)).length
  | hex capital len v => pad.InInt 0 (numeral 16 capital (getUnum len.count v)).length
  | pointer v => pad.InInt (base v).length (numeral 16 false v.toNat).length
  | char _ | string _ => pad.nn < 2 ^ 31

def Conv.Fits (pad : Pad) : Conv → Prop
  | signed _ len v => (-2 ^ 31 ≤ signedValue len v ∧ signedValue len v < 2 ^ 31) ∧
      PadFits pad (sign (signedValue len v)) (numeral 10 false (signedValue len v).natAbs) 0
  | unsigned _ _ | hex _ _ _ | char _ => True
  | pointer v => PadFits pad (base v) (numeral 16 false v.toNat) (base v).length
  | string s =>
    match pad with
    | .none | .zeros _ => True
    | .spaces nn _ | .right nn _ => nn ≤ s.length

theorem int_eq {x : Int} (h1 : -2 ^ 31 ≤ x) (h2 : x < 2 ^ 31) : int x = x := by
  rw [int, Int.bmod_def]
  split_ifs <;> omega

theorem Pad.spec_padn {pad : Pad} (h : pad.nn < 2 ^ 31) : pad.spec.padn = pad.padn 0 := by
  cases pad with
  | none => rfl
  | _ =>
    simp only [Pad.nn] at h
    simp only [Pad.spec, Pad.padn, Pad.nn]
    rw [int_eq] <;> omega

theorem numeral_length_pos (radix : ℕ) (cap : Bool) (n : ℕ) : 0 < (numeral radix cap n).length := by
  rw [numeral, List.length_map, List.length_reverse]
  split
  · exact Nat.one_pos
  · rename_i h
    exact List.length_pos_of_ne_nil (Nat.digits_ne_nil_iff_ne_zero.mpr h)

theorem numText_eq {radix : ℕ} (hradix : 10 ≤ radix) {cap : Bool} {n : ℕ} (hn : n < 2 ^ 64)
    (pad : Pad) {e : ℕ} (h : pad.InInt e (numeral radix cap n).length) (padc : UInt8) :
    numText n radix padc (pad.padn e) cap = padding padc (pad.padn e) (numeral radix cap n) := by
  have hlen : (numBuf cap radix 20 n).length = (numeral radix cap n).length := by
    rw [← numBuf_reverse hradix cap hn, List.length_reverse]
  obtain ⟨-, hlow, hhigh⟩ := h
  simp only [numText, padding, numBuf_reverse hradix cap hn, hlen]
  rw [int_eq hlow (by omega), int_eq (by omega) hhigh]

/-- Numbers without a sign. -/
theorem number_promised {radix : ℕ} (hradix : 10 ≤ radix) {cap : Bool} {n : ℕ} (hn : n < 2 ^ 64)
    (pad : Pad) (h : pad.InInt 0 (numeral radix cap n).length) :
    Padded pad [] (numeral radix cap n) (numText n radix pad.spec.padc pad.spec.padn cap) := by
  rw [Pad.spec_padn h.1, numText_eq hradix hn pad h]
  refine (padded_iff pad [] _ 0 (numeral_length_pos ..) ⟨le_rfl, by omega⟩ (by simp) (by simp)).mpr ?_
  cases pad with
  | none => exact Nat.zero_le _
  | zeros nn => exact Nat.zero_le _
  | spaces nn pos => exact .inl rfl
  | right nn pos => trivial

theorem numeral_ne_zero {n : ℕ} (hn : 0 < n) : numeral 16 false n ≠ [ch '0'] := by
  intro h
  rw [numeral, if_neg hn.ne', List.map_eq_singleton_iff] at h
  obtain ⟨d, hd, hc⟩ := h
  have hdigits : Nat.digits 16 n = [d] := by
    rw [← List.reverse_reverse (Nat.digits 16 n), hd]
    rfl
  have hvalue := Nat.ofDigits_digits 16 n
  have hlt : d < 16 := Nat.digits_lt_base (m := n) (by decide) (by rw [hdigits]; simp)
  have hzero : ∀ d < 16, asciiDigit false d = ch '0' → d = 0 := by decide
  rw [hdigits, hzero d hlt hc] at hvalue
  simp at hvalue
  omega

theorem pointer_promised_iff (pad : Pad) (v : UInt64) (h : (Conv.pointer v).InInt pad) :
    (Conv.pointer v).Promised pad ((Conv.pointer v).output pad.spec) ↔ (Conv.pointer v).Fits pad := by
  have hv : v.toNat < 2 ^ 64 := v.toNat_lt
  simp only [Conv.Promised, Conv.Fits, Conv.output, Conv.InInt] at h ⊢
  by_cases hpos : v.toNat > 0
  · have hbase : base v = [ch '0', ch 'x'] := if_pos hpos
    rw [hbase] at h ⊢
    have hpadn : int (pad.spec.padn - 2) = pad.padn 2 := by
      have hsub : pad.padn 0 - 2 = pad.padn 2 := by
        cases pad <;> simp [Pad.padn]
      obtain ⟨hnn, hlow, hhigh⟩ : pad.InInt 2 _ := h
      rw [Pad.spec_padn hnn, hsub, int_eq] <;> omega
    rw [if_pos hpos, hpadn, numText_eq (e := 2) (by omega) hv pad h]
    exact padded_iff pad [ch '0', ch 'x'] _ 2 (numeral_length_pos ..) ⟨le_rfl, le_rfl⟩ (by decide)
      fun _ => numeral_ne_zero hpos
  · have hbase : base v = [] := if_neg hpos
    rw [hbase] at h ⊢
    have hzero : v.toNat = 0 := by omega
    rw [if_neg hpos, hzero]
    rw [hzero] at h
    refine iff_of_true (number_promised (by omega) (by omega) pad h) ?_
    cases pad with
    | none => exact Nat.zero_le _
    | zeros nn => exact Nat.zero_le _
    | spaces nn pos => exact .inl rfl
    | right nn pos => trivial

/-! ## Signed numbers -/

theorem signed_output (pad : Pad) (alt : Bool) (len : Len) (v : UInt64)
    (h : (Conv.signed alt len v).InInt pad) : (Conv.signed alt len v).output pad.spec =
      sign (getNum v) ++
        padding pad.spec.padc (pad.padn 0) (numeral 10 false (getNum v).natAbs) := by
  have hrange : -2 ^ 31 ≤ getNum v ∧ getNum v < 2 ^ 31 := by
    rw [getNum, int, Int.bmod_def]
    split_ifs <;> omega
  simp only [Conv.output, Conv.InInt] at h ⊢
  rw [Pad.spec_padn h.1, ← numText_eq (by omega) (by omega) pad h, sign]
  by_cases hneg : getNum v < 0
  · rw [if_pos hneg, if_pos hneg, show (-getNum v).toNat % 2 ^ 32 = (getNum v).natAbs by omega]
    rfl
  · rw [if_neg hneg, if_neg hneg, show (getNum v).toNat = (getNum v).natAbs by omega]
    rfl

theorem digitsIn_sign (x : Int) : digitsIn (sign x) = [] := by
  rw [sign]
  split <;> decide

theorem digitsIn_spaces (k : ℕ) : digitsIn (List.replicate k (ch ' ')) = [] := by
  rw [digitsIn, List.filter_replicate, if_neg (by decide)]
  rfl

/-- A padded number is read back, and only a negative one has a sign. -/
theorem Padded.read {pad : Pad} {x : Int} {t : Text}
    (h : Padded pad (sign x) (numeral 10 false x.natAbs) t) :
    horner 0 (digitsIn t) = x.natAbs ∧ (0 ≤ x → ch '-' ∉ t) := by
  obtain ⟨a, c, rfl, ha, hc, hac⟩ : ∃ a c, t = a ++ (numeral 10 false x.natAbs ++ c) ∧
      (∀ d ∈ digitsIn a, d = 0) ∧ digitsIn c = [] ∧ (0 ≤ x → ch '-' ∉ a ∧ ch '-' ∉ c) := by
    have hsign (hx : 0 ≤ x) : ch '-' ∉ sign x := by
      simp [sign, not_lt.mpr hx]
    have hrep (k : ℕ) {c : UInt8} (hc : c ≠ ch '-') : ch '-' ∉ List.replicate k c := fun hmem =>
      hc (List.eq_of_mem_replicate hmem).symm
    cases pad with
    | none => exact ⟨sign x, [], by rw [List.append_nil]; exact h, by simp [digitsIn_sign], rfl,
        fun hx => ⟨hsign hx, by simp⟩⟩
    | zeros nn =>
      obtain ⟨⟨k, ht⟩, -⟩ := h
      refine ⟨sign x ++ List.replicate k (ch '0'), [], by simpa using ht, ?_, rfl, ?_⟩
      · rw [digitsIn_append, digitsIn_sign, List.nil_append]
        exact digitsIn_replicate k (by decide)
      · intro hx
        rw [List.mem_append, not_or]
        exact ⟨⟨hsign hx, hrep k (by decide)⟩, by simp⟩
    | spaces nn pos =>
      obtain ⟨⟨k, ht⟩, -⟩ := h
      refine ⟨List.replicate k (ch ' ') ++ sign x, [], by simpa using ht, ?_, rfl, ?_⟩
      · simp [digitsIn_append, digitsIn_sign, digitsIn_spaces]
      · intro hx
        rw [List.mem_append, not_or]
        exact ⟨⟨hrep k (by decide), hsign hx⟩, by simp⟩
    | right nn pos =>
      obtain ⟨⟨k, ht⟩, -⟩ := h
      exact ⟨sign x, List.replicate k (ch ' '), ht, by simp [digitsIn_sign], digitsIn_spaces k,
        fun hx => ⟨hsign hx, hrep k (by decide)⟩⟩
  refine ⟨horner_text ha hc _, ?_⟩
  intro hx hmem
  rcases List.mem_append.mp hmem with hmem | hmem
  · exact (hac hx).1 hmem
  rcases List.mem_append.mp hmem with hmem | hmem
  · exact absurd (mem_numeral hmem) (by decide)
  · exact (hac hx).2 hmem

theorem horner_padding (pad : Pad) (x : Int) :
    horner 0 (digitsIn (sign x ++ padding pad.spec.padc (pad.padn 0) (numeral 10 false x.natAbs))) =
      x.natAbs := by
  rw [padding, List.append_assoc, ← List.append_assoc]
  apply horner_text
  · rw [digitsIn_append, digitsIn_sign, List.nil_append]
    have hpadc : pad.spec.padc = 0 ∨ pad.spec.padc = ch '0' ∨ pad.spec.padc = ch ' ' := by
      cases pad <;> simp [Pad.spec]
    apply digitsIn_replicate
    rcases hpadc with h | h | h <;> (rw [h]; decide)
  · cases pad with
    | right nn pos => exact digitsIn_spaces _
    | _ =>
      rw [Int.toNat_of_nonpos (by simp only [Pad.padn, Pad.nn]; omega)]
      rfl

theorem signed_promised_iff (pad : Pad) (alt : Bool) (len : Len) (v : UInt64)
    (h : (Conv.signed alt len v).InInt pad) :
    (Conv.signed alt len v).Promised pad ((Conv.signed alt len v).output pad.spec) ↔
      (Conv.signed alt len v).Fits pad := by
  have hrange : -2 ^ 31 ≤ getNum v ∧ getNum v < 2 ^ 31 := by
    rw [getNum, int, Int.bmod_def]
    split_ifs <;> omega
  have hcut : -2 ^ 31 ≤ signedValue len v ∧ signedValue len v < 2 ^ 31 →
      getNum v = signedValue len v := by
    have hv := v.toNat_lt
    rw [signedValue]
    split
    · exact fun _ => rfl
    · rw [getNum, int, Int.bmod_def, Int.bmod_def]
      split_ifs <;> omega
  have hiff (heq : getNum v = signedValue len v) :
      Padded pad (sign (getNum v)) (numeral 10 false (getNum v).natAbs)
        ((Conv.signed alt len v).output pad.spec) ↔
      PadFits pad (sign (getNum v)) (numeral 10 false (getNum v).natAbs) 0 := by
    rw [signed_output pad alt len v h]
    refine padded_iff pad _ _ 0 (numeral_length_pos ..) ⟨Nat.zero_le _, by omega⟩ ?_ (by simp)
    rw [sign]
    split <;> decide
  simp only [Conv.Promised, Conv.Fits]
  constructor
  · intro hpromised
    have hbounds : -2 ^ 31 ≤ signedValue len v ∧ signedValue len v < 2 ^ 31 := by
      by_contra hout
      obtain ⟨hread, hminus⟩ := hpromised.read
      rw [signed_output pad alt len v h] at hread hminus
      rw [horner_padding] at hread
      -- Only the magnitude 2 ^ 31 is that of an `int` and not one, and the sign tells them apart.
      have hneg : getNum v < 0 ∧ 0 ≤ signedValue len v := by omega
      refine hminus hneg.2 (List.mem_append_left _ ?_)
      simp [sign, hneg.1]
    refine ⟨hbounds, ?_⟩
    rw [← hcut hbounds] at hpromised ⊢
    exact (hiff (hcut hbounds)).mp hpromised
  · rintro ⟨hbounds, hpad⟩
    rw [← hcut hbounds] at hpad ⊢
    exact (hiff (hcut hbounds)).mpr hpad

theorem Conv.promised_iff (pad : Pad) (cv : Conv) (h : cv.InInt pad) :
    cv.Promised pad (cv.output pad.spec) ↔ cv.Fits pad := by
  have hunum (len : Len) (v : UInt64) : getUnum len.count v < 2 ^ 64 := by
    have hv := v.toNat_lt
    rw [getUnum]
    split <;> omega
  cases cv with
  | signed alt len v => exact signed_promised_iff pad alt len v h
  | unsigned len v => exact iff_of_true (number_promised (by omega) (hunum len v) pad h) trivial
  | hex capital len v => exact iff_of_true (number_promised (by omega) (hunum len v) pad h) trivial
  | pointer v => exact pointer_promised_iff pad v h
  | char v => exact iff_of_true rfl trivial
  | string s =>
    cases pad with
    | none => exact iff_of_true rfl trivial
    | zeros nn => exact iff_of_true rfl trivial
    | spaces nn pos => exact ⟨And.right, fun hs => ⟨⟨0, rfl⟩, hs⟩⟩
    | right nn pos => exact ⟨And.right, fun hs => ⟨⟨0, (List.append_nil s).symm⟩, hs⟩⟩

/-! ## The end of the format -/

/-- Whether the next character belongs to a conversion that goes on behind it. -/
def inside (b : Bool) (c : UInt8) : Bool :=
  if b then isDigit c || c = ch '-' || c = ch 'l' || c = ch 'z' else c = ch '%'

def EndsInside (fmt : Text) : Prop := fmt.foldl inside false = true

def Mode.isInside : Mode → Bool
  | text => false
  | spec _ | width _ => true

section
variable {σ : Type} {put : σ → UInt8 → σ} {room : σ → Bool}

/-- A step fails for want of an argument, or goes on inside a conversion or behind it. -/
def Ends (b : Bool) : Except Fault (Mode × List Arg × σ) → Prop
  | .error e => e = .argument
  | .ok r => r.1.isInside = b

theorem withWord_ends (args : List Arg) (print : UInt64 → σ) : Ends false (withWord args print) := by
  unfold withWord
  split <;> rfl

theorem Ends.ite {p : Prop} [Decidable p] {b : Bool} {x y : Except Fault (Mode × List Arg × σ)}
    (hx : p → Ends b x) (hy : ¬ p → Ends b y) : Ends b (if p then x else y) := by
  split
  · exact hx ‹_›
  · exact hy ‹_›

theorem convert_ends (c : UInt8) (f : Spec) (args : List Arg) (o : σ) :
    Ends (c = ch '-' || c = ch 'l' || c = ch 'z') (convert put room c f args o) := by
  unfold convert
  refine .ite ?_ fun _ => .ite ?_ fun hminus => .ite ?_ fun _ => .ite ?_ fun _ => .ite ?_ fun _ =>
    .ite ?_ fun _ => .ite ?_ fun hz => .ite ?_ fun hl => .ite ?_ fun _ => .ite ?_ fun _ => ?_
  · rintro rfl
    rfl
  · rintro rfl
    rfl
  · rintro (rfl | rfl) <;> exact withWord_ends _ _
  · rintro rfl
    exact .ite (fun _ => withWord_ends _ _) fun _ => rfl
  · rintro rfl
    split <;> rfl
  · rintro rfl
    exact withWord_ends _ _
  · rintro rfl
    rfl
  · rintro rfl
    rfl
  · rintro rfl
    exact withWord_ends _ _
  · rintro (rfl | rfl) <;> exact withWord_ends _ _
  · simp [Ends, Mode.isInside, hminus, hl, hz]

theorem step_ends (c : UInt8) (m : Mode) (args : List Arg) (o : σ) :
    Ends (inside m.isInside c) (step put room c m args o) := by
  have hconvert (f : Spec) (h : ¬ isDigit c = true) :
      Ends (inside true c) (convert put room c f args o) := by
    have hinside : inside true c = (c = ch '-' || c = ch 'l' || c = ch 'z') := by
      simp [inside, h]
    rw [hinside]
    exact convert_ends c f args o
  cases m with
  | text =>
    rw [step]
    split <;> simp_all [Ends, Mode.isInside, inside]
  | spec f =>
    rw [step]
    split
    · simp_all [Ends, Mode.isInside, inside]
    · exact hconvert _ ‹_›
  | width f =>
    rw [step]
    split
    · simp_all [Ends, Mode.isInside, inside]
    · exact hconvert _ ‹_›

theorem format_beyond {fmt : Text} {m : Mode} {args : List Arg} {o : σ}
    (h : format put room fmt m args o ≠ .error .argument) :
    format put room fmt m args o = .error .beyondFormat ↔ fmt.foldl inside m.isInside = true := by
  induction fmt generalizing m args o with
  | nil => cases m <;> simp [format, Mode.isInside]
  | cons c fmt ih =>
    have hstep := @step_ends _ put room c m args o
    rw [format] at h ⊢
    rw [List.foldl_cons]
    cases hs : step put room c m args o with
    | error e =>
      rw [hs] at h hstep
      exact absurd (congrArg _ hstep) h
    | ok r =>
      rw [hs] at h hstep
      rw [← hstep]
      exact ih h

end

/-! ## The whole format -/

/-- A conversion computes its widths without overflow and prints what is promised. -/
def Piece.Kept : Piece → Prop
  | char _ _ => True
  | conv pad cv => cv.InInt pad ∧ cv.Promised pad (cv.output pad.spec)

def Piece.Fits : Piece → Prop
  | char _ _ => True
  | conv pad cv => cv.InInt pad ∧ cv.Fits pad

theorem Piece.kept_iff (p : Piece) : p.Kept ↔ p.Fits := by
  cases p with
  | char c ordinary => exact Iff.rfl
  | conv pad cv => exact and_congr_right fun h => Conv.promised_iff pad cv h

end TrustedFirmware.Snprintf
