import Mathlib.Data.Nat.Digits.Lemmas
import TrustedFirmware.Libc.Snprintf

/-! # Documented formats

A format of ordinary characters and documented conversions, with its arguments, and what the
interpreter does on it piece by piece. -/
namespace TrustedFirmware.Snprintf
open ByteMemory
set_option autoImplicit false

/-! ## Pieces of a format -/

/-- Nothing, `0NN`, `NN` or `-NN`. -/
inductive Pad where
  | none
  | zeros (nn : ℕ)
  | spaces (nn : ℕ) (pos : 0 < nn)
  | right (nn : ℕ) (pos : 0 < nn)

def decimal (nn : ℕ) : Text := (Nat.digits 10 nn).reverse.map (asciiDigit false)

def Pad.render : Pad → Text
  | none => []
  | zeros nn => ch '0' :: decimal nn
  | spaces nn _ => decimal nn
  | right nn _ => ch '-' :: decimal nn

def Pad.spec : Pad → Spec
  | none => ⟨false, 0, 0, 0⟩
  | zeros nn => ⟨false, ch '0', int nn, 0⟩
  | spaces nn _ => ⟨false, ch ' ', int nn, 0⟩
  | right nn _ => ⟨true, ch ' ', int (-nn), 0⟩

inductive Len where
  | none
  | l
  | ll
  | z

def Len.render : Len → Text
  | none => []
  | l => [ch 'l']
  | ll => [ch 'l', ch 'l']
  | z => [ch 'z']

def Len.count : Len → ℕ
  | none => 0
  | l | z => 1
  | ll => 2

inductive Conv where
  | signed (alt : Bool) (len : Len) (v : UInt64)
  | unsigned (len : Len) (v : UInt64)
  | hex (capital : Bool) (len : Len) (v : UInt64)
  | pointer (v : UInt64)
  | char (v : UInt64)
  | string (s : Text)

namespace Conv

def len : Conv → Len
  | signed _ len _ | unsigned len _ | hex _ len _ => len
  | pointer _ | char _ | string _ => .none

def letter : Conv → UInt8
  | signed alt _ _ => if alt then ch 'i' else ch 'd'
  | unsigned _ _ => ch 'u'
  | hex capital _ _ => if capital then ch 'X' else ch 'x'
  | pointer _ => ch 'p'
  | char _ => ch 'c'
  | string _ => ch 's'

def arg : Conv → Arg
  | signed _ _ v | unsigned _ v | hex _ _ v | pointer v | char v => .word v
  | string s => .str s

end Conv

inductive Piece where
  | char (c : UInt8) (ordinary : c ≠ 0 ∧ c ≠ ch '%')
  | conv (pad : Pad) (cv : Conv)

def Piece.render : Piece → Text
  | char c _ => [c]
  | conv pad cv => ch '%' :: (pad.render ++ (cv.len.render ++ [cv.letter]))

def Piece.args : Piece → List Arg
  | char _ _ => []
  | conv _ cv => [cv.arg]

def render (ps : List Piece) : Text := ps.flatMap Piece.render
def args (ps : List Piece) : List Arg := ps.flatMap Piece.args

/-! ## What a piece prints -/

def numText (unum radix : ℕ) (padc : UInt8) (padn : Int) (capitalise : Bool) : Text :=
  let digits := numBuf capitalise radix 20 unum
  List.replicate (int (padn - digits.length)).toNat padc ++ digits.reverse ++
    List.replicate (- int (digits.length + padn)).toNat padc

def Conv.output (f : Spec) : Conv → Text
  | signed _ _ v =>
    if getNum v < 0 then ch '-' :: numText ((- getNum v).toNat % 2 ^ 32) 10 f.padc f.padn false
    else numText (getNum v).toNat 10 f.padc f.padn false
  | unsigned len v => numText (getUnum len.count v) 10 f.padc f.padn false
  | hex capital len v => numText (getUnum len.count v) 16 f.padc f.padn capital
  | pointer v =>
    if v.toNat > 0 then ch '0' :: ch 'x' :: numText v.toNat 16 f.padc (int (f.padn - 2)) false
    else numText 0 16 f.padc f.padn false
  | char v => [v.toUInt8]
  | string s => s

def Piece.output : Piece → Text
  | char c _ => [c]
  | conv pad cv => cv.output pad.spec

def text (ps : List Piece) : Text := ps.flatMap Piece.output

section
variable {σ : Type} (put : σ → UInt8 → σ) (room : σ → Bool)

theorem unsignedNumPrint_eq (o : σ) (unum radix : ℕ) (padc : UInt8) (padn : Int) (cap : Bool) :
    unsignedNumPrint put o unum radix padc padn cap =
      (numText unum radix padc padn cap).foldl put o := by
  simp only [unsignedNumPrint, numText, putPad, List.foldl_append]

/-! ## The digits of a width -/

theorem asciiDigit_digit {d : ℕ} (h : d < 10) : isDigit (asciiDigit false d) = true ∧
    digit (asciiDigit false d) = d ∧ (asciiDigit false d = ch '0' ↔ d = 0) := by
  revert d
  decide

theorem int_mul_add (x : Int) (d : ℕ) : int (int x * 10 + d) = int (x * 10 + d) := by
  simp only [int, Int.bmod_def]
  split_ifs <;> omega

def horner (x : Int) (ds : List ℕ) : Int := ds.foldl (fun (x : Int) (d : ℕ) => x * 10 + d) x

theorem format_digits (ds : List ℕ) (hds : ∀ d ∈ ds, d < 10) (fmt : Text) (f : Spec) (x : Int)
    (hx : f.padn = int x) (args : List Arg) (o : σ) :
    format put room (ds.map (asciiDigit false) ++ fmt) (.width f) args o =
      format put room fmt
        (.width { f with padn := int (horner x ds) }) args o := by
  induction ds generalizing f x with
  | nil =>
    rw [horner, List.foldl_nil, ← hx]
    rfl
  | cons d ds ih =>
    obtain ⟨hdigit, hval, -⟩ := asciiDigit_digit (hds d (List.mem_cons_self ..))
    have hstep : step put room (asciiDigit false d) (.width f) args o =
        .ok (.width { f with padn := int (x * 10 + d) }, args, o) := by
      simp [step, hdigit, hval, hx, int_mul_add]
    rw [List.map_cons, List.cons_append, format, hstep]
    exact ih (fun d' h => hds d' (List.mem_cons_of_mem _ h)) { f with padn := int (x * 10 + d) } _ rfl

theorem horner_digits (nn : ℕ) : horner 0 (Nat.digits 10 nn).reverse = nn := by
  rw [horner, List.foldl_reverse]
  have h := Nat.ofDigits_digits 10 nn
  rw [Nat.ofDigits_eq_foldr] at h
  have hcast (L : List ℕ) : L.foldr (fun (d : ℕ) (x : Int) => x * 10 + d) 0 =
      ((L.foldr (fun x y => x + 10 * y) 0 : ℕ) : Int) := by
    induction L with
    | nil => rfl
    | cons d L ih =>
      rw [List.foldr_cons, List.foldr_cons, ih]
      push_cast
      ring
  rw [hcast]
  exact_mod_cast h

theorem format_width {nn : ℕ} (hnn : 0 < nn) (fmt : Text) (f : Spec) (args : List Arg) (o : σ) :
    format put room (decimal nn ++ fmt) (.spec f) args o =
      format put room fmt (.width { f with padc := ch ' ', padn := int nn }) args o := by
  have hvalue := horner_digits nn
  have hlt : ∀ d ∈ (Nat.digits 10 nn).reverse, d < 10 := fun d h =>
    Nat.digits_lt_base (by decide) (List.mem_reverse.mp h)
  -- The first digit is not 0, so the padding is with spaces.
  have hne : Nat.digits 10 nn ≠ [] := Nat.digits_ne_nil_iff_ne_zero.mpr hnn.ne'
  have hlast := Nat.getLast_digit_ne_zero 10 hnn.ne'
  have hne' : (Nat.digits 10 nn).reverse ≠ [] := mt List.reverse_eq_nil_iff.mp hne
  obtain ⟨d, ds, hds⟩ := List.exists_cons_of_ne_nil hne'
  have hd : d ≠ 0 := by
    have hhead := List.head_reverse hne'
    simp only [hds, List.head_cons] at hhead
    rw [hhead]
    exact hlast
  rw [hds] at hvalue hlt
  obtain ⟨hdigit, hval, hzero⟩ := asciiDigit_digit (hlt d (List.mem_cons_self ..))
  have hpad : asciiDigit false d ≠ ch '0' := fun h => hd (hzero.mp h)
  have hint : (d : Int) = int d := by
    have := hlt d (List.mem_cons_self ..)
    rw [int, Int.bmod_eq_of_le] <;> omega
  rw [decimal, hds, List.map_cons, List.cons_append, format]
  simp only [step, hdigit, if_true, if_neg hpad, hval]
  have hrest := format_digits put room ds (fun d' h => hlt d' (List.mem_cons_of_mem _ h)) fmt
    { f with padc := ch ' ', padn := d } d hint args o
  rw [horner, List.foldl_cons, zero_mul, zero_add, ← horner] at hvalue
  rw [hvalue] at hrest
  exact hrest

/-! ## One conversion -/

theorem format_spec {c : UInt8} (hc : isDigit c = false) (f : Spec) (fmt : Text) (args : List Arg)
    (o : σ) : format put room (c :: fmt) (.spec f) args o =
      (convert put room c f args o).bind fun r => format put room fmt r.1 r.2.1 r.2.2 := by
  simp [format, step, hc]

/-- What happens at the first character behind the padding. -/
theorem format_pad (pad : Pad) {c : UInt8} (hc : isDigit c = false) (fmt : Text) (args : List Arg)
    (o : σ) : format put room (pad.render ++ c :: fmt) (.spec ⟨false, 0, 0, 0⟩) args o =
      (convert put room c pad.spec args o).bind fun r => format put room fmt r.1 r.2.1 r.2.2 := by
  have hneg (nn : ℕ) : int (-int nn) = int (-(nn : Int)) := by
    simp only [int, Int.bmod_def]
    split_ifs <;> omega
  cases pad with
  | none => exact format_spec put room hc _ fmt args o
  | zeros nn =>
    have hdigits := format_digits put room (Nat.digits 10 nn).reverse
      (fun d h => Nat.digits_lt_base (by decide) (List.mem_reverse.mp h)) (c :: fmt)
      ⟨false, ch '0', 0, 0⟩ 0 rfl args o
    rw [horner_digits] at hdigits
    have hzero : step put room (ch '0') (.spec ⟨false, 0, 0, 0⟩) args o =
        .ok (.width ⟨false, ch '0', 0, 0⟩, args, o) := rfl
    rw [Pad.render, List.cons_append, format, hzero]
    refine hdigits.trans ?_
    simp [format, step, hc, Pad.spec]
  | spaces nn pos =>
    rw [Pad.render, format_width put room pos]
    simp [format, step, hc, Pad.spec]
  | right nn pos =>
    have hminus : step put room (ch '-') (.spec ⟨false, 0, 0, 0⟩) args o =
        .ok (.spec ⟨true, 0, 0, 0⟩, args, o) := rfl
    rw [Pad.render, List.cons_append, format, hminus]
    refine (format_width put room pos (c :: fmt) ⟨true, 0, 0, 0⟩ args o).trans ?_
    simp [format, step, hc, Pad.spec, hneg]

theorem format_conv (pad : Pad) (cv : Conv) (fmt : Text) (args : List Arg) (o : σ) :
    format put room ((Piece.conv pad cv).render ++ fmt) .text args o =
      (convert put room cv.letter { pad.spec with lCount := cv.len.count } args o).bind
        fun r => format put room fmt r.1 r.2.1 r.2.2 := by
  have hletter : isDigit cv.letter = false := by
    cases cv with
    | signed alt len v => cases alt <;> rfl
    | hex capital len v => cases capital <;> rfl
    | _ => rfl
  have hcount : pad.spec.lCount = 0 := by
    cases pad <;> rfl
  have hl (f : Spec) : convert put room (ch 'l') f args o =
      .ok (.spec { f with lCount := (f.lCount + 1) % 2 ^ 32 }, args, o) := rfl
  have hz (f : Spec) : convert put room (ch 'z') f args o =
      .ok (.spec { f with lCount := 1 }, args, o) := rfl
  have hrender : (Piece.conv pad cv).render ++ fmt =
      ch '%' :: (pad.render ++ (cv.len.render ++ cv.letter :: fmt)) := by
    simp [Piece.render]
  rw [hrender]
  change format put room (pad.render ++ (cv.len.render ++ cv.letter :: fmt))
    (.spec ⟨false, 0, 0, 0⟩) args o = _
  cases cv.len with
  | none =>
    rw [Len.render, List.nil_append, format_pad put room pad hletter, Len.count, ← hcount]
  | l =>
    rw [Len.render, List.singleton_append, format_pad put room pad (by decide), hl, hcount]
    exact format_spec put room hletter _ fmt args o
  | ll =>
    rw [Len.render, List.cons_append, format_pad put room pad (by decide), hl, hcount]
    exact format_spec put room hletter _ fmt args o
  | z =>
    rw [Len.render, List.singleton_append, format_pad put room pad (by decide), hz]
    exact format_spec put room hletter _ fmt args o

/-- Every conversion but `%c` takes its argument in any case. -/
theorem convert_letter (pad : Pad) (cv : Conv) (args : List Arg) (o : σ)
    (hroom : (∃ v, cv = .char v) → room o = true) :
    convert put room cv.letter { pad.spec with lCount := cv.len.count } (cv.arg :: args) o =
      .ok (.text, args, (cv.output pad.spec).foldl put o) := by
  cases cv with
  | signed alt len v =>
    have hprint : convert put room (Conv.signed alt len v).letter
        { pad.spec with lCount := len.count } (.word v :: args) o =
        .ok (.text, args, if getNum v < 0 then unsignedNumPrint put (put o (ch '-'))
          ((- getNum v).toNat % 2 ^ 32) 10 pad.spec.padc pad.spec.padn false
          else unsignedNumPrint put o (getNum v).toNat 10 pad.spec.padc pad.spec.padn false) := by
      cases alt <;> rfl
    rw [Conv.len, Conv.arg, hprint, Conv.output]
    split <;> rw [unsignedNumPrint_eq]
    rfl
  | unsigned len v =>
    rw [Conv.output, ← unsignedNumPrint_eq]
    rfl
  | hex capital len v =>
    rw [Conv.output, ← unsignedNumPrint_eq]
    cases capital <;> rfl
  | pointer v =>
    have hprint : convert put room (Conv.pointer v).letter
        { pad.spec with lCount := 0 } (.word v :: args) o =
        .ok (.text, args, if v.toNat > 0 then unsignedNumPrint put (stringPrint put o
          [ch '0', ch 'x']) v.toNat 16 pad.spec.padc (int (pad.spec.padn - 2)) false
          else unsignedNumPrint put o 0 16 pad.spec.padc pad.spec.padn false) := rfl
    rw [Conv.len, Conv.arg, Len.count, hprint, Conv.output]
    split <;> rw [unsignedNumPrint_eq]
    rfl
  | char v =>
    have hprint : convert put room (Conv.char v).letter
        { pad.spec with lCount := 0 } (.word v :: args) o =
        if room o then .ok (.text, args, put o v.toUInt8) else .ok (.text, .word v :: args, put o 0) :=
      rfl
    rw [Conv.len, Conv.arg, Len.count, hprint, if_pos (hroom ⟨v, rfl⟩)]
    rfl
  | string s => rfl

theorem format_piece (p : Piece) (fmt : Text) (args : List Arg) (o : σ)
    (hroom : (∃ pad v, p = .conv pad (.char v)) → room o = true) :
    format put room (p.render ++ fmt) .text (p.args ++ args) o =
      format put room fmt .text args (p.output.foldl put o) := by
  cases p with
  | char c ordinary =>
    rw [Piece.render, List.singleton_append, format]
    simp [step, ordinary.2, Except.bind, Piece.args, Piece.output]
  | conv pad cv =>
    rw [format_conv, Piece.args, List.singleton_append, convert_letter put room pad cv args o]
    · rfl
    · rintro ⟨v, rfl⟩
      exact hroom ⟨pad, v, rfl⟩

end

end TrustedFirmware.Snprintf
