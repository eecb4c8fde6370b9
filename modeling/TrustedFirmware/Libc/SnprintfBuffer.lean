import TrustedFirmware.Libc.SnprintfFormat

/-! # Truncation

The characters that fit are written, with a terminator behind them, and all are counted. A `%c` that
finds the buffer full does not take its argument, and the conversions behind it take the wrong ones. -/
namespace TrustedFirmware.Snprintf
open ByteMemory
set_option autoImplicit false

/-! ## The buffer -/

/-- The buffer with as much of the text as fits before the terminator. -/
def written (s : Bytes) (n : ℕ) (t : Text) : Bytes := fun i =>
  if n = 0 then s i
  else if i < min (n - 1) t.length then t.getD i 0
  else if i = min (n - 1) t.length then 0
  else s i

theorem foldl_put (s : Bytes) (n : ℕ) (t : Text) : t.foldl (checkAndPutChar n) ⟨s, 0, 0⟩ =
    ⟨fun i => if i < min n t.length then t.getD i 0 else s i, min n t.length, t.length⟩ := by
  induction t using List.reverseRecOn with
  | nil => simp
  | append_singleton t c ih =>
    rw [List.foldl_append, ih, List.foldl_cons, List.foldl_nil, checkAndPutChar, hasRoom]
    by_cases h : t.length < n
    · have hmin : min n t.length = t.length := by omega
      have hmin' : min n (t.length + 1) = t.length + 1 := by omega
      simp only [h, decide_true, if_true, hmin, List.length_append, List.length_singleton, hmin',
        Out.mk.injEq, and_true]
      funext i
      rcases lt_trichotomy i t.length with hi | rfl | hi
      · simp [Function.update_of_ne hi.ne, hi, Nat.lt_succ_of_lt hi]
      · simp
      · simp [Function.update_of_ne hi.ne', hi.not_gt, show ¬ i < t.length + 1 by omega]
    · have hmin : min n t.length = n := by omega
      have hmin' : min n (t.length + 1) = n := by omega
      simp only [h, decide_false, Bool.false_eq_true, if_false, hmin, List.length_append,
        List.length_singleton, hmin', Out.mk.injEq, and_true]
      funext i
      by_cases hi : i < n
      · have hi' : i < t.length := by omega
        simp [hi, hi', List.getElem?_append_left hi']
      · simp [hi]

/-- No `%c` that other conversions follow finds the buffer full. -/
def CharsFit (ps : List Piece) (room : ℕ) : Prop :=
  ∀ a pad v b, ps = a ++ .conv pad (.char v) :: b → room ≤ (text a).length → args b = []

/-! ## The pieces -/

section
variable {σ : Type} (put : σ → UInt8 → σ) (room : σ → Bool)

theorem format_ordinary {b : List Piece} (hb : args b = []) (rest : List Arg) (o : σ) :
    format put room (render b) .text rest o = .ok ((text b).foldl put o) := by
  induction b generalizing o with
  | nil => rfl
  | cons p b ih =>
    obtain ⟨hp, hb⟩ := List.append_eq_nil_iff.mp hb
    cases p with
    | char c ordinary =>
      have h := format_piece put room (.char c ordinary) (render b) rest o (by simp)
      exact h.trans (ih hb _)
    | conv pad cv => cases hp

end

theorem format_pieces (s : Bytes) (n : ℕ) (a b : List Piece) (hfit : CharsFit (a ++ b) n) :
    format (checkAndPutChar n) (hasRoom n) (render b) .text (args b)
      ((text a).foldl (checkAndPutChar n) ⟨s, 0, 0⟩) =
      .ok ((text (a ++ b)).foldl (checkAndPutChar n) ⟨s, 0, 0⟩) := by
  induction b generalizing a with
  | nil => rw [List.append_nil]; rfl
  | cons p b ih =>
    have hassoc : a ++ p :: b = (a ++ [p]) ++ b := by simp
    have htext : (text (a ++ [p])).foldl (checkAndPutChar n) ⟨s, 0, 0⟩ =
        p.output.foldl (checkAndPutChar n) ((text a).foldl (checkAndPutChar n) ⟨s, 0, 0⟩) := by
      simp [text, List.flatMap_append]
    by_cases hroom : (∃ pad v, p = .conv pad (.char v)) →
        hasRoom n ((text a).foldl (checkAndPutChar n) ⟨s, 0, 0⟩) = true
    · have h := ih (a ++ [p]) (by rw [← hassoc]; exact hfit)
      rw [htext, ← hassoc] at h
      exact (format_piece _ _ p (render b) (args b) _ hroom).trans h
    · -- The argument stays, and nothing behind takes it.
      push Not at hroom
      obtain ⟨⟨pad, v, rfl⟩, hfull⟩ := hroom
      have hlen : n ≤ (text a).length := by
        rw [foldl_put, hasRoom] at hfull
        simpa using hfull
      have hb := hfit a pad v b rfl hlen
      let o := (text a).foldl (checkAndPutChar n) ⟨s, 0, 0⟩
      have hput (c : UInt8) : checkAndPutChar n o c = { o with charsPrinted := o.charsPrinted + 1 } :=
        if_neg hfull
      have hconv : convert (checkAndPutChar n) (hasRoom n) (Conv.char v).letter
          { pad.spec with lCount := 0 } [.word v] o =
          if hasRoom n o then .ok (.text, [], checkAndPutChar n o v.toUInt8)
          else .ok (.text, [.word v], checkAndPutChar n o 0) := rfl
      have hargs : args (Piece.conv pad (.char v) :: b) = [.word v] := by
        rw [args, List.flatMap_cons, ← args, hb]
        rfl
      have hstart := format_conv (checkAndPutChar n) (hasRoom n) pad (.char v) (render b) [.word v] o
      rw [Conv.len, Len.count, hconv, if_neg hfull] at hstart
      rw [hargs]
      refine hstart.trans ((format_ordinary _ _ hb [.word v] _).trans ?_)
      rw [hassoc]
      have hall : (text (a ++ [Piece.conv pad (.char v)] ++ b)).foldl (checkAndPutChar n) ⟨s, 0, 0⟩ =
          (text b).foldl (checkAndPutChar n) (checkAndPutChar n o v.toUInt8) := by
        rw [text, List.flatMap_append, List.foldl_append, ← text, htext]
        rfl
      rw [hall, hput, hput]

/-! ## The whole call -/

/-- Exactly the text that fits is written, with a terminator, and the length of the whole text is
returned. -/
def Truncates (s : Bytes) (n : ℕ) (ps : List Piece) : Prop :=
  vsnprintf s n (render ps) (args ps) = .ok (written s n (text ps), (text ps).length)

theorem vsnprintf_pieces {ps : List Piece} {n : ℕ} (hfit : CharsFit ps (n - 1)) (s : Bytes) :
    vsnprintf s n (render ps) (args ps) = .ok (written s n (text ps), int (text ps).length) := by
  have hcap : (if n = 0 ∨ n = 1 then 0 else n - 1) = n - 1 := by
    split <;> omega
  let s' : Bytes := if n = 1 then Function.update s 0 0 else s
  have hformat : format (checkAndPutChar (n - 1)) (hasRoom (n - 1)) (render ps) .text (args ps)
      ⟨s', 0, 0⟩ = .ok ((text ps).foldl (checkAndPutChar (n - 1)) ⟨s', 0, 0⟩) :=
    format_pieces s' (n - 1) [] ps hfit
  rw [foldl_put] at hformat
  simp only [vsnprintf, hcap]
  rw [hformat]
  simp only [Except.map, s', Except.ok.injEq, Prod.mk.injEq, and_true]
  funext i
  rcases Nat.lt_or_ge n 2 with hn | hn
  · have hzero : n - 1 = 0 := by omega
    rcases Nat.eq_zero_or_pos n with rfl | hpos
    · simp [written]
    · obtain rfl : n = 1 := by omega
      simp [written, Function.update_apply]
  · rw [if_pos (by omega), if_neg (by omega), written, if_neg (by omega), Function.update_apply]
    split_ifs <;> first | rfl | omega

theorem charsFit_of_large {ps : List Piece} {n : ℕ} (hn : (text ps).length < n) :
    CharsFit ps (n - 1) := by
  intro a pad v b hps hfull
  have hlen : (text ps).length = (text a).length + 1 + (text b).length := by
    rw [hps]
    simp [text, Piece.output, Conv.output]
    omega
  omega

/-- **Truncation.** With a buffer that is large enough every `%c` finds room; and where it does, the
text is truncated as it should and its length is returned exactly if an `int` can hold it. -/
theorem vsnprintf_truncates (ps : List Piece) :
    (∀ n, (text ps).length < n → CharsFit ps (n - 1)) ∧
    ∀ s n, CharsFit ps (n - 1) → (Truncates s n ps ↔ (text ps).length < 2 ^ 31) := by
  refine ⟨fun n hn => charsFit_of_large hn, ?_⟩
  intro s n hfit
  rw [Truncates, vsnprintf_pieces hfit s]
  simp only [Except.ok.injEq, Prod.mk.injEq, true_and, int, Int.bmod_def]
  split_ifs <;> omega

/-- The format `%c%d`. -/
def charNumber (c v : UInt64) : List Piece := [.conv .none (.char c), .conv .none (.signed false .none v)]

theorem vsnprintf_truncates_charNumber : Truncates (fun _ => 0) 8 (charNumber 65 7) := by
  have h := vsnprintf_truncates (charNumber 65 7)
  exact (h.2 _ 8 (h.1 8 (by decide +kernel))).mpr (by decide +kernel)

/-- Without room, `%d` prints the argument of `%c`. -/
theorem char_argument_left :
    (vsnprintf (fun _ => 0) 8 (render (charNumber 65 7)) (args (charNumber 65 7))).map Prod.snd =
      .ok 2 ∧
    (vsnprintf (fun _ => 0) 1 (render (charNumber 65 7)) (args (charNumber 65 7))).map Prod.snd =
      .ok 3 := by
  decide +kernel

end TrustedFirmware.Snprintf
