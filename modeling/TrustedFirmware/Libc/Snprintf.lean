import TrustedFirmware.Foundations.ByteMemory
import Mathlib.Data.Nat.Digits.Defs

/-! # `vsnprintf()`

The reduced `vsnprintf()` of `snprintf.c`, on a machine with 64-bit `long`. All characters go through
`CHECK_AND_PUT_CHAR()`, here the parameter `put`; the macro evaluates its argument only if there is
room in the buffer. A signed overflow wraps around. -/
namespace TrustedFirmware.Snprintf
open ByteMemory
set_option autoImplicit false

abbrev Text := List UInt8

def ch (c : Char) : UInt8 := UInt8.ofNat c.toNat

def int (x : Int) : Int := x.bmod (2 ^ 32)

/-- An argument: a 64-bit slot, or the string it points to, up to its end. -/
inductive Arg where
  | word (v : UInt64)
  | str (s : Text)
  deriving DecidableEq, Repr

/-- The argument is missing or of the wrong kind; or the format is read behind its terminator. -/
inductive Fault where
  | argument
  | beyondFormat
  deriving DecidableEq, Repr

/-! ## Printing -/

section
variable {σ : Type} (put : σ → UInt8 → σ) (room : σ → Bool)

def stringPrint (o : σ) (str : Text) : σ := str.foldl put o

def asciiDigit (capitalise : Bool) (rem : ℕ) : UInt8 :=
  if rem < 10 then ch '0' + UInt8.ofNat rem
  else (if capitalise then ch 'A' else ch 'a') + UInt8.ofNat (rem - 10)

/-- The digits in `num_buf`, lowest first, as far as there is room. -/
def numBuf (capitalise : Bool) (radix : ℕ) : ℕ → ℕ → Text
  | 0, _ => []
  | room + 1, unum => asciiDigit capitalise (unum % radix) ::
    if unum / radix > 0 then numBuf capitalise radix room (unum / radix) else []

def putPad (o : σ) (count : Int) (padc : UInt8) : σ := (List.replicate count.toNat padc).foldl put o

def unsignedNumPrint (o : σ) (unum radix : ℕ) (padc : UInt8) (padn : Int) (capitalise : Bool) : σ :=
  let digits := numBuf capitalise radix 20 unum
  let width : Int := digits.length
  let o := putPad put o (int (padn - width)) padc
  let o := digits.reverse.foldl put o
  putPad put o (- int (width + padn)) padc

/-! ## Conversions -/

structure Spec where
  left : Bool
  padc : UInt8
  padn : Int
  lCount : ℕ
  deriving DecidableEq, Repr

/-- Where the interpreter is: in ordinary text, at `loop:`, or in the loop over the digits of a
width. -/
inductive Mode where
  | text
  | spec (f : Spec)
  | width (f : Spec)
  deriving DecidableEq, Repr

/-- `get_num_va_args()`, cut to an `int`. -/
def getNum (v : UInt64) : Int := int v.toNat

def getUnum (lCount : ℕ) (v : UInt64) : ℕ := if lCount > 0 then v.toNat else v.toNat % 2 ^ 32

def withWord (args : List Arg) (print : UInt64 → σ) : Except Fault (Mode × List Arg × σ) :=
  match args with
  | .word v :: args => .ok (.text, args, print v)
  | _ => .error .argument

/-- The `switch` on a character that is no digit. -/
def convert (c : UInt8) (f : Spec) (args : List Arg) (o : σ) : Except Fault (Mode × List Arg × σ) :=
  if c = ch '%' then .ok (.text, args, put o (ch '%'))
  else if c = ch '-' then .ok (.spec { f with left := true }, args, o)
  else if c = ch 'i' ∨ c = ch 'd' then
    withWord args fun v =>
      if getNum v < 0 then
        unsignedNumPrint put (put o (ch '-')) ((- getNum v).toNat % 2 ^ 32) 10 f.padc f.padn false
      else unsignedNumPrint put o (getNum v).toNat 10 f.padc f.padn false
  else if c = ch 'c' then
    -- `va_arg()` is the argument of the macro.
    if room o then withWord args fun v => put o v.toUInt8 else .ok (.text, args, put o 0)
  else if c = ch 's' then
    match args with
    | .str s :: args => .ok (.text, args, stringPrint put o s)
    | _ => .error .argument
  else if c = ch 'u' then
    withWord args fun v => unsignedNumPrint put o (getUnum f.lCount v) 10 f.padc f.padn false
  else if c = ch 'z' then .ok (.spec { f with lCount := 1 }, args, o)
  else if c = ch 'l' then .ok (.spec { f with lCount := (f.lCount + 1) % 2 ^ 32 }, args, o)
  else if c = ch 'p' then
    withWord args fun v =>
      if v.toNat > 0 then
        unsignedNumPrint put (stringPrint put o [ch '0', ch 'x']) v.toNat 16 f.padc (int (f.padn - 2))
          false
      else unsignedNumPrint put o 0 16 f.padc f.padn false
  else if c = ch 'X' ∨ c = ch 'x' then
    withWord args fun v =>
      unsignedNumPrint put o (getUnum f.lCount v) 16 f.padc f.padn (decide (c = ch 'X'))
  else .ok (.text, args, put (put o (ch '%')) c)

def isDigit (c : UInt8) : Bool := decide (ch '0' ≤ c ∧ c ≤ ch '9')

def digit (c : UInt8) : ℕ := c.toNat - 48

def step (c : UInt8) (m : Mode) (args : List Arg) (o : σ) : Except Fault (Mode × List Arg × σ) :=
  match m with
  | .text =>
    if c = ch '%' then .ok (.spec ⟨false, 0, 0, 0⟩, args, o) else .ok (.text, args, put o c)
  | .spec f =>
    if isDigit c then
      let padc := if c = ch '0' then ch '0' else ch ' '
      .ok (.width { f with padc := padc, padn := digit c }, args, o)
    else convert put room c f args o
  | .width f =>
    if isDigit c then .ok (.width { f with padn := int (f.padn * 10 + digit c) }, args, o)
    else convert put room c { f with padn := if f.left then int (- f.padn) else f.padn } args o

/-- The loop over the format. At the terminator inside a conversion it prints and goes on behind. -/
def format : Text → Mode → List Arg → σ → Except Fault σ
  | [], .text, _, o => .ok o
  | [], _, _, _ => .error .beyondFormat
  | c :: fmt, m, args, o => (step put room c m args o).bind fun r => format fmt r.1 r.2.1 r.2.2

end

/-! ## The buffer -/

/-- The buffer, the position in it, and `chars_printed`. -/
structure Out where
  buf : Bytes
  pos : ℕ
  charsPrinted : ℕ

def hasRoom (n : ℕ) (o : Out) : Bool := decide (o.charsPrinted < n)

def checkAndPutChar (n : ℕ) (o : Out) (c : UInt8) : Out :=
  if hasRoom n o then ⟨Function.update o.buf o.pos c, o.pos + 1, o.charsPrinted + 1⟩
  else { o with charsPrinted := o.charsPrinted + 1 }

def vsnprintf (s : Bytes) (n : ℕ) (fmt : Text) (args : List Arg) : Except Fault (Bytes × Int) :=
  let s := if n = 1 then Function.update s 0 0 else s
  let n := if n = 0 ∨ n = 1 then 0 else n - 1
  (format (checkAndPutChar n) (hasRoom n) fmt .text args ⟨s, 0, 0⟩).map fun o =>
    (if n > 0 then Function.update o.buf o.pos 0 else o.buf, int o.charsPrinted)

end TrustedFirmware.Snprintf
