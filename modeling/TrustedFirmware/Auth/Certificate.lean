import Mathlib.Data.Nat.Notation
import TrustedFirmware.Foundations.Programs

/-! # Certificates

The X.509 parser of `drivers/auth/mbedtls/mbedtls_x509_parser.c`. A pointer is an offset in the image;
each read names the end up to which it may go. The DER readers of mbed TLS are parameters, with what
their documentation says. -/
namespace TrustedFirmware.Auth.X509
open Staged
set_option autoImplicit false

abbrev Image := ℕ → UInt8

inductive Asn1Error where
  | unexpectedTag
  | other
  deriving DecidableEq, Repr

inductive ParserError where
  | err
  | errFormat
  | errNotFound
  deriving DecidableEq, Repr

def MBEDTLS_ASN1_BOOLEAN : UInt8 := 0x01
def MBEDTLS_ASN1_INTEGER : UInt8 := 0x02
def MBEDTLS_ASN1_BIT_STRING : UInt8 := 0x03
def MBEDTLS_ASN1_OCTET_STRING : UInt8 := 0x04
def MBEDTLS_ASN1_OID : UInt8 := 0x06
/-- `MBEDTLS_ASN1_CONSTRUCTED | MBEDTLS_ASN1_SEQUENCE` -/
def SEQUENCE : UInt8 := 0x30
/-- `MBEDTLS_ASN1_CONTEXT_SPECIFIC | MBEDTLS_ASN1_CONSTRUCTED` -/
def CONTEXT : UInt8 := 0xA0

/-- `mbedtls_asn1_get_len()`, `mbedtls_asn1_get_tag()`, `mbedtls_asn1_get_bool()` and
`mbedtls_asn1_get_bitstring_null()` from an offset up to an end, and `mbedtls_oid_get_numeric_string()` with
a buffer of `MAX_OID_STR_LEN`. A reader gives the pointer it leaves, and a length or a value. -/
structure Asn1 where
  getLen : Image → ℕ → ℕ → Except Asn1Error (ℕ × ℕ)
  getTag : Image → ℕ → ℕ → UInt8 → ℕ × Except Asn1Error ℕ
  getBool : Image → ℕ → ℕ → ℕ × Except Asn1Error Bool
  getBitstringNull : Image → ℕ → ℕ → ℕ × Except Asn1Error ℕ
  oidGetNumericString : List UInt8 → Option (List Char)
  getLen_ok : ∀ {img p e q n}, getLen img p e = .ok (q, n) → p < q ∧ q + n ≤ e
  getLen_congr : ∀ {img img' : Image} {p e}, (∀ k, p ≤ k → k < e → img k = img' k) →
    getLen img p e = getLen img' p e
  getTag_ok : ∀ {img p e tag q n}, getTag img p e tag = (q, .ok n) →
    img p = tag ∧ getLen img (p + 1) e = .ok (q, n)
  /-- Another tag leaves the pointer where it is. -/
  getTag_unexpected : ∀ {img p e tag q}, getTag img p e tag = (q, .error .unexpectedTag) → q = p
  getTag_congr : ∀ {img img' : Image} {p e tag}, (∀ k, p ≤ k → k < e → img k = img' k) →
    getTag img p e tag = getTag img' p e tag
  getBool_ok : ∀ {img p e q v}, getBool img p e = (q, .ok v) →
    ∃ b, getTag img p e MBEDTLS_ASN1_BOOLEAN = (b, .ok 1) ∧ q = b + 1
  getBool_unexpected : ∀ {img p e q}, getBool img p e = (q, .error .unexpectedTag) → q = p
  getBool_congr : ∀ {img img' : Image} {p e}, (∀ k, p ≤ k → k < e → img k = img' k) →
    getBool img p e = getBool img' p e
  /-- The content of a bit string is behind the number of its unused bits, which is 0. -/
  getBitstringNull_ok : ∀ {img p e q n}, getBitstringNull img p e = (q, .ok n) →
    ∃ b, getTag img p e MBEDTLS_ASN1_BIT_STRING = (b, .ok (n + 1)) ∧ img b = 0 ∧ q = b + 1

/-- `mbedtls_asn1_buf` without its tag. -/
structure Buf where
  p : ℕ
  len : ℕ
  deriving DecidableEq, Repr

def Buf.stop (b : Buf) : ℕ := b.p + b.len

def bytes (img : Image) (b : Buf) : List UInt8 := (List.range b.len).map fun i => img (b.p + i)

section Readers
variable (A : Asn1) (img : Image) (p e : ℕ)

def content (r : ℕ × Except Asn1Error ℕ) : Except Asn1Error Buf := r.2.map fun n => ⟨r.1, n⟩

def getTag (tag : UInt8) : Except Asn1Error Buf := content (A.getTag img p e tag)

def getBitstringNull : Except Asn1Error Buf := content (A.getBitstringNull img p e)

def required (tag : UInt8) : Except ParserError Buf :=
  match getTag A img p e tag with
  | .error _ => .error .errFormat
  | .ok b => .ok b

/-- A bit string that must end at `e`. -/
def lastBits : Except ParserError Buf :=
  match getBitstringNull A img p e with
  | .error _ => .error .errFormat
  | .ok b => if b.stop ≠ e then .error .errFormat else .ok b

/-- An element that may be missing: the offset behind it. -/
def optional (tag : UInt8) : Except ParserError ℕ :=
  match A.getTag img p e tag with
  | (q, .error .unexpectedTag) => .ok q
  | (_, .error .other) => .error .errFormat
  | (q, .ok n) => .ok (q + n)

def critical : Except ParserError ℕ :=
  match A.getBool img p e with
  | (q, .error .unexpectedTag) => .ok q
  | (_, .error .other) => .error .errFormat
  | (q, .ok _) => .ok q

end Readers

/-! ## Extensions -/

structure Extension where
  oid : Buf
  value : Buf
  stop : ℕ
  deriving DecidableEq, Repr

/-- The body of the loop of `get_ext()` up to the look at the identifier. -/
def readExtension (A : Asn1) (img : Image) (p e : ℕ) : Except ParserError Extension := do
  let ext ← required A img p e SEQUENCE
  let oid ← required A img ext.p ext.stop MBEDTLS_ASN1_OID
  let q ← critical A img oid.stop ext.stop
  let value ← required A img q ext.stop MBEDTLS_ASN1_OCTET_STRING
  if value.stop ≠ ext.stop then .error .errFormat
  else .ok ⟨oid, value, ext.stop⟩

/-- The value of the requested extension, which must be one DER object. -/
def requestedValue (A : Asn1) (img : Image) (x : Extension) : Except ParserError Buf :=
  if x.value.len < 2 then .error .errFormat
  else if img x.value.p &&& 0x1F = 0x1F then .error .errFormat
  else if img x.value.p &&& 0xDF = 0 then .error .errFormat
  else match A.getLen img (x.value.p + 1) x.stop with
    | .error _ => .error .errFormat
    | .ok (q, n) => if q + n ≠ x.stop then .error .errFormat else .ok x.value

theorem content_ok {r : ℕ × Except Asn1Error ℕ} {b : Buf} (h : content r = .ok b) : r = (b.p, .ok b.len) := by
  obtain ⟨q, r⟩ := r
  cases r with
  | error r => cases h
  | ok n =>
    cases h
    rfl

theorem getTag_len {A : Asn1} {img : Image} {p e : ℕ} {tag : UInt8} {b : Buf}
    (h : getTag A img p e tag = .ok b) : A.getLen img (p + 1) e = .ok (b.p, b.len) :=
  (A.getTag_ok (content_ok h)).2

theorem getTag_ok {A : Asn1} {img : Image} {p e : ℕ} {tag : UInt8} {b : Buf}
    (h : getTag A img p e tag = .ok b) : p < b.p ∧ b.stop ≤ e := by
  have hlen := A.getLen_ok (getTag_len h)
  exact ⟨Nat.lt_of_succ_lt hlen.1, hlen.2⟩

theorem required_ok {A : Asn1} {img : Image} {p e : ℕ} {tag : UInt8} {b : Buf}
    (h : required A img p e tag = .ok b) : getTag A img p e tag = .ok b := by
  rw [required] at h
  split at h
  · cases h
  · cases h
    assumption

def ExtensionAt (A : Asn1) (img : Image) (p e : ℕ) (x : Extension) : Prop :=
  ∃ ext q, getTag A img p e SEQUENCE = .ok ext ∧ ext.stop = x.stop ∧
    getTag A img ext.p x.stop MBEDTLS_ASN1_OID = .ok x.oid ∧
    (q = x.oid.stop ∨ ∃ v, A.getBool img x.oid.stop x.stop = (q, .ok v)) ∧
    getTag A img q x.stop MBEDTLS_ASN1_OCTET_STRING = .ok x.value ∧ x.value.stop = x.stop

theorem readExtension_ok {A : Asn1} {img : Image} {p e : ℕ} {x : Extension}
    (h : readExtension A img p e = .ok x) : ExtensionAt A img p e x := by
  obtain ⟨ext, hext, h⟩ := bind_ok h
  obtain ⟨oid, hoid, h⟩ := bind_ok h
  obtain ⟨q, hq, h⟩ := bind_ok h
  obtain ⟨value, hvalue, h⟩ := bind_ok h
  split at h
  · cases h
  next hstop =>
  cases h
  refine ⟨ext, q, required_ok hext, rfl, required_ok hoid, ?_, required_ok hvalue, Decidable.not_not.mp hstop⟩
  rw [critical] at hq
  split at hq
  · next hbool =>
    cases hq
    exact Or.inl (A.getBool_unexpected hbool)
  · cases hq
  · next v hbool =>
    cases hq
    exact Or.inr ⟨v, hbool⟩

theorem ExtensionAt.lt {A : Asn1} {img : Image} {p e : ℕ} {x : Extension} (h : ExtensionAt A img p e x) :
    p < x.stop ∧ x.stop ≤ e := by
  obtain ⟨ext, q, hext, hstop, -⟩ := h
  have hlt := getTag_ok hext
  rw [← hstop]
  exact ⟨Nat.lt_of_lt_of_le hlt.1 (Nat.le_add_right _ _), hlt.2⟩

/-- The loop of `get_ext()` from an extension on; without an identifier it looks for none. -/
def extensionLoop (A : Asn1) (img : Image) (oid : Option (List Char)) (e p : ℕ) : Except ParserError (Option Buf) :=
  match _hx : readExtension A img p e with
  | .error r => .error r
  | .ok x =>
    match A.oidGetNumericString (bytes img x.oid) with
    | none => .error .err
    | some oidStr =>
      if oid = some oidStr then (requestedValue A img x).map some
      else if x.stop < e then extensionLoop A img oid e x.stop
      else if oid = none then .ok none
      else .error .errNotFound
termination_by e - p
decreasing_by
  have := (readExtension_ok _hx).lt
  omega

def getExt (A : Asn1) (img : Image) (v3Ext : Buf) (oid : Option (List Char)) : Except ParserError (Option Buf) :=
  extensionLoop A img oid v3Ext.stop v3Ext.p

/-! ## The certificate -/

structure Cached where
  tbs : Buf
  v3Ext : Buf
  pk : Buf
  sigAlg : Buf
  signature : Buf
  deriving DecidableEq, Repr

def v3 : List UInt8 := [CONTEXT, 3, MBEDTLS_ASN1_INTEGER, 1, 2]

def certParse (A : Asn1) (img : Image) (imgLen : ℕ) : Except ParserError Cached := do
  let crt ← required A img 0 imgLen SEQUENCE
  if crt.stop ≠ imgLen then .error .errFormat else
  let tbs ← required A img crt.p imgLen SEQUENCE
  let fin := tbs.stop
  if fin - tbs.p ≤ v3.length ∨ bytes img ⟨tbs.p, v3.length⟩ ≠ v3 then .error .errFormat else
  let serial ← required A img (tbs.p + v3.length) fin MBEDTLS_ASN1_INTEGER
  let sigAlg1 ← required A img serial.stop fin SEQUENCE
  let issuer ← required A img sigAlg1.stop fin SEQUENCE
  let validity ← required A img issuer.stop fin SEQUENCE
  let subject ← required A img validity.stop fin SEQUENCE
  let pk ← required A img subject.stop fin SEQUENCE
  let algorithm ← required A img pk.p pk.stop SEQUENCE
  let _ ← lastBits A img algorithm.stop pk.stop
  let p ← optional A img pk.stop fin (CONTEXT ||| 1)
  let p ← optional A img p fin (CONTEXT ||| 2)
  let explicit ← required A img p fin (CONTEXT ||| 3)
  if explicit.stop ≠ fin then .error .errFormat else
  let v3Ext ← required A img explicit.p fin SEQUENCE
  if v3Ext.stop ≠ fin then .error .errFormat else
  let _ ← getExt A img v3Ext none
  let inner : Buf := ⟨serial.stop, sigAlg1.stop - serial.stop⟩
  if imgLen - fin ≤ inner.len ∨ bytes img inner ≠ bytes img ⟨fin, inner.len⟩ then .error .errFormat else
  let _ ← lastBits A img (fin + inner.len) imgLen
  .ok
    { tbs := ⟨crt.p, fin - crt.p⟩
      v3Ext
      pk := ⟨subject.stop, pk.stop - subject.stop⟩
      sigAlg := inner
      signature := ⟨fin + inner.len, imgLen - (fin + inner.len)⟩ }

/-- What is kept of a certificate; nothing is after a failure. -/
def checkIntegrity (A : Asn1) (img : Image) (imgLen : ℕ) : Option ParserError × Cached :=
  match certParse A img imgLen with
  | .error r => (some r, ⟨⟨0, 0⟩, ⟨0, 0⟩, ⟨0, 0⟩, ⟨0, 0⟩, ⟨0, 0⟩⟩)
  | .ok c => (none, c)

/-- `auth_param_type_t`, with the identifier in the cookie. -/
inductive AuthParam where
  | rawData
  | hash (oid : Option (List Char))
  | nvCtr (oid : Option (List Char))
  | pubKey (oid : Option (List Char))
  | sigAlg
  | sig
  | unknown
  deriving DecidableEq, Repr

def getAuthParam (A : Asn1) (img : Image) (c : Cached) : AuthParam → Except ParserError (Option Buf)
  | .rawData => .ok (some c.tbs)
  | .hash oid => getExt A img c.v3Ext oid
  | .nvCtr oid => getExt A img c.v3Ext oid
  | .pubKey (some oid) => getExt A img c.v3Ext (some oid)
  | .pubKey none => .ok (some c.pk)
  | .sigAlg => .ok (some c.sigAlg)
  | .sig => .ok (some c.signature)
  | .unknown => .error .errNotFound

end TrustedFirmware.Auth.X509
