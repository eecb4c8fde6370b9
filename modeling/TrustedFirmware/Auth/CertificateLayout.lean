import Mathlib.Tactic
import TrustedFirmware.Auth.Certificate

/-! # The layout of an accepted certificate

Each element of an accepted certificate begins where the one in front of it ends, and the last element of
a sequence ends where the sequence does. What is kept lies in the part that is signed, but for the
signature, which is the rest of the image. -/
namespace TrustedFirmware.Auth.X509
open Staged
set_option autoImplicit false

variable {A : Asn1} {img : Image} {p e imgLen : ℕ} {c : Cached}

/-! ## Extensions -/

/-- The extensions from an offset up to `e`. -/
inductive Extensions (A : Asn1) (img : Image) (e : ℕ) : ℕ → List Extension → Prop
  | last {p : ℕ} {x : Extension} (hx : ExtensionAt A img p e x) (hstop : x.stop = e) :
      Extensions A img e p [x]
  | more {p : ℕ} {x : Extension} {xs : List Extension} (hx : ExtensionAt A img p e x) (hlt : x.stop < e)
      (hxs : Extensions A img e x.stop xs) : Extensions A img e p (x :: xs)

theorem getBool_le {q : ℕ} {v : Bool} (h : A.getBool img p e = (q, .ok v)) : p ≤ q ∧ q ≤ e := by
  obtain ⟨b, hb, rfl⟩ := A.getBool_ok h
  have hlen := A.getLen_ok (A.getTag_ok hb).2
  exact ⟨by omega, hlen.2⟩

theorem critical_ok {q : ℕ} (h : critical A img p e = .ok q) (hp : p ≤ e) : p ≤ q ∧ q ≤ e := by
  rw [critical] at h
  split at h
  · next hq =>
    cases h
    rw [A.getBool_unexpected hq]
    exact ⟨le_rfl, hp⟩
  · cases h
  · next hq =>
    cases h
    exact getBool_le hq

theorem ExtensionAt.bounds {x : Extension} (h : ExtensionAt A img p e x) :
    p ≤ x.oid.p ∧ x.oid.stop ≤ x.stop ∧ p ≤ x.value.p ∧ x.value.stop = x.stop := by
  obtain ⟨ext, q, hext, hstop, hoid, hq, hvalue, hend⟩ := h
  have h1 := getTag_ok hext
  have h2 := getTag_ok hoid
  have h3 := getTag_ok hvalue
  have hle : x.oid.p ≤ x.oid.stop := Nat.le_add_right _ _
  obtain rfl | ⟨v, hbool⟩ := hq
  · exact ⟨by omega, h2.2, by omega, hend⟩
  · have h4 := getBool_le hbool
    exact ⟨by omega, h2.2, by omega, hend⟩

section

variable {oid : Option (List Char)} {x : Extension}

theorem extensionLoop_eq (hx : readExtension A img p e = .ok x) :
    extensionLoop A img oid e p =
      match A.oidGetNumericString (bytes img x.oid) with
      | none => .error .err
      | some oidStr =>
        if oid = some oidStr then (requestedValue A img x).map some
        else if x.stop < e then extensionLoop A img oid e x.stop
        else if oid = none then .ok none
        else .error .errNotFound := by
  rw [extensionLoop]
  split
  · next herror => cases herror.symm.trans hx
  · next y hy =>
    obtain rfl : y = x := Except.ok.inj (hy.symm.trans hx)
    rfl

theorem extensionLoop_error {r : ParserError} (hx : readExtension A img p e = .error r) :
    extensionLoop A img oid e p = .error r := by
  rw [extensionLoop]
  split
  · next herror => rw [← Except.error.inj (herror.symm.trans hx)]
  · next hy => cases hy.symm.trans hx

end

def firstValue (A : Asn1) (img : Image) (oid : List Char) (xs : List Extension) : Except ParserError (Option Buf) :=
  match xs.find? fun x => A.oidGetNumericString (bytes img x.oid) = some oid with
  | none => .error .errNotFound
  | some x => (requestedValue A img x).map some

theorem firstValue_cons {x : Extension} {oidStr : List Char} (hs : A.oidGetNumericString (bytes img x.oid) = some oidStr)
    (oid : List Char) (xs : List Extension) :
    firstValue A img oid (x :: xs) =
      if some oid = some oidStr then (requestedValue A img x).map some else firstValue A img oid xs := by
  rw [firstValue, List.find?_cons, hs]
  by_cases heq : oidStr = oid
  · rw [heq, if_pos rfl, decide_eq_true rfl]
  · have hne : some oidStr ≠ some oid := fun h => heq (Option.some.inj h)
    rw [decide_eq_false hne, if_neg hne.symm]
    rfl

/-- By induction on what is left of the list: the integrity check and a request walk the same
extensions. -/
theorem extensionLoop_spec {r : Option Buf} (h : extensionLoop A img none e p = .ok r) :
    ∃ xs, Extensions A img e p xs ∧ ∀ oid, extensionLoop A img (some oid) e p = firstValue A img oid xs := by
  induction hn : e - p using Nat.strongRecOn generalizing p with
  | _ n ih =>
    cases hx : readExtension A img p e with
    | error r' =>
      rw [extensionLoop_error hx] at h
      cases h
    | ok x =>
      have hat := readExtension_ok hx
      rw [extensionLoop_eq hx] at h
      cases hs : A.oidGetNumericString (bytes img x.oid) with
      | none =>
        rw [hs] at h
        cases h
      | some oidStr =>
        rw [hs] at h
        dsimp only at h
        rw [if_neg nofun] at h
        by_cases hlt : x.stop < e
        · rw [if_pos hlt] at h
          have hstep := hat.lt
          obtain ⟨xs, hxs, hspec⟩ := ih (e - x.stop) (by omega) h rfl
          refine ⟨x :: xs, .more hat hlt hxs, fun oid => ?_⟩
          rw [extensionLoop_eq hx, hs, firstValue_cons hs, ← hspec oid]
          dsimp only
          rw [if_pos hlt]
        · refine ⟨[x], .last hat (le_antisymm hat.lt.2 (not_lt.mp hlt)), fun oid => ?_⟩
          rw [extensionLoop_eq hx, hs, firstValue_cons hs]
          dsimp only
          rw [if_neg hlt, if_neg (Option.some_ne_none oid)]
          rfl

theorem Extensions.value_in {xs : List Extension} (h : Extensions A img e p xs) :
    ∀ x ∈ xs, p ≤ x.value.p ∧ x.value.stop ≤ e := by
  induction h with
  | last hx hstop =>
    intro x hmem
    obtain rfl := List.mem_singleton.mp hmem
    exact ⟨hx.bounds.2.2.1, (hx.bounds.2.2.2.trans hstop).le⟩
  | more hx hlt _ ih =>
    intro y hy
    obtain rfl | hmem := List.mem_cons.mp hy
    · exact ⟨hx.bounds.2.2.1, hx.bounds.2.2.2.le.trans hlt.le⟩
    · exact ⟨hx.lt.1.le.trans (ih y hmem).1, (ih y hmem).2⟩

/-! ## What a request reads -/

section

variable {img' : Image}

theorem bytes_congr {b : Buf} (h : ∀ k, b.p ≤ k → k < b.stop → img k = img' k) : bytes img b = bytes img' b := by
  refine List.map_congr_left fun i hi => h _ (Nat.le_add_right _ _) ?_
  exact Nat.add_lt_add_left (List.mem_range.mp hi) _

theorem required_congr {tag : UInt8} (h : ∀ k, p ≤ k → k < e → img k = img' k) :
    required A img p e tag = required A img' p e tag := by
  rw [required, required, getTag, getTag, A.getTag_congr h]

theorem critical_congr (h : ∀ k, p ≤ k → k < e → img k = img' k) :
    critical A img p e = critical A img' p e := by
  rw [critical, critical, A.getBool_congr h]

theorem bind_congr_ok {ε α β : Type} {x y : Except ε α} {f g : α → Except ε β} (hxy : x = y)
    (hf : ∀ a, x = .ok a → f a = g a) : (x >>= f) = (y >>= g) := by
  subst hxy
  cases x with
  | error r => rfl
  | ok a => exact hf a rfl

theorem readExtension_congr (h : ∀ k, p ≤ k → k < e → img k = img' k) :
    readExtension A img p e = readExtension A img' p e := by
  refine bind_congr_ok (required_congr h) fun ext hext => ?_
  have h1 := getTag_ok (required_ok hext)
  have hsub : ∀ q, ext.p ≤ q → ∀ k, q ≤ k → k < ext.stop → img k = img' k :=
    fun q hq k hk hke => h k (by omega) (by omega)
  refine bind_congr_ok (required_congr (hsub _ le_rfl)) fun oid hoid => ?_
  have h2 := getTag_ok (required_ok hoid)
  have hle : oid.p ≤ oid.stop := Nat.le_add_right _ _
  refine bind_congr_ok (critical_congr (hsub _ (by omega))) fun q hq => ?_
  have h3 := critical_ok hq h2.2
  exact bind_congr_ok (required_congr (hsub _ (by omega))) fun _ _ => rfl

theorem requestedValue_congr {x : Extension} (hx : x.value.stop = x.stop)
    (h : ∀ k, x.value.p ≤ k → k < x.stop → img k = img' k) :
    requestedValue A img x = requestedValue A img' x := by
  rw [requestedValue, requestedValue]
  by_cases hlen : x.value.len < 2
  · rw [if_pos hlen, if_pos hlen]
  · have hstop : x.value.p + x.value.len = x.stop := hx
    rw [if_neg hlen, if_neg hlen, h x.value.p le_rfl (by omega),
      A.getLen_congr fun k hk hke => h k ((Nat.le_succ _).trans hk) hke]

theorem extensionLoop_congr {oid : Option (List Char)} (h : ∀ k, p ≤ k → k < e → img k = img' k) :
    extensionLoop A img oid e p = extensionLoop A img' oid e p := by
  induction hn : e - p using Nat.strongRecOn generalizing p with
  | _ n ih =>
    have hread := readExtension_congr (A := A) h
    cases hx : readExtension A img p e with
    | error r => rw [extensionLoop_error hx, extensionLoop_error (hread.symm.trans hx)]
    | ok x =>
      have hx' : readExtension A img' p e = .ok x := hread.symm.trans hx
      have hat := readExtension_ok hx
      have hstep := hat.lt
      obtain ⟨hoid, hoidStop, hvalue, hend⟩ := hat.bounds
      have hbytes : bytes img x.oid = bytes img' x.oid :=
        bytes_congr fun k hk hke => h k (by omega) (by omega)
      have hval : requestedValue A img x = requestedValue A img' x :=
        requestedValue_congr hend fun k hk hke => h k (by omega) (by omega)
      rw [extensionLoop_eq hx, extensionLoop_eq hx', hbytes, hval,
        ih (e - x.stop) (by omega) (fun k hk hke => h k (by omega) hke) rfl]

end

/-! ## The certificate -/

structure Elements where
  crt : Buf
  tbs : Buf
  serial : Buf
  sigAlg : Buf
  issuer : Buf
  validity : Buf
  subject : Buf
  pk : Buf
  algorithm : Buf
  key : Buf
  issuerUid : ℕ
  subjectUid : ℕ
  explicit : Buf
  bits : Buf

/-- The bytes of the first element that was read, from its tag on. -/
def Elements.inner (f : Elements) : Buf := ⟨f.serial.stop, f.sigAlg.stop - f.serial.stop⟩

/-- A certificate without a gap: every element begins where the one in front of it ends, and the last one
of a sequence ends with the sequence. The contents of the serial number, of the names, of the validity, of
the algorithms and of the unique identifiers are not looked at. -/
structure Layout (A : Asn1) (img : Image) (imgLen : ℕ) (f : Elements) (c : Cached) : Prop where
  crt : getTag A img 0 imgLen SEQUENCE = .ok f.crt
  crt_stop : f.crt.stop = imgLen
  tbs : getTag A img f.crt.p imgLen SEQUENCE = .ok f.tbs
  version : v3.length < f.tbs.stop - f.tbs.p ∧ bytes img ⟨f.tbs.p, v3.length⟩ = v3
  serial : getTag A img (f.tbs.p + v3.length) f.tbs.stop MBEDTLS_ASN1_INTEGER = .ok f.serial
  sigAlg : getTag A img f.serial.stop f.tbs.stop SEQUENCE = .ok f.sigAlg
  issuer : getTag A img f.sigAlg.stop f.tbs.stop SEQUENCE = .ok f.issuer
  validity : getTag A img f.issuer.stop f.tbs.stop SEQUENCE = .ok f.validity
  subject : getTag A img f.validity.stop f.tbs.stop SEQUENCE = .ok f.subject
  pk : getTag A img f.subject.stop f.tbs.stop SEQUENCE = .ok f.pk
  algorithm : getTag A img f.pk.p f.pk.stop SEQUENCE = .ok f.algorithm
  key : getBitstringNull A img f.algorithm.stop f.pk.stop = .ok f.key
  key_stop : f.key.stop = f.pk.stop
  issuerUid : optional A img f.pk.stop f.tbs.stop (CONTEXT ||| 1) = .ok f.issuerUid
  subjectUid : optional A img f.issuerUid f.tbs.stop (CONTEXT ||| 2) = .ok f.subjectUid
  explicit : getTag A img f.subjectUid f.tbs.stop (CONTEXT ||| 3) = .ok f.explicit
  explicit_stop : f.explicit.stop = f.tbs.stop
  extensions : getTag A img f.explicit.p f.tbs.stop SEQUENCE = .ok c.v3Ext
  extensions_stop : c.v3Ext.stop = f.tbs.stop
  outer : f.inner.len < imgLen - f.tbs.stop ∧ bytes img f.inner = bytes img ⟨f.tbs.stop, f.inner.len⟩
  signature : getBitstringNull A img (f.tbs.stop + f.inner.len) imgLen = .ok f.bits
  signature_stop : f.bits.stop = imgLen
  cached_tbs : c.tbs = ⟨f.crt.p, f.tbs.stop - f.crt.p⟩
  cached_pk : c.pk = ⟨f.subject.stop, f.pk.stop - f.subject.stop⟩
  cached_sigAlg : c.sigAlg = f.inner
  cached_signature : c.signature = ⟨f.tbs.stop + f.inner.len, imgLen - (f.tbs.stop + f.inner.len)⟩

theorem lastBits_ok {b : Buf} (h : lastBits A img p e = .ok b) :
    getBitstringNull A img p e = .ok b ∧ b.stop = e := by
  rw [lastBits] at h
  split at h
  · cases h
  next hb =>
  split at h
  · cases h
  next hstop =>
  cases h
  exact ⟨hb, not_not.mp hstop⟩

theorem unless_ok {α : Type} {q : Prop} [Decidable q] {r : ParserError} {x : Except ParserError α} {a : α}
    (h : (if q then .error r else x) = .ok a) : ¬ q ∧ x = .ok a := by
  split at h
  · cases h
  · exact ⟨‹¬ q›, h⟩

theorem certParse_layout (h : certParse A img imgLen = .ok c) :
    (∃ f, Layout A img imgLen f c) ∧ ∃ r, getExt A img c.v3Ext none = .ok r := by
  obtain ⟨crt, hcrt, h⟩ := bind_ok h
  obtain ⟨hcrtStop, h⟩ := unless_ok h
  obtain ⟨tbs, htbs, h⟩ := bind_ok h
  obtain ⟨hversion, h⟩ := unless_ok h
  obtain ⟨serial, hserial, h⟩ := bind_ok h
  obtain ⟨sigAlg, hsigAlg, h⟩ := bind_ok h
  obtain ⟨issuer, hissuer, h⟩ := bind_ok h
  obtain ⟨validity, hvalidity, h⟩ := bind_ok h
  obtain ⟨subject, hsubject, h⟩ := bind_ok h
  obtain ⟨pk, hpk, h⟩ := bind_ok h
  obtain ⟨algorithm, halgorithm, h⟩ := bind_ok h
  obtain ⟨key, hkey, h⟩ := bind_ok h
  obtain ⟨issuerUid, hissuerUid, h⟩ := bind_ok h
  obtain ⟨subjectUid, hsubjectUid, h⟩ := bind_ok h
  obtain ⟨explicit, hexplicit, h⟩ := bind_ok h
  obtain ⟨hexplicitStop, h⟩ := unless_ok h
  obtain ⟨v3Ext, hv3Ext, h⟩ := bind_ok h
  obtain ⟨hv3ExtStop, h⟩ := unless_ok h
  obtain ⟨r, hr, h⟩ := bind_ok h
  obtain ⟨houter, h⟩ := unless_ok h
  obtain ⟨bits, hbits, h⟩ := bind_ok h
  cases h
  rw [not_or, not_le, not_not] at hversion houter
  obtain ⟨hkey, hkeyStop⟩ := lastBits_ok hkey
  obtain ⟨hbits, hbitsStop⟩ := lastBits_ok hbits
  exact ⟨⟨⟨crt, tbs, serial, sigAlg, issuer, validity, subject, pk, algorithm, key, issuerUid, subjectUid,
    explicit, bits⟩, required_ok hcrt, not_not.mp hcrtStop, required_ok htbs, hversion, required_ok hserial,
    required_ok hsigAlg, required_ok hissuer, required_ok hvalidity, required_ok hsubject, required_ok hpk,
    required_ok halgorithm, hkey, hkeyStop, hissuerUid, hsubjectUid, required_ok hexplicit,
    not_not.mp hexplicitStop, required_ok hv3Ext, not_not.mp hv3ExtStop, houter, hbits, hbitsStop, rfl, rfl, rfl,
    rfl⟩, r, hr⟩

theorem optional_ok {tag : UInt8} {q : ℕ} (h : optional A img p e tag = .ok q) : p ≤ q := by
  rw [optional] at h
  split at h
  · next hq =>
    cases h
    exact (A.getTag_unexpected hq).ge
  · cases h
  · next hq =>
    cases h
    have hlen := A.getLen_ok (A.getTag_ok hq).2
    omega

theorem getTag_le {tag : UInt8} {b : Buf} (h : getTag A img p e tag = .ok b) : p ≤ b.p ∧ p ≤ b.stop ∧ b.stop ≤ e :=
  have hlt := getTag_ok h
  ⟨hlt.1.le, (hlt.1.trans_le (Nat.le_add_right _ _)).le, hlt.2⟩

def Buf.In (b c : Buf) : Prop := c.p ≤ b.p ∧ b.stop ≤ c.stop

instance (b c : Buf) : Decidable (b.In c) := inferInstanceAs (Decidable (_ ∧ _))

theorem bytes_append (img : Image) (p m n : ℕ) :
    bytes img ⟨p, m⟩ ++ bytes img ⟨p + m, n⟩ = bytes img ⟨p, m + n⟩ := by
  simp only [bytes, List.range_add, List.map_append, List.map_map]
  congr 1
  refine List.map_congr_left fun i _ => ?_
  simp only [Function.comp, Nat.add_assoc]

section

variable {f : Elements} (h : Layout A img imgLen f c)
include h

theorem Layout.order : f.crt.p ≤ f.tbs.p ∧ f.tbs.p ≤ f.serial.stop ∧ f.serial.stop ≤ f.sigAlg.stop ∧
    f.sigAlg.stop ≤ f.subject.stop ∧ f.subject.stop ≤ f.pk.stop ∧ f.pk.stop ≤ c.v3Ext.p ∧
    c.v3Ext.stop = f.tbs.stop ∧ f.pk.stop ≤ f.tbs.stop ∧ f.sigAlg.stop ≤ f.tbs.stop ∧
    f.tbs.stop + f.inner.len ≤ imgLen := by
  have h1 := getTag_le h.tbs
  have h2 := getTag_le h.serial
  have h3 := getTag_le h.sigAlg
  have h4 := getTag_le h.issuer
  have h5 := getTag_le h.validity
  have h6 := getTag_le h.subject
  have h7 := getTag_le h.pk
  have h8 := optional_ok h.issuerUid
  have h9 := optional_ok h.subjectUid
  have h10 := getTag_le h.explicit
  have h11 := getTag_le h.extensions
  have h12 := h.outer.1
  refine ⟨h1.1, by omega, by omega, by omega, by omega, by omega, h.extensions_stop, by omega, by omega, by omega⟩

theorem Layout.slices : c.v3Ext.In c.tbs ∧ c.pk.In c.tbs ∧ c.sigAlg.In c.tbs ∧
    c.signature.p = c.tbs.stop + c.sigAlg.len := by
  obtain ⟨h1, h2, h3, h4, h5, h6, h7, h8, h9, -⟩ := h.order
  have hsubject : f.crt.p ≤ f.subject.stop := by omega
  have hserial : f.crt.p ≤ f.serial.stop := by omega
  have hin : ∀ {a b : ℕ}, f.crt.p ≤ a → b ≤ f.tbs.stop → f.crt.p ≤ a ∧ b ≤ f.crt.p + (f.tbs.stop - f.crt.p) :=
    fun ha hb => ⟨ha, by omega⟩
  rw [h.cached_tbs, h.cached_pk, h.cached_sigAlg, h.cached_signature]
  refine ⟨hin (by omega) h7.le, hin hsubject ?_, hin hserial ?_, ?_⟩
  · show f.subject.stop + (f.pk.stop - f.subject.stop) ≤ f.tbs.stop
    omega
  · show f.serial.stop + (f.sigAlg.stop - f.serial.stop) ≤ f.tbs.stop
    omega
  · show f.tbs.stop + f.inner.len = f.crt.p + (f.tbs.stop - f.crt.p) + f.inner.len
    omega

theorem Layout.whole : bytes img ⟨0, imgLen⟩ =
    bytes img ⟨0, c.tbs.p⟩ ++ bytes img c.tbs ++ bytes img c.sigAlg ++ bytes img c.signature := by
  obtain ⟨h1, h2, -, -, -, -, -, -, -, hend⟩ := h.order
  rw [h.cached_sigAlg, h.outer.2, h.cached_signature, h.cached_tbs]
  have hle : f.crt.p ≤ f.tbs.stop := h1.trans (Nat.le_add_right _ _)
  have hsum : f.crt.p + (f.tbs.stop - f.crt.p) = f.tbs.stop := Nat.add_sub_cancel' hle
  have htbs := bytes_append img 0 f.crt.p (f.tbs.stop - f.crt.p)
  have halg := bytes_append img 0 f.tbs.stop f.inner.len
  have hsig := bytes_append img 0 (f.tbs.stop + f.inner.len) (imgLen - (f.tbs.stop + f.inner.len))
  rw [Nat.zero_add] at htbs halg hsig
  rw [htbs, hsum, halg, hsig, Nat.add_sub_cancel' hend]

end

/-- An accepted certificate is the header of the outer sequence, the signed part, the signature algorithm,
once more as in the signed part, and the signature. What is kept is in the signed part, but for the
signature. A request gives the value of the first extension with the identifier, if it is a DER object,
and depends on the bytes of the extensions alone. -/
theorem certificate_accepted {A : Asn1} {img : Image} {imgLen : ℕ} {c : Cached}
    (h : certParse A img imgLen = .ok c) :
    bytes img ⟨0, imgLen⟩ =
        bytes img ⟨0, c.tbs.p⟩ ++ bytes img c.tbs ++ bytes img c.sigAlg ++ bytes img c.signature ∧
      (∃ f, Layout A img imgLen f c) ∧
      (c.v3Ext.In c.tbs ∧ c.pk.In c.tbs ∧ c.sigAlg.In c.tbs ∧ c.signature.p = c.tbs.stop + c.sigAlg.len) ∧
      (∃ xs, Extensions A img c.v3Ext.stop c.v3Ext.p xs ∧ (∀ x ∈ xs, x.value.In c.v3Ext) ∧
        ∀ oid, getExt A img c.v3Ext (some oid) = firstValue A img oid xs) ∧
      ∀ (img' : Image) (oid : Option (List Char)),
        (∀ k, c.v3Ext.p ≤ k → k < c.v3Ext.stop → img k = img' k) →
        getExt A img c.v3Ext oid = getExt A img' c.v3Ext oid := by
  obtain ⟨⟨f, hf⟩, r, hr⟩ := certParse_layout h
  obtain ⟨xs, hxs, hspec⟩ := extensionLoop_spec hr
  exact ⟨hf.whole, ⟨f, hf⟩, hf.slices, ⟨xs, hxs, hxs.value_in, hspec⟩, fun _ _ => extensionLoop_congr⟩

/-! ## A small certificate -/

def shortLen (img : Image) (p e : ℕ) : Except Asn1Error (ℕ × ℕ) :=
  if p < e ∧ img p < 128 ∧ p + 1 + (img p).toNat ≤ e then .ok (p + 1, (img p).toNat) else .error .other

theorem shortLen_ok {q n : ℕ} (h : shortLen img p e = .ok (q, n)) : p < q ∧ q + n ≤ e := by
  rw [shortLen] at h
  split at h
  · next hp =>
    cases h
    exact ⟨Nat.lt_succ_self _, hp.2.2⟩
  · cases h

theorem shortLen_congr {img' : Image} (h : ∀ k, p ≤ k → k < e → img k = img' k) :
    shortLen img p e = shortLen img' p e := by
  rw [shortLen, shortLen]
  by_cases hp : p < e
  · rw [h p le_rfl hp]
  · rw [if_neg fun hc => hp hc.1, if_neg fun hc => hp hc.1]

def shortTag (img : Image) (p e : ℕ) (tag : UInt8) : ℕ × Except Asn1Error ℕ :=
  if e ≤ p then (p, .error .other)
  else if img p ≠ tag then (p, .error .unexpectedTag)
  else match shortLen img (p + 1) e with
    | .error _ => (p + 1, .error .other)
    | .ok (q, n) => (q, .ok n)

theorem shortTag_ok {tag : UInt8} {q n : ℕ} (h : shortTag img p e tag = (q, .ok n)) :
    img p = tag ∧ shortLen img (p + 1) e = .ok (q, n) := by
  grind [shortTag]

theorem shortTag_unexpected {tag : UInt8} {q : ℕ} (h : shortTag img p e tag = (q, .error .unexpectedTag)) :
    q = p := by
  grind [shortTag]

theorem shortTag_congr {img' : Image} {tag : UInt8} (h : ∀ k, p ≤ k → k < e → img k = img' k) :
    shortTag img p e tag = shortTag img' p e tag := by
  rw [shortTag, shortTag]
  by_cases hp : e ≤ p
  · rw [if_pos hp, if_pos hp]
  · rw [if_neg hp, if_neg hp, h p le_rfl (not_le.mp hp),
      shortLen_congr fun k hk hke => h k ((Nat.le_succ p).trans hk) hke]

def shortBool (img : Image) (p e : ℕ) : ℕ × Except Asn1Error Bool :=
  match shortTag img p e MBEDTLS_ASN1_BOOLEAN with
  | (q, .error r) => (q, .error r)
  | (q, .ok n) => if n ≠ 1 then (q, .error .other) else (q + 1, .ok (img q != 0))

theorem shortBool_congr {img' : Image} (h : ∀ k, p ≤ k → k < e → img k = img' k) :
    shortBool img p e = shortBool img' p e := by
  rw [shortBool, shortBool, ← shortTag_congr h]
  split
  · rfl
  next q n hq =>
  have hlen := shortLen_ok (shortTag_ok hq).2
  split
  · rfl
  · rw [h q (by omega) (by omega)]

def shortBits (img : Image) (p e : ℕ) : ℕ × Except Asn1Error ℕ :=
  match shortTag img p e MBEDTLS_ASN1_BIT_STRING with
  | (q, .ok (n + 1)) => if img q ≠ 0 then (q, .error .other) else (q + 1, .ok n)
  | (q, _) => (q, .error .other)

/-- Lengths below 128 and identifiers with small arcs. -/
def shortForm : Asn1 where
  getLen := shortLen
  getTag := shortTag
  getBool := shortBool
  getBitstringNull := shortBits
  oidGetNumericString
    | [] => none
    | b :: bs => some ((Nat.toDigits 10 (b.toNat / 40) ++ '.' :: Nat.toDigits 10 (b.toNat % 40)) ++
        bs.flatMap fun a => '.' :: Nat.toDigits 10 a.toNat)
  getLen_ok := shortLen_ok
  getLen_congr := shortLen_congr
  getTag_ok := shortTag_ok
  getTag_unexpected := shortTag_unexpected
  getTag_congr := shortTag_congr
  getBool_ok h := by grind [shortBool]
  getBool_unexpected h := by grind [shortBool, shortTag_unexpected]
  getBool_congr := shortBool_congr
  getBitstringNull_ok h := by grind [shortBits]

/-- A certificate with the extension 1.2, whose value is an octet string of the given length. -/
def smallCertificate (len : UInt8) : Image := fun k => List.getD
  [0x30, 45,
    0x30, 38, 0xA0, 3, 2, 1, 2, 2, 1, 1, 0x30, 0, 0x30, 0, 0x30, 0, 0x30, 0, 0x30, 5, 0x30, 0, 3, 1, 0,
    0xA3, 13, 0x30, 11, 0x30, 9, 6, 1, 42, 4, 4, 4, len, 0xAA, 0xBB,
    0x30, 0, 3, 1, 0] k 0

def smallCached : Cached := ⟨⟨2, 40⟩, ⟨31, 11⟩, ⟨20, 7⟩, ⟨12, 2⟩, ⟨44, 3⟩⟩

theorem certificate_accepted_small :
    certParse shortForm (smallCertificate 2) 47 = .ok smallCached ∧
      ∃ xs, Extensions shortForm (smallCertificate 2) smallCached.v3Ext.stop smallCached.v3Ext.p xs ∧
        (∀ x ∈ xs, x.value.In smallCached.v3Ext) ∧
        ∀ oid, getExt shortForm (smallCertificate 2) smallCached.v3Ext (some oid) =
          firstValue shortForm (smallCertificate 2) oid xs := by
  have h : certParse shortForm (smallCertificate 2) 47 = .ok smallCached := by decide +kernel
  exact ⟨h, (certificate_accepted h).2.2.2.1⟩

/-- The signature that is kept is not in the signed part, and a request fails for an extension that is
there but whose value is too long for it. -/
theorem signature_not_signed :
    certParse shortForm (smallCertificate 2) 47 = .ok smallCached ∧
      ¬ smallCached.signature.In smallCached.tbs ∧
      getExt shortForm (smallCertificate 2) smallCached.v3Ext (some ['1', '.', '2']) = .ok (some ⟨38, 4⟩) ∧
      certParse shortForm (smallCertificate 3) 47 = .ok smallCached ∧
      getExt shortForm (smallCertificate 3) smallCached.v3Ext (some ['1', '.', '2']) = .error .errFormat := by
  decide +kernel

/-! ## What is signed -/

theorem requestedValue_ok {x : Extension} {b : Buf} (h : requestedValue A img x = .ok b) : b = x.value := by
  rw [requestedValue] at h
  repeat' split at h
  all_goals cases h
  rfl

theorem extensionLoop_in {oid : Option (List Char)} {b : Buf} (h : extensionLoop A img oid e p = .ok (some b)) :
    p ≤ b.p ∧ b.stop ≤ e := by
  fun_induction extensionLoop A img oid e p with
  | case1 => cases h
  | case2 => cases h
  | case3 p x hx oidStr hs heq =>
    cases hv : requestedValue A img x with
    | error r =>
      rw [hv] at h
      cases h
    | ok v =>
      rw [hv] at h
      cases h
      have hat := readExtension_ok hx
      rw [requestedValue_ok hv]
      exact ⟨hat.bounds.2.2.1, hat.bounds.2.2.2.trans_le hat.lt.2⟩
  | case4 p x hx oidStr hs hne hlt ih =>
    have hrest := ih h
    exact ⟨(readExtension_ok hx).lt.1.le.trans hrest.1, hrest.2⟩
  | case5 => cases h
  | case6 => cases h

/-- A length is told by its own bytes, whatever is behind it and wherever the image ends. -/
def Asn1.SelfDelimiting (A : Asn1) : Prop :=
  ∀ {img img' : Image} {p e e' : ℕ} {r r' : ℕ × ℕ}, A.getLen img p e = .ok r → A.getLen img' p e' = .ok r' →
    (∀ k, p ≤ k → k < r.1 → img k = img' k) → r' = r

section TwoImages

variable {img' : Image} {imgLen' : ℕ} {c' : Cached}

theorem getTag_same {p' e' : ℕ} {tag : UInt8} {b b' : Buf} (h : getTag A img p e tag = .ok b)
    (h' : getTag A img' p' e' tag = .ok b') (hp : p' = p) (he : e' = e)
    (hsame : ∀ k, p ≤ k → k < e → img k = img' k) : b' = b := by
  subst hp he
  rw [getTag, ← A.getTag_congr hsame] at h'
  exact Except.ok.inj (h'.symm.trans h)

theorem optional_same {p' e' : ℕ} {tag : UInt8} {q q' : ℕ} (h : optional A img p e tag = .ok q)
    (h' : optional A img' p' e' tag = .ok q') (hp : p' = p) (he : e' = e)
    (hsame : ∀ k, p ≤ k → k < e → img k = img' k) : q' = q := by
  subst hp he
  rw [optional, ← A.getTag_congr hsame] at h'
  exact Except.ok.inj (h'.symm.trans h)

/-- Two certificates with the same signed part keep the same slices of it. -/
theorem Layout.same {f f' : Elements} (hA : A.SelfDelimiting) (h : Layout A img imgLen f c)
    (h' : Layout A img' imgLen' f' c') (htbs : c'.tbs = c.tbs)
    (hsame : ∀ k, c.tbs.p ≤ k → k < c.tbs.stop → img k = img' k) :
    c'.v3Ext = c.v3Ext ∧ c'.pk = c.pk ∧ c'.sigAlg = c.sigAlg := by
  obtain ⟨h1, h2, h3, h4, h5, h6, h7, h8, h9, -⟩ := h.order
  rw [h.cached_tbs] at hsame
  rw [h.cached_tbs, h'.cached_tbs, Buf.mk.injEq] at htbs
  have hstop : f.tbs.p ≤ f.tbs.stop := Nat.le_add_right _ _
  have hcrt := htbs.1
  have hin : ∀ q, f.crt.p ≤ q → ∀ k, q ≤ k → k < f.tbs.stop → img k = img' k :=
    fun q hq k h1 h2 => hsame k (hq.trans h1) (show k < f.crt.p + (f.tbs.stop - f.crt.p) by omega)
  -- The header of the signed part tells where its content is.
  have hcontent : f'.tbs = f.tbs := by
    have hlen := getTag_len h.tbs
    have hlen' := getTag_len h'.tbs
    rw [hcrt] at hlen'
    have heq := hA hlen hlen' fun k hk hkp => hin _ (Nat.le_succ _) k hk (hkp.trans_le hstop)
    rw [Prod.mk.injEq] at heq
    exact (Buf.mk.injEq ..).mpr heq
  have hend : f'.tbs.stop = f.tbs.stop := congrArg Buf.stop hcontent
  have hserial := getTag_same h.serial h'.serial (by rw [hcontent]) hend (hin _ (by omega))
  have hsigAlg := getTag_same h.sigAlg h'.sigAlg (by rw [hserial]) hend (hin _ (by omega))
  have h10 := getTag_le h.issuer
  have h11 := getTag_le h.validity
  have hissuer := getTag_same h.issuer h'.issuer (by rw [hsigAlg]) hend (hin _ (by omega))
  have hvalidity := getTag_same h.validity h'.validity (by rw [hissuer]) hend (hin _ (by omega))
  have hsubject := getTag_same h.subject h'.subject (by rw [hvalidity]) hend (hin _ (by omega))
  have hpk := getTag_same h.pk h'.pk (by rw [hsubject]) hend (hin _ (by omega))
  have h12 := optional_ok h.issuerUid
  have h13 := optional_ok h.subjectUid
  have huid := optional_same h.issuerUid h'.issuerUid (by rw [hpk]) hend (hin _ (by omega))
  have huid' := optional_same h.subjectUid h'.subjectUid huid hend (hin _ (by omega))
  have h14 := getTag_le h.explicit
  have hexplicit := getTag_same h.explicit h'.explicit huid' hend (hin _ (by omega))
  refine ⟨getTag_same h.extensions h'.extensions (by rw [hexplicit]) hend (hin _ (by omega)), ?_, ?_⟩
  · rw [h.cached_pk, h'.cached_pk, hsubject, hpk]
  · rw [h.cached_sigAlg, h'.cached_sigAlg, Elements.inner, Elements.inner, hserial, hsigAlg]

theorem certParse_of_integrity (h : checkIntegrity A img imgLen = (none, c)) :
    certParse A img imgLen = .ok c := by
  rw [checkIntegrity] at h
  split at h
  · cases h
  · cases h
    assumption

/-- **Parameters are signed.** Two accepted certificates with the same signed part, each with what was kept
of it, give the same answer to everything but the question for the signature, and what they give lies in
the signed part. -/
theorem authParam_signed (hA : A.SelfDelimiting) (h : checkIntegrity A img imgLen = (none, c))
    (h' : checkIntegrity A img' imgLen' = (none, c')) (htbs : c'.tbs = c.tbs)
    (hsame : ∀ k, c.tbs.p ≤ k → k < c.tbs.stop → img k = img' k) (param : AuthParam) (hp : param ≠ .sig) :
    getAuthParam A img c param = getAuthParam A img' c' param ∧
      ∀ b, getAuthParam A img c param = .ok (some b) → b.In c.tbs ∧ bytes img b = bytes img' b := by
  obtain ⟨⟨f, hf⟩, -⟩ := certParse_layout (certParse_of_integrity h)
  obtain ⟨⟨f', hf'⟩, -⟩ := certParse_layout (certParse_of_integrity h')
  obtain ⟨hext, hpk, halg⟩ := hf.same hA hf' htbs hsame
  obtain ⟨⟨hlow, hhigh⟩, hpkIn, halgIn, -⟩ := hf.slices
  have hget : ∀ oid, getExt A img c.v3Ext oid = getExt A img' c'.v3Ext oid := fun oid => by
    rw [hext]
    exact extensionLoop_congr fun k h1 h2 => hsame k (hlow.trans h1) (h2.trans_le hhigh)
  have hin : ∀ {oid : Option (List Char)} {b : Buf}, getExt A img c.v3Ext oid = .ok (some b) → b.In c.tbs :=
    fun hb => ⟨hlow.trans (extensionLoop_in hb).1, (extensionLoop_in hb).2.trans hhigh⟩
  have hparam : getAuthParam A img c param = getAuthParam A img' c' param ∧
      ∀ b, getAuthParam A img c param = .ok (some b) → b.In c.tbs := by
    cases param with
    | rawData => exact ⟨by rw [getAuthParam, getAuthParam, htbs], by rintro b ⟨⟩; exact ⟨le_rfl, le_rfl⟩⟩
    | hash oid => exact ⟨hget oid, fun _ => hin⟩
    | nvCtr oid => exact ⟨hget oid, fun _ => hin⟩
    | pubKey oid =>
      cases oid with
      | none => exact ⟨by rw [getAuthParam, getAuthParam, hpk], by rintro b ⟨⟩; exact hpkIn⟩
      | some oid => exact ⟨hget (some oid), fun _ => hin⟩
    | sigAlg => exact ⟨by rw [getAuthParam, getAuthParam, halg], by rintro b ⟨⟩; exact halgIn⟩
    | sig => exact absurd rfl hp
    | unknown => exact ⟨rfl, nofun⟩
  exact ⟨hparam.1, fun b hb => ⟨hparam.2 b hb, bytes_congr fun k h1 h2 =>
    hsame k ((hparam.2 b hb).1.trans h1) (h2.trans_le (hparam.2 b hb).2)⟩⟩

end TwoImages

theorem shortForm_selfDelimiting : shortForm.SelfDelimiting := by
  intro img img' p e e' r r' h h' hsame
  simp only [shortForm, shortLen] at h h'
  split at h
  · split at h'
    · cases h
      cases h'
      rw [hsame p le_rfl (Nat.lt_succ_self p)]
    · cases h'
  · cases h

def resigned : Image := fun k => if k = 1 then 46 else if k = 45 then 2 else smallCertificate 2 k

theorem authParam_signed_small : resigned 45 ≠ smallCertificate 2 45 ∧
    getAuthParam shortForm resigned { smallCached with signature := ⟨44, 4⟩ } (.hash (some ['1', '.', '2'])) =
      .ok (some ⟨38, 4⟩) := by
  have hget : getAuthParam shortForm (smallCertificate 2) smallCached (.hash (some ['1', '.', '2'])) =
      .ok (some ⟨38, 4⟩) := by decide +kernel
  refine ⟨by decide, ?_⟩
  rw [← (@authParam_signed shortForm (smallCertificate 2) 47 smallCached resigned 48
    { smallCached with signature := ⟨44, 4⟩ } shortForm_selfDelimiting (by decide +kernel)
    (by decide +kernel) rfl (fun k hk hk' => ?_) (.hash (some ['1', '.', '2'])) nofun).1, hget]
  have hlow : 2 ≤ k := hk
  have hhigh : k < 42 := hk'
  rw [resigned, if_neg (by omega), if_neg (by omega)]

end TrustedFirmware.Auth.X509
