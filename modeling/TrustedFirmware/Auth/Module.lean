import TrustedFirmware.Common

/-! # The authentication module

`auth_mod.c` over an arbitrary chain of trust: the methods of an image are tried in table order, the
platform counter is raised after the last of them, and the parameters for the children are copied
to the buffers that the table names. The parser, the crypto module and the platform are
parameters. -/
namespace TrustedFirmware.Auth
open Libc
set_option autoImplicit false

abbrev Data := List UInt8

inductive ImgType where
  | raw
  | plat
  | cert
  deriving DecidableEq, Repr

inductive ParamType where
  | none
  | rawData
  | sig
  | sigAlg
  | hash
  | pubKey
  | nvCtr
  deriving DecidableEq, Repr

/-- `auth_param_type_desc_t`. The cookie is an object identifier; `none` is the null pointer. -/
structure ParamTypeDesc (κ : Type) where
  type : ParamType
  cookie : Option κ
  deriving DecidableEq, Repr

/-- `auth_param_desc_t`: a parameter and the buffer it is copied to. -/
structure ParamDesc (β κ : Type) where
  typeDesc : ParamTypeDesc κ
  ptr : β
  len : ℕ
  deriving DecidableEq, Repr

structure HashParam (κ : Type) where
  data : ParamTypeDesc κ
  hash : ParamTypeDesc κ
  deriving DecidableEq, Repr

structure SigParam (κ : Type) where
  pk : ParamTypeDesc κ
  sig : ParamTypeDesc κ
  alg : ParamTypeDesc κ
  data : ParamTypeDesc κ
  deriving DecidableEq, Repr

structure NvCtrParam (κ : Type) where
  certNvCtr : ParamTypeDesc κ
  platNvCtr : ParamTypeDesc κ
  deriving DecidableEq, Repr

inductive AuthMethod (κ : Type) where
  | none
  | hash (param : HashParam κ)
  | sig (param : SigParam κ)
  | nvCtr (param : NvCtrParam κ)
  | unknown
  deriving DecidableEq, Repr

structure ImgDesc (ι β κ : Type) where
  imgType : ImgType
  parent : Option ι
  imgAuthMethods : Option (List (AuthMethod κ))
  authenticatedData : List (ParamDesc β κ)
  deriving DecidableEq, Repr

/-- What `plat_get_rotpk_info()` says about the root key. -/
inductive Rotpk where
  | notDeployed
  | hash (digest : Data)
  | full (key : Data)
  deriving DecidableEq, Repr

/-- The parser, the crypto module and the root key of the platform. Zero is success. -/
structure Libraries (κ : Type) where
  checkIntegrity : ImgType → Data → Int
  getAuthParam : ImgType → ParamTypeDesc κ → Data → Except Int Data
  verifyHash : Data → Data → Int
  verifySignature : Data → Data → Data → Data → Int
  convertPk : Data → Except Int Data
  getRotpkInfo : Option κ → Except Int Rotpk

structure Answers (κ : Type) where
  getNvCtr : Option κ → Int
  setNvCtr : Option κ → Int
  /-- Whether a larger counter of a certificate is to be written to the platform. It always is,
  unless the build supports firmware update with two banks. -/
  upgradeAllowed : Bool
  measureKey : Option κ → Data → Int

/-- `auth_img_flags`, the parameter buffers and the counters of the platform. -/
structure AuthState (ι β κ : Type) where
  authenticated : ι → Bool
  buffers : β → Data
  nvCtr : Option κ → ℕ

section Functions
variable {ι β κ : Type} [DecidableEq ι] [DecidableEq β] [DecidableEq κ]

inductive Checked (κ : Type) where
  | param (typeDesc : ParamTypeDesc κ) (value : Data)
  | rotpk (cookie : Option κ) (key : Data)
  deriving DecidableEq, Repr

/-- `auth_get_param()`: the buffer of the parent's first parameter of that type. -/
def authGetParam (s : AuthState ι β κ) (typeDesc : ParamTypeDesc κ) (parent : ImgDesc ι β κ) :
    Except Int Data :=
  match parent.authenticatedData.find? fun d => d.typeDesc = typeDesc with
  | some d => .ok (s.buffers d.ptr)
  | none => .error 1

def succeed (rc : Int) : Except Int Unit := if rc = 0 then .ok () else .error rc

variable (C : ι → ImgDesc ι β κ) (L : Libraries κ) (A : Answers κ)

def authHash (s : AuthState ι β κ) (param : HashParam κ) (desc : ImgDesc ι β κ) (img : Data) :
    Except Int (Checked κ) := do
  -- An image that is checked by its hash has a parent: `auth_get_param()` reads it.
  let hash ← match desc.parent with
    | some p => authGetParam s param.hash (C p)
    | none => .error 1
  let data ← L.getAuthParam desc.imgType param.data img
  succeed (L.verifyHash data hash)
  return .param param.hash hash

/-- The certificate's key is checked against the root key of the platform. -/
def rotpkCheck (rotpk : Rotpk) (pk : Data) : Except Int Unit :=
  match rotpk with
  | .notDeployed => .ok ()
  | .hash digest => do
    let cnv ← L.convertPk pk
    succeed (L.verifyHash cnv digest)
  | .full key => if pk = key then .ok () else .error (-1)

def signatureKey (s : AuthState ι β κ) (param : SigParam κ) (desc : ImgDesc ι β κ) (img : Data) :
    Except Int (Checked κ × Data) :=
  match desc.parent with
  | some p => do
    let pk ← authGetParam s param.pk (C p)
    return (.param param.pk pk, pk)
  | none => do
    let rotpk ← L.getRotpkInfo param.pk.cookie
    let pk ← L.getAuthParam desc.imgType param.pk img
    rotpkCheck L rotpk pk
    succeed (A.measureKey param.pk.cookie pk)
    return (.rotpk param.pk.cookie pk, pk)

def authSignature (s : AuthState ι β κ) (param : SigParam κ) (desc : ImgDesc ι β κ) (img : Data) :
    Except Int (Checked κ) := do
  let data ← L.getAuthParam desc.imgType param.data img
  let sig ← L.getAuthParam desc.imgType param.sig img
  let alg ← L.getAuthParam desc.imgType param.alg img
  let key ← signatureKey C L A s param desc img
  succeed (L.verifySignature data sig alg key.2)
  return key.1

def ASN1_INTEGER : UInt8 := 0x02

/-- The counter in its DER encoding: a tag, a length of at most four and a number that is not
negative. -/
def decodeNvCtr (data : Data) : Except Int ℕ :=
  match data with
  | tag :: len :: value :: rest =>
    if tag ≠ ASN1_INTEGER then .error 1
    else if len.toNat > 4 ∨ (rest.length + 1) ≠ len.toNat then .error 1
    else if value &&& 0x80 ≠ 0 then .error 1
    else .ok ((value :: rest).foldl (fun n b => n * 256 + b.toNat) 0)
  | _ => .error 1

/-- The counter of the certificate, and whether the platform's is to be upgraded to it. -/
def authNvctr (s : AuthState ι β κ) (param : NvCtrParam κ) (desc : ImgDesc ι β κ) (img : Data)
    (needUpgrade : Bool) : Except Int (ℕ × Bool) := do
  let data ← L.getAuthParam desc.imgType param.certNvCtr img
  let cert ← decodeNvCtr data
  succeed (A.getNvCtr param.platNvCtr.cookie)
  if cert < s.nvCtr param.platNvCtr.cookie then .error 1
  else if cert > s.nvCtr param.platNvCtr.cookie then return (cert, A.upgradeAllowed)
  else return (cert, needUpgrade)

/-- The local variables of `auth_mod_verify_img()`, and what was checked. -/
structure Progress (κ : Type) where
  certNvCtr : ℕ
  needNvCtrUpgrade : Bool
  sigAuthDone : Bool
  nvCtrParam : Option (NvCtrParam κ)
  checked : List (Checked κ)

def Progress.start (κ : Type) : Progress κ := ⟨0, false, false, none, []⟩

def authMethod (s : AuthState ι β κ) (desc : ImgDesc ι β κ) (img : Data) (p : Progress κ) :
    AuthMethod κ → Except Int (Progress κ)
  | .none => .ok p
  | .hash param => do
    let c ← authHash C L s param desc img
    return { p with checked := p.checked ++ [c] }
  | .sig param => do
    let c ← authSignature C L A s param desc img
    return { p with sigAuthDone := true, checked := p.checked ++ [c] }
  | .nvCtr param => do
    let n ← authNvctr L A s param desc img p.needNvCtrUpgrade
    return { p with certNvCtr := n.1, needNvCtrUpgrade := n.2, nvCtrParam := some param }
  | .unknown => .error 1

def authMethods (s : AuthState ι β κ) (desc : ImgDesc ι β κ) (img : Data) :
    Progress κ → List (AuthMethod κ) → Except Int (Progress κ)
  | p, [] => .ok p
  | p, m :: ms => do
    let p ← authMethod C L A s desc img p m
    authMethods s desc img p ms

def upgradeNvCtr (s : AuthState ι β κ) (p : Progress κ) : AuthState ι β κ × Int :=
  match p.nvCtrParam with
  | some param =>
    if p.needNvCtrUpgrade ∧ p.sigAuthDone then
      if A.setNvCtr param.platNvCtr.cookie = 0 then
        ({ s with nvCtr := Function.update s.nvCtr param.platNvCtr.cookie p.certNvCtr }, 0)
      else (s, A.setNvCtr param.platNvCtr.cookie)
    else (s, 0)
  | none => (s, 0)

/-- `memcpy()` to the start of a buffer. -/
def AuthState.copyParam (s : AuthState ι β κ) (ptr : β) (param : Data) : AuthState ι β κ :=
  { s with
    buffers := Function.update s.buffers ptr (param ++ (s.buffers ptr).drop param.length) }

def extractParams (s : AuthState ι β κ) (imgType : ImgType) (img : Data) :
    List (ParamDesc β κ) → AuthState ι β κ × Except Int Unit
  | [] => (s, .ok ())
  | d :: ds =>
    match L.getAuthParam imgType d.typeDesc img with
    | .error rc => (s, .error rc)
    | .ok param =>
      if param.length > d.len then (s, .error 1)
      else if d.typeDesc.type = .pubKey ∧ A.measureKey d.typeDesc.cookie param ≠ 0 then
        (s.copyParam d.ptr param, .error (A.measureKey d.typeDesc.cookie param))
      else extractParams (s.copyParam d.ptr param) imgType img ds

def authChecks (s : AuthState ι β κ) (desc : ImgDesc ι β κ) (img : Data) :
    Except Int (Progress κ) := do
  succeed (L.checkIntegrity desc.imgType img)
  match desc.imgAuthMethods with
  | none => .error 1
  | some methods => authMethods C L A s desc img (.start κ) methods

/-- `auth_mod_verify_img()`, with the values that an accepted image was checked against. -/
def authModVerifyImg (s : AuthState ι β κ) (id : ι) (img : Data) :
    AuthState ι β κ × Except Int (List (Checked κ)) :=
  match authChecks C L A s (C id) img with
  | .error rc => (s, .error rc)
  | .ok p =>
    let upgraded := upgradeNvCtr A s p
    if upgraded.2 ≠ 0 then (upgraded.1, .error upgraded.2)
    else
      let extracted := extractParams L A upgraded.1 (C id).imgType img (C id).authenticatedData
      match extracted.2 with
      | .error rc => (extracted.1, .error rc)
      | .ok () => ({ extracted.1 with
          authenticated := Function.update extracted.1.authenticated id true }, .ok p.checked)

end Functions

end TrustedFirmware.Auth
