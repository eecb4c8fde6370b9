import TrustedFirmware.Foundations.ByteMemory
import TrustedFirmware.Common

/-! # Firmware update in BL1

The SMCs of `bl1_fwu.c` that copy, authenticate, execute and reset images, over the image
descriptors of the platform and the memory they describe. The answers of the authentication
module and of the platform's hooks are arguments of the calls. A failed assertion and
`plat_error_handler()` do not return. -/
namespace TrustedFirmware.Bl1
open Libc ByteMemory
set_option autoImplicit false

def INVALID_IMAGE_ID : ℕ := 0xffffffff

inductive ImageState where
  | reset
  | copied
  | copying
  | authenticated
  | executed
  | interrupted
  deriving DecidableEq, Repr

/-- The part of `image_desc_t` that the platform sets: the image and the attributes of its entry
point. -/
structure Image where
  imageId : ℕ
  imageBase : ℕ
  imageMaxSize : ℕ
  secure : Bool
  executable : Bool
  deriving DecidableEq, Repr

/-- The part of `image_desc_t` that the firmware update changes. -/
structure ImageDesc where
  state : ImageState
  copiedSize : ℕ
  imageSize : ℕ
  deriving DecidableEq, Repr

structure Platform where
  images : List Image
  /-- `bl1_plat_mem_check()` returns zero for an address, a size and a security state. -/
  memCheck : ℕ → ℕ → Bool → Bool
  maxSimultaneousImages : ℕ
  id_ne : ∀ i ∈ images, i.imageId ≠ INVALID_IMAGE_ID
  window_le : ∀ i ∈ images, i.imageBase + i.imageMaxSize ≤ 2 ^ 64

def Platform.image (P : Platform) (id : ℕ) : Option Image := P.images.find? fun i => i.imageId = id

structure Fwu where
  memory : Bytes
  desc : ℕ → ImageDesc
  loadedIds : List ℕ
  secExecImageId : ℕ

def Fwu.setDesc (s : Fwu) (id : ℕ) (d : ImageDesc) : Fwu :=
  { s with desc := Function.update s.desc id d }

def checkUptrOverflow (ptr inc : ℕ) : Bool := decide (ptr > 2 ^ 64 - 1 - inc)

/-! ## Loaded images -/

def replaceFirst (old new : ℕ) : List ℕ → Option (List ℕ)
  | [] => none
  | x :: xs => if x = old then some (new :: xs) else (replaceFirst old new xs).map (x :: ·)

def fwuAddLoadedId (ids : List ℕ) (id : ℕ) : Option (List ℕ) :=
  if id ∈ ids then some ids else replaceFirst INVALID_IMAGE_ID id ids

def fwuRemoveLoadedId (ids : List ℕ) (id : ℕ) : Option (List ℕ) :=
  replaceFirst id INVALID_IMAGE_ID ids

/-- The address of the last byte of an image, in the arithmetic of `uintptr_t`. -/
def imageEnd (base size : ℕ) : ℕ := (base + size - 1) % 2 ^ 64

/-- Whether an image at `base` up to `last` overlaps one of the recorded images. -/
def overlapsLoaded (P : Platform) (s : Fwu) (id base last : ℕ) : List ℕ → Option Bool
  | [] => some false
  | j :: js =>
    if j = INVALID_IMAGE_ID ∨ j = id then overlapsLoaded P s id base last js
    else match P.image j with
      | none => none
      | some info =>
        if (s.desc j).state = .reset then none
        else if (s.desc j).imageSize = 0 then overlapsLoaded P s id base last js
        else if imageEnd info.imageBase (s.desc j).imageSize ≤ info.imageBase then none
        else if imageEnd info.imageBase (s.desc j).imageSize < base ∨ last < info.imageBase then
          overlapsLoaded P s id base last js
        else some true

def fwuImageCheckOverlaps (P : Platform) (s : Fwu) (info : Image) : Option Bool :=
  if (s.desc info.imageId).imageSize = 0 then none
  else overlapsLoaded P s info.imageId info.imageBase
    (imageEnd info.imageBase (s.desc info.imageId).imageSize) s.loadedIds

inductive Event where
  | refused (ret : Int)
  | copied (id dest size : ℕ)
  | accepted (id : ℕ) (bytes : List UInt8)
  /-- The authentication failed; the memory of a copied image was zeroed. -/
  | rejected (id : ℕ)
  | entered (id : ℕ)
  /-- Control goes from the secure image to the normal world. -/
  | left (id : ℕ)
  | done (id : ℕ)
  /-- The image was reset, with this much memory zeroed. -/
  | reset (id base size : ℕ)
  /-- The image was in the RESET state. -/
  | idle
  /-- A write by someone else. -/
  | outside
  deriving DecidableEq, Repr

/-! ## IMAGE_COPY -/

def copyChecks (P : Platform) (s : Fwu) (secureCaller : Bool) (id src block : ℕ) :
    Except Int Image :=
  match P.image id with
  | none => .error (-EPERM)
  | some info =>
    if secureCaller then .error (-EPERM)
    else if info.secure = false then .error (-EPERM)
    else if (s.desc id).state ≠ .reset ∧ (s.desc id).state ≠ .copying then .error (-EPERM)
    else if src = 0 ∨ block = 0 ∨ checkUptrOverflow src block then .error (-ENOMEM)
    else .ok info

/-- The state in which the block is copied, or the one in which the call is refused. -/
def copyStart (P : Platform) (s : Fwu) (info : Image) (size : ℕ) :
    Option (Fwu × Option Int) :=
  let d := s.desc info.imageId
  if d.state = .copying then
    if d.copiedSize = 0 ∨ d.imageSize = 0 ∨ d.copiedSize ≥ d.imageSize then none
    else some (s, none)
  else if size = 0 then some (s, some (-ENOMEM))
  else if size > info.imageMaxSize then some (s, some (-ENOMEM))
  else match fwuImageCheckOverlaps P (s.setDesc info.imageId { d with imageSize := size }) info with
    | none => none
    | some true => some (s.setDesc info.imageId { d with imageSize := 0 }, some (-EPERM))
    | some false =>
      some (s.setDesc info.imageId { d with imageSize := size, copiedSize := 0 }, none)

def blockLength (d : ImageDesc) (block : ℕ) : ℕ := min block (d.imageSize - d.copiedSize)

def copyBlock (s : Fwu) (info : Image) (src block : ℕ) : Fwu × Event :=
  let d := s.desc info.imageId
  let n := blockLength d block
  ({ s with
      memory := blit s.memory (info.imageBase + d.copiedSize) (shift s.memory src) n
      desc := Function.update s.desc info.imageId
        { d with
          copiedSize := d.copiedSize + n
          state := if n = d.imageSize - d.copiedSize then .copied else .copying } },
    .copied info.imageId (info.imageBase + d.copiedSize) n)

def copyLoad (P : Platform) (s : Fwu) (info : Image) (src block : ℕ) (preImageLoad : Int) :
    Fwu × Event :=
  let d := s.desc info.imageId
  if P.memCheck src (blockLength d block) false = false then (s, .refused (-ENOMEM))
  else match fwuAddLoadedId s.loadedIds info.imageId with
    | none => (s, .refused (-ENOMEM))
    | some ids =>
      if d.state = .reset ∧ preImageLoad ≠ 0 then
        ({ s with loadedIds := (fwuRemoveLoadedId ids info.imageId).getD ids }, .refused (-EPERM))
      else copyBlock { s with loadedIds := ids } info src block

def fwuImageCopy (P : Platform) (s : Fwu) (secureCaller : Bool) (id src block size : ℕ)
    (preImageLoad : Int) : Option (Fwu × Event) :=
  match copyChecks P s secureCaller id src block with
  | .error ret => some (s, .refused ret)
  | .ok info =>
    (copyStart P s info size).map fun x =>
      match x.2 with
      | some ret => (x.1, .refused ret)
      | none => copyLoad P x.1 info src block preImageLoad

/-! ## IMAGE_AUTH -/

def authAllowed (info : Image) (state : ImageState) (secureCaller : Bool) : Bool :=
  if secureCaller then decide (state = .reset)
  else if info.secure then decide (state = .copied)
  else decide (state = .reset)

def authInPlace (P : Platform) (s : Fwu) (info : Image) (src size : ℕ) : Except Int Fwu :=
  if src = 0 ∨ size = 0 ∨ checkUptrOverflow src size then .error (-ENOMEM)
  else if P.memCheck src size info.secure = false then .error (-ENOMEM)
  else match fwuAddLoadedId s.loadedIds info.imageId with
    | none => .error (-ENOMEM)
    | some ids => .ok ({ s with loadedIds := ids }.setDesc info.imageId
        { s.desc info.imageId with imageSize := size })

/-- The image is authenticated from `base` on. `none` is the error handler of the platform. -/
def authVerify (s : Fwu) (info : Image) (base : ℕ) (authModVerifyImg postImageLoad : Int) :
    Option (Fwu × Event) :=
  let d := s.desc info.imageId
  if authModVerifyImg ≠ 0 then
    let ids := (fwuRemoveLoadedId s.loadedIds info.imageId).getD s.loadedIds
    if d.state = .copied then
      some ({ s with
          memory := blit s.memory base (fun _ => 0) d.imageSize
          loadedIds := ids }.setDesc info.imageId { d with state := .reset },
        .rejected info.imageId)
    else some ({ s with loadedIds := ids }, .rejected info.imageId)
  else if postImageLoad ≠ 0 then none
  else some (s.setDesc info.imageId { d with state := .authenticated },
    .accepted info.imageId (readBytes s.memory base d.imageSize))

def fwuImageAuth (P : Platform) (s : Fwu) (secureCaller : Bool) (id src size : ℕ)
    (authModVerifyImg postImageLoad : Int) : Option (Fwu × Event) :=
  match P.image id with
  | none => some (s, .refused (-EPERM))
  | some info =>
    if authAllowed info (s.desc id).state secureCaller = false then some (s, .refused (-EPERM))
    else if (s.desc id).state = .copied then
      authVerify s info info.imageBase authModVerifyImg postImageLoad
    else match authInPlace P s info src size with
      | .error ret => some (s, .refused ret)
      | .ok s => authVerify s info src authModVerifyImg postImageLoad

/-! ## Execution -/

def fwuImageExecute (P : Platform) (s : Fwu) (secureCaller : Bool) (id : ℕ) : Fwu × Event :=
  match P.image id with
  | none => (s, .refused (-EPERM))
  | some info =>
    if secureCaller ∨ info.secure = false ∨ info.executable = false ∨
        (s.desc id).state ≠ .authenticated then (s, .refused (-EPERM))
    else ({ s with secExecImageId := id }.setDesc id { s.desc id with state := .executed },
      .entered id)

def fwuImageResume (P : Platform) (s : Fwu) (secureCaller : Bool) : Option (Fwu × Event) :=
  let id := s.secExecImageId
  match P.image id with
  | none => if secureCaller then none else some (s, .refused (-EPERM))
  | some info =>
    if info.secure = false ∨ info.executable = false then none
    else if secureCaller then
      if (s.desc id).state ≠ .executed then none
      else some (s.setDesc id { s.desc id with state := .interrupted }, .left id)
    else if (s.desc id).state ≠ .interrupted then none
    else some (s.setDesc id { s.desc id with state := .executed }, .entered id)

def fwuSecImageDone (P : Platform) (s : Fwu) (secureCaller : Bool) : Option (Fwu × Event) :=
  if secureCaller = false then some (s, .refused (-EPERM))
  else
    let id := s.secExecImageId
    match P.image id with
    | none => none
    | some info =>
      if info.secure = false ∨ info.executable = false ∨ (s.desc id).state ≠ .executed then none
      else (fwuRemoveLoadedId s.loadedIds id).map fun ids =>
        ({ s with loadedIds := ids, secExecImageId := INVALID_IMAGE_ID }.setDesc id
          { s.desc id with state := .reset }, .done id)

/-! ## IMAGE_RESET -/

def fwuImageReset (P : Platform) (s : Fwu) (secureCaller : Bool) (id : ℕ) : Option (Fwu × Event) :=
  match P.image id with
  | none => some (s, .refused (-EPERM))
  | some info =>
    if secureCaller then some (s, .refused (-EPERM))
    else match (s.desc id).state with
      | .reset => some (s, .idle)
      | .executed => none
      | _ =>
        match fwuRemoveLoadedId s.loadedIds id with
        | none => some (s, .refused (-EPERM))
        | some ids =>
          if (s.desc id).copiedSize ≠ 0 ∧ info.secure = false then none
          else some ({ s with
              memory := blit s.memory info.imageBase (fun _ => 0) (s.desc id).copiedSize
              loadedIds := ids }.setDesc id ⟨.reset, 0, 0⟩,
            .reset id info.imageBase (s.desc id).copiedSize)

/-! ## Calls -/

inductive Call where
  | imageCopy (secureCaller : Bool) (id : UInt32) (src : UInt64) (block size : UInt32)
      (preImageLoad : Int)
  | imageAuth (secureCaller : Bool) (id : UInt32) (src : UInt64) (size : UInt32)
      (authModVerifyImg postImageLoad : Int)
  | imageExecute (secureCaller : Bool) (id : UInt32)
  | imageResume (secureCaller : Bool)
  | secImageDone (secureCaller : Bool)
  | imageReset (secureCaller : Bool) (id : UInt32)
  | write (address : ℕ) (value : UInt8)

/-- `bl1_fwu_smc_handler()`, and writes by others. -/
def fwuSmcHandler (P : Platform) (s : Fwu) : Call → Option (Fwu × Event)
  | .imageCopy sec id src block size pre =>
    fwuImageCopy P s sec id.toNat src.toNat block.toNat size.toNat pre
  | .imageAuth sec id src size verify post =>
    fwuImageAuth P s sec id.toNat src.toNat size.toNat verify post
  | .imageExecute sec id => some (fwuImageExecute P s sec id.toNat)
  | .imageResume sec => fwuImageResume P s sec
  | .secImageDone sec => fwuSecImageDone P s sec
  | .imageReset sec id => fwuImageReset P s sec id.toNat
  | .write a v => some ({ s with memory := Function.update s.memory a v }, .outside)

/-- The state in which the first image of the update runs. It is a non-secure one; no other image
has been touched. -/
structure Started (P : Platform) (s : Fwu) : Prop where
  loadedIds : s.loadedIds = List.replicate P.maxSimultaneousImages INVALID_IMAGE_ID
  secExecImageId : s.secExecImageId = INVALID_IMAGE_ID
  desc : ∀ i ∈ P.images, (s.desc i.imageId).copiedSize = 0 ∧ (s.desc i.imageId).imageSize = 0 ∧
    ((s.desc i.imageId).state = .reset ∨ (i.secure = false ∧ (s.desc i.imageId).state = .executed))

end TrustedFirmware.Bl1
