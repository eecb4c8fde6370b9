import TrustedFirmware.Spmc.Validation

/-! # Descriptor versions

The datastore keeps descriptors in the version 1.1 layout. A version 1.0 sender's
descriptor is converted when it is complete, and a version 1.0 receiver gets a
conversion of the stored one, made in a temporary object of the datastore. -/
namespace TrustedFirmware.Spmc
open ByteMemory
set_option autoImplicit false

/-! ## From version 1.0 -/

def spmcShmGetV11DescriptorSize (orig : Bytes) : ℕ :=
  48 + Mtd.emadCount orig * 16 + 16 +
    CompMrd.addressRangeCount orig (Emad.compMrdOffset orig 32) * 16

/-- A copy of an endpoint descriptor array, one entry after another, into the array at `dst` of
the object `out`. Entry `i` is read at `src i`, and `fits` is the bound check made before it.
`false` is the early return. -/
def copyEmads (s : Datastore) (out dst : ℕ) (orig : Bytes) (src : ℕ → ℕ) (fits : ℕ → Bool) :
    ℕ → ℕ → Datastore × Bool
  | 0, _ => (s, true)
  | n + 1, i =>
    if fits i = false then (s, false)
    else copyEmads (s.copyIn out (32 + dst + 16 * i) (shift orig (src i)) 16) out dst orig src fits
      n (i + 1)

/-- Set the offset of the composite descriptor in each entry of the array at `dst`. The
difference of the two offsets is taken modulo 2^64 and the sum modulo 2^32. -/
def shiftCompMrdOffsets (s : Datastore) (out dst : ℕ) (orig : Bytes) (src : ℕ → ℕ)
    (mrdOutOffset mrdInOffset : ℕ) : ℕ → ℕ → Datastore
  | 0, _ => s
  | n + 1, i =>
    shiftCompMrdOffsets
      (s.put out (32 + dst + 16 * i + 4) 4
        (Emad.compMrdOffset orig (src i) + (mrdOutOffset + 2 ^ 64 - mrdInOffset)))
      out dst orig src mrdOutOffset mrdInOffset n (i + 1)

def copyMtdHeader (s : Datastore) (out : ℕ) (orig : Bytes) (attributesLen attributes : ℕ) :
    Datastore :=
  ((((((s.put out (32 + 0) 2 (Mtd.senderId orig)).put out (32 + 2) attributesLen attributes).put
    out (32 + 4) 4 (Mtd.flags orig)).put out (32 + 8) 8 (Mtd.handle orig)).put
    out (32 + 16) 8 (Mtd.tag orig)).put out (32 + 28) 4 (Mtd.emadCount orig))

/-- The part the two conversions share: the endpoint descriptors, their offsets, the bound check
and the copy of the composite descriptor at `mrdInOffset`, which goes behind them. -/
def convertArrays (s : Datastore) (out dst : ℕ) (orig : Bytes) (src : ℕ → ℕ) (fits : ℕ → Bool)
    (mrdInOffset origSize outSize : ℕ) : Datastore × Bool :=
  let count := Mtd.emadCount orig
  let mrdOutOffset := dst + 16 * count
  let mrdSize := 16 + CompMrd.addressRangeCount orig mrdInOffset * 16
  match copyEmads s out dst orig src fits count 0 with
  | (s, false) => (s, false)
  | (s, true) =>
    let s := shiftCompMrdOffsets s out dst orig src mrdOutOffset mrdInOffset count 0
    if mrdInOffset + mrdSize > origSize ∨ mrdOutOffset + mrdSize > outSize then (s, false)
    else (s.copyIn out (32 + mrdOutOffset) (shift orig mrdInOffset) mrdSize, true)

def spmcShmConvertShmemObjFromV10 (s : Datastore) (out orig : ℕ) : Datastore × Bool :=
  let origSize := (s.obj orig).descSize
  let outSize := (s.obj out).descSize
  let d := (s.obj orig).desc
  let s := copyMtdHeader s out d 2 (Mtd.memoryRegionAttributesV10 d)
  let s := s.put out (32 + 24) 4 16
  let s := s.put out (32 + 32) 4 48
  -- the bound check looks at the first entry each time
  convertArrays s out 48 d (fun i => 32 + 16 * i) (fun _ => decide (32 + 16 ≤ origSize))
    (Emad.compMrdOffset d 32) origSize outSize

/-! ## To version 1.0 -/

/-- 0 when the composite descriptor is not inside the object. -/
def spmcShmGetV10DescriptorSize (orig : Bytes) (descSize : ℕ) : ℕ :=
  let mrd := Emad.compMrdOffset orig (Mtd.emadOffset orig)
  if mrd + 16 > descSize then 0
  else 32 + Mtd.emadCount orig * 16 + 16 + CompMrd.addressRangeCount orig mrd * 16

def spmcShmConvertMtdToV10 (s : Datastore) (out orig : ℕ) : Datastore × Bool :=
  let origSize := (s.obj orig).descSize
  let outSize := (s.obj out).descSize
  let d := (s.obj orig).desc
  let src := fun i => Mtd.emadOffset d + Mtd.emadSize d * i
  let s := copyMtdHeader s out d 1 (Mtd.memoryRegionAttributes d)
  -- the composite descriptor is taken to follow the endpoint descriptors
  convertArrays s out 32 d src (fun i => decide (src i + 16 ≤ origSize))
    (src (Mtd.emadCount d)) origSize outSize

structure Populated where
  rx : Bytes
  copySize : ℕ
  descSize : ℕ

def spmcPopulateFfaV10Descriptor (s : Datastore) (rx : Bytes) (orig bufSize offset : ℕ) :
    Datastore × Except Int Populated :=
  let v10DescSize := spmcShmGetV10DescriptorSize (s.obj orig).desc (s.obj orig).descSize
  if v10DescSize = 0 then (s, .error FFA_ERROR_INVALID_PARAMETER)
  else match spmcShmemObjAlloc s v10DescSize with
    | none => (s, .error FFA_ERROR_NO_MEMORY)
    | some (v10Obj, s) =>
      match spmcShmConvertMtdToV10 s v10Obj orig with
      | (s, false) => (spmcShmemObjFree s v10Obj, .error FFA_ERROR_INVALID_PARAMETER)
      | (s, true) =>
        let o := s.obj v10Obj
        if offset ≥ o.descSize then (spmcShmemObjFree s v10Obj, .error FFA_ERROR_INVALID_PARAMETER)
        else
          let copySize := min (o.descSize - offset) bufSize
          (spmcShmemObjFree s v10Obj,
            .ok ⟨blit rx 0 (shift o.desc offset) copySize, copySize, v10DescSize⟩)

/-! ## For the hypervisor -/

/-- The header and the single endpoint descriptor of a hypervisor's response, whose composite
descriptor is at `hypMrdOffset`. -/
def hypHeader (d : Bytes) (ffaVersion hypMrdOffset : ℕ) : Bytes :=
  let m : Bytes := fun _ => 0
  let m := store m 0 2 (Mtd.senderId d)
  let m := store m 8 8 (Mtd.handle d)
  let m := store m 28 4 1
  let m := if ffaVersion = makeFfaVersion 1 0 then m else store (store m 24 4 16) 32 4 48
  store m (hypMrdOffset - 16 + 4) 4 hypMrdOffset

/-- `none` is an assertion that fails, or `NULL` for a composite descriptor. -/
def spmcPopulateFfaHypDescriptor (s : Datastore) (rx : Bytes) (orig bufSize ffaVersion : ℕ) :
    Option (Datastore × Except Int Populated) :=
  let o := s.obj orig
  let hypMrdOffset := (if ffaVersion = makeFfaVersion 1 0 then 32 else 48) + 16
  if hypMrdOffset > bufSize then some (s, .error FFA_ERROR_INVALID_PARAMETER)
  else match spmcShmemObjGetCompMrd o FFA_VERSION_COMPILED with
    | some (some origMrdOffset) =>
      let mrdSize := 16 + CompMrd.addressRangeCount o.desc origMrdOffset * 16
      let s := s.setHypShift orig (origMrdOffset + 2 ^ 64 - hypMrdOffset)
      let mrdCopySize := min mrdSize (bufSize - hypMrdOffset)
      let rx := blit rx 0 (hypHeader o.desc ffaVersion hypMrdOffset) hypMrdOffset
      let rx := blit rx hypMrdOffset (shift o.desc origMrdOffset) mrdCopySize
      some (s, .ok ⟨rx, hypMrdOffset + mrdCopySize, hypMrdOffset + mrdSize⟩)
    | _ => none

end TrustedFirmware.Spmc
