import TrustedFirmware.Spmc.Datastore

/-! # Checks on memory descriptors

The helpers and checks of `spmc_shared_mem.c` that read an object. `none` is a failed
`assert()` or a `panic()`; a check returns 0 or an FF-A error code. Walking pointers are
offsets from the start of the descriptor, and the loops run over the list of them. -/
namespace TrustedFirmware.Spmc
open ByteMemory
set_option autoImplicit false

/-- What the platform and the partition manifests contribute. -/
structure Platform where
  /-- `sp_id` of the active partition. -/
  spId : ℕ
  /-- `sp_id` of every entry of `sp_desc`. -/
  spIds : List ℕ
  active_mem : spId ∈ spIds
  plat_spmc_shmem_begin : Bytes → Int
  plat_spmc_shmem_reclaim : Bytes → Int

/-- `spmc_get_sp_ctx()` finds a descriptor. -/
def spmcGetSpCtx (P : Platform) (id : ℕ) : Bool := P.spIds.contains id

/-! ## Endpoint and composite descriptors -/

/-- An endpoint descriptor of an array at `base`, and its size. -/
def emadAt (base size index : ℕ) : Option (ℕ × ℕ) :=
  if index * size ≤ UINT32_MAX then some (base + size * index, size) else none

def spmcShmemObjGetEmad (d : Bytes) (index ffaVersion : ℕ) : Option (ℕ × ℕ) :=
  if index < Mtd.emadCount d then
    if ffaVersion = makeFfaVersion 1 0 then emadAt 32 16 index
    else if isAligned (Mtd.emadOffset d) 16 then
      emadAt (Mtd.emadOffset d) (Mtd.emadSize d) index
    else none
  else none

/-- The offset of the composite descriptor; the inner `none` is `NULL`. -/
def spmcShmemObjGetCompMrd (o : Obj) (ffaVersion : ℕ) : Option (Option ℕ) :=
  match spmcShmemObjGetEmad o.desc 0 ffaVersion with
  | none => none
  | some (e, _) =>
    let offset := Emad.compMrdOffset o.desc e
    if isAligned offset 8 = false then some none
    else if o.descFilled < 16 ∨ offset > o.descFilled - 16 then some none
    else some (some offset)

/-- The loop of `spmc_shmem_obj_validate_id()` from index `i` on, with `n` indices to go. -/
def validateIdFrom (o : Obj) (spId : ℕ) : ℕ → ℕ → Option Bool
  | 0, _ => some false
  | n + 1, i =>
    match spmcShmemObjGetEmad o.desc i (makeFfaVersion 1 1) with
    | none => none
    | some (e, _) =>
      if e ≥ o.descSize then some false
      else if spId = Emad.endpointId o.desc e then some true
      else validateIdFrom o spId n (i + 1)

def spmcShmemObjValidateId (o : Obj) (spId : ℕ) : Option Bool :=
  validateIdFrom o spId (Mtd.emadCount o.desc) 0

/-! ## Overlapping regions -/

def checkU64Overflow (value inc : ℕ) : Bool := decide (value > UINT64_MAX - inc)

def rangesClash (r1 r2 : ℕ × ℕ) : Bool :=
  checkU64Overflow r2.1 (r2.2 * 4096) ||
    !(decide (r2.1 + r2.2 * 4096 ≤ r1.1) || decide (r1.1 + r1.2 * 4096 ≤ r2.1))

/-- `same` is the comparison of the two pointers. -/
def overlappingMemoryRegions (same : Bool) (region1 region2 : List (ℕ × ℕ)) : Bool :=
  same || region1.any fun r1 => checkU64Overflow r1.1 (r1.2 * 4096) || region2.any (rangesClash r1)

/-! ## The header of a descriptor -/

def spmcValidateMtdStart (d : Bytes) (ffaVersion fragmentLength totalLength : ℕ) : Int :=
  let v10 := ffaVersion = makeFfaVersion 1 0
  if ¬ v10 ∧ spmcCompatibleVersion ffaVersion 1 1 = false then FFA_ERROR_INVALID_PARAMETER
  else if fragmentLength < (if v10 then 32 else 48) then FFA_ERROR_INVALID_PARAMETER
  else if Mtd.emadCount d = 0 then FFA_ERROR_INVALID_PARAMETER
  else if v10 then
    -- here the source takes the size of an endpoint descriptor for the offset of the first one
    if Mtd.emadCount d * 16 + 16 + 16 > totalLength then FFA_ERROR_INVALID_PARAMETER else 0
  else if isAligned (Mtd.emadOffset d) 16 = false then FFA_ERROR_INVALID_PARAMETER
  else if Mtd.emadOffset d < 48 then FFA_ERROR_INVALID_PARAMETER
  else if Mtd.emadSize d < 16 then FFA_ERROR_INVALID_PARAMETER
  else if isAligned (Mtd.emadSize d) 16 = false then FFA_ERROR_INVALID_PARAMETER
  else if Mtd.emadCount d * Mtd.emadSize d + 16 + Mtd.emadOffset d > totalLength then
    FFA_ERROR_INVALID_PARAMETER
  else 0

/-! ## A fully received object -/

/-- The loop over the endpoint descriptors. -/
def checkEmads (P : Platform) (d : Bytes) (compMrdOffset : ℕ) : List ℕ → Int
  | [] => 0
  | e :: rest =>
    let epId := Emad.endpointId d e
    if ffaIsSecureWorldId epId = true ∧ spmcGetSpCtx P epId = false then
      FFA_ERROR_INVALID_PARAMETER
    else if compMrdOffset ≠ Emad.compMrdOffset d e then FFA_ERROR_INVALID_PARAMETER
    else if rest.any fun other => epId == Emad.endpointId d other then FFA_ERROR_INVALID_PARAMETER
    else checkEmads P d compMrdOffset rest

/-- The part of `spmc_shmem_check_obj()` behind the loop over the endpoint descriptors, which
end at `headerEmadSize`. -/
def checkCompMrd (d : Bytes) (descSize compMrdOffset headerEmadSize : ℕ) : Int :=
  let count := (descSize - compMrdOffset - 16) / 16
  if compMrdOffset < headerEmadSize then FFA_ERROR_INVALID_PARAMETER
  else if isAligned compMrdOffset 16 = false then FFA_ERROR_INVALID_PARAMETER
  else if compMrdOffset > descSize then FFA_ERROR_INVALID_PARAMETER
  else if descSize - compMrdOffset < 16 then FFA_ERROR_INVALID_PARAMETER
  else if CompMrd.addressRangeCount d compMrdOffset ≠ count then FFA_ERROR_INVALID_PARAMETER
  else if compMrdOffset + 16 + count * 16 ≠ descSize then FFA_ERROR_INVALID_PARAMETER
  -- an address that is not page aligned is reported, and the loop goes on
  else if CompMrd.totalPageCount d compMrdOffset ≠
      ((List.range count).map (CompMrd.pageCount d compMrdOffset)).sum then
    FFA_ERROR_INVALID_PARAMETER
  else 0

def spmcShmemCheckObj (P : Platform) (o : Obj) (ffaVersion : ℕ) : Option Int :=
  if o.descFilled ≠ o.descSize then none
  else if spmcValidateMtdStart o.desc ffaVersion o.descFilled o.descSize ≠ 0 then none
  else match spmcShmemObjGetEmad o.desc 0 ffaVersion with
    | none => none
    | some (first, emadSize) =>
      let count := Mtd.emadCount o.desc
      let compMrdOffset := Emad.compMrdOffset o.desc first
      let ret := checkEmads P o.desc compMrdOffset (emadOffsets first emadSize count)
      if ret ≠ 0 then some ret
      else some (checkCompMrd o.desc o.descSize compMrdOffset (first + count * emadSize))

/-! ## Against the other objects -/

/-- The loop of `spmc_shmem_check_state_obj()` for the object `o` at `obj` whose composite
descriptor is at `requested`. -/
def checkInflight (obj : ℕ) (o : Obj) (requested : ℕ) : List (ℕ × Obj) → Option Int
  | [] => some 0
  | (q, inflight) :: rest =>
    if Mtd.handle o.desc ≠ Mtd.handle inflight.desc ∧ inflight.descSize = inflight.descFilled then
      match spmcShmemObjGetCompMrd inflight FFA_VERSION_COMPILED with
      | none => none
      | some none => some FFA_ERROR_INVALID_PARAMETER
      | some (some other) =>
        if overlappingMemoryRegions (obj + requested == q + other)
            (CompMrd.ranges o.desc requested) (CompMrd.ranges inflight.desc other) then
          some FFA_ERROR_INVALID_PARAMETER
        else checkInflight obj o requested rest
    else checkInflight obj o requested rest

def spmcShmemCheckStateObj (s : Datastore) (obj ffaVersion : ℕ) : Option Int :=
  match spmcShmemObjGetCompMrd (s.obj obj) ffaVersion with
  | none => none
  | some none => some FFA_ERROR_INVALID_PARAMETER
  | some (some requested) => checkInflight obj (s.obj obj) requested s.objects

end TrustedFirmware.Spmc
