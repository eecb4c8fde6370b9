import TrustedFirmware.Spmc.Descriptors
import TrustedFirmware.Foundations.RecordTiling

/-! # The shared memory datastore

`struct spmc_shmem_obj_state` of `services/std_svc/spm/el3_spmc/spmc_shared_mem.c`:
one byte array in which objects lie end to end, each a 32-byte header followed by its
descriptor. A pointer into the array is its offset. The array has no end in the model,
so that a write past `data_size` is a write like any other; every write is recorded. -/
namespace TrustedFirmware.Spmc
open ByteMemory RecordTiling
set_option autoImplicit false

/-- `struct spmc_shmem_obj`. The descriptor is the `desc_size` bytes behind the header, stale
ones included, and `hyp_shift` is a 64-bit two's complement number. -/
structure Obj where
  descSize : ℕ
  descFilled : ℕ
  inUse : ℕ
  hypShift : ℕ
  desc : Bytes

def Obj.view (m : Bytes) : Obj where
  descSize := load m 0 8
  descFilled := load m 8 8
  inUse := load m 16 8
  hypShift := load m 24 8
  desc := clip (shift m 32) (load m 0 8)

theorem Obj.view_own {m m' : Bytes} (h : ∀ i < 32 + load m 0 8, m i = m' i) :
    Obj.view m' = Obj.view m := by
  have hl : ∀ a, a + 8 ≤ 32 → load m' a 8 = load m a 8 := fun a ha =>
    load_congr fun i _ h2 => (h i (by omega)).symm
  have hc : clip (shift m' 32) (load m 0 8) = clip (shift m 32) (load m 0 8) :=
    clip_congr fun i hi => (h (32 + i) (by omega)).symm
  rw [view, view, hl 0 (by omega), hl 8 (by omega), hl 16 (by omega), hl 24 (by omega), hc]

def objFormat : Format Obj where
  view := Obj.view
  size o := 32 + o.descSize
  size_pos o := by omega
  own _ _ h := Obj.view_own h

/-- A write to the array: into an object of `cap` bytes that starts at `obj`, or the move of
the bytes behind a freed object. -/
inductive Write where
  | into (obj cap off len : ℕ)
  | compact (dest len : ℕ)
  deriving DecidableEq

structure Datastore where
  /-- `data` is not `NULL`. -/
  present : Bool
  data : Bytes
  dataSize : ℕ
  allocated : ℕ
  nextHandle : ℕ
  written : List Write

namespace Datastore

def obj (s : Datastore) (p : ℕ) : Obj := Obj.view (shift s.data p)

def write (s : Datastore) (obj cap off : ℕ) (src : Bytes) (len : ℕ) : Datastore :=
  { s with data := blit s.data (obj + off) src len
           written := .into obj cap off len :: s.written }

def copyIn (s : Datastore) (obj off : ℕ) (src : Bytes) (len : ℕ) : Datastore :=
  s.write obj (32 + (s.obj obj).descSize) off src len

/-- Assign a field of `n` bytes. -/
def put (s : Datastore) (obj off n v : ℕ) : Datastore := s.copyIn obj off (leBytes v) n

def setDescFilled (s : Datastore) (obj v : ℕ) : Datastore := s.put obj 8 8 v
def setInUse (s : Datastore) (obj v : ℕ) : Datastore := s.put obj 16 8 v
def setHypShift (s : Datastore) (obj v : ℕ) : Datastore := s.put obj 24 8 v

/-- The objects that `spmc_shmem_obj_get_next()` steps through, with their pointers. -/
def objects (s : Datastore) : List (ℕ × Obj) :=
  walk objFormat s.data s.allocated (s.allocated + 1) 0

end Datastore

def spmcShmemObjSize (descSize : ℕ) : ℕ := (descSize + 32) % 2 ^ 64

/-- The assignments of `spmc_shmem_obj_alloc()` to a new object. The zeroed descriptor is a whole
version 1.1 header, whatever the size of the object. -/
def initObj (s : Datastore) (obj objSize descSize : ℕ) : Datastore :=
  ((((s.write obj objSize 32 (fun _ => 0) 48).write obj objSize 0 (leBytes descSize) 8).write
    obj objSize 8 (leBytes 0) 8).write obj objSize 16 (leBytes 0) 8).write obj objSize 24
    (leBytes 0) 8

def spmcShmemObjAlloc (s : Datastore) (descSize : ℕ) : Option (ℕ × Datastore) :=
  if s.present = false then none
  else if isAligned descSize 16 = false then none
  else if spmcShmemObjSize descSize < descSize then none
  else if spmcShmemObjSize descSize > s.dataSize - s.allocated then none
  else
    let objSize := spmcShmemObjSize descSize
    some (s.allocated,
      { initObj s s.allocated objSize descSize with allocated := s.allocated + objSize })

def spmcShmemObjFree (s : Datastore) (obj : ℕ) : Datastore :=
  let freeSize := spmcShmemObjSize (s.obj obj).descSize
  let shiftSize := s.allocated - (obj + freeSize)
  let s :=
    if shiftSize ≠ 0 then
      { s with data := blit s.data obj (shift s.data (obj + freeSize)) shiftSize
               written := .compact obj shiftSize :: s.written }
    else s
  { s with allocated := s.allocated - freeSize }

def spmcShmemObjLookup (s : Datastore) (handle : ℕ) : Option ℕ :=
  (s.objects.find? fun x => Mtd.handle x.2.desc == handle).map Prod.fst

end TrustedFirmware.Spmc
