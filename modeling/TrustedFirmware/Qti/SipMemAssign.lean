import TrustedFirmware.Common
import TrustedFirmware.Foundations.ByteMemory
import TrustedFirmware.Qti.AccessControl

/-! # The memory assignment call

`qti_sip_mem_assign()`: the arguments come partly in registers and partly through non-secure memory,
which EL3 maps, reads and unmaps. The memory is a function of time, so that two reads of one address
need not agree; each load takes one unit of time, a copy one for each byte. A load through a pointer
that is not aligned to the size of what it points to, or that nothing maps, is an exception at EL3
(`SCTLR_EL3.A` is set). The translation tables are the list of mapped regions; whether there are tables
enough for a new region is an answer of the environment. -/
namespace TrustedFirmware.Qti
open ByteMemory Libc
set_option autoImplicit false

/-! ## Dynamic regions of the translation tables -/

def PAGE_SIZE : UInt64 := 4096

/-- `mmap_region_t`; of the attributes only `MT_DYNAMIC`. -/
structure MmapRegion where
  basePa : UInt64
  baseVa : UInt64
  size : UInt64
  dynamic : Bool
  deriving DecidableEq, Repr

def MmapRegion.endPa (m : MmapRegion) : UInt64 := m.basePa + m.size - 1
def MmapRegion.endVa (m : MmapRegion) : UInt64 := m.baseVa + m.size - 1

/-- `xlat_ctx_t`: the entries of `mmap` up to the empty one that ends it, and how many it has room
for. -/
structure XlatCtx where
  mmap : List MmapRegion
  mmapNum : ℕ
  paMaxAddress : UInt64
  vaMaxAddress : UInt64
  deriving DecidableEq, Repr

def isPageAligned (addr : UInt64) : Bool := addr &&& (PAGE_SIZE - 1) == 0

/-- The test of `mmap_add_region_check()` against a region that is there. -/
def mmapConflict (mm cursor : MmapRegion) : Bool :=
  let fullyOverlappedVa :=
    (cursor.baseVa ≤ mm.baseVa && mm.endVa ≤ cursor.endVa) ||
      (mm.baseVa ≤ cursor.baseVa && cursor.endVa ≤ mm.endVa)
  if fullyOverlappedVa then
    mm.dynamic || cursor.dynamic || cursor.baseVa - cursor.basePa != mm.baseVa - mm.basePa ||
      (mm.baseVa == cursor.baseVa && mm.size == cursor.size)
  else
    let separatedPa := mm.endPa < cursor.basePa || cursor.endPa < mm.basePa
    let separatedVa := mm.endVa < cursor.baseVa || cursor.endVa < mm.baseVa
    !separatedVa || !separatedPa

def mmapAddRegionCheck (ctx : XlatCtx) (mm : MmapRegion) : Int :=
  if !isPageAligned mm.basePa || !isPageAligned mm.baseVa || !isPageAligned mm.size then -EINVAL
  else if mm.endPa < mm.basePa || mm.endVa < mm.baseVa then -ERANGE
  else if ctx.vaMaxAddress < mm.endVa then -ERANGE
  else if ctx.paMaxAddress < mm.endPa then -ERANGE
  else if ctx.mmapNum ≤ ctx.mmap.length then -ENOMEM
  else if (ctx.mmap.takeWhile fun c => c.size != 0).any (mmapConflict mm) then -EPERM
  else 0

def mmapCursor (mm : MmapRegion) (mmap : List MmapRegion) : ℕ :=
  let below := mmap.takeWhile fun c => c.endVa < mm.endVa && c.size != 0
  let inside := (mmap.drop below.length).takeWhile fun c =>
    c.endVa == mm.endVa && c.size != 0 && c.size < mm.size
  below.length + inside.length

/-- `mmap_add_dynamic_region()`; `room` says whether the region could be mapped to its end. -/
def mmapAddDynamicRegion (ctx : XlatCtx) (room : Bool) (basePa baseVa size : UInt64) :
    Int × XlatCtx :=
  if size == 0 then (0, ctx)
  else
    let mm : MmapRegion := ⟨basePa, baseVa, size, true⟩
    let ret := mmapAddRegionCheck ctx mm
    if ret != 0 then (ret, ctx)
    else
      let cursor := mmapCursor mm ctx.mmap
      let mmap := ctx.mmap.insertIdx cursor mm
      if room then (0, { ctx with mmap })
      else (-ENOMEM, { ctx with mmap := mmap.eraseIdx cursor })

def mmapRemoveDynamicRegion (ctx : XlatCtx) (baseVa size : UInt64) : Int × XlatCtx :=
  let idx := ctx.mmap.findIdx fun m => m.size == 0 || (m.baseVa == baseVa && m.size == size)
  match ctx.mmap[idx]? with
  | none => (-EINVAL, ctx)
  | some m =>
    if m.size == 0 then (-EINVAL, ctx)
    else if !m.dynamic then (-EPERM, ctx)
    else (0, { ctx with mmap := ctx.mmap.eraseIdx idx })

/-! ## Regions named by the caller -/

/-- The secure memory of the platform, whose bounds are those of whole pages, and with `COREBOOT` the
kinds of memory that may be assigned. -/
structure Platform where
  bl31 : UInt64 × UInt64
  otherSecRegions : List (UInt64 × UInt64)
  memTypeOk : Mem → Bool
  bl31_lt : bl31.1 < bl31.2
  sec_aligned : ∀ r ∈ bl31 :: otherSecRegions, r.1.toNat % 4096 = 0 ∧ r.2.toNat % 4096 = 0

def Platform.secRegions (p : Platform) : List (UInt64 × UInt64) := p.bl31 :: p.otherSecRegions

def qtiIsOverlapSecureRg (p : Platform) (addr size : UInt64) : Bool :=
  addr + size < addr || p.secRegions.any fun r => addr < r.2 && r.1 < addr + size

def roundDown (addr : UInt64) : UInt64 := addr &&& ~~~(PAGE_SIZE - 1)
def roundUp (size : UInt64) : UInt64 := ((size - 1) ||| (PAGE_SIZE - 1)) + 1

def qtiAlignMemRegion (addr size : UInt64) : UInt64 × UInt64 :=
  (roundDown addr, roundUp (addr - roundDown addr + size))

/-- The part of the state that a call maps and unmaps: the tables, and the regions that it asked them to
map, also those that they could map in part only. -/
structure Mapping where
  ctx : XlatCtx
  tried : List MmapRegion
  deriving DecidableEq, Repr

def qtiMmapAddDynamicRegion (p : Platform) (room : Bool) (basePa size : UInt64) (s : Mapping) :
    Int × Mapping :=
  let aligned := qtiAlignMemRegion basePa size
  if qtiIsOverlapSecureRg p basePa size then (-EPERM, s)
  else
    let r := mmapAddDynamicRegion s.ctx room aligned.1 aligned.1 aligned.2
    (r.1, ⟨r.2, s.tried ++ [⟨aligned.1, aligned.1, aligned.2, true⟩]⟩)

def qtiMmapRemoveDynamicRegion (baseVa size : UInt64) (s : Mapping) : Int × Mapping :=
  let aligned := qtiAlignMemRegion baseVa size
  let r := mmapRemoveDynamicRegion s.ctx aligned.1 aligned.2
  (r.1, { s with ctx := r.2 })

/-! ## Reads of the caller's memory -/

/-- The memory at every time. -/
abbrev World := ℕ → UInt64 → UInt8

def XlatCtx.maps (ctx : XlatCtx) (addr : UInt64) : Bool :=
  ctx.mmap.any fun m => m.baseVa.toNat ≤ addr.toNat && addr.toNat < m.baseVa.toNat + m.size.toNat

/-- The word of `n` bytes at an address, as it is at one time. -/
def wordAt (w : World) (time : ℕ) (addr : UInt64) (n : ℕ) : UInt64 :=
  UInt64.ofNat (load (fun i => w time (addr + UInt64.ofNat i)) 0 n)

/-- What a byte by byte copy that starts at `time` gets. -/
def bytesAt (w : World) (time : ℕ) (addr : UInt64) : Bytes :=
  fun i => w (time + i) (addr + UInt64.ofNat i)

def loadWord (w : World) (ctx : XlatCtx) (time : ℕ) (addr : UInt64) (n : ℕ) : Option UInt64 :=
  if addr.toNat % n = 0 ∧ ctx.maps addr then some (wordAt w time addr n) else none

def copyBytes (w : World) (ctx : XlatCtx) (time : ℕ) (addr : UInt64) (len : ℕ) : Option Bytes :=
  if ∀ i < len, ctx.maps (addr + UInt64.ofNat i) then some (bytesAt w time addr) else none

/-! ## The call -/

def QTI_SIP_SUCCESS : Int := 0
def QTI_SIP_NOT_SUPPORTED : Int := -1
def QTI_SIP_INVALID_PARAM : Int := -3
def QTI_SIP_SVC_MEM_ASSIGN_PARAM_ID : UInt64 := 0x1117

/-- A call: its convention and registers, the caller's memory while it runs, and whether the tables
have room for its first and its second region. -/
structure Smc where
  smc32 : Bool
  x1 : UInt64
  x2 : UInt64
  x3 : UInt64
  x4 : UInt64
  x5 : UInt64
  world : World
  room : Bool × Bool

def Smc.word (c : Smc) : ℕ := if c.smc32 then 4 else 8

def Smc.argsAddr (c : Smc) : UInt64 := if c.smc32 then c.x5 &&& 0xffffffff else c.x5

def Smc.argAddr (c : Smc) (i : ℕ) : UInt64 := c.argsAddr + UInt64.ofNat (i * c.word)

/-- `get_indirect_args()`. On the left the mapping when a load is an exception. -/
def getIndirectArgs (p : Platform) (c : Smc) (s : Mapping) :
    Except Mapping (Int × (UInt64 × UInt64 × UInt64) × Mapping) :=
  let addr := c.argsAddr
  let len := UInt64.ofNat (c.word * 4)
  let add := qtiMmapAddDynamicRegion p c.room.1 addr len s
  if add.1 != 0 then .ok (add.1, (addr, 0, 0), add.2)
  else
    match loadWord c.world add.2.ctx 0 (c.argAddr 0) c.word,
        loadWord c.world add.2.ctx 1 (c.argAddr 1) c.word,
        loadWord c.world add.2.ctx 2 (c.argAddr 2) c.word with
    | some x5, some x6, some x7 =>
      let remove := qtiMmapRemoveDynamicRegion addr len add.2
      .ok (remove.1, (x5, x6, x7), remove.2)
    | _, _, _ => .error add.2

/-- The regions in a copy of the list at `x2`. -/
def memList (b : Bytes) (cnt : ℕ) : List Mem :=
  (List.range cnt).map fun i =>
    ⟨UInt64.ofNat (load b (16 * i) 8), UInt64.ofNat (load b (16 * i + 8) 8)⟩

def srcList (b : Bytes) (cnt : ℕ) : List UInt32 :=
  (List.range cnt).map fun i => UInt32.ofNat (load b (4 * i) 4)

/-- The entries have padding: one takes 24 bytes. -/
def dstList (b : Bytes) (cnt : ℕ) : List Perm :=
  (List.range cnt).map fun i =>
    ⟨UInt32.ofNat (load b (24 * i) 4), UInt32.ofNat (load b (24 * i + 4) 4)⟩

def shownLists (w : World) (x2 x3 x4 x5 x6 x7 : UInt64) : Request :=
  ⟨memList (bytesAt w 3 x2) (x3.toNat / 16),
    srcList (bytesAt w (3 + x3.toNat / 16 * 16) x4) (x5.toNat / 4),
    dstList (bytesAt w (3 + x3.toNat / 16 * 16 + x5.toNat / 4 * 4) x6) (x7.toNat / 24)⟩

/-- The lists that a call finds in the caller's memory, the arguments read there before them. -/
def Smc.shown (c : Smc) : Request :=
  shownLists c.world c.x2 c.x3 c.x4 (wordAt c.world 0 (c.argAddr 0) c.word)
    (wordAt c.world 1 (c.argAddr 1) c.word) (wordAt c.world 2 (c.argAddr 2) c.word)

/-- The part of `get_mem_params()` between the mapping and the unmapping: its value and the lists, or
`none` where a read is an exception. The lists that are not copied stay empty. -/
def copyParams (p : Platform) (w : World) (ctx : XlatCtx) (x2 x3 x4 x5 x6 x7 : UInt64) :
    Option (Int × Request) :=
  let memCnt := x3.toNat / 16
  let srcCnt := x5.toNat / 4
  let dstCnt := x7.toNat / 24
  if x3.toNat % 16 != 0 || x5.toNat % 4 != 0 || x7.toNat % 24 != 0 then some (-EINVAL, ⟨[], [], []⟩)
  else if QTI_VM_MAX_LIST_SIZE < memCnt then some (-EINVAL, ⟨[], [], []⟩)
  else
    match copyBytes w ctx 3 x2 (memCnt * 16) with
    | none => none
    | some mem =>
      if QTI_VM_LAST ≤ srcCnt then some (-EINVAL, ⟨memList mem memCnt, [], []⟩)
      else
        match copyBytes w ctx (3 + memCnt * 16) x4 (srcCnt * 4) with
        | none => none
        | some src =>
          if QTI_VM_LAST ≤ dstCnt then
            some (-EINVAL, ⟨memList mem memCnt, srcList src srcCnt, []⟩)
          else
            match copyBytes w ctx (3 + memCnt * 16 + srcCnt * 4) x6 (dstCnt * 24) with
            | none => none
            | some dst =>
              let r : Request := ⟨memList mem memCnt, srcList src srcCnt, dstList dst dstCnt⟩
              some (if qtiMemAssignValidateParam p.memTypeOk r then 0 else -EINVAL, r)

def getMemParams (p : Platform) (c : Smc) (x5 x6 x7 : UInt64) (s : Mapping) :
    Except Mapping (Int × Request × Mapping) :=
  if c.x2 == 0 || c.x4 == 0 || x6 == 0 then .ok (-EINVAL, ⟨[], [], []⟩, s)
  else if 2 ^ 64 ≤ c.x2.toNat + c.x3.toNat || 2 ^ 64 ≤ c.x4.toNat + x5.toNat ||
      2 ^ 64 ≤ x6.toNat + x7.toNat then .ok (-EINVAL, ⟨[], [], []⟩, s)
  else
    let start := min (min c.x2 c.x4) x6
    let stop := max (max (c.x2 + c.x3) (c.x4 + x5)) (x6 + x7)
    let len := stop - start
    let add := qtiMmapAddDynamicRegion p c.room.2 start len s
    if add.1 != 0 then .ok (add.1, ⟨[], [], []⟩, add.2)
    else
      match copyParams p c.world add.2.ctx c.x2 c.x3 c.x4 x5 x6 x7 with
      | none => .error add.2
      | some (ret, params) =>
        let remove := qtiMmapRemoveDynamicRegion start len add.2
        .ok (if ret != 0 then ret else remove.1, params, remove.2)

structure State where
  ranges : List MpuRanges
  lock : Bool
  ctx : XlatCtx

/-- What the caller gets: a status with the value of the operation, or nothing, because EL3 takes an
exception, waits for interrupts for ever, or spins on a lock that is never released. -/
inductive Reply where
  | status (ret operationRet : Int)
  | fault
  | waits
  | spins
  deriving DecidableEq, Repr

/-- A call's reply and the state after it, with the regions it asked the tables to map and the lists it
handed to `qti_accesscontrol_mem_assign()`. -/
structure Outcome where
  reply : Reply
  state : State
  tried : List MmapRegion
  handed : Option Request

def statusOf (ret : Int) : Reply :=
  .status (if ret = 0 then QTI_SIP_SUCCESS else QTI_SIP_INVALID_PARAM) ret

/-- `qti_accesscontrol_mem_assign()` under `mem_assign_lock`. -/
def lockedMemAssign (s : State) (r : Request) : Reply × State :=
  if s.lock then (.spins, s)
  else
    match memAssign s.ranges r with
    | .error ranges => (.waits, { s with ranges, lock := true })
    | .ok (ret, ranges) => (statusOf ret, { s with ranges })

def qtiSipMemAssign (p : Platform) (s : State) (c : Smc) : Outcome :=
  if c.x1 != QTI_SIP_SVC_MEM_ASSIGN_PARAM_ID then ⟨statusOf QTI_SIP_NOT_SUPPORTED, s, [], none⟩
  else if c.x5 == 0 then ⟨statusOf QTI_SIP_NOT_SUPPORTED, s, [], none⟩
  else
    match getIndirectArgs p c ⟨s.ctx, []⟩ with
    | .error m => ⟨.fault, { s with ctx := m.ctx }, m.tried, none⟩
    | .ok (ret, (x5, x6, x7), m) =>
      if ret != 0 then ⟨statusOf ret, { s with ctx := m.ctx }, m.tried, none⟩
      else
        match getMemParams p c x5 x6 x7 m with
        | .error m' => ⟨.fault, { s with ctx := m'.ctx }, m'.tried, none⟩
        | .ok (ret', params, m') =>
          if ret' != 0 then ⟨statusOf ret', { s with ctx := m'.ctx }, m'.tried, none⟩
          else
            let r := lockedMemAssign { s with ctx := m'.ctx } params
            ⟨r.1, r.2, m'.tried, some params⟩

end TrustedFirmware.Qti
