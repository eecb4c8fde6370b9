import TrustedFirmware.Partition.Load

/-! # Loading a partition table through the I/O layer

`load_partition_table()` of `partition.c` with the calls it makes to the I/O layer: the
entities that `io_open()` takes from the pool of `io_storage.c` and `io_close()` gives back, and the
block specification of the image with the backup, which `load_backup_gpt()` changes for a while.
Drivers and platform may answer anything, also with fewer bytes than asked for. -/
namespace TrustedFirmware.Partition
open Libc ByteMemory Crc32
set_option autoImplicit false

structure ReadResult where
  rc : Int
  bytesRead : ℕ
  buffer : Data

structure Driver (ω : Type) where
  /-- `plat_get_image_source()` for the image with the partition table. -/
  imageSource : ω → Int × ω
  /-- `plat_get_image_source()` for the image with the backup. -/
  backupSource : ω → Int × ω
  openImage : ω → Int × ω
  openBackup : ω → ℕ → ℕ → Int × ω
  seek : ω → ℕ → ℕ → Int × ω
  read : ω → ℕ → ℕ → ReadResult × ω
  close : ω → ℕ → ω
  /-- `handle_gpt_corruption()`. -/
  corruption : ω → ω
  /-- What is in the local variable of `load_mbr_entries()` to begin with. -/
  stack : ω → MbrEntry

structure Sys (ω : Type) where
  world : ω
  /-- `entity_map[]`: whether an entity is taken. -/
  entityMap : List Bool
  blockSpec : ℕ × ℕ
  list : PartitionList

abbrev Prog (ω : Type) := StateT (Sys ω) Option

variable {ω : Type}

/-! ## The I/O layer -/

def driverCall {α : Type} (f : ω → α × ω) : Prog ω α := fun x =>
  some ((f x.world).1, { x with world := (f x.world).2 })

def modifyList (f : PartitionList → PartitionList) : Prog ω Unit := fun x =>
  some ((), { x with list := f x.list })

def setBlockSpec (spec : ℕ × ℕ) : Prog ω Unit := fun x => some ((), { x with blockSpec := spec })

def setEntity (index : ℕ) (taken : Bool) : Prog ω Unit := fun x =>
  some ((), { x with entityMap := x.entityMap.set index taken })

/-- `allocate_entity()`: the first entity that is free, unless all are taken. -/
def allocateEntity : Prog ω (Except Int ℕ) := fun x =>
  if x.entityMap.count true < x.entityMap.length then
    some (.ok (x.entityMap.idxOf false),
      { x with entityMap := x.entityMap.set (x.entityMap.idxOf false) true })
  else some (.error (-ENOMEM), x)

def freeEntity (index : ℕ) : Prog ω Unit := setEntity index false

/-- `io_open()` with the driver's function. -/
def ioOpen (openFn : ω → Int × ω) : Prog ω (Except Int ℕ) := do
  match ← allocateEntity with
  | .error rc => pure (.error rc)
  | .ok handle =>
    let rc ← driverCall openFn
    if rc = 0 then pure (.ok handle)
    else do
      freeEntity handle
      pure (.error rc)

def ioSeek (io : Driver ω) (handle offset : ℕ) : Prog ω Int :=
  driverCall fun w => io.seek w handle offset

def ioRead (io : Driver ω) (handle n : ℕ) : Prog ω ReadResult :=
  driverCall fun w => io.read w handle n

def ioClose (io : Driver ω) (handle : ℕ) : Prog ω Unit := do
  driverCall fun w => ((), io.close w handle)
  freeEntity handle

/-! ## Headers and entries -/

/-- The MBR entry stays as it was when the call fails, and also when too few bytes are read. -/
def loadMbrHeaderIo (D : Disk) (io : Driver ω) (handle : ℕ) : Prog ω (Int × MbrEntry) := do
  let rc ← ioSeek io handle 0
  if rc ≠ 0 then pure (rc, ⟨0, 0, 0⟩)
  else do
    let r ← ioRead io handle D.blockSize
    if r.rc ≠ 0 ∨ r.bytesRead ≠ D.blockSize then pure (r.rc, ⟨0, 0, 0⟩)
    else if r.buffer.getD 510 0 ≠ 0x55 ∨ r.buffer.getD 511 0 ≠ 0xAA then pure (-ENOENT, ⟨0, 0, 0⟩)
    else if (mbrEntry r.buffer 0).sectorNums = 0 ∨ (mbrEntry r.buffer 0).sectorNums = 2 ^ 32 - 1 then
      pure (-EINVAL, ⟨0, 0, 0⟩)
    else pure (0, mbrEntry r.buffer 0)

/-- A header of which too few bytes are read is returned without a check. -/
def loadGptHeaderIo (D : Disk) (io : Driver ω) (handle offset : ℕ) : Prog ω (Int × Header) := do
  let rc ← ioSeek io handle offset
  if rc ≠ 0 then pure (rc, header [])
  else do
    let r ← ioRead io handle HEADER_SIZE
    if r.rc ≠ 0 ∨ r.bytesRead ≠ HEADER_SIZE then pure (r.rc, header r.buffer)
    else match headerCheck r.buffer with
      | .error rc => pure (rc, header r.buffer)
      | .ok h => do
        modifyList fun s => { s with entryCount := min h.listNum D.maxEntries }
        pure (0, h)

def loadGptEntryIo (io : Driver ω) (handle : ℕ) : Prog ω (Int × Data) := do
  let r ← ioRead io handle ENTRY_SIZE
  if r.rc ≠ 0 ∨ r.bytesRead ≠ ENTRY_SIZE then pure (-EINVAL, r.buffer)
  else pure (r.rc, r.buffer)

/-- `load_mbr_entry()`; the entry stays as it was when the call fails. -/
def loadMbrEntryIo (D : Disk) (io : Driver ω) (handle : ℕ) (entry : MbrEntry) (i : ℕ) :
    Prog ω MbrEntry := do
  let rc ← ioSeek io handle 0
  if rc ≠ 0 then pure entry
  else do
    let r ← ioRead io handle D.blockSize
    if r.rc ≠ 0 then pure entry
    else if r.buffer.getD 510 0 ≠ 0x55 ∨ r.buffer.getD 511 0 ≠ 0xAA then pure entry
    else pure (mbrEntry r.buffer i)

def storeMbrEntry (i : ℕ) (entry : MbrEntry) (s : PartitionList) : PartitionList :=
  s.set i { s.list i with
    start := entry.firstLba * 512 % 2 ^ 32
    length := entry.sectorNums * 512 % 2 ^ 32
    name := (s.list i).name.set 0 entry.type }

/-- The loop of `load_mbr_entries()` over `k` entries from `i` on. -/
def loadMbrEntriesLoop (D : Disk) (io : Driver ω) (handle : ℕ) : ℕ → ℕ → MbrEntry → Prog ω Unit
  | 0, _, _ => pure ()
  | k + 1, i, entry => do
    let entry ← loadMbrEntryIo D io handle entry i
    modifyList (storeMbrEntry i entry)
    loadMbrEntriesLoop D io handle k (i + 1) entry

def loadMbrEntriesIo (D : Disk) (io : Driver ω) (handle : ℕ) : Prog ω Int := do
  modifyList fun s => { s with entryCount := 4 }
  let entry ← driverCall fun w => (io.stack w, w)
  loadMbrEntriesLoop D io handle 4 0 entry
  pure 0

/-! ## The table -/

def loadEntriesIo (D : Disk) (io : Driver ω) (handle : ℕ) (h : Header) (base : ℕ) :
    ℕ → ℕ → UInt32 → Prog ω (Except Int (ℕ × UInt32))
  | 0, i, crc => pure (.ok (i, crc))
  | k + 1, i, crc => do
    let (rc, e) ← loadGptEntryIo io handle
    if rc ≠ 0 then pure (.error rc)
    else match entryStatus h e with
      | none => fun _ => none
      | some rc => do
        modifyList fun s => s.set i (parseGptEntry D h e (s.list i))
        if rc = 0 then loadEntriesIo D io handle h base k (i + 1) (tfCrc32 crc e)
        else if rc ≠ -ENOENT then pure (.error rc)
        else do
          let rc ← ioSeek io handle ((base + i * ENTRY_SIZE) % 2 ^ 64)
          if rc ≠ 0 then pure (.error rc) else pure (.ok (i, crc))

def crcEntriesIo (io : Driver ω) (handle : ℕ) : ℕ → UInt32 → Prog ω (Except Int UInt32)
  | 0, crc => pure (.ok crc)
  | k + 1, crc => do
    let (rc, e) ← loadGptEntryIo io handle
    if rc ≠ 0 then pure (.error rc) else crcEntriesIo io handle k (tfCrc32 crc e)

def getEntryCount : Prog ω ℕ := fun x => some (x.list.entryCount, x)

def loadPartitionGptIo (D : Disk) (io : Driver ω) (handle : ℕ) (h : Header) : Prog ω Int := do
  let rc ← ioSeek io handle (D.lba h.partLba)
  if rc ≠ 0 then pure rc
  else do
    let count ← getEntryCount
    match ← loadEntriesIo D io handle h (D.lba h.partLba) count 0 0 with
    | .error rc => pure rc
    | .ok (i, crc) =>
      if i = 0 then pure (-EINVAL)
      else do
        modifyList fun s => { s with entryCount := i }
        match ← crcEntriesIo io handle (h.listNum - i) crc with
        | .error rc => pure rc
        | .ok crc => pure (if crc.toNat = h.partCrc then 0 else -EINVAL)

def getBlockSpec : Prog ω (ℕ × ℕ) := fun x => some (x.blockSpec, x)

def loadMappedGptIo (D : Disk) (io : Driver ω) (handle : ℕ) : Prog ω Int := do
  let (rc, h) ← loadGptHeaderIo D io handle (D.lba (D.maxEntries / 4))
  if rc ≠ 0 ∨ h.partLba = 0 then pure rc
  else loadPartitionGptIo D io handle { h with partLba := 0 }

def loadBackupGptIo (D : Disk) (io : Driver ω) (sectorNums : ℕ) : Prog ω Int := do
  let rc ← driverCall io.backupSource
  if rc ≠ 0 then pure rc
  else do
    let (origOffset, origLength) ← getBlockSpec
    if sectorNums ≤ D.maxEntries / 4 then pure (-EINVAL)
    else if origOffset + D.lba (sectorNums - D.maxEntries / 4) ≥ 2 ^ 64 then pure (-EOVERFLOW)
    else do
      let offset := origOffset + D.lba (sectorNums - D.maxEntries / 4)
      let length := D.lba (D.maxEntries / 4 + 1)
      setBlockSpec (offset, length)
      match ← ioOpen fun w => io.openBackup w offset length with
      | .error rc => do
        setBlockSpec (origOffset, origLength)
        pure rc
      | .ok handle => do
        let rc ← loadMappedGptIo D io handle
        ioClose io handle
        setBlockSpec (origOffset, origLength)
        pure rc

def loadPrimaryGptIo (D : Disk) (io : Driver ω) (handle lba : ℕ) : Prog ω Int := do
  let (rc, h) ← loadGptHeaderIo D io handle (D.lba lba)
  if rc ≠ 0 ∨ h.partLba = 0 then pure rc
  else loadPartitionGptIo D io handle h

/-- A first LBA other than 1 makes the function return with the image open. -/
def loadPartitionTableIo (D : Disk) (io : Driver ω) : Prog ω Int := do
  let rc ← driverCall io.imageSource
  if rc ≠ 0 then pure rc
  else match ← ioOpen io.openImage with
    | .error rc => pure rc
    | .ok handle => do
      let (rc, mbr) ← loadMbrHeaderIo D io handle
      if rc ≠ 0 then do
        ioClose io handle
        pure rc
      else if mbr.type = PARTITION_TYPE_GPT then
        if mbr.firstLba ≠ 1 then pure (-EINVAL)
        else do
          let rc ← loadPrimaryGptIo D io handle mbr.firstLba
          ioClose io handle
          if rc ≠ 0 then do
            driverCall fun w => ((), io.corruption w)
            loadBackupGptIo D io mbr.sectorNums
          else pure rc
      else do
        let rc ← loadMbrEntriesIo D io handle
        ioClose io handle
        pure rc

end TrustedFirmware.Partition
