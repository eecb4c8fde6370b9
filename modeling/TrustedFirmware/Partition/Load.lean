import TrustedFirmware.Common
import TrustedFirmware.Foundations.ByteMemory

/-! # Partition tables

`partition.c` and `gpt.c`: the headers and entries of a table, what is taken from them, and the list of
the partitions. -/
namespace TrustedFirmware.Partition
open Libc ByteMemory Crc32
set_option autoImplicit false

abbrev Data := List UInt8

/-- The build options `PLAT_PARTITION_BLOCK_SIZE` and `PLAT_PARTITION_MAX_ENTRIES`. -/
structure Disk where
  blockSize : ℕ
  maxEntries : ℕ
  blockSize_eq : blockSize = 512 ∨ blockSize = 4096
  maxEntries_pos : 0 < maxEntries
  maxEntries_le : maxEntries ≤ 128

def Disk.lba (D : Disk) (n : ℕ) : ℕ := n * D.blockSize % 2 ^ 64

/-! ## Headers and entries -/

def bytes (d : Data) : Bytes := fun i => d.getD i 0

def field (d : Data) (offset size : ℕ) : ℕ := load (bytes d) offset size

/-- The fields of `gpt_header_t` that are used. -/
structure Header where
  headerCrc : ℕ
  firstLba : ℕ
  lastLba : ℕ
  partLba : ℕ
  listNum : ℕ
  partSize : ℕ
  partCrc : ℕ
  deriving DecidableEq, Repr

def HEADER_SIZE : ℕ := 92
def ENTRY_SIZE : ℕ := 128

def header (raw : Data) : Header :=
  ⟨field raw 16 4, field raw 40 8, field raw 48 8, field raw 72 8, field raw 80 4, field raw 84 4,
    field raw 88 4⟩

def GPT_SIGNATURE : Data := [0x45, 0x46, 0x49, 0x20, 0x50, 0x41, 0x52, 0x54]

def withoutCrc (raw : Data) : Data := raw.take 16 ++ [0, 0, 0, 0] ++ raw.drop 20

def validateGptEntryArray (h : Header) : Int :=
  if h.listNum = 0 ∨ h.partSize ≠ ENTRY_SIZE then -EINVAL
  else if h.listNum > (2 ^ 64 - 1) / h.partSize then -EOVERFLOW
  else 0

structure PartitionEntry where
  start : ℕ
  length : ℕ
  name : Data
  partGuid : Data
  typeGuid : Data
  deriving DecidableEq, Repr

def EFI_NAMELEN : ℕ := 36

def PartitionEntry.zero : PartitionEntry :=
  ⟨0, 0, List.replicate EFI_NAMELEN 0, List.replicate 16 0, List.replicate 16 0⟩

/-- The static `list`. -/
structure PartitionList where
  list : ℕ → PartitionEntry
  entryCount : ℕ

/-- What the lookup functions see. -/
def PartitionList.visible (s : PartitionList) : List PartitionEntry :=
  (List.range s.entryCount).map s.list

def typeUuid (e : Data) : Data := e.take 16
def uniqueUuid (e : Data) : Data := (e.drop 16).take 16
def firstLba (e : Data) : ℕ := field e 32 8
def lastLba (e : Data) : ℕ := field e 40 8
def attr (e : Data) : ℕ := field e 48 8
def nameBytes (e : Data) : Data := (e.drop 56).take (2 * EFI_NAMELEN)

def isZero (d : Data) : Bool := d.all (· = 0)

/-- An empty entry ends the table. -/
def gptEntryIsEmpty (e : Data) : Bool :=
  isZero (typeUuid e) && isZero (uniqueUuid e) && decide (firstLba e = 0) && decide (lastLba e = 0) &&
    decide (attr e = 0) && isZero (nameBytes e)

def gptEntryIsInvalid (h : Header) (e : Data) : Bool :=
  isZero (typeUuid e) || isZero (uniqueUuid e) || decide (firstLba e = 0) || decide (lastLba e = 0) ||
    decide (firstLba e > lastLba e) || decide (firstLba e < h.firstLba) ||
    decide (lastLba e > h.lastLba)

def nameIsAscii (e : Data) : Bool :=
  (List.range EFI_NAMELEN).all fun i => (nameBytes e).getD (2 * i + 1) 0 = 0

def asciiName (e : Data) : Data :=
  let cs := ((List.range EFI_NAMELEN).map fun i => (nameBytes e).getD (2 * i) 0).takeWhile (· ≠ 0)
  cs ++ List.replicate (EFI_NAMELEN - cs.length) 0

def parsedEntry (D : Disk) (e : Data) : PartitionEntry where
  start := firstLba e * D.blockSize % 2 ^ 64
  length := (lastLba e - firstLba e + 1) % 2 ^ 64 * D.blockSize % 2 ^ 64
  name := asciiName e
  partGuid := uniqueUuid e
  typeGuid := typeUuid e

/-- The return code of `parse_gpt_entry()`. A name must not be empty: `none` is the failed
assertion. -/
def entryStatus (h : Header) (e : Data) : Option Int :=
  if gptEntryIsEmpty e then some (-ENOENT)
  else if gptEntryIsInvalid h e then some (-EINVAL)
  else if (nameBytes e).getD 0 0 = 0 then none
  else if nameIsAscii e then some 0
  else some (-EINVAL)

/-- What `parse_gpt_entry()` leaves in the list. -/
def parseGptEntry (D : Disk) (h : Header) (e : Data) (prev : PartitionEntry) : PartitionEntry :=
  if gptEntryIsEmpty e || gptEntryIsInvalid h e then prev
  else if nameIsAscii e then parsedEntry D e
  else .zero

def PartitionList.set (s : PartitionList) (i : ℕ) (entry : PartitionEntry) : PartitionList :=
  { s with list := Function.update s.list i entry }

/-! ## The table -/

def headerCheck (raw : Data) : Except Int Header :=
  if raw.take 8 ≠ GPT_SIGNATURE then .error (-EINVAL)
  else if (tfCrc32 0 (withoutCrc raw)).toNat ≠ (header raw).headerCrc then .error (-EINVAL)
  else if validateGptEntryArray (header raw) ≠ 0 then .error (validateGptEntryArray (header raw))
  else .ok (header raw)

/-! ## The disk -/

def PARTITION_TYPE_GPT : UInt8 := 0xee

structure MbrEntry where
  type : UInt8
  firstLba : ℕ
  sectorNums : ℕ
  deriving DecidableEq, Repr

def mbrEntry (sector : Data) (i : ℕ) : MbrEntry :=
  ⟨sector.getD (0x1be + 0x10 * i + 4) 0, field sector (0x1be + 0x10 * i + 8) 4,
    field sector (0x1be + 0x10 * i + 12) 4⟩

/-! ## Lookup -/

def cString (name : Data) : Data := name.takeWhile (· ≠ 0)

/-- `strcmp()` goes on in the fields behind a name that has no end. -/
def getPartitionEntry (s : PartitionList) (name : Data) : Option PartitionEntry :=
  s.visible.find? fun e => cString (e.name ++ e.partGuid ++ e.typeGuid) = cString name

end TrustedFirmware.Partition
