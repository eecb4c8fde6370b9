import TrustedFirmware.Common
import TrustedFirmware.Foundations.ByteMemory

/-! # The firmware image package driver

`io_fip.c` on AArch64: a file is looked up by its UUID in the table of contents of the package and read
through a backend. There is one file state for all devices, and whether a file is open is told from the
offset in the entry that was read from the package. -/
namespace TrustedFirmware.Io.Fip
open Libc ByteMemory Utils
set_option autoImplicit false

def LLONG_MAX : UInt64 := 0x7FFFFFFFFFFFFFFF

/-- `sizeof(fip_toc_header_t)` and `sizeof(fip_toc_entry_t)` -/
def TOC_HEADER_SIZE : ℕ := 16
def TOC_ENTRY_SIZE : ℕ := 40

structure TocEntry where
  uuid : List UInt8
  offsetAddress : UInt64
  size : UInt64
  flags : UInt64
  deriving DecidableEq

structure FileState where
  filePos : UInt32
  fipSize : UInt64
  entry : TocEntry
  deriving DecidableEq

def uuidNull : List UInt8 := List.replicate 16 0

def zeroed : FileState := ⟨0, 0, ⟨uuidNull, 0, 0, 0⟩⟩

/-- The backend: the bytes of the package, and what `io_open()`, `io_seek()` to a position and
`io_read()` of a number of bytes at a position answer; the last one also gives the number read. -/
structure Backend where
  mem : Bytes
  ioOpen : Int
  ioSeek : ℕ → Int
  ioRead : ℕ → ℕ → Int × ℕ

def slice (mem : Bytes) (base length : ℕ) : List UInt8 := (List.range length).map fun i => mem (base + i)

def tocEntryAt (mem : Bytes) (p : ℕ) : TocEntry where
  uuid := slice mem p 16
  offsetAddress := UInt64.ofNat (load mem (p + 16) 8)
  size := UInt64.ofNat (load mem (p + 24) 8)
  flags := UInt64.ofNat (load mem (p + 32) 8)

/-- The loop over the table, from an offset on; `none` at the terminator. The number of rounds left
does not run out before the table is out of bounds. -/
def tocScan (b : Backend) (fipSize : UInt64) (uuid : List UInt8) : ℕ → ℕ → Except Int (Option TocEntry)
  | 0, _ => .ok none
  | rounds + 1, tocOffset =>
    if tocOffset > fipSize.toNat - TOC_ENTRY_SIZE then .error (-EINVAL)
    else
      let (result, bytesRead) := b.ioRead tocOffset TOC_ENTRY_SIZE
      if result ≠ 0 then .error result
      else if bytesRead ≠ TOC_ENTRY_SIZE then .error (- Libc.EIO)
      else
        let entry := tocEntryAt b.mem tocOffset
        if entry.uuid = uuid then .ok (some entry)
        else if entry.uuid = uuidNull then .ok none
        else tocScan b fipSize uuid rounds (tocOffset + TOC_ENTRY_SIZE)

def entryBoundsInvalid (e : TocEntry) (fipSize : UInt64) : Bool :=
  e.size == 0 || e.offsetAddress ≥ fipSize || e.size > fipSize || e.offsetAddress + e.size > fipSize ||
    checkU64Overflow e.offsetAddress e.size

/-- `fip_file_open()` on a device with the given size of the package. -/
def fipFileOpen (b : Backend) (fipSize : UInt64) (uuid : List UInt8) (cur : FileState) :
    FileState × Int :=
  if fipSize = 0 then (cur, -EINVAL)
  else if fipSize.toNat < TOC_HEADER_SIZE + TOC_ENTRY_SIZE then (cur, -EINVAL)
  else if cur.entry.offsetAddress ≠ 0 then (cur, -ENFILE)
  else if b.ioOpen ≠ 0 then (zeroed, -ENOENT)
  else if b.ioSeek TOC_HEADER_SIZE ≠ 0 then (zeroed, -ENOENT)
  else
    match tocScan b fipSize uuid fipSize.toNat TOC_HEADER_SIZE with
    | .error result => (zeroed, result)
    | .ok none => (zeroed, -ENOENT)
    | .ok (some e) =>
      if entryBoundsInvalid e fipSize then (zeroed, -EINVAL) else (⟨0, fipSize, e⟩, 0)

/-- `fip_file_read()`; the bytes on success. The position has 32 bits, sizes and offsets 64. -/
def fipFileRead (b : Backend) (fp : FileState) (length : UInt64) :
    FileState × Except Int (List UInt8) :=
  let filePos := fp.filePos.toUInt64
  let fileOffset := fp.entry.offsetAddress + filePos
  if b.ioOpen ≠ 0 then (fp, .error (-ENOENT))
  else if filePos > fp.entry.size then (fp, .error (-EINVAL))
  else if length > fp.entry.size - filePos then (fp, .error (-EINVAL))
  else if fileOffset < fp.entry.offsetAddress ∨ fileOffset + length < fileOffset ∨
      fileOffset + length > fp.fipSize ∨ fileOffset > LLONG_MAX then (fp, .error (-EINVAL))
  else if b.ioSeek fileOffset.toNat ≠ 0 then (fp, .error (-ENOENT))
  else
    let (result, bytesRead) := b.ioRead fileOffset.toNat length.toNat
    if result ≠ 0 then (fp, .error (-ENOENT))
    else if bytesRead ≠ length.toNat then (fp, .error (- Libc.EIO))
    else ({ fp with filePos := (filePos + length).toUInt32 },
      .ok (slice b.mem fileOffset.toNat length.toNat))

/-- `fip_file_close()`, as far as the file state goes. -/
def fipFileClose (cur : FileState) : FileState :=
  if cur.entry.offsetAddress ≠ 0 then zeroed else cur

/-! ## What an open does -/

theorem tocScan_error {b : Backend} {fipSize : UInt64} {uuid : List UInt8} {rounds p : ℕ} {rc : Int}
    (h : tocScan b fipSize uuid rounds p = .error rc) : rc ≠ 0 := by
  induction rounds generalizing p with
  | zero => exact absurd h nofun
  | succ rounds ih =>
    simp only [tocScan] at h
    split at h
    · exact Except.error.inj h ▸ by decide
    split at h
    · next hrc => exact Except.error.inj h ▸ hrc
    split at h
    · exact Except.error.inj h ▸ by decide
    split at h
    · exact absurd h nofun
    split at h
    · exact absurd h nofun
    · exact ih h

theorem fipFileOpen_cases (b : Backend) (fipSize : UInt64) (uuid : List UInt8) (cur : FileState) :
    ((fipFileOpen b fipSize uuid cur).1 = cur ∧ (fipFileOpen b fipSize uuid cur).2 ≠ 0) ∨
    (cur.entry.offsetAddress = 0 ∧ (fipFileOpen b fipSize uuid cur).1 = zeroed ∧
      (fipFileOpen b fipSize uuid cur).2 ≠ 0) ∨
    (cur.entry.offsetAddress = 0 ∧ ∃ e,
      tocScan b fipSize uuid fipSize.toNat TOC_HEADER_SIZE = .ok (some e) ∧
      entryBoundsInvalid e fipSize = false ∧ fipFileOpen b fipSize uuid cur = (⟨0, fipSize, e⟩, 0)) := by
  unfold fipFileOpen
  by_cases hzero : fipSize = 0
  · exact .inl (by simp [hzero, EINVAL])
  by_cases hsmall : fipSize.toNat < TOC_HEADER_SIZE + TOC_ENTRY_SIZE
  · exact .inl (by simp [hzero, hsmall, EINVAL])
  by_cases hopen : cur.entry.offsetAddress = 0
  · refine .inr ?_
    by_cases hio : b.ioOpen = 0
    · by_cases hseek : b.ioSeek TOC_HEADER_SIZE = 0
      · cases hscan : tocScan b fipSize uuid fipSize.toNat TOC_HEADER_SIZE with
        | error rc => exact .inl (by simp [hzero, hsmall, hopen, hio, hseek, tocScan_error hscan])
        | ok r =>
          cases r with
          | none => exact .inl (by simp [hzero, hsmall, hopen, hio, hseek, ENOENT])
          | some e =>
            cases hbounds : entryBoundsInvalid e fipSize with
            | true => exact .inl (by simp [hzero, hsmall, hopen, hio, hseek, hbounds, EINVAL])
            | false => exact .inr (by simp [hzero, hsmall, hopen, hio, hseek, hbounds])
      · exact .inl (by simp [hzero, hsmall, hopen, hio, hseek, ENOENT])
    · exact .inl (by simp [hzero, hsmall, hopen, hio, ENOENT])
  · exact .inl (by simp [hzero, hsmall, hopen, ENFILE])

def uuidOne : List UInt8 := 1 :: List.replicate 15 0

end TrustedFirmware.Io.Fip
