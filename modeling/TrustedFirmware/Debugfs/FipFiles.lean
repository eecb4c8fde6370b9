import TrustedFirmware.Io.Fip
import TrustedFirmware.Foundations.Runs

/-! # Images of a package as files

`debugfs` mounts a firmware image package and gives its images to the non-secure world as files, which
it opens, seeks in and reads by SMC into one shared page. The sum of offset and size of an image is
checked as a signed number at the mount; the size of the page is checked nowhere. -/
namespace TrustedFirmware.Debugfs
open Io.Fip ByteMemory Runs
set_option autoImplicit false

def NR_FILES : ℕ := 18
def NR_CHANS : ℕ := 10
def PAGE_SIZE_4KB : ℕ := 4096
def TOC_HEADER_NAME : ℕ := 0xAA640001

structure Blob where
  data : Bytes
  length : ℕ
  small : length < 2 ^ 63

def long (x : UInt64) : Int := if x.toNat < 2 ^ 63 then x.toNat else x.toNat - 2 ^ 64

def int (x : UInt64) : Int :=
  if x.toNat % 2 ^ 32 < 2 ^ 31 then x.toNat % 2 ^ 32 else x.toNat % 2 ^ 32 - 2 ^ 32

/-! ## Mounting -/

def mountEntries (b : Blob) : ℕ → ℕ → Option (List TocEntry)
  | 0, _ => none
  | k + 1, off =>
    -- `get_entry()` fails where the entry is not in the file.
    if b.length < off + TOC_ENTRY_SIZE then none
    else
      let entry := tocEntryAt b.data off
      if entry.size = 0 then some []
      else if long (entry.offsetAddress + entry.size) > b.length then none
      else (mountEntries b k (off + TOC_ENTRY_SIZE)).map (entry :: ·)

def fipmount (b : Blob) : Option (List TocEntry) :=
  if b.length < 4 ∨ load b.data 0 4 ≠ TOC_HEADER_NAME then none
  else mountEntries b NR_FILES TOC_HEADER_SIZE

theorem mountEntries_checked {b : Blob} {k off : ℕ} {entries : List TocEntry}
    (h : mountEntries b k off = some entries) :
    ∀ e ∈ entries, long (e.offsetAddress + e.size) ≤ b.length := by
  induction k generalizing off entries with
  | zero => cases h
  | succ k ih =>
    rw [mountEntries] at h
    split at h
    · cases h
    dsimp only at h
    split at h
    · cases h
      intro e he
      cases he
    split at h
    · cases h
    next hsum =>
      obtain ⟨rest, hrest, rfl⟩ := Option.map_eq_some_iff.mp h
      exact List.forall_mem_cons.mpr ⟨not_lt.mp hsum, ih hrest⟩

theorem fipmount_checked {b : Blob} {entries : List TocEntry} (h : fipmount b = some entries) :
    ∀ e ∈ entries, long (e.offsetAddress + e.size) ≤ b.length := by
  rw [fipmount] at h
  split at h
  · cases h
  · exact mountEntries_checked h

/-! ## Reading -/

structure Outcome where
  ret : Int
  copied : Option (ℕ × ℕ)
deriving DecidableEq

/-- `buf_to_channel()` from an offset on: the number of bytes that are copied. -/
def bufToChannel (b : Blob) (off nbytes : UInt64) : Option UInt64 :=
  if off.toNat ≥ b.length then none
  else if (off + nbytes).toNat > b.length then some (UInt64.ofNat b.length - off)
  else some nbytes

/-- `fipread()` of an image at a position; `none` where it panics. -/
def fipread (b : Blob) (entry : TocEntry) (pos : UInt64) (n : Int) : Option Outcome :=
  if long entry.offsetAddress < 0 then none
  else if pos ≥ entry.size then some ⟨0, none⟩
  else if n < 0 then some ⟨-1, none⟩
  else
    let asked := UInt64.ofNat n.toNat
    let n := if asked > entry.size - pos then entry.size - pos else asked
    let off := entry.offsetAddress + pos
    match bufToChannel b off n with
    | none => some ⟨-1, none⟩
    | some count => some ⟨count.toNat, some (off.toNat, count.toNat)⟩

/-- `devseek()`: the position after it. -/
def devseek (pos off : UInt64) (whence : Int) : UInt64 :=
  if whence = 0 then off else if whence = 1 then pos + off else pos

structure Read where
  entry : TocEntry
  pos : UInt64
  n : Int
  outcome : Outcome
deriving DecidableEq

structure Session where
  files : List (TocEntry × UInt64)
  reads : List Read
deriving DecidableEq

inductive Smc where
  | open (name : String)
  | seek (fd : ℕ) (off : UInt64) (whence : Int)
  | read (fd : ℕ) (size : UInt64)

/-- `debugfs_smc_handler()` for a mounted package, on its files; `names` is the name of an image by its
UUID. -/
def smcHandler (b : Blob) (entries : List TocEntry) (names : List UInt8 → String) (s : Session) :
    Smc → Session
  | .open name =>
    match entries.find? fun e => names e.uuid = name with
    | some e => if s.files.length < NR_CHANS then { s with files := s.files ++ [(e, 0)] } else s
    | none => s
  | .seek fd off whence =>
    match s.files[fd]? with
    | none => s
    | some (e, pos) => { s with files := s.files.set fd (e, devseek pos off whence) }
  | .read fd size =>
    match s.files[fd]? with
    | none => s
    | some (e, pos) =>
      match fipread b e pos (int size) with
      | none => s
      | some o =>
        { files := s.files.set fd (e, if o.ret > 0 then pos + UInt64.ofNat o.ret.toNat else pos)
          reads := s.reads ++ [⟨e, pos, int size, o⟩] }

/-! ## What is read -/

/-- A read copies the bytes of the image from the position on, cut at the end of the image, into the
page, and the image is inside the package; or it copies nothing, at the end or for a negative size. -/
def Right (b : Blob) (r : Read) : Prop :=
  if r.pos < r.entry.size ∧ 0 ≤ r.n then
    let count := min r.n.toNat (r.entry.size.toNat - r.pos.toNat)
    r.outcome = ⟨count, some (r.entry.offsetAddress.toNat + r.pos.toNat, count)⟩ ∧
      count ≤ PAGE_SIZE_4KB ∧
      r.entry.offsetAddress.toNat + r.entry.size.toNat ≤ b.length
  else r.outcome.copied = none

instance (b : Blob) (r : Read) : Decidable (Right b r) := by
  unfold Right
  infer_instance

def Fits (s : Session) : Smc → Prop
  | .read fd size => ∀ e pos, s.files[fd]? = some (e, pos) → 0 ≤ long e.offsetAddress →
    pos < e.size → 0 ≤ int size → e.offsetAddress.toNat + e.size.toNat < 2 ^ 63 ∧
      min (int size).toNat (e.size.toNat - pos.toNat) ≤ PAGE_SIZE_4KB
  | _ => True

theorem fipread_right {b : Blob} {e : TocEntry} {pos : UInt64} {size : UInt64} {o : Outcome}
    (hchecked : long (e.offsetAddress + e.size) ≤ b.length)
    (h : fipread b e pos (int size) = some o)
    (hfits : 0 ≤ long e.offsetAddress → pos < e.size → 0 ≤ int size →
      e.offsetAddress.toNat + e.size.toNat < 2 ^ 63 ∧
        min (int size).toNat (e.size.toNat - pos.toNat) ≤ PAGE_SIZE_4KB) :
    Right b ⟨e, pos, int size, o⟩ := by
  rw [fipread] at h
  rw [Right]
  dsimp only
  split at h
  · cases h
  next hoffset =>
  split at h
  next hpos =>
    cases h
    rw [if_neg fun hlt => absurd hlt.1 (UInt64.not_lt.mpr hpos)]
  next hpos =>
  split at h
  next hn =>
    cases h
    rw [if_neg fun hlt => absurd hlt.2 (by omega)]
  next hn =>
  have hlt := UInt64.not_le.mp hpos
  obtain ⟨hsum, hpage⟩ := hfits (by omega) hlt (by omega)
  have hpos' := UInt64.lt_iff_toNat_lt.mp hlt
  have hleft : (e.size - pos).toNat = e.size.toNat - pos.toNat := 
    UInt64.toNat_sub_of_le _ _ (UInt64.le_iff_toNat_le.mpr hpos'.le)
  have hasked : (UInt64.ofNat (int size).toNat).toNat = (int size).toNat := by
    rw [UInt64.toNat_ofNat', int]
    split <;> omega
  have hoff : (e.offsetAddress + pos).toNat = e.offsetAddress.toNat + pos.toNat := by
    rw [UInt64.toNat_add]
    omega
  have hend : e.offsetAddress.toNat + e.size.toNat ≤ b.length := by
    rw [long, UInt64.toNat_add, Nat.mod_eq_of_lt (by omega), if_pos hsum] at hchecked
    omega
  dsimp only at h
  generalize hcount : (if UInt64.ofNat (int size).toNat > e.size - pos then e.size - pos
    else UInt64.ofNat (int size).toNat) = count at h
  have hmin : count.toNat = min (int size).toNat (e.size.toNat - pos.toNat) := by
    rw [← hcount]
    split
    next hgt =>
      have := UInt64.lt_iff_toNat_lt.mp hgt
      omega
    next hle =>
      have := UInt64.le_iff_toNat_le.mp (UInt64.not_lt.mp hle)
      omega
  -- The range ends at the end of the image at the latest, so it is not cut at the end of the file.
  rw [bufToChannel, if_neg (by omega), if_neg (by rw [UInt64.toNat_add, hoff]; omega)] at h
  cases h
  rw [if_pos ⟨hlt, by omega⟩, hoff, hmin]
  exact ⟨rfl, hpage, hend⟩

/-- Every file is an image of the package, and every read so far was right. -/
def Inv (b : Blob) (entries : List TocEntry) (s : Session) : Prop :=
  (∀ f ∈ s.files, f.1 ∈ entries) ∧ ∀ r ∈ s.reads, Right b r

theorem Inv.step {b : Blob} {entries : List TocEntry} {names : List UInt8 → String} {s : Session}
    {c : Smc} (hmount : fipmount b = some entries) (h : Inv b entries s) (hfits : Fits s c) :
    Inv b entries (smcHandler b entries names s c) := by
  obtain ⟨hfiles, hreads⟩ := h
  have hset : ∀ {fd e pos}, s.files[fd]? = some (e, pos) → ∀ pos' : UInt64,
      ∀ f ∈ s.files.set fd (e, pos'), f.1 ∈ entries := fun hfd pos' f hf => by
    rcases List.mem_or_eq_of_mem_set hf with hf | rfl
    · exact hfiles f hf
    · have he := hfiles _ (List.mem_of_getElem? hfd)
      exact he
  cases c with
  | «open» name =>
    rw [smcHandler]
    split
    next e he =>
      split
      · refine ⟨fun f hf => ?_, hreads⟩
        rcases List.mem_append.mp hf with hf | hf
        · exact hfiles f hf
        · rw [List.mem_singleton.mp hf]
          exact List.mem_of_find?_eq_some he
      · exact ⟨hfiles, hreads⟩
    next => exact ⟨hfiles, hreads⟩
  | seek fd off whence =>
    rw [smcHandler]
    split
    · exact ⟨hfiles, hreads⟩
    next e pos hfd => exact ⟨hset hfd _, hreads⟩
  | read fd size =>
    rw [smcHandler]
    split
    · exact ⟨hfiles, hreads⟩
    next e pos hfd =>
    split
    · exact ⟨hfiles, hreads⟩
    next o ho =>
      refine ⟨hset hfd _, fun r hr => ?_⟩
      rcases List.mem_append.mp hr with hr | hr
      · exact hreads r hr
      · rw [List.mem_singleton.mp hr]
        have he := hfiles _ (List.mem_of_getElem? hfd)
        exact fipread_right (fipmount_checked hmount e he) ho (hfits e pos hfd)

def oneImage (offset size : ℕ) : Blob where
  data := store (store (store (fun _ => 0) 0 4 TOC_HEADER_NAME) 32 8 offset) 40 8 size
  length := 0x4000
  small := by decide

def readOnce (b : Blob) (entries : List TocEntry) (size : UInt64) : Session :=
  let handler := smcHandler b entries fun _ => "unknown"
  handler (handler ⟨[], []⟩ (.open "unknown")) (.read 0 size)

end TrustedFirmware.Debugfs
