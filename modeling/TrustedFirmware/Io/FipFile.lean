import TrustedFirmware.Io.Fip

/-! # Files of a package

The loop over the table finds the first entry with the UUID or with the null UUID, whichever comes
first. The position of a file has 32 bits, so reads are consecutive up to the first one that starts
behind 4 GiB. -/
namespace TrustedFirmware.Io.Fip
open Libc ByteMemory Utils
set_option autoImplicit false

structure Backend.Works (b : Backend) (fipSize : UInt64) : Prop where
  ioOpen : b.ioOpen = 0
  ioSeek : ∀ p ≤ fipSize.toNat, b.ioSeek p = 0
  ioRead : ∀ p n, p + n ≤ fipSize.toNat → b.ioRead p n = (0, n)

/-! ## Looking up -/

def entryAt (mem : Bytes) (i : ℕ) : TocEntry := tocEntryAt mem (TOC_HEADER_SIZE + TOC_ENTRY_SIZE * i)

def InToc (fipSize : UInt64) (i : ℕ) : Prop :=
  TOC_HEADER_SIZE + TOC_ENTRY_SIZE * i + TOC_ENTRY_SIZE ≤ fipSize.toNat

def Inside (e : TocEntry) (fipSize : UInt64) : Prop :=
  e.size.toNat ≠ 0 ∧ e.offsetAddress.toNat + e.size.toNat ≤ fipSize.toNat

/-- The first entry with the UUID, with no terminator up to it. -/
structure Listed (mem : Bytes) (fipSize : UInt64) (uuid : List UInt8) (i : ℕ) : Prop where
  inToc : InToc fipSize i
  found : (entryAt mem i).uuid = uuid
  first : ∀ j < i, (entryAt mem j).uuid ≠ uuid
  before : ∀ j ≤ i, (entryAt mem j).uuid ≠ uuidNull

/-- What the loop stops at: the UUID it looks for, or the terminator. -/
structure Found (mem : Bytes) (fipSize : UInt64) (uuid : List UInt8) (k i : ℕ) : Prop where
  le : k ≤ i
  inToc : InToc fipSize i
  found : (entryAt mem i).uuid = uuid
  first : ∀ j, k ≤ j → j < i → (entryAt mem j).uuid ≠ uuid ∧ (entryAt mem j).uuid ≠ uuidNull

theorem entryBoundsInvalid_eq_false {e : TocEntry} {fipSize : UInt64} :
    entryBoundsInvalid e fipSize = false ↔ Inside e fipSize := by
  have hmax : UInt64.toNat 0xFFFFFFFFFFFFFFFF = 2 ^ 64 - 1 := rfl
  have h0 : UInt64.toNat 0 = 0 := rfl
  have hs := e.size.toNat_lt
  have ho := e.offsetAddress.toNat_lt
  have hf := fipSize.toNat_lt
  have hsub : (0xFFFFFFFFFFFFFFFF - e.size).toNat = 2 ^ 64 - 1 - e.size.toNat := by
    rw [UInt64.toNat_sub_of_le _ _ (by rw [UInt64.le_iff_toNat_le, hmax]; omega), hmax]
  simp only [entryBoundsInvalid, checkU64Overflow, Bool.or_eq_false_iff, beq_eq_false_iff_ne, ne_eq,
    decide_eq_false_iff_not, ge_iff_le, gt_iff_lt, ← UInt64.toNat_inj, UInt64.le_iff_toNat_le,
    UInt64.lt_iff_toNat_lt, UInt64.toNat_add, hsub, h0, Inside]
  omega

section

variable {mem : Bytes} {fipSize : UInt64} {uuid : List UInt8} {k i : ℕ}

theorem InToc.of_le (h : InToc fipSize i) (hle : k ≤ i) : InToc fipSize k := by
  simp only [InToc, TOC_HEADER_SIZE, TOC_ENTRY_SIZE] at *
  omega

theorem found_self (hin : InToc fipSize k) (huuid : (entryAt mem k).uuid = uuid) :
    Found mem fipSize uuid k i ↔ i = k := by
  constructor
  · intro h
    by_contra hne
    have hle := h.le
    exact (h.first k le_rfl (by omega)).1 huuid
  · rintro rfl
    exact ⟨le_rfl, hin, huuid, fun j h1 h2 => absurd h2 (by omega)⟩

theorem found_next (huuid : (entryAt mem k).uuid ≠ uuid) (hnull : (entryAt mem k).uuid ≠ uuidNull) :
    Found mem fipSize uuid (k + 1) i ↔ Found mem fipSize uuid k i := by
  constructor
  · intro h
    refine ⟨by have := h.le; omega, h.inToc, h.found, fun j h1 h2 => ?_⟩
    rcases Nat.eq_or_lt_of_le h1 with rfl | hlt
    · exact ⟨huuid, hnull⟩
    · exact h.first j hlt h2
  · intro h
    have hle := h.le
    have hne : k ≠ i := by
      rintro rfl
      exact huuid h.found
    exact ⟨by omega, h.inToc, h.found, fun j h1 h2 => h.first j (by omega) h2⟩

end

theorem tocScan_some {b : Backend} {fipSize : UInt64} {uuid : List UInt8} (hb : b.Works fipSize)
    {rounds k : ℕ} {e : TocEntry} (hr : fipSize.toNat < rounds + (TOC_HEADER_SIZE + TOC_ENTRY_SIZE * k)) :
    tocScan b fipSize uuid rounds (TOC_HEADER_SIZE + TOC_ENTRY_SIZE * k) = .ok (some e) ↔
      ∃ i, e = entryAt b.mem i ∧ Found b.mem fipSize uuid k i := by
  induction rounds generalizing k with
  | zero =>
    refine iff_of_false (by simp [tocScan]) ?_
    rintro ⟨i, -, hi⟩
    have hin := hi.inToc.of_le hi.le
    simp only [InToc, TOC_HEADER_SIZE, TOC_ENTRY_SIZE] at hr hin
    omega
  | succ rounds ih =>
    rw [tocScan]
    by_cases hin : InToc fipSize k
    · have hbound : ¬ TOC_HEADER_SIZE + TOC_ENTRY_SIZE * k > fipSize.toNat - TOC_ENTRY_SIZE := by
        simp only [InToc, TOC_HEADER_SIZE, TOC_ENTRY_SIZE] at hin ⊢
        omega
      rw [if_neg hbound, hb.ioRead _ _ hin]
      simp only [ne_eq, not_true_eq_false, if_false]
      change (if (entryAt b.mem k).uuid = uuid then Except.ok (some (entryAt b.mem k)) else _) = _ ↔ _
      by_cases huuid : (entryAt b.mem k).uuid = uuid
      · rw [if_pos huuid]
        simp only [found_self hin huuid, Except.ok.injEq, Option.some.injEq, exists_eq_right]
        exact eq_comm
      · rw [if_neg huuid]
        change (if (entryAt b.mem k).uuid = uuidNull then _ else _) = _ ↔ _
        by_cases hnull : (entryAt b.mem k).uuid = uuidNull
        · rw [if_pos hnull]
          refine iff_of_false (by simp) ?_
          rintro ⟨i, -, hi⟩
          rcases Nat.eq_or_lt_of_le hi.le with rfl | hlt
          · exact huuid hi.found
          · exact (hi.first k le_rfl hlt).2 hnull
        · rw [if_neg hnull, Nat.add_assoc, ← Nat.mul_succ, ih (by simp only [TOC_HEADER_SIZE, TOC_ENTRY_SIZE] at *; omega)]
          simp only [found_next huuid hnull]
    · have hbound : TOC_HEADER_SIZE + TOC_ENTRY_SIZE * k > fipSize.toNat - TOC_ENTRY_SIZE := by
        simp only [InToc, TOC_HEADER_SIZE, TOC_ENTRY_SIZE] at hin ⊢
        omega
      rw [if_pos hbound]
      refine iff_of_false (by simp) ?_
      rintro ⟨i, -, hi⟩
      exact hin (hi.inToc.of_le hi.le)

section

variable {b : Backend} {fipSize : UInt64} {uuid : List UInt8} {cur : FileState}

theorem tocScan_found (hb : b.Works fipSize) {e : TocEntry} :
    tocScan b fipSize uuid fipSize.toNat TOC_HEADER_SIZE = .ok (some e) ↔
      ∃ i, e = entryAt b.mem i ∧ Found b.mem fipSize uuid 0 i :=
  tocScan_some (k := 0) hb (by simp [TOC_HEADER_SIZE])

theorem fipFileOpen_of_found (hb : b.Works fipSize) (hclosed : cur.entry.offsetAddress = 0) {i : ℕ}
    (hi : Found b.mem fipSize uuid 0 i) (hinside : Inside (entryAt b.mem i) fipSize) :
    fipFileOpen b fipSize uuid cur = (⟨0, fipSize, entryAt b.mem i⟩, 0) := by
  have hsize : TOC_HEADER_SIZE + TOC_ENTRY_SIZE ≤ fipSize.toNat := hi.inToc.of_le (Nat.zero_le i)
  have hzero : fipSize ≠ 0 := by
    rintro rfl
    exact absurd hsize (by decide)
  have hseek := hb.ioSeek TOC_HEADER_SIZE (by simp only [TOC_HEADER_SIZE, TOC_ENTRY_SIZE] at *; omega)
  unfold fipFileOpen
  rw [if_neg hzero, if_neg (not_lt.mpr hsize), if_neg (not_not.mpr hclosed),
    if_neg (not_not.mpr hb.ioOpen), if_neg (not_not.mpr hseek), (tocScan_found hb).mpr ⟨i, rfl, hi⟩]
  exact if_neg (by rw [entryBoundsInvalid_eq_false.mpr hinside]; exact Bool.false_ne_true)

theorem found_of_fipFileOpen (hb : b.Works fipSize) (h : (fipFileOpen b fipSize uuid cur).2 = 0) :
    ∃ i, Found b.mem fipSize uuid 0 i ∧ Inside (entryAt b.mem i) fipSize ∧
      (fipFileOpen b fipSize uuid cur).1 = ⟨0, fipSize, entryAt b.mem i⟩ := by
  obtain ⟨-, hne⟩ | ⟨-, -, hne⟩ | ⟨-, e, hscan, hbounds, hopen⟩ := fipFileOpen_cases b fipSize uuid cur
  · exact absurd h hne
  · exact absurd h hne
  · obtain ⟨i, rfl, hi⟩ := (tocScan_found hb).mp hscan
    exact ⟨i, hi, entryBoundsInvalid_eq_false.mp hbounds, by rw [hopen]⟩

theorem listed_iff_found {mem : Bytes} (hnull : uuid ≠ uuidNull) {i : ℕ} :
    Listed mem fipSize uuid i ↔ Found mem fipSize uuid 0 i := by
  constructor
  · intro h
    exact ⟨Nat.zero_le i, h.inToc, h.found, fun j _ hj => ⟨h.first j hj, h.before j hj.le⟩⟩
  · intro h
    refine ⟨h.inToc, h.found, fun j hj => (h.first j (Nat.zero_le j) hj).1, fun j hj => ?_⟩
    rcases Nat.eq_or_lt_of_le hj with rfl | hlt
    · rw [h.found]
      exact hnull
    · exact (h.first j (Nat.zero_le j) hlt).2

/-- The package has a terminator, and this one has a payload. -/
def TerminatorInside (mem : Bytes) (fipSize : UInt64) : Prop :=
  ∃ i, Found mem fipSize uuidNull 0 i ∧ Inside (entryAt mem i) fipSize

theorem open_iff (hb : b.Works fipSize) (hclosed : cur.entry.offsetAddress = 0) :
    ((fipFileOpen b fipSize uuid cur).2 = 0 ↔
      ∃ i, Listed b.mem fipSize uuid i ∧ Inside (entryAt b.mem i) fipSize) ↔
      ¬ (uuid = uuidNull ∧ TerminatorInside b.mem fipSize) := by
  have hopen : (fipFileOpen b fipSize uuid cur).2 = 0 ↔
      ∃ i, Found b.mem fipSize uuid 0 i ∧ Inside (entryAt b.mem i) fipSize := by
    constructor
    · intro h
      obtain ⟨i, hi, hinside, -⟩ := found_of_fipFileOpen hb h
      exact ⟨i, hi, hinside⟩
    · rintro ⟨i, hi, hinside⟩
      rw [fipFileOpen_of_found hb hclosed hi hinside]
  rw [hopen]
  by_cases hnull : uuid = uuidNull
  · have hnone : ¬ ∃ i, Listed b.mem fipSize uuid i ∧ Inside (entryAt b.mem i) fipSize := by
      rintro ⟨i, hi, -⟩
      exact hi.before i le_rfl (hi.found.trans hnull)
    subst hnull
    simp only [hnone, iff_false, true_and]
    rfl
  · simp only [listed_iff_found hnull, hnull, false_and, not_false_eq_true]

end

/-! ## Reading -/

def fipFileReads (b : Backend) : FileState → List UInt64 → List (Except Int (List UInt8))
  | _, [] => []
  | fp, l :: ls => (fipFileRead b fp l).2 :: fipFileReads b (fipFileRead b fp l).1 ls

def slices (mem : Bytes) : ℕ → List UInt64 → List (Except Int (List UInt8))
  | _, [] => []
  | p, l :: ls => .ok (slice mem p l.toNat) :: slices mem (p + l.toNat) ls

/-- No read but an empty one starts behind 4 GiB of the file, and none at an offset over `LLONG_MAX`. -/
def CursorFits (offset : ℕ) : ℕ → List UInt64 → Prop
  | _, [] => True
  | s, l :: ls => (l ≠ 0 → s < 2 ^ 32) ∧ offset + s % 2 ^ 32 < 2 ^ 63 ∧ CursorFits offset (s + l.toNat) ls

theorem slice_congr {mem : Bytes} {l : UInt64} {p q : ℕ} (h : l ≠ 0 → p = q) :
    slice mem p l.toNat = slice mem q l.toNat := by
  by_cases hl : l = 0
  · rw [hl]
    rfl
  · rw [h hl]

theorem fipFileRead_ok {b : Backend} {fp : FileState} {l : UInt64} {s : ℕ} (hb : b.Works fp.fipSize)
    (he : Inside fp.entry fp.fipSize) (hpos : fp.filePos.toNat = s % 2 ^ 32)
    (hl : s + l.toNat ≤ fp.entry.size.toNat) (hs : l ≠ 0 → s < 2 ^ 32)
    (hmax : fp.entry.offsetAddress.toNat + s % 2 ^ 32 < 2 ^ 63) :
    ∃ fp', fipFileRead b fp l = (fp', .ok (slice b.mem (fp.entry.offsetAddress.toNat + s) l.toNat)) ∧
      fp'.fipSize = fp.fipSize ∧ fp'.entry = fp.entry ∧ fp'.filePos.toNat = (s + l.toNat) % 2 ^ 32 := by
  obtain ⟨-, hend⟩ := he
  have hmod := Nat.mod_le s (2 ^ 32)
  have hfip := fp.fipSize.toNat_lt
  have hp : fp.filePos.toUInt64.toNat = s % 2 ^ 32 := (UInt32.toNat_toUInt64 _).trans hpos
  have hoffset : (fp.entry.offsetAddress + fp.filePos.toUInt64).toNat =
      fp.entry.offsetAddress.toNat + s % 2 ^ 32 := by
    rw [UInt64.toNat_add, hp]
    omega
  have hsum : (fp.entry.offsetAddress + fp.filePos.toUInt64 + l).toNat =
      fp.entry.offsetAddress.toNat + s % 2 ^ 32 + l.toNat := by
    rw [UInt64.toNat_add, hoffset]
    omega
  have hle : fp.filePos.toUInt64 ≤ fp.entry.size := by
    rw [UInt64.le_iff_toNat_le, hp]
    omega
  have hlength : ¬ l > fp.entry.size - fp.filePos.toUInt64 := by
    rw [gt_iff_lt, UInt64.lt_iff_toNat_lt, UInt64.toNat_sub_of_le _ _ hle, hp]
    omega
  have hllong : LLONG_MAX.toNat = 2 ^ 63 - 1 := rfl
  have hbounds : ¬ (fp.entry.offsetAddress + fp.filePos.toUInt64 < fp.entry.offsetAddress ∨
      fp.entry.offsetAddress + fp.filePos.toUInt64 + l < fp.entry.offsetAddress + fp.filePos.toUInt64 ∨
      fp.entry.offsetAddress + fp.filePos.toUInt64 + l > fp.fipSize ∨
      fp.entry.offsetAddress + fp.filePos.toUInt64 > LLONG_MAX) := by
    simp only [gt_iff_lt, UInt64.lt_iff_toNat_lt, hoffset, hsum, hllong]
    omega
  have hread := Prod.mk.inj (hb.ioRead (fp.entry.offsetAddress.toNat + s % 2 ^ 32) l.toNat (by omega))
  refine ⟨{ fp with filePos := (fp.filePos.toUInt64 + l).toUInt32 }, ?_, rfl, rfl, ?_⟩
  · unfold fipFileRead
    dsimp only
    rw [if_neg (not_not.mpr hb.ioOpen), if_neg (UInt64.not_lt.mpr hle), if_neg hlength, if_neg hbounds,
      hoffset, if_neg (not_not.mpr (hb.ioSeek _ (by omega))), if_neg (not_not.mpr hread.1),
      if_neg (not_not.mpr hread.2)]
    have hdata := @slice_congr b.mem l (fp.entry.offsetAddress.toNat + s % 2 ^ 32)
      (fp.entry.offsetAddress.toNat + s) fun hne => by rw [Nat.mod_eq_of_lt (hs hne)]
    rw [hdata]
  · change (fp.filePos.toUInt64 + l).toUInt32.toNat = _
    rw [UInt64.toNat_toUInt32, UInt64.toNat_add, hp]
    omega

/-- The reads are consecutive, by induction on their lengths from any position of the file. -/
theorem fipFileReads_slices {b : Backend} {fp : FileState} {lengths : List UInt64} {s : ℕ}
    (hb : b.Works fp.fipSize) (he : Inside fp.entry fp.fipSize) (hpos : fp.filePos.toNat = s % 2 ^ 32)
    (hl : s + (lengths.map UInt64.toNat).sum ≤ fp.entry.size.toNat)
    (hfits : CursorFits fp.entry.offsetAddress.toNat s lengths) :
    fipFileReads b fp lengths = slices b.mem (fp.entry.offsetAddress.toNat + s) lengths := by
  induction lengths generalizing fp s with
  | nil => rfl
  | cons l ls ih =>
    obtain ⟨hs, hmax, hrest⟩ := hfits
    rw [List.map_cons, List.sum_cons] at hl
    obtain ⟨fp', hread, hsize, hentry, hpos'⟩ := fipFileRead_ok hb he hpos (by omega) hs hmax
    rw [fipFileReads, slices, hread]
    have hnext := @ih fp' (s + l.toNat) (hsize ▸ hb) (hentry ▸ hsize ▸ he) hpos' (by rw [hentry]; omega)
      (hentry ▸ hrest)
    rw [hnext, hentry, Nat.add_assoc]

theorem fipFileRead_inside {b : Backend} {fp fp' : FileState} {l : UInt64} {data : List UInt8}
    (h : fipFileRead b fp l = (fp', .ok data)) :
    ∃ p, fp.entry.offsetAddress.toNat ≤ p ∧
      p + l.toNat ≤ fp.entry.offsetAddress.toNat + fp.entry.size.toNat ∧ data = slice b.mem p l.toNat := by
  unfold fipFileRead at h
  dsimp only at h
  split at h
  · exact absurd h nofun
  split at h
  · exact absurd h nofun
  next hpos =>
  split at h
  · exact absurd h nofun
  next hlength =>
  split at h
  · exact absurd h nofun
  next hbounds =>
  split at h
  · exact absurd h nofun
  split at h
  · exact absurd h nofun
  split at h
  · exact absurd h nofun
  have hle := UInt64.not_lt.mp hpos
  have hsum : ¬ fp.entry.offsetAddress + fp.filePos.toUInt64 < fp.entry.offsetAddress :=
    fun hlt => hbounds (.inl hlt)
  rw [gt_iff_lt, UInt64.lt_iff_toNat_lt, UInt64.toNat_sub_of_le _ _ hle] at hlength
  rw [UInt64.le_iff_toNat_le] at hle
  rw [UInt64.lt_iff_toNat_lt, UInt64.toNat_add] at hsum
  have hlt := fp.entry.offsetAddress.toNat_lt
  have hlt' := fp.filePos.toUInt64.toNat_lt
  refine ⟨_, ?_, ?_, (Except.ok.inj (Prod.mk.inj h).2).symm⟩
  · rw [UInt64.toNat_add]
    omega
  · rw [UInt64.toNat_add]
    omega

def largeFip : Backend where
  mem := fun i =>
    if i = 16 ∨ i = 40 ∨ i = 44 ∨ i = 100 + 2 ^ 32 then 1 else if i = 32 then 100 else 0
  ioOpen := 0
  ioSeek := fun _ => 0
  ioRead := fun _ n => (0, n)

end TrustedFirmware.Io.Fip
