import TrustedFirmware.Partition.Resources

/-! # Loading the entries of an MBR

`load_mbr_entries()` reads the MBR once more for each of its four entries. It does not look at the
results of these reads, and it computes the start and the length of an entry in 32 bits. -/
namespace TrustedFirmware.Partition
open Libc ByteMemory Frames
set_option autoImplicit false

variable {ω : Type} {D : Disk} {io : Driver ω} {x x' : Sys ω} {handle : ℕ} {sector : Data}

/-! ## Reads of the MBR -/

def rereadMbr (D : Disk) (io : Driver ω) (handle : ℕ) (w : ω) : ReadResult × ω :=
  io.read (io.seek w handle 0).2 handle D.blockSize

def ReadResult.Complete (D : Disk) (r : ReadResult) : Prop := r.rc = 0 ∧ r.bytesRead = D.blockSize

/-- The MBR of the disk is `sector`: a read of the whole block gives it. -/
def Serves (D : Disk) (io : Driver ω) (sector : Data) : Prop :=
  ∀ w handle, (rereadMbr D io handle w).1.Complete D → (rereadMbr D io handle w).1.buffer = sector

def HasSignature (sector : Data) : Prop := sector.getD 510 0 = 0x55 ∧ sector.getD 511 0 = 0xAA

/-- `k` more reads of the MBR are complete. -/
def EntriesRead (D : Disk) (io : Driver ω) (handle : ℕ) : ℕ → ω → Prop
  | 0, _ => True
  | k + 1, w => (io.seek w handle 0).1 = 0 ∧ (rereadMbr D io handle w).1.Complete D ∧
    EntriesRead D io handle k (rereadMbr D io handle w).2

def SlotExact (sector : Data) (s : PartitionList) (i : ℕ) : Prop :=
  (s.list i).start = 512 * (mbrEntry sector i).firstLba ∧
  (s.list i).length = 512 * (mbrEntry sector i).sectorNums

/-- The products of a slot fit into 32 bits. -/
def SlotSmall (sector : Data) (i : ℕ) : Prop :=
  (mbrEntry sector i).firstLba < 2 ^ 23 ∧ (mbrEntry sector i).sectorNums < 2 ^ 23

/-! ## The loop -/

theorem loadMbrEntryIo_total (entry : MbrEntry) (i : ℕ) (x : Sys ω) :
    ∃ e w, loadMbrEntryIo D io handle entry i x = some (e, { x with world := w }) := by
  rw [loadMbrEntryIo, bind_of_some (rfl : ioSeek io handle 0 x = some (_, _))]
  split
  · exact ⟨_, _, rfl⟩
  rw [bind_of_some (rfl : ioRead io handle D.blockSize _ = some (_, _))]
  split
  · exact ⟨_, _, rfl⟩
  split
  · exact ⟨_, _, rfl⟩
  · exact ⟨_, _, rfl⟩

theorem loadMbrEntriesLoop_total (k i : ℕ) (entry : MbrEntry) (x : Sys ω) :
    ∃ x', loadMbrEntriesLoop D io handle k i entry x = some ((), x') := by
  induction k generalizing i entry x with
  | zero => exact ⟨x, rfl⟩
  | succ k ih =>
    obtain ⟨e, w, he⟩ := loadMbrEntryIo_total entry i x
    rw [loadMbrEntriesLoop, bind_of_some he,
      bind_of_some (rfl : modifyList (storeMbrEntry i e) _ = some ((), _))]
    exact ih _ _ _

theorem loadMbrEntryIo_read (hserves : Serves D io sector) (hsig : HasSignature sector)
    (entry : MbrEntry) (i : ℕ) (x : Sys ω) (hseek : (io.seek x.world handle 0).1 = 0)
    (hread : (rereadMbr D io handle x.world).1.Complete D) :
    loadMbrEntryIo D io handle entry i x =
      some (mbrEntry sector i, { x with world := (rereadMbr D io handle x.world).2 }) := by
  have hbuffer := hserves x.world handle hread
  have hreading : ioRead io handle D.blockSize { x with world := (io.seek x.world handle 0).2 } =
      some ((rereadMbr D io handle x.world).1,
        { x with world := (rereadMbr D io handle x.world).2 }) := rfl
  rw [loadMbrEntryIo, bind_of_some (rfl : ioSeek io handle 0 x = some (_, _)),
    if_neg (not_not.mpr hseek), bind_of_some hreading, if_neg (not_not.mpr hread.1), hbuffer,
    if_neg (not_or.mpr ⟨not_not.mpr hsig.1, not_not.mpr hsig.2⟩)]
  rfl

/-- The loop with complete reads stores the products of the slots, cut to 32 bits. -/
theorem loadMbrEntriesLoop_stores (hserves : Serves D io sector) (hsig : HasSignature sector)
    {k i : ℕ} {entry : MbrEntry} {x : Sys ω} (hread : EntriesRead D io handle k x.world)
    (h : loadMbrEntriesLoop D io handle k i entry x = some ((), x')) :
    x'.list.entryCount = x.list.entryCount ∧ (∀ j < i, x'.list.list j = x.list.list j) ∧
    ∀ j, i ≤ j → j < i + k →
      (x'.list.list j).start = (mbrEntry sector j).firstLba * 512 % 2 ^ 32 ∧
      (x'.list.list j).length = (mbrEntry sector j).sectorNums * 512 % 2 ^ 32 := by
  induction k generalizing i entry x with
  | zero =>
    cases h
    refine ⟨rfl, fun _ _ => rfl, ?_⟩
    intro j hle hlt
    omega
  | succ k ih =>
    obtain ⟨hseek, hcomplete, hrest⟩ := hread
    rw [loadMbrEntriesLoop,
      bind_of_some (loadMbrEntryIo_read hserves hsig entry i x hseek hcomplete),
      bind_of_some (rfl : modifyList (storeMbrEntry i _) _ = some ((), _))] at h
    obtain ⟨hcount, hbefore, hstored⟩ := ih (x := ⟨_, _, _, _⟩) hrest h
    refine ⟨hcount, ?_, ?_⟩
    · intro j hj
      rw [hbefore j (by omega)]
      simp [storeMbrEntry, PartitionList.set, Function.update_of_ne hj.ne]
    · intro j hle hlt
      rcases hle.eq_or_lt with rfl | hlt'
      · rw [hbefore i (by omega)]
        simp [storeMbrEntry, PartitionList.set]
      · exact hstored j hlt' (by omega)

/-! ## The whole load -/

/-- The image is opened and the header of the MBR is taken for one without a GPT: it is accepted and
has another type, or too few bytes were read. -/
structure ReachesEntries (D : Disk) (io : Driver ω) (x : Sys ω) : Prop where
  source : (io.imageSource x.world).1 = 0
  free : HasFree x.entityMap
  image : (io.openImage (io.imageSource x.world).2).1 = 0
  seek : (soughtMbr io x).1 = 0
  read : (readMbr D io x).rc = 0
  header : (readMbr D io x).bytesRead ≠ D.blockSize ∨ (HasSignature (readMbr D io x).buffer ∧
    ((mbrEntry (readMbr D io x).buffer 0).sectorNums ≠ 0 ∧
      (mbrEntry (readMbr D io x).buffer 0).sectorNums ≠ 2 ^ 32 - 1) ∧
    (mbrEntry (readMbr D io x).buffer 0).type ≠ PARTITION_TYPE_GPT)

def headerRead (D : Disk) (io : Driver ω) (x : Sys ω) : ω :=
  (rereadMbr D io (x.entityMap.idxOf false) (opened io x)).2

theorem ReachesEntries.header_read (h : ReachesEntries D io x) :
    ∃ mbr, mbr.type ≠ PARTITION_TYPE_GPT ∧
      loadMbrHeaderIo D io (x.entityMap.idxOf false) (openedSys io x) =
        some ((0, mbr), { openedSys io x with world := headerRead D io x }) := by
  have hsought : ioSeek io (x.entityMap.idxOf false) 0 (openedSys io x) =
      some ((soughtMbr io x).1, { openedSys io x with world := (soughtMbr io x).2 }) := rfl
  have hreading : ioRead io (x.entityMap.idxOf false) D.blockSize
      { openedSys io x with world := (soughtMbr io x).2 } =
      some (readMbr D io x, { openedSys io x with world := headerRead D io x }) := rfl
  by_cases hlen : (readMbr D io x).bytesRead = D.blockSize
  · obtain ⟨hsig, hsectors, htype⟩ := h.header.resolve_left (not_not.mpr hlen)
    refine ⟨_, htype, ?_⟩
    rw [loadMbrHeaderIo, bind_of_some hsought, if_neg (not_not.mpr h.seek), bind_of_some hreading,
      if_neg (not_or.mpr ⟨not_not.mpr h.read, not_not.mpr hlen⟩),
      if_neg (not_or.mpr ⟨not_not.mpr hsig.1, not_not.mpr hsig.2⟩), if_neg (not_or.mpr hsectors)]
    rfl
  · refine ⟨⟨0, 0, 0⟩, by decide, ?_⟩
    rw [loadMbrHeaderIo, bind_of_some hsought, if_neg (not_not.mpr h.seek), bind_of_some hreading,
      if_pos (Or.inr hlen), h.read]
    rfl

/-- Whatever the reads for the entries return, the load succeeds. -/
theorem ReachesEntries.loads (h : ReachesEntries D io x) :
    ∃ entry x₁ x₂ x', loadPartitionTableIo D io x = some (0, x') ∧ x'.list = x₂.list ∧
      x₁.world = headerRead D io x ∧ x₁.list.entryCount = 4 ∧
      loadMbrEntriesLoop D io (x.entityMap.idxOf false) 4 0 entry x₁ = some ((), x₂) := by
  obtain ⟨mbr, htype, hmbr⟩ := h.header_read
  let x₁ : Sys ω := { openedSys io x with
    world := headerRead D io x, list := { x.list with entryCount := 4 } }
  obtain ⟨x₂, hloop⟩ := @loadMbrEntriesLoop_total _ D io (x.entityMap.idxOf false) 4 0
    (io.stack (headerRead D io x)) x₁
  have hentries : loadMbrEntriesIo D io (x.entityMap.idxOf false)
      { openedSys io x with world := headerRead D io x } = some (0, x₂) := by
    rw [loadMbrEntriesIo, bind_of_some (rfl : modifyList _ _ = some ((), _)),
      bind_of_some (rfl : driverCall _ _ = some (_, x₁)), bind_of_some hloop]
    rfl
  let x₃ : Sys ω := { x₂ with
    world := io.close x₂.world (x.entityMap.idxOf false)
    entityMap := x₂.entityMap.set (x.entityMap.idxOf false) false }
  refine ⟨_, x₁, x₂, x₃, ?_, rfl, rfl, rfl, hloop⟩
  rw [loadPartitionTableIo, bind_of_some (rfl : driverCall io.imageSource x = some (_, _)),
    if_neg (not_not.mpr h.source), bind_of_some (ioOpen_opened h.free h.image)]
  dsimp only
  rw [bind_of_some hmbr]
  dsimp only
  rw [if_neg (by simp), if_neg htype, bind_of_some hentries,
    bind_of_some (rfl : ioClose io _ x₂ = some ((), x₃))]
  rfl

theorem loaded_cases (h : loadPartitionTableIo D io x = some (0, x')) :
    ReachesEntries D io x ∨ ((readMbr D io x).Complete D ∧
      (mbrEntry (readMbr D io x).buffer 0).type = PARTITION_TYPE_GPT) := by
  obtain ⟨rc₁, x₁, hsource, h⟩ := bind_some h
  cases hsource
  split at h
  · rename_i hsource
    exact absurd (Prod.mk.inj (Option.some.inj h)).1 hsource
  rename_i hsource
  obtain ⟨r, x₂, hopen, h⟩ := bind_some h
  rcases ioOpen_cases hopen with
    ⟨rc', rfl, hrc, -⟩ | ⟨i, rfl, -, -, -, hi, hfree, himage, hworld⟩
  · exact absurd (Prod.mk.inj (Option.some.inj h)).1 hrc
  obtain ⟨⟨rc₂, mbr⟩, x₃, hmbr, h⟩ := bind_some h
  have hcases := loadMbrHeaderIo_cases hmbr
  rw [hworld, hi] at hcases
  rcases hcases with ⟨hrc, -⟩ | ⟨rfl, hseek, r, hr, hread, hheader⟩
  · dsimp only at h
    rw [if_pos hrc] at h
    obtain ⟨u, x₄, -, h⟩ := bind_some h
    exact absurd (Prod.mk.inj (Option.some.inj h)).1 hrc
  obtain rfl : r = readMbr D io x := hr
  rcases hheader with ⟨hshort, -⟩ | ⟨hlen, hsig, hsectors, -⟩
  · exact Or.inl ⟨not_not.mp hsource, hfree, himage, hseek, hread, Or.inl hshort⟩
  · by_cases htype : (mbrEntry (readMbr D io x).buffer 0).type = PARTITION_TYPE_GPT
    · exact Or.inr ⟨⟨hread, hlen⟩, htype⟩
    · exact Or.inl ⟨not_not.mp hsource, hfree, himage, hseek, hread, Or.inr ⟨hsig, hsectors, htype⟩⟩

/-- If the load succeeds, the MBR was read; and if it is one without a GPT, it was read for every entry
and the four entries are those of its slots. -/
def LoadsSlots (D : Disk) (io : Driver ω) (x : Sys ω) (sector : Data) : Prop :=
  ∀ x', loadPartitionTableIo D io x = some (0, x') → (readMbr D io x).Complete D ∧
    ((mbrEntry sector 0).type ≠ PARTITION_TYPE_GPT →
      EntriesRead D io (x.entityMap.idxOf false) 4 (headerRead D io x) ∧ x'.list.entryCount = 4 ∧
      ∀ i < 4, SlotExact sector x'.list i)

/-- **The entries of an MBR.** A successful load gives the four slots of the MBR exactly if the MBR is
read completely each time and the slots are below 4 GiB. -/
theorem loads_slots_iff (D : Disk) (io : Driver ω) (x : Sys ω) (sector : Data)
    (hserves : Serves D io sector) :
    LoadsSlots D io x sector ↔ (ReachesEntries D io x → (readMbr D io x).Complete D ∧
      EntriesRead D io (x.entityMap.idxOf false) 4 (headerRead D io x) ∧
      ∀ i < 4, SlotSmall sector i) := by
  -- What the load leaves in the list when every read is complete.
  have hlist (h : ReachesEntries D io x) (hread : (readMbr D io x).Complete D)
      (hentries : EntriesRead D io (x.entityMap.idxOf false) 4 (headerRead D io x)) :
      (mbrEntry sector 0).type ≠ PARTITION_TYPE_GPT ∧
      ∃ x', loadPartitionTableIo D io x = some (0, x') ∧ x'.list.entryCount = 4 ∧ ∀ i < 4,
        (x'.list.list i).start = (mbrEntry sector i).firstLba * 512 % 2 ^ 32 ∧
        (x'.list.list i).length = (mbrEntry sector i).sectorNums * 512 % 2 ^ 32 := by
    obtain ⟨hsig, -, htype⟩ := h.header.resolve_left (not_not.mpr hread.2)
    have hbuffer : (readMbr D io x).buffer = sector := hserves _ _ hread
    rw [hbuffer] at hsig htype
    obtain ⟨entry, x₁, x₂, x', hload, hlist, hworld, hcount, hloop⟩ := h.loads
    rw [← hworld] at hentries
    obtain ⟨hcount', -, hstored⟩ := loadMbrEntriesLoop_stores hserves hsig hentries hloop
    refine ⟨htype, x', hload, ?_, ?_⟩
    · rw [hlist, hcount', hcount]
    · intro i hi
      rw [hlist]
      exact hstored i (Nat.zero_le i) (by omega)
  constructor
  · intro hslots h
    obtain ⟨-, -, -, x', hload, -⟩ := h.loads
    obtain ⟨hread, hrest⟩ := hslots x' hload
    have htype := (h.header.resolve_left (not_not.mpr hread.2)).2.2
    rw [show (readMbr D io x).buffer = sector from hserves _ _ hread] at htype
    obtain ⟨hentries, -, hexact⟩ := hrest htype
    obtain ⟨-, x'', hload', -, hstored⟩ := hlist h hread hentries
    obtain rfl : x' = x'' := (Prod.mk.inj (Option.some.inj (hload.symm.trans hload'))).2
    refine ⟨hread, hentries, ?_⟩
    intro i hi
    obtain ⟨hstart, hlength⟩ := hexact i hi
    obtain ⟨hstart', hlength'⟩ := hstored i hi
    constructor <;> omega
  · intro hcond x' hload
    rcases loaded_cases hload with h | ⟨hread, htype⟩
    · obtain ⟨hread, hentries, hsmall⟩ := hcond h
      obtain ⟨-, x'', hload', hcount, hstored⟩ := hlist h hread hentries
      obtain rfl : x' = x'' := (Prod.mk.inj (Option.some.inj (hload.symm.trans hload'))).2
      refine ⟨hread, fun _ => ⟨hentries, hcount, ?_⟩⟩
      intro i hi
      obtain ⟨hfirst, hnums⟩ := hsmall i hi
      obtain ⟨hstart, hlength⟩ := hstored i hi
      constructor <;> omega
    · refine ⟨hread, fun hne => absurd ?_ hne⟩
      rw [← htype, show (readMbr D io x).buffer = sector from hserves _ _ hread]

def slotMbr (b : UInt8) : Data :=
  List.replicate 450 0 ++ [0x83, 0, 0, 0, 0, 0, b, 0, 100, 0, 0, 0] ++ List.replicate 48 0 ++
    [0x55, 0xAA]

def slotDriver (b : UInt8) : Driver ℕ where
  imageSource w := (0, w)
  backupSource w := (0, w)
  openImage w := (0, w)
  openBackup w _ _ := (0, w)
  seek w _ _ := (0, w)
  read w _ n := (if w = 0 then ⟨-5, 0, []⟩ else ⟨0, n, slotMbr b⟩, w - 1)
  close w _ := w
  corruption w := w
  stack _ := ⟨0, 7, 7⟩

def slotSys (reads : ℕ) : Sys ℕ := ⟨reads, [false], (0, 0), ⟨fun _ => .zero, 0⟩⟩

theorem slotDriver_serves (b : UInt8) : Serves sectorDisk (slotDriver b) (slotMbr b) := by
  intro w handle hread
  by_cases hw : w = 0
  · subst hw
    exact absurd hread.1 (by simp [rereadMbr, slotDriver])
  · simp [rereadMbr, slotDriver, hw]

theorem loads_slots_iff_small : LoadsSlots sectorDisk (slotDriver 1) (slotSys 5) (slotMbr 1) ∧
    (loadPartitionTableIo sectorDisk (slotDriver 1) (slotSys 5)).map
      (fun r => (r.1, (r.2.list.list 0).start)) = some (0, 512 * 2 ^ 16) := by
  refine ⟨(loads_slots_iff _ _ _ _ (slotDriver_serves 1)).mpr fun _ => ⟨⟨rfl, rfl⟩, ?_, ?_⟩,
    by decide +kernel⟩
  · simp [EntriesRead, rereadMbr, headerRead, opened, slotDriver, slotSys, ReadResult.Complete]
  · unfold SlotSmall
    decide +kernel

/-- A slot at 4 GiB is loaded as one at 0; and with one read only, the load succeeds with what was on
the stack. -/
theorem large_slot_wraps :
    (loadPartitionTableIo sectorDisk (slotDriver 0x80) (slotSys 5)).map
      (fun r => (r.1, (r.2.list.list 0).start)) = some (0, 0) ∧
    (mbrEntry (slotMbr 0x80) 0).firstLba = 2 ^ 23 ∧
    (loadPartitionTableIo sectorDisk (slotDriver 0x80) (slotSys 1)).map
      (fun r => (r.1, (r.2.list.list 0).start)) = some (0, 7 * 512) := by
  decide +kernel

end TrustedFirmware.Partition
