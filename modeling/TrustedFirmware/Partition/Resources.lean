import TrustedFirmware.Foundations.Programs
import TrustedFirmware.Partition.Entry
import TrustedFirmware.Partition.LoadIo

/-! # What loading a partition table holds on to

Everything between `io_open()` and `io_close()` keeps the pool of entities and the block
specification of the backup, and the backup's specification is restored on all paths. One path of
`load_partition_table()` does not close the image. -/
namespace TrustedFirmware.Partition
open Libc ByteMemory Frames
set_option autoImplicit false

variable {ω : Type} {D : Disk} {io : Driver ω} {x x' : Sys ω} {handle : ℕ}

def Sys.resources (x : Sys ω) : List Bool × (ℕ × ℕ) := (x.entityMap, x.blockSpec)

/-! ## Functions that open and close nothing -/

theorem driverCall_keeps {α : Type} (f : ω → α × ω) : Keeps Sys.resources (driverCall f) :=
  .step fun _ => rfl

theorem modifyList_keeps (f : PartitionList → PartitionList) :
    Keeps (@Sys.resources ω) (modifyList f) := .step fun _ => rfl

theorem getEntryCount_keeps : Keeps (@Sys.resources ω) getEntryCount := .step fun _ => rfl

theorem loadMbrHeaderIo_keeps : Keeps Sys.resources (loadMbrHeaderIo D io handle) := by
  refine .bind (driverCall_keeps _) fun rc => .ite (.pure _) ?_
  refine .bind (driverCall_keeps _) fun r => .ite (.pure _) (.ite (.pure _) (.ite (.pure _) (.pure _)))

theorem loadGptHeaderIo_keeps (offset : ℕ) :
    Keeps Sys.resources (loadGptHeaderIo D io handle offset) := by
  refine .bind (driverCall_keeps _) fun rc => .ite (.pure _) ?_
  refine .bind (driverCall_keeps _) fun r => .ite (.pure _) ?_
  split
  · exact .pure _
  · exact .bind (modifyList_keeps _) fun _ => .pure _

theorem loadGptEntryIo_keeps : Keeps Sys.resources (loadGptEntryIo io handle) :=
  .bind (driverCall_keeps _) fun _ => .ite (.pure _) (.pure _)

theorem loadMbrEntryIo_keeps (entry : MbrEntry) (i : ℕ) :
    Keeps Sys.resources (loadMbrEntryIo D io handle entry i) := by
  refine .bind (driverCall_keeps _) fun rc => .ite (.pure _) ?_
  exact .bind (driverCall_keeps _) fun r => .ite (.pure _) (.ite (.pure _) (.pure _))

theorem loadMbrEntriesLoop_keeps (k i : ℕ) (entry : MbrEntry) :
    Keeps Sys.resources (loadMbrEntriesLoop D io handle k i entry) := by
  induction k generalizing i entry with
  | zero => exact .pure _
  | succ k ih =>
    refine .bind (loadMbrEntryIo_keeps entry i) fun entry => ?_
    exact .bind (modifyList_keeps _) fun _ => ih (i + 1) entry

theorem loadMbrEntriesIo_keeps : Keeps Sys.resources (loadMbrEntriesIo D io handle) := by
  refine .bind (modifyList_keeps _) fun _ => .bind (driverCall_keeps _) fun entry => ?_
  exact .bind (loadMbrEntriesLoop_keeps 4 0 entry) fun _ => .pure _

theorem loadEntriesIo_keeps (h : Header) (base k i : ℕ) (crc : UInt32) :
    Keeps Sys.resources (loadEntriesIo D io handle h base k i crc) := by
  induction k generalizing i crc with
  | zero => exact .pure _
  | succ k ih =>
    refine .bind loadGptEntryIo_keeps fun r => .ite (.pure _) ?_
    split
    · exact .stop
    · refine .bind (modifyList_keeps _) fun _ => .ite (ih _ _) (.ite (.pure _) ?_)
      exact .bind (driverCall_keeps _) fun rc => .ite (.pure _) (.pure _)

theorem crcEntriesIo_keeps (k : ℕ) (crc : UInt32) :
    Keeps Sys.resources (crcEntriesIo io handle k crc) := by
  induction k generalizing crc with
  | zero => exact .pure _
  | succ k ih => exact .bind loadGptEntryIo_keeps fun r => .ite (.pure _) (ih _)

theorem loadPartitionGptIo_keeps (h : Header) :
    Keeps Sys.resources (loadPartitionGptIo D io handle h) := by
  refine .bind (driverCall_keeps _) fun rc => .ite (.pure _) ?_
  refine .bind getEntryCount_keeps fun count => .bind (loadEntriesIo_keeps _ _ _ _ _) fun r => ?_
  split
  · exact .pure _
  refine .ite (.pure _) (.bind (modifyList_keeps _) fun _ => ?_)
  refine .bind (crcEntriesIo_keeps _ _) fun r => ?_
  split
  · exact .pure _
  · exact .pure _

theorem loadPrimaryGptIo_keeps (lba : ℕ) : Keeps Sys.resources (loadPrimaryGptIo D io handle lba) :=
  .bind (loadGptHeaderIo_keeps _) fun _ => .ite (.pure _) (loadPartitionGptIo_keeps _)

theorem loadMappedGptIo_keeps : Keeps Sys.resources (loadMappedGptIo D io handle) :=
  .bind (loadGptHeaderIo_keeps _) fun _ => .ite (.pure _) (loadPartitionGptIo_keeps _)

/-! ## Opening and closing -/

def HasFree (map : List Bool) : Prop := map.count true < map.length

theorem idxOf_free {map : List Bool} (h : HasFree map) :
    map.idxOf false < map.length ∧ map[map.idxOf false]? = some false := by
  have hmem : false ∈ map := by
    by_contra hnot
    have hall : ∀ b ∈ map, true = b := by
      intro b hb
      cases b with
      | false => exact absurd hb hnot
      | true => rfl
    rw [HasFree, List.count_eq_length.mpr hall] at h
    exact lt_irrefl _ h
  have hlt := List.idxOf_lt_length_of_mem hmem
  exact ⟨hlt, by rw [List.getElem?_eq_getElem hlt, List.getElem_idxOf hlt]⟩

theorem set_back {map : List Bool} {i : ℕ} (h : map[i]? = some false) :
    (map.set i true).set i false = map := by
  obtain ⟨hlt, heq⟩ := List.getElem?_eq_some_iff.mp h
  rw [List.set_set, ← heq, List.set_getElem_self]

theorem set_true_ne {map : List Bool} {i : ℕ} (h : map[i]? = some false) : map.set i true ≠ map := by
  intro heq
  have hlt : i < map.length := (List.getElem?_eq_some_iff.mp h).1
  rw [← heq, List.getElem?_set_self hlt] at h
  cases h

theorem ioOpen_cases {f : ω → Int × ω} {r : Except Int ℕ} (h : ioOpen f x = some (r, x')) :
    (∃ rc, r = .error rc ∧ rc ≠ 0 ∧ x'.resources = x.resources) ∨
    (∃ i, r = .ok i ∧ x.entityMap[i]? = some false ∧ x'.entityMap = x.entityMap.set i true ∧
      x'.blockSpec = x.blockSpec ∧ i = x.entityMap.idxOf false ∧ HasFree x.entityMap ∧
      (f x.world).1 = 0 ∧ x'.world = (f x.world).2) := by
  obtain ⟨a, x₁, halloc, hrest⟩ := bind_some h
  rw [allocateEntity] at halloc
  split at halloc
  · rename_i hfree
    cases halloc
    obtain ⟨-, hfalse⟩ := idxOf_free hfree
    obtain ⟨rc, x₂, hcall, hrest⟩ := bind_some hrest
    cases hcall
    split at hrest
    · rename_i hrc
      cases hrest
      exact Or.inr ⟨_, rfl, hfalse, rfl, rfl, rfl, hfree, hrc, rfl⟩
    · rename_i hrc
      obtain ⟨_, x₃, hset, hrest⟩ := bind_some hrest
      cases hset
      cases hrest
      exact Or.inl ⟨_, rfl, hrc, Prod.ext (set_back hfalse) rfl⟩
  · cases halloc
    cases hrest
    exact Or.inl ⟨_, rfl, by decide, rfl⟩

theorem ioClose_some {u : Unit} (h : ioClose io handle x = some (u, x')) :
    x'.entityMap = x.entityMap.set handle false ∧ x'.blockSpec = x.blockSpec := by
  obtain ⟨_, x₁, hcall, hset⟩ := bind_some h
  cases hcall
  cases hset
  exact ⟨rfl, rfl⟩

theorem closed {x₁ x₂ x₃ : Sys ω} {u : Unit} (hfree : x.entityMap[handle]? = some false)
    (hopen : x₁.entityMap = x.entityMap.set handle true) (hused : x₂.resources = x₁.resources)
    (hclose : ioClose io handle x₂ = some (u, x₃)) :
    x₃.entityMap = x.entityMap ∧ x₃.blockSpec = x₁.blockSpec := by
  obtain ⟨hmap, hspec⟩ := ioClose_some hclose
  have hused := Prod.mk.inj hused
  rw [hmap, hspec, hused.1, hused.2, hopen, set_back hfree]
  exact ⟨rfl, rfl⟩

theorem setBlockSpec_some {spec : ℕ × ℕ} {u : Unit} (h : setBlockSpec spec x = some (u, x')) :
    x'.entityMap = x.entityMap ∧ x'.blockSpec = spec := by
  cases h
  exact ⟨rfl, rfl⟩

theorem loadBackupGptIo_keeps (n : ℕ) : Keeps Sys.resources (loadBackupGptIo D io n) := by
  refine .bind (driverCall_keeps _) fun rc => .ite (.pure _) ?_
  intro x rc x' h
  obtain ⟨⟨offset, length⟩, x₀, hget, h⟩ := bind_some h
  obtain ⟨hspec, rfl⟩ := Prod.mk.inj (Option.some.inj hget)
  dsimp only at h
  split at h
  · exact Keeps.pure _ _ _ _ h
  split at h
  · exact Keeps.pure _ _ _ _ h
  obtain ⟨_, x₁, hset, h⟩ := bind_some h
  obtain ⟨hmap₁, -⟩ := setBlockSpec_some hset
  obtain ⟨r, x₂, hopen, h⟩ := bind_some h
  rcases ioOpen_cases hopen with ⟨rc', rfl, -, hkept⟩ | ⟨i, rfl, hfree, hmap₂, -⟩
  · obtain ⟨_, x₃, hset', h⟩ := bind_some h
    obtain ⟨hmap₃, hspec₃⟩ := setBlockSpec_some hset'
    cases h
    exact Prod.ext (hmap₃.trans ((Prod.mk.inj hkept).1.trans hmap₁)) (hspec₃.trans hspec.symm)
  · obtain ⟨rc', x₃, hload, h⟩ := bind_some h
    obtain ⟨_, x₄, hclose, h⟩ := bind_some h
    obtain ⟨_, x₅, hset', h⟩ := bind_some h
    obtain ⟨hmap₄, -⟩ := closed hfree hmap₂ (loadMappedGptIo_keeps _ _ _ hload) hclose
    obtain ⟨hmap₅, hspec₅⟩ := setBlockSpec_some hset'
    cases h
    exact Prod.ext (hmap₅.trans (hmap₄.trans hmap₁)) (hspec₅.trans hspec.symm)

/-! ## All paths -/

/-- After every call that returns, the entities and the block specification are as before. -/
def GivesBack (D : Disk) (io : Driver ω) (x : Sys ω) : Prop :=
  ∀ rc x', loadPartitionTableIo D io x = some (rc, x') →
    x'.entityMap = x.entityMap ∧ x'.blockSpec = x.blockSpec

def opened (io : Driver ω) (x : Sys ω) : ω := (io.openImage (io.imageSource x.world).2).2

def soughtMbr (io : Driver ω) (x : Sys ω) : Int × ω :=
  io.seek (opened io x) (x.entityMap.idxOf false) 0

def readMbr (D : Disk) (io : Driver ω) (x : Sys ω) : ReadResult :=
  (io.read (soughtMbr io x).2 (x.entityMap.idxOf false) D.blockSize).1

/-- The image is opened, and its MBR is read and has the boot signature, a number of sectors and an
entry for a GPT that begins at another LBA than 1. -/
structure OddFirstLba (D : Disk) (io : Driver ω) (x : Sys ω) : Prop where
  source : (io.imageSource x.world).1 = 0
  free : HasFree x.entityMap
  image : (io.openImage (io.imageSource x.world).2).1 = 0
  seek : (soughtMbr io x).1 = 0
  read : (readMbr D io x).rc = 0 ∧ (readMbr D io x).bytesRead = D.blockSize
  signature : (readMbr D io x).buffer.getD 510 0 = 0x55 ∧ (readMbr D io x).buffer.getD 511 0 = 0xAA
  sectors : (mbrEntry (readMbr D io x).buffer 0).sectorNums ≠ 0 ∧
    (mbrEntry (readMbr D io x).buffer 0).sectorNums ≠ 2 ^ 32 - 1
  type : (mbrEntry (readMbr D io x).buffer 0).type = PARTITION_TYPE_GPT
  firstLba : (mbrEntry (readMbr D io x).buffer 0).firstLba ≠ 1

theorem loadMbrHeaderIo_cases {mbr : MbrEntry} {rc : Int}
    (h : loadMbrHeaderIo D io handle x = some ((rc, mbr), x')) :
    (rc ≠ 0 ∧ mbr = ⟨0, 0, 0⟩) ∨
    (rc = 0 ∧ (io.seek x.world handle 0).1 = 0 ∧
      ∃ r, r = (io.read (io.seek x.world handle 0).2 handle D.blockSize).1 ∧ r.rc = 0 ∧
        ((r.bytesRead ≠ D.blockSize ∧ mbr = ⟨0, 0, 0⟩) ∨
        (r.bytesRead = D.blockSize ∧ (r.buffer.getD 510 0 = 0x55 ∧ r.buffer.getD 511 0 = 0xAA) ∧
          ((mbrEntry r.buffer 0).sectorNums ≠ 0 ∧ (mbrEntry r.buffer 0).sectorNums ≠ 2 ^ 32 - 1) ∧
          mbr = mbrEntry r.buffer 0))) := by
  obtain ⟨rc₁, x₁, hseek, h⟩ := bind_some h
  cases hseek
  split at h
  · rename_i hseek
    cases h
    exact Or.inl ⟨hseek, rfl⟩
  rename_i hseek
  obtain ⟨r, x₂, hread, h⟩ := bind_some h
  cases hread
  split at h
  · rename_i hread
    cases h
    by_cases hrc : (io.read (io.seek x.world handle 0).2 handle D.blockSize).1.rc = 0
    · exact Or.inr ⟨hrc, not_not.mp hseek, _, rfl, hrc,
        Or.inl ⟨hread.resolve_left (not_not.mpr hrc), rfl⟩⟩
    · exact Or.inl ⟨hrc, rfl⟩
  rename_i hread
  split at h
  · cases h
    exact Or.inl ⟨by decide, rfl⟩
  rename_i hsig
  split at h
  · cases h
    exact Or.inl ⟨by decide, rfl⟩
  rename_i hsectors
  cases h
  simp only [not_or, not_not] at hseek hread hsig hsectors
  exact Or.inr ⟨rfl, hseek, _, rfl, hread.1, Or.inr ⟨hread.2, hsig, hsectors, rfl⟩⟩

def openedSys (io : Driver ω) (x : Sys ω) : Sys ω :=
  { x with entityMap := x.entityMap.set (x.entityMap.idxOf false) true, world := opened io x }

theorem ioOpen_opened (hfree : HasFree x.entityMap)
    (himage : (io.openImage (io.imageSource x.world).2).1 = 0) :
    ioOpen io.openImage { x with world := (io.imageSource x.world).2 } =
      some (.ok (x.entityMap.idxOf false), openedSys io x) := by
  let x₁ : Sys ω := { x with world := (io.imageSource x.world).2 }
  have halloc : allocateEntity x₁ = some (.ok (x.entityMap.idxOf false),
      { x₁ with entityMap := x.entityMap.set (x.entityMap.idxOf false) true }) := if_pos hfree
  rw [ioOpen, bind_of_some halloc]
  dsimp only
  rw [bind_of_some (rfl : driverCall io.openImage _ = some (_, _)), if_pos himage]
  rfl

theorem OddFirstLba.stays_open (hodd : OddFirstLba D io x) :
    ∃ x', loadPartitionTableIo D io x = some (-EINVAL, x') ∧
      x'.entityMap = x.entityMap.set (x.entityMap.idxOf false) true := by
  obtain ⟨hsource, hfree, himage, hseek, hread, hsig, hsectors, htype, hlba⟩ := hodd
  let handle := x.entityMap.idxOf false
  let x₂ := openedSys io x
  let x₃ : Sys ω := { x₂ with
    world := (io.read (soughtMbr io x).2 handle D.blockSize).2 }
  have hmbr : loadMbrHeaderIo D io handle x₂ = some ((0, mbrEntry (readMbr D io x).buffer 0), x₃) := by
    have hsought : ioSeek io handle 0 x₂ =
        some ((soughtMbr io x).1, { x₂ with world := (soughtMbr io x).2 }) := rfl
    have hreading : ioRead io handle D.blockSize { x₂ with world := (soughtMbr io x).2 } =
        some (readMbr D io x, x₃) := rfl
    rw [loadMbrHeaderIo, bind_of_some hsought, if_neg (not_not.mpr hseek), bind_of_some hreading,
      if_neg (not_or.mpr ⟨not_not.mpr hread.1, not_not.mpr hread.2⟩),
      if_neg (not_or.mpr ⟨not_not.mpr hsig.1, not_not.mpr hsig.2⟩), if_neg (not_or.mpr hsectors)]
    rfl
  refine ⟨x₃, ?_, rfl⟩
  rw [loadPartitionTableIo, bind_of_some (rfl : driverCall io.imageSource x = some (_, _)),
    if_neg (not_not.mpr hsource), bind_of_some (ioOpen_opened hfree himage)]
  dsimp only
  rw [bind_of_some hmbr]
  dsimp only
  rw [if_neg (by simp), if_pos htype, if_pos hlba]
  rfl

theorem givesBack_of_not_odd (hodd : ¬ OddFirstLba D io x) : GivesBack D io x := by
  intro rc x' h
  suffices hkept : x'.resources = x.resources from Prod.mk.inj hkept
  obtain ⟨rc₁, x₁, hsource, h⟩ := bind_some h
  cases hsource
  split at h
  · cases h
    rfl
  rename_i hsource
  obtain ⟨r, x₂, hopen, h⟩ := bind_some h
  rcases ioOpen_cases hopen with
    ⟨rc', rfl, -, hkept⟩ | ⟨i, rfl, hfalse, hmap, hspec, hi, hfree, himage, hworld⟩
  · cases h
    exact hkept
  obtain ⟨⟨rc₂, mbr⟩, x₃, hmbr, h⟩ := bind_some h
  have hused := loadMbrHeaderIo_keeps _ _ _ hmbr
  -- The image was used by functions that keep the resources, and is closed.
  have hclosed : ∀ x₄ x₅ u, x₄.resources = x₂.resources → ioClose io i x₄ = some (u, x₅) →
      x₅.resources = x.resources := by
    intro x₄ x₅ u hused hclose
    obtain ⟨hmap', hspec'⟩ := closed hfalse hmap hused hclose
    exact Prod.ext hmap' (hspec'.trans hspec)
  dsimp only at h
  split at h
  · obtain ⟨u, x₄, hclose, h⟩ := bind_some h
    obtain ⟨-, rfl⟩ := Prod.mk.inj (Option.some.inj h)
    exact hclosed x₃ x₄ u hused hclose
  split at h
  · rename_i htype
    split at h
    · rename_i hlba
      rcases loadMbrHeaderIo_cases hmbr with
        ⟨-, rfl⟩ | ⟨-, hseek, r, hr, hread, ⟨-, rfl⟩ | ⟨hlen, hsig, hsectors, rfl⟩⟩
      · exact absurd htype (by decide)
      · exact absurd htype (by decide)
      rw [hworld, hi] at hseek hr
      subst hr
      exact absurd ⟨not_not.mp hsource, hfree, himage, hseek, ⟨hread, hlen⟩, hsig, hsectors, htype,
        hlba⟩ hodd
    · obtain ⟨rc₃, x₄, hload, h⟩ := bind_some h
      obtain ⟨u, x₅, hclose, h⟩ := bind_some h
      have hback := hclosed x₄ x₅ u ((loadPrimaryGptIo_keeps _ _ _ _ hload).trans hused) hclose
      split at h
      · obtain ⟨_, x₆, hcall, h⟩ := bind_some h
        have hcorrupt := driverCall_keeps _ _ _ _ hcall
        exact (loadBackupGptIo_keeps _ _ _ _ h).trans (hcorrupt.trans hback)
      · cases h
        exact hback
  · obtain ⟨rc₃, x₄, hload, h⟩ := bind_some h
    obtain ⟨u, x₅, hclose, h⟩ := bind_some h
    obtain ⟨-, rfl⟩ := Prod.mk.inj (Option.some.inj h)
    exact hclosed x₄ x₅ u ((loadMbrEntriesIo_keeps _ _ _ hload).trans hused) hclose

/-- **Loading a partition table gives back what it takes**, exactly if it does not find an MBR for a
GPT that begins at another LBA than 1. -/
theorem gives_back_iff (D : Disk) (io : Driver ω) (x : Sys ω) :
    GivesBack D io x ↔ ¬ OddFirstLba D io x := by
  refine ⟨fun hgives hodd => ?_, givesBack_of_not_odd⟩
  obtain ⟨x', hrun, hmap⟩ := hodd.stays_open
  have hsame := (hgives _ x' hrun).1
  rw [hmap] at hsame
  exact set_true_ne (idxOf_free hodd.free).2 hsame

/-- An MBR for a GPT at LBA 2. -/
def oddMbr : Data :=
  List.replicate 450 0 ++ [0xee, 0, 0, 0, 2, 0, 0, 0, 100, 0, 0, 0] ++ List.replicate 48 0 ++
    [0x55, 0xAA]

/-- Drivers that succeed in everything and read `oddMbr`. -/
def oddDriver : Driver Unit where
  imageSource _ := (0, ())
  backupSource _ := (0, ())
  openImage _ := (0, ())
  openBackup _ _ _ := (0, ())
  seek _ _ _ := (0, ())
  read _ _ n := (⟨0, n, oddMbr⟩, ())
  close _ _ := ()
  corruption _ := ()
  stack _ := ⟨0, 0, 0⟩

def freshSys : Sys Unit := ⟨(), List.replicate 4 false, (0, 0), ⟨fun _ => .zero, 0⟩⟩

theorem odd_first_lba_leaks : ¬ GivesBack sectorDisk oddDriver freshSys ∧
    (loadPartitionTableIo sectorDisk oddDriver freshSys).map (fun r => (r.1, r.2.entityMap)) =
      some (-EINVAL, [true, false, false, false]) := by
  have hrun : (loadPartitionTableIo sectorDisk oddDriver freshSys).map
      (fun r => (r.1, r.2.entityMap)) = some (-EINVAL, [true, false, false, false]) := by
    decide +kernel
  refine ⟨fun hgives => ?_, hrun⟩
  obtain ⟨⟨rc, x'⟩, hload, hr⟩ := Option.map_eq_some_iff.mp hrun
  have hmap := (hgives rc x' hload).1
  rw [(Prod.mk.inj hr).2] at hmap
  exact absurd hmap (by decide)

end TrustedFirmware.Partition
