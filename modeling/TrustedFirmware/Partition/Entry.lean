import Mathlib.Data.List.TakeWhile
import TrustedFirmware.Partition.Load

/-! # Entries of a partition table

What `parse_gpt_entry()` stores of an entry. The fields are compared with those of the header only,
so an LBA can be too large for a byte offset. A name with an empty first character fails an
assertion, and one that uses all 36 characters is stored without an end. -/
namespace TrustedFirmware.Partition
open Libc ByteMemory
set_option autoImplicit false
set_option maxRecDepth 100000

variable {D : Disk} {h : Header} {e : Data} {x : PartitionEntry} {s : PartitionList}

/-! ## Names -/

def nameChar (e : Data) (i : ℕ) : ℕ := field e (56 + 2 * i) 2

def name16 (e : Data) : List ℕ := ((List.range EFI_NAMELEN).map (nameChar e)).takeWhile (· ≠ 0)

def lowByte (e : Data) (i : ℕ) : UInt8 := (nameBytes e).getD (2 * i) 0

theorem nameBytes_getD {k : ℕ} (hk : k < 2 * EFI_NAMELEN) :
    (nameBytes e).getD k 0 = e.getD (56 + k) 0 := by
  rw [nameBytes, List.getD_eq_getElem?_getD, List.getD_eq_getElem?_getD, List.getElem?_take_of_lt hk,
    List.getElem?_drop]

theorem nameChar_eq {i : ℕ} (hi : i < EFI_NAMELEN) :
    nameChar e i = (lowByte e i).toNat + 256 * ((nameBytes e).getD (2 * i + 1) 0).toNat := by
  rw [lowByte, nameBytes_getD (by omega), nameBytes_getD (by omega)]
  simp only [nameChar, field, load, bytes, Nat.mul_zero, Nat.add_zero, Nat.add_assoc]

theorem nameChar_of_ascii (hascii : nameIsAscii e = true) {i : ℕ} (hi : i < EFI_NAMELEN) :
    nameChar e i = (lowByte e i).toNat := by
  have hzero := List.all_eq_true.mp hascii i (List.mem_range.mpr hi)
  rw [nameChar_eq hi, of_decide_eq_true hzero]
  rfl

def asciiChars (e : Data) : Data := ((List.range EFI_NAMELEN).map (lowByte e)).takeWhile (· ≠ 0)

theorem asciiName_eq :
    asciiName e = asciiChars e ++ List.replicate (EFI_NAMELEN - (asciiChars e).length) 0 := rfl

theorem asciiChars_ne_zero {c : UInt8} (hc : c ∈ asciiChars e) : c ≠ 0 := by
  simpa using List.mem_takeWhile_imp hc

theorem cString_append_zero {cs : Data} (hcs : ∀ c ∈ cs, c ≠ 0) (rest : Data) :
    cString (cs ++ 0 :: rest) = cs := by
  have hall : ∀ c ∈ cs, decide (c ≠ 0) = true := fun c hc => decide_eq_true (hcs c hc)
  rw [cString, List.takeWhile_append_of_pos hall, List.takeWhile_cons_of_neg (by simp),
    List.append_nil]

def NameEnds (e : Data) : Prop := ∃ i < EFI_NAMELEN, nameChar e i = 0

theorem asciiChars_length_lt_iff (hascii : nameIsAscii e = true) :
    (asciiChars e).length < EFI_NAMELEN ↔ NameEnds e := by
  have hzero : ∀ i < EFI_NAMELEN, (nameChar e i = 0 ↔ lowByte e i = 0) := by
    intro i hi
    rw [nameChar_of_ascii hascii hi, ← UInt8.toNat_inj]
    rfl
  have hprefix : asciiChars e <+: (List.range EFI_NAMELEN).map (lowByte e) := List.takeWhile_prefix _
  have hlen : ((List.range EFI_NAMELEN).map (lowByte e)).length = EFI_NAMELEN := by
    rw [List.length_map, List.length_range]
  constructor
  · intro hlt
    by_contra hends
    have hall : asciiChars e = (List.range EFI_NAMELEN).map (lowByte e) := by
      rw [asciiChars, List.takeWhile_eq_self_iff]
      intro c hc
      obtain ⟨i, hi, rfl⟩ := List.mem_map.mp hc
      have hi := List.mem_range.mp hi
      exact decide_eq_true fun h0 => hends ⟨i, hi, (hzero i hi).mpr h0⟩
    rw [hall, hlen] at hlt
    exact lt_irrefl _ hlt
  · rintro ⟨i, hi, h0⟩
    refine lt_of_le_of_ne (hlen ▸ hprefix.length_le) fun heq => ?_
    have hall := hprefix.eq_of_length (heq.trans hlen.symm)
    have hmem : lowByte e i ∈ asciiChars e := by
      rw [hall]
      exact List.mem_map_of_mem (List.mem_range.mpr hi)
    exact asciiChars_ne_zero hmem ((hzero i hi).mp h0)

theorem asciiChars_toNat (hascii : nameIsAscii e = true) :
    (asciiChars e).map UInt8.toNat = name16 e := by
  have hchars : (List.range EFI_NAMELEN).map (nameChar e) =
      ((List.range EFI_NAMELEN).map (lowByte e)).map UInt8.toNat := by
    rw [List.map_map]
    exact List.map_congr_left fun i hi => nameChar_of_ascii hascii (List.mem_range.mp hi)
  rw [name16, hchars, List.takeWhile_map, asciiChars]
  congr 2
  funext c
  have hiff : c ≠ 0 ↔ c.toNat ≠ 0 := by
    rw [ne_eq, ne_eq, ← UInt8.toNat_inj]
    rfl
  exact decide_eq_decide.mpr hiff

theorem cString_asciiName (hlt : (asciiChars e).length < EFI_NAMELEN) (rest : Data) :
    cString (asciiName e ++ rest) = asciiChars e := by
  obtain ⟨k, hk⟩ : ∃ k, EFI_NAMELEN - (asciiChars e).length = k + 1 :=
    ⟨EFI_NAMELEN - (asciiChars e).length - 1, by omega⟩
  rw [asciiName_eq, hk, List.replicate_succ, List.append_assoc, List.cons_append]
  exact cString_append_zero (fun c hc => asciiChars_ne_zero hc) _

theorem zero_mem_asciiName_iff :
    0 ∈ asciiName e ↔ (asciiChars e).length < EFI_NAMELEN := by
  rw [asciiName_eq, List.mem_append, List.mem_replicate]
  constructor
  · rintro (hmem | ⟨hne, -⟩)
    · exact absurd rfl (asciiChars_ne_zero hmem)
    · omega
  · exact fun hlt => Or.inr ⟨by omega, rfl⟩

/-! ## Stored entries -/

/-- The entry that `strcmp()` takes for the one with a name. -/
def Named (x : PartitionEntry) (name : Data) : Prop :=
  cString (x.name ++ x.partGuid ++ x.typeGuid) = cString name

instance (x : PartitionEntry) (name : Data) : Decidable (Named x name) := by
  unfold Named
  infer_instance

theorem getPartitionEntry_eq (s : PartitionList) (name : Data) :
    getPartitionEntry s name = s.visible.find? fun x => Named x name := rfl

theorem getPartitionEntry_first {i : ℕ} {name : Data} (hi : i < s.entryCount)
    (hnamed : Named (s.list i) name) (hfirst : ∀ j < i, ¬ Named (s.list j) name) :
    getPartitionEntry s name = some (s.list i) := by
  have hlen : i < s.visible.length := by
    rw [PartitionList.visible, List.length_map, List.length_range]
    exact hi
  rw [getPartitionEntry_eq, List.find?_eq_some_iff_getElem]
  refine ⟨decide_eq_true hnamed, i, hlen, ?_, ?_⟩
  · simp only [PartitionList.visible, List.getElem_map, List.getElem_range]
  · intro j hj
    simp only [PartitionList.visible, List.getElem_map, List.getElem_range, Bool.not_eq_true',
      decide_eq_false_iff_not]
    exact hfirst j hj

/-- What is stored of the entry is what it says, and it is found by its name: of the entries with
the name, the first one is. -/
structure Stores (D : Disk) (e : Data) (x : PartitionEntry) : Prop where
  start : x.start = firstLba e * D.blockSize
  length : x.length = (lastLba e - firstLba e + 1) * D.blockSize
  ends : 0 ∈ x.name
  name : (cString x.name).map UInt8.toNat = name16 e
  found : ∀ (s : PartitionList) (i : ℕ) (name : Data), i < s.entryCount → s.list i = x →
    (∀ j < i, ¬ Named (s.list j) name) →
    (getPartitionEntry s name = some x ↔ (cString name).map UInt8.toNat = name16 e)

/-- No assertion fails, and an entry that is accepted is stored as it is. -/
def ParsesFaithfully (D : Disk) (h : Header) (e : Data) : Prop :=
  ∃ rc, entryStatus h e = some rc ∧ (rc = 0 → ∀ prev, Stores D e (parseGptEntry D h e prev))

/-- The entry is refused for its fields, or it has a name and, if that is stored, it has an end and
the partition's bytes have offsets of 64 bits. -/
def Storable (D : Disk) (h : Header) (e : Data) : Prop :=
  gptEntryIsEmpty e = true ∨ gptEntryIsInvalid h e = true ∨
    (nameBytes e).getD 0 0 ≠ 0 ∧ (nameIsAscii e = true →
      firstLba e * D.blockSize < 2 ^ 64 ∧
      (lastLba e - firstLba e + 1) * D.blockSize < 2 ^ 64 ∧ NameEnds e)

theorem load_lt_of_field (d : Data) (offset size : ℕ) : field d offset size < 256 ^ size :=
  load_lt _ _ _

theorem lastLba_lt (e : Data) : lastLba e < 2 ^ 64 := load_lt_of_field e 40 8

theorem blocks_lt (hvalid : gptEntryIsInvalid h e = false) :
    lastLba e - firstLba e + 1 < 2 ^ 64 := by
  have hlt := lastLba_lt e
  have hfirst : firstLba e ≠ 0 := by
    intro h0
    simp [gptEntryIsInvalid, h0] at hvalid
  omega

theorem stores_parsedEntry_iff (hascii : nameIsAscii e = true)
    (hvalid : gptEntryIsInvalid h e = false) :
    Stores D e (parsedEntry D e) ↔ firstLba e * D.blockSize < 2 ^ 64 ∧
      (lastLba e - firstLba e + 1) * D.blockSize < 2 ^ 64 ∧ NameEnds e := by
  have hblocks : (lastLba e - firstLba e + 1) % 2 ^ 64 = lastLba e - firstLba e + 1 :=
    Nat.mod_eq_of_lt (blocks_lt hvalid)
  constructor
  · intro hs
    have hstart : firstLba e * D.blockSize % 2 ^ 64 = firstLba e * D.blockSize := hs.start
    have hlength : (lastLba e - firstLba e + 1) % 2 ^ 64 * D.blockSize % 2 ^ 64 =
        (lastLba e - firstLba e + 1) * D.blockSize := hs.length
    rw [hblocks] at hlength
    refine ⟨?_, ?_, ?_⟩
    · rw [← hstart]
      exact Nat.mod_lt _ (by decide)
    · rw [← hlength]
      exact Nat.mod_lt _ (by decide)
    · rw [← asciiChars_length_lt_iff hascii]
      exact zero_mem_asciiName_iff.mp hs.ends
  · rintro ⟨hstart, hlength, hends⟩
    have hlt := (asciiChars_length_lt_iff hascii).mpr hends
    have hname : ∀ rest, (cString (asciiName e ++ rest)).map UInt8.toNat = name16 e := by
      intro rest
      rw [cString_asciiName hlt, asciiChars_toNat hascii]
    refine ⟨Nat.mod_eq_of_lt hstart, ?_, zero_mem_asciiName_iff.mpr hlt, ?_, ?_⟩
    · change (lastLba e - firstLba e + 1) % 2 ^ 64 * D.blockSize % 2 ^ 64 = _
      rw [hblocks, Nat.mod_eq_of_lt hlength]
    · have hnil := hname []
      rwa [List.append_nil] at hnil
    · intro s i name hi hx hfirst
      have hnamed : Named (parsedEntry D e) name ↔ (cString name).map UInt8.toNat = name16 e := by
        have hinj : Function.Injective UInt8.toNat := fun a b hab => UInt8.toNat_inj.mp hab
        rw [← hname (uniqueUuid e ++ typeUuid e), (List.map_injective_iff.mpr hinj).eq_iff, Named,
          ← List.append_assoc, eq_comm]
        rfl
      rw [← hnamed]
      constructor
      · intro hfind
        rw [getPartitionEntry_eq] at hfind
        simpa using List.find?_some hfind
      · intro hmatch
        rw [← hx] at hmatch ⊢
        exact getPartitionEntry_first hi hmatch hfirst

theorem parseGptEntry_valid {e : Data} {prev : PartitionEntry} (hs : entryStatus h e = some 0) :
    parseGptEntry D h e prev = parsedEntry D e := by
  rw [entryStatus] at hs
  split at hs
  · exact absurd hs (by decide)
  rename_i hempty
  split at hs
  · exact absurd hs (by decide)
  rename_i hinvalid
  split at hs
  · cases hs
  split at hs
  · rename_i hascii
    rw [Bool.not_eq_true] at hempty hinvalid
    rw [parseGptEntry, hempty, hinvalid, if_neg (by simp), if_pos hascii]
  · exact absurd hs (by decide)

/-- **Entries are stored as they are**, exactly if they are storable. -/
theorem parses_faithfully_iff (D : Disk) (h : Header) (e : Data) :
    ParsesFaithfully D h e ↔ Storable D h e := by
  rw [ParsesFaithfully, Storable]
  by_cases hempty : gptEntryIsEmpty e = true
  · have hstatus : entryStatus h e = some (-ENOENT) := by rw [entryStatus, if_pos hempty]
    exact ⟨fun _ => Or.inl hempty, fun _ => ⟨_, hstatus, fun h0 => absurd h0 (by decide)⟩⟩
  by_cases hinvalid : gptEntryIsInvalid h e = true
  · have hstatus : entryStatus h e = some (-EINVAL) := by
      rw [entryStatus, if_neg hempty, if_pos hinvalid]
    exact ⟨fun _ => Or.inr (Or.inl hinvalid),
      fun _ => ⟨_, hstatus, fun h0 => absurd h0 (by decide)⟩⟩
  rw [or_iff_right hempty, or_iff_right hinvalid]
  by_cases hname : (nameBytes e).getD 0 0 = 0
  · have hstatus : entryStatus h e = none := by
      rw [entryStatus, if_neg hempty, if_neg hinvalid, if_pos hname]
    exact ⟨fun ⟨rc, hrc, _⟩ => absurd (hstatus.symm.trans hrc) (by simp),
      fun hstorable => absurd hname hstorable.1⟩
  rw [and_iff_right hname]
  by_cases hascii : nameIsAscii e = true
  · have hstatus : entryStatus h e = some 0 := by
      rw [entryStatus, if_neg hempty, if_neg hinvalid, if_neg hname, if_pos hascii]
    have hvalid : gptEntryIsInvalid h e = false := by simpa using hinvalid
    rw [forall_prop_of_true hascii, ← @stores_parsedEntry_iff D h e hascii hvalid]
    constructor
    · rintro ⟨rc, hrc, hstores⟩
      have h0 : rc = 0 := Option.some.inj (hrc.symm.trans hstatus)
      exact parseGptEntry_valid hstatus ▸ hstores h0 .zero
    · exact fun hstores => ⟨0, hstatus, fun _ _ => (parseGptEntry_valid hstatus).symm ▸ hstores⟩
  · have hstatus : entryStatus h e = some (-EINVAL) := by
      rw [entryStatus, if_neg hempty, if_neg hinvalid, if_neg hname, if_neg hascii]
    exact ⟨fun _ htrue => absurd htrue hascii,
      fun _ => ⟨_, hstatus, fun h0 => absurd h0 (by decide)⟩⟩

def sectorDisk : Disk where
  blockSize := 512
  maxEntries := 128
  blockSize_eq := by decide
  maxEntries_pos := by decide
  maxEntries_le := by decide

def entryOf (lbas name : Data) : Data :=
  List.replicate 16 1 ++ List.replicate 16 2 ++ lbas ++ List.replicate 8 0 ++ name

def allLbas : Header := ⟨0, 1, 2 ^ 64 - 1, 2, 1, 128, 0⟩

/-- An entry without a name fails the assertion. One at LBA 2^55 is stored with start 0. One whose
name has 36 characters is stored without an end. -/
theorem unfaithful_entries :
    entryStatus allLbas (entryOf [1, 0, 0, 0, 0, 0, 0, 0, 1, 0, 0, 0, 0, 0, 0, 0]
      (List.replicate 72 0)) = none ∧
    (∃ e, entryStatus allLbas e = some 0 ∧ firstLba e = 2 ^ 55 ∧
      (parseGptEntry sectorDisk allLbas e .zero).start = 0) ∧
    ∃ e, entryStatus allLbas e = some 0 ∧ 0 ∉ (parseGptEntry sectorDisk allLbas e .zero).name := by
  refine ⟨by decide +kernel, ⟨entryOf [0, 0, 0, 0, 0, 0, 0x80, 0, 0, 0, 0, 0, 0, 0, 0x80, 0]
    (0x41 :: List.replicate 71 0), by decide +kernel, by decide +kernel, by decide +kernel⟩,
    ⟨entryOf [1, 0, 0, 0, 0, 0, 0, 0, 1, 0, 0, 0, 0, 0, 0, 0]
      (List.replicate 36 [0x41, 0]).flatten, by decide +kernel, by decide +kernel⟩⟩

end TrustedFirmware.Partition
