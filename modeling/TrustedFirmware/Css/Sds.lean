import Mathlib.Tactic.SplitIfs
import TrustedFirmware.Foundations.ByteMemory

/-! # Shared data structures

The SDS driver walks over structures that lie one behind the other in a memory region and give their
own sizes. Each size is compared with the size of the region, but not their sum. -/
namespace TrustedFirmware.Sds
open ByteMemory
set_option autoImplicit false

def SDS_OK : Int := 0
def SDS_ERR_FAIL : Int := -1
def SDS_ERR_INVALID_PARAMS : Int := -2
def SDS_ERR_STRUCT_NOT_FOUND : Int := -3
def SDS_ERR_STRUCT_NOT_FINALIZED : Int := -4
def SDS_HEADER_SIZE : ℕ := 8
def SDS_REGION_DESC_SIZE : ℕ := 8
def SDS_REGION_SIGNATURE : ℕ := 0xAA7A
def SDS_REGION_SCH_VERSION : ℕ := 0x10

/-- A memory region, with addresses as offsets from its base, which is so low that none of them wraps
around. -/
structure Region where
  base : ℕ
  mem : Bytes
  PLAT_ARM_SDS_MEM_SIZE_MAX : ℕ

/-! ## Fields -/

def headerId (R : Region) (header : ℕ) : ℕ := load R.mem header 4 &&& 0xFFFF
def headerVersion (R : Region) (header : ℕ) : ℕ := (load R.mem header 4 >>> 16) &&& 0xFFFF
def structSize (R : Region) (header : ℕ) : ℕ := (load R.mem (header + 4) 4 >>> 1) &&& 0x7FFFFF
def isHeaderValid (R : Region) (header : ℕ) : Bool := load R.mem (header + 4) 4 &&& 1 ≠ 0
def isRegionValid (R : Region) : Bool := load R.mem 0 4 &&& 0xFFFF = SDS_REGION_SIGNATURE
def structureCount (R : Region) : ℕ := (load R.mem 0 4 >>> 16) &&& 0xFF
def schemaVersion (R : Region) : ℕ := (load R.mem 0 4 >>> 24) &&& 0xFF
def regionSize (R : Region) : ℕ := load R.mem 4 4

/-! ## The driver -/

def sdsStructIsValid (R : Region) (header : ℕ) : Bool :=
  headerId R header ≠ 0 && headerVersion R header ≠ SDS_REGION_SCH_VERSION &&
    !(structSize R header = 0 || structSize R header % 8 ≠ 0) && structSize R header ≤ regionSize R

/-- The headers that a loop over `k` structures gets to. -/
def headersFrom (R : Region) : ℕ → ℕ → List ℕ
  | _, 0 => []
  | header, k + 1 => header :: headersFrom R (header + structSize R header + SDS_HEADER_SIZE) k

def headers (R : Region) : List ℕ := headersFrom R SDS_REGION_DESC_SIZE (structureCount R)

def validateSdsStructHeaders (R : Region) : Int :=
  if structureCount R = 0 then SDS_ERR_FAIL
  else if (headers R).all (sdsStructIsValid R) then SDS_OK
  else SDS_ERR_FAIL

def sdsInit (R : Region) : Int :=
  if ¬ isRegionValid R then SDS_ERR_FAIL
  else if schemaVersion R ≠ SDS_REGION_SCH_VERSION then SDS_ERR_FAIL
  else if regionSize R > R.PLAT_ARM_SDS_MEM_SIZE_MAX then SDS_ERR_FAIL
  else if validateSdsStructHeaders R ≠ SDS_OK then SDS_ERR_FAIL
  else SDS_OK

def getStructHeader (R : Region) (structureId : UInt32) : Option ℕ :=
  (headers R).find? fun header => headerId R header = structureId.toNat

def sdsStructExists (R : Region) (structureId : UInt32) : Int :=
  if (getStructHeader R structureId).isSome then SDS_OK else SDS_ERR_STRUCT_NOT_FOUND

structure Call where
  structureId : UInt32
  fldOff : UInt32
  /-- `data` is not null. -/
  data : Bool
  size : UInt64
  cached : Bool
  deriving DecidableEq, Repr

/-- What a call does to the region: the bytes it copies, and those of the cache lines it invalidates
and flushes. A range is an offset and a length. -/
structure Access where
  status : Int
  copied : Option (ℕ × ℕ)
  invalidated : Option (ℕ × ℕ)
  flushed : Option (ℕ × ℕ)
  deriving DecidableEq, Repr

def checkUptrOverflow (ptr inc : ℕ) : Bool := ptr > 2 ^ 64 - 1 - inc

def fieldAccess (R : Region) (write : Bool) (c : Call) (header : ℕ) : Access :=
  let invalidated :=
    if c.cached then some (header, (SDS_HEADER_SIZE + c.size.toNat) % 2 ^ 64) else none
  let fieldBase := header + SDS_HEADER_SIZE + c.fldOff.toNat
  if ¬ isHeaderValid R header then ⟨SDS_ERR_STRUCT_NOT_FINALIZED, none, invalidated, none⟩
  else if (c.fldOff.toNat + c.size.toNat) % 2 ^ 64 > structSize R header then
    ⟨SDS_ERR_FAIL, none, invalidated, none⟩
  else if checkUptrOverflow (R.base + fieldBase) ((c.size.toNat + 2 ^ 64 - 1) % 2 ^ 64) then
    ⟨SDS_ERR_FAIL, none, invalidated, none⟩
  else
    let field := some (fieldBase, c.size.toNat)
    ⟨SDS_OK, field, invalidated, if write && c.cached then field else none⟩

def structAccess (R : Region) (write : Bool) (c : Call) : Access :=
  if ¬ c.data then ⟨SDS_ERR_INVALID_PARAMS, none, none, none⟩
  else match getStructHeader R c.structureId with
  | none => ⟨SDS_ERR_STRUCT_NOT_FOUND, none, none, none⟩
  | some header => fieldAccess R write c header

def sdsStructRead (R : Region) (c : Call) : Access := structAccess R false c
def sdsStructWrite (R : Region) (c : Call) : Access := structAccess R true c

/-! ## The chain of headers -/

variable {R : Region}

def extent (R : Region) (hs : List ℕ) : ℕ := (hs.map fun h => SDS_HEADER_SIZE + structSize R h).sum

theorem headersFrom_ends {header k S : ℕ} (hk : 0 < k) :
    (∀ h ∈ headersFrom R header k, h + SDS_HEADER_SIZE + structSize R h ≤ S) ↔
      header + extent R (headersFrom R header k) ≤ S := by
  induction k generalizing header with
  | zero => exact absurd hk (lt_irrefl 0)
  | succ k ih =>
    rw [headersFrom, List.forall_mem_cons, extent, List.map_cons, List.sum_cons, ← extent]
    rcases Nat.eq_zero_or_pos k with rfl | hpos
    · simp [headersFrom, extent, Nat.add_assoc]
    · rw [ih hpos]
      omega

theorem headersFrom_ordered (R : Region) (header k : ℕ) :
    (∀ h ∈ headersFrom R header k, header ≤ h) ∧ (headersFrom R header k).Pairwise
      fun h h' => h + SDS_HEADER_SIZE + structSize R h ≤ h' := by
  induction k generalizing header with
  | zero => simp [headersFrom]
  | succ k ih =>
    obtain ⟨hle, hpair⟩ := ih (header + structSize R header + SDS_HEADER_SIZE)
    rw [headersFrom, List.forall_mem_cons, List.pairwise_cons]
    refine ⟨⟨le_rfl, fun h hh => ?_⟩, fun h hh => ?_, hpair⟩
    · have := hle h hh
      omega
    · have := hle h hh
      omega

theorem count_pos (h : sdsInit R = SDS_OK) : 0 < structureCount R := by
  by_contra hzero
  have hfail : validateSdsStructHeaders R ≠ SDS_OK := by
    rw [validateSdsStructHeaders, if_pos (by omega)]
    decide
  have herr : sdsInit R = SDS_ERR_FAIL := by
    unfold sdsInit
    split_ifs <;> rfl
  rw [herr] at h
  exact absurd h (by decide)

/-! ## Accesses -/

def InData (R : Region) (structureId : UInt32) (r : ℕ × ℕ) : Prop :=
  ∃ h, getStructHeader R structureId = some h ∧ h + SDS_HEADER_SIZE ≤ r.1 ∧
    r.1 + r.2 ≤ h + SDS_HEADER_SIZE + structSize R h

/-- The range is in that structure, its header included. -/
def InStruct (R : Region) (structureId : UInt32) (r : ℕ × ℕ) : Prop :=
  ∃ h, getStructHeader R structureId = some h ∧ h ≤ r.1 ∧
    r.1 + r.2 ≤ h + SDS_HEADER_SIZE + structSize R h

theorem field_fits {ptr fldOff size limit : ℕ} (hptr : fldOff < ptr) (hsize : size < 2 ^ 64)
    (hlimit : (fldOff + size) % 2 ^ 64 ≤ limit)
    (hover : checkUptrOverflow ptr ((size + 2 ^ 64 - 1) % 2 ^ 64) = false) :
    fldOff + size ≤ limit := by
  rw [checkUptrOverflow, decide_eq_false_iff_not] at hover
  rcases Nat.eq_zero_or_pos size with rfl | h
  · omega
  · omega

theorem fieldAccess_cases (R : Region) (write : Bool) (c : Call) (header : ℕ) :
    (fieldAccess R write c header).invalidated =
      (if c.cached then some (header, (SDS_HEADER_SIZE + c.size.toNat) % 2 ^ 64) else none) ∧
    ∀ r, (fieldAccess R write c header).copied = some r ∨
        (fieldAccess R write c header).flushed = some r →
      header + SDS_HEADER_SIZE ≤ r.1 ∧ r.1 + r.2 ≤ header + SDS_HEADER_SIZE + structSize R header := by
  unfold fieldAccess
  generalize (if c.cached then some (header, (SDS_HEADER_SIZE + c.size.toNat) % 2 ^ 64) else none) = inv
  dsimp only
  refine ⟨by split_ifs <;> rfl, ?_⟩
  intro r h
  by_cases hvalid : isHeaderValid R header
  · rw [if_neg (not_not.mpr hvalid)] at h
    split at h
    · simp at h
    rename_i hlimit
    split at h
    · simp at h
    rename_i hover
    have hfits := field_fits (by simp only [SDS_HEADER_SIZE]; omega) c.size.toNat_lt
      (not_lt.mp hlimit) (Bool.eq_false_iff.mpr hover)
    obtain rfl : (header + SDS_HEADER_SIZE + c.fldOff.toNat, c.size.toNat) = r := by
      rcases h with h | h
      · exact Option.some.inj h
      · split at h
        · exact Option.some.inj h
        · cases h
    constructor <;> dsimp only <;> omega
  · rw [if_pos hvalid] at h
    simp at h

theorem structAccess_copied {write : Bool} {c : Call} {r : ℕ × ℕ}
    (h : (structAccess R write c).copied = some r ∨ (structAccess R write c).flushed = some r) :
    InData R c.structureId r := by
  unfold structAccess at h
  split at h
  · simp at h
  split at h
  · simp at h
  · rename_i header hget
    exact ⟨header, hget, (fieldAccess_cases R write c header).2 r h⟩

theorem structAccess_invalidated {write : Bool} {c : Call} {r : ℕ × ℕ} :
    (structAccess R write c).invalidated = some r ↔ c.data = true ∧ c.cached = true ∧
      ∃ h, getStructHeader R c.structureId = some h ∧
        (h, (SDS_HEADER_SIZE + c.size.toNat) % 2 ^ 64) = r := by
  unfold structAccess
  split
  · simp_all
  cases hget : getStructHeader R c.structureId with
  | none => simp
  | some header =>
    dsimp only
    rw [(fieldAccess_cases R write c header).1]
    split <;> simp_all

/-- In a region that was initialised, every header and every data area is inside the region, the data
areas are disjoint, and a call stays in the data area of its structure; with the cache, in the
structure. -/
def StaysInside (R : Region) (write : Bool) (c : Call) : Prop :=
  sdsInit R = SDS_OK →
    (∀ h ∈ headers R, h + SDS_HEADER_SIZE ≤ regionSize R) ∧
    (∀ h ∈ headers R, h + SDS_HEADER_SIZE + structSize R h ≤ regionSize R) ∧
    ((headers R).Pairwise fun h h' => h + SDS_HEADER_SIZE + structSize R h ≤ h') ∧
    (∀ r, (structAccess R write c).copied = some r → InData R c.structureId r) ∧
    (∀ r, (structAccess R write c).flushed = some r → InData R c.structureId r) ∧
    ∀ r, (structAccess R write c).invalidated = some r → InStruct R c.structureId r

/-- **The walk over the structures.** It stays inside the region exactly if the structures and the
region descriptor together fit; and the cache maintenance of a call exactly if the size fits. -/
theorem stays_inside_iff (R : Region) (write : Bool) (c : Call) :
    StaysInside R write c ↔ (sdsInit R = SDS_OK →
      SDS_REGION_DESC_SIZE + extent R (headers R) ≤ regionSize R ∧
      (c.data = true → c.cached = true → ∀ h, getStructHeader R c.structureId = some h →
        c.size.toNat ≤ structSize R h ∨ 2 ^ 64 - SDS_HEADER_SIZE ≤ c.size.toNat)) := by
  refine forall_congr' fun hinit => ?_
  have hends := @headersFrom_ends R SDS_REGION_DESC_SIZE _ (regionSize R) (count_pos hinit)
  have hsize := c.size.toNat_lt
  constructor
  · rintro ⟨-, hdata, -, -, -, hcache⟩
    refine ⟨hends.mp hdata, ?_⟩
    intro hd hc h hget
    obtain ⟨h', hget', -, hle⟩ := hcache _ (structAccess_invalidated.mpr ⟨hd, hc, h, hget, rfl⟩)
    obtain rfl : h = h' := Option.some.inj (hget.symm.trans hget')
    simp only [SDS_HEADER_SIZE] at hle ⊢
    omega
  · rintro ⟨hextent, hcache⟩
    have hdata := hends.mpr hextent
    refine ⟨fun h hh => ?_, hdata, (headersFrom_ordered R _ _).2,
      fun r hr => structAccess_copied (.inl hr), fun r hr => structAccess_copied (.inr hr), ?_⟩
    · have := hdata h hh
      omega
    · intro r hr
      obtain ⟨hd, hc, h, hget, rfl⟩ := structAccess_invalidated.mp hr
      refine ⟨h, hget, le_rfl, ?_⟩
      have hfits := hcache hd hc h hget
      simp only [SDS_HEADER_SIZE] at hfits ⊢
      omega

/-- A region of 32 bytes with a structure of 24 bytes, and behind it what looks like another header. -/
def shortRegion : Region where
  base := 0x6000000
  mem i := [0x7A, 0xAA, 2, 0x10, 32, 0, 0, 0, 1, 0, 0, 1, 49, 0, 0, 0, 0, 0, 0, 0, 0, 0, 0, 0, 0, 0, 0, 0,
    0, 0, 0, 0, 0, 0, 0, 0, 0, 0, 0, 0, 2, 0, 0, 1, 17, 0, 0, 0].getD i 0
  PLAT_ARM_SDS_MEM_SIZE_MAX := 0xDC0

/-- The region is accepted, and a write to the second structure is one behind the region. -/
theorem second_structure_outside : sdsInit shortRegion = SDS_OK ∧ regionSize shortRegion = 32 ∧
    headers shortRegion = [8, 40] ∧
    (sdsStructWrite shortRegion ⟨2, 0, true, 8, false⟩).copied = some (48, 8) := by
  decide +kernel

end TrustedFirmware.Sds
