import Mathlib.Tactic
import TrustedFirmware.Foundations.Words

/-! # The DRTM address map

`drtm_build_address_map()`: the platform's regions are converted up to the first one at address 0, sorted
by address and coalesced in place. The array of entries is a function of the index. `qsort()` is a
parameter. The number of 4 KiB pages and the kind (type and cacheability) share one word of an entry. -/
namespace TrustedFirmware.Drtm.AddressMap
set_option autoImplicit false

/-- The fields of `mmap_region_t` that are read. -/
structure MmapRegion where
  basePa : UInt64
  size : UInt64
  attr : UInt32
  deriving DecidableEq

structure MemRegion where
  regionAddress : UInt64
  regionSizeType : UInt64
  deriving DecidableEq

def PAGE_SIZE_4KB : UInt64 := 4096
def PAGE_NUM_MASK : UInt64 := 0xFFFFFFFFFFFFF
def REGION_TYPE_NORMAL : UInt64 := 0
def REGION_TYPE_NCAR : UInt64 := 1
def REGION_TYPE_DEVICE : UInt64 := 2
def CACHEABILITY_NC : UInt64 := 0
def MT_DEVICE : UInt32 := 0
def MT_NON_CACHEABLE : UInt32 := 1
def MT_MEMORY : UInt32 := 2

/-- `ARM_DRTM_REGION_SIZE_TYPE_SET_4K_PAGE_NUM()` and the other two. -/
def setPageNum (reg val : UInt64) : UInt64 := (reg &&& ~~~PAGE_NUM_MASK) ||| (val &&& PAGE_NUM_MASK)
def setRegionType (reg val : UInt64) : UInt64 := (reg &&& ~~~((7 : UInt64) <<< 52)) ||| ((val &&& 7) <<< 52)
def setCacheability (reg val : UInt64) : UInt64 := (reg &&& ~~~((3 : UInt64) <<< 55)) ||| ((val &&& 3) <<< 55)

/-- One round of the conversion; `none` for a type that is not known. -/
def convert (m : MmapRegion) : Option MemRegion :=
  let sized := setPageNum 0 (m.size / PAGE_SIZE_4KB)
  if m.attr &&& 7 = MT_DEVICE then some ⟨m.basePa, setRegionType sized REGION_TYPE_DEVICE⟩
  else if m.attr &&& 7 = MT_NON_CACHEABLE then
    some ⟨m.basePa, setCacheability (setRegionType sized REGION_TYPE_NCAR) CACHEABILITY_NC⟩
  else if m.attr &&& 7 = MT_MEMORY then some ⟨m.basePa, setRegionType sized REGION_TYPE_NORMAL⟩
  else none

def convertAll : List MmapRegion → Option (List MemRegion)
  | [] => some []
  | m :: ms =>
    if m.basePa = 0 then some []
    else
      match convert m with
      | none => none
      | some r => (convertAll ms).map (r :: ·)

def canCoalesce (previous current : MemRegion) : Bool :=
  let previousPages := previous.regionSizeType &&& PAGE_NUM_MASK
  let currentPages := current.regionSizeType &&& PAGE_NUM_MASK
  previousPages ≤ (0xFFFFFFFFFFFFFFFF - previous.regionAddress) / PAGE_SIZE_4KB &&
  previous.regionAddress + previousPages * PAGE_SIZE_4KB == current.regionAddress &&
  previous.regionSizeType &&& ~~~PAGE_NUM_MASK == current.regionSizeType &&& ~~~PAGE_NUM_MASK &&
  currentPages ≤ PAGE_NUM_MASK - previousPages

def coalesced (previous current : MemRegion) : MemRegion :=
  let pages := (previous.regionSizeType &&& PAGE_NUM_MASK) + (current.regionSizeType &&& PAGE_NUM_MASK)
  { previous with regionSizeType := setPageNum previous.regionSizeType pages }

/-- The loop of `coalesce_regions()`, `rounds` rounds from `readIndex` on; the array and the number of
entries left. -/
def coalesceFrom : ℕ → ℕ → ℕ → (ℕ → MemRegion) → (ℕ → MemRegion) × ℕ
  | 0, _, writeIndex, region => (region, writeIndex)
  | rounds + 1, readIndex, writeIndex, region =>
    let current := region readIndex
    if writeIndex ≠ 0 ∧ canCoalesce (region (writeIndex - 1)) current then
      coalesceFrom rounds (readIndex + 1) writeIndex
        (Function.update region (writeIndex - 1) (coalesced (region (writeIndex - 1)) current))
    else
      coalesceFrom rounds (readIndex + 1) (writeIndex + 1)
        (if writeIndex ≠ readIndex then Function.update region writeIndex current else region)

def drtmBuildAddressMap (qsort : List MemRegion → List MemRegion) (mmap : List MmapRegion) :
    Option (List MemRegion) :=
  match convertAll mmap with
  | none => none
  | some regions =>
    let sorted := qsort regions
    let (region, numRegions) := coalesceFrom sorted.length 0 0 fun i => sorted.getD i ⟨0, 0⟩
    some ((List.range numRegions).map region)

/-! ## Entries in pages -/

namespace MemRegion

def pages (r : MemRegion) : ℕ := r.regionSizeType.toNat % 2 ^ 52

def kind (r : MemRegion) : ℕ := r.regionSizeType.toNat / 2 ^ 52

def Has (r : MemRegion) (n : ℕ) : Prop :=
  r.regionAddress.toNat / 4096 ≤ n ∧ n < r.regionAddress.toNat / 4096 + r.pages

structure Whole (r : MemRegion) : Prop where
  aligned : r.regionAddress.toNat % 4096 = 0
  bound : r.regionAddress.toNat + 4096 * r.pages ≤ 2 ^ 64

end MemRegion

def Mergeable (p c : MemRegion) : Prop :=
  p.regionAddress.toNat + 4096 * p.pages = c.regionAddress.toNat ∧ p.kind = c.kind ∧
    p.pages + c.pages < 2 ^ 52

theorem low_toNat (x : UInt64) : (x &&& PAGE_NUM_MASK).toNat = x.toNat % 2 ^ 52 := by
  have hpower : (0x10000000000000#64).toNat.isPowerOfTwo := ⟨52, rfl⟩
  exact Alignment.toNat_low (x := x.toBitVec) hpower

theorem high_toNat (x : UInt64) : (x &&& ~~~PAGE_NUM_MASK).toNat = x.toNat / 2 ^ 52 * 2 ^ 52 := by
  have hpower : (0x10000000000000#64).toNat.isPowerOfTwo := ⟨52, rfl⟩
  have h := Alignment.toNat_high (x := x.toBitVec) hpower
  exact h

theorem setPageNum_toNat (reg val : UInt64) :
    (setPageNum reg val).toNat = reg.toNat / 2 ^ 52 * 2 ^ 52 + val.toNat % 2 ^ 52 := by
  rw [setPageNum, UInt64.toNat_or, high_toNat, low_toNat, Nat.mul_comm,
    ← Nat.two_pow_add_eq_or_of_lt (Nat.mod_lt _ (by norm_num))]

theorem canCoalesce_iff {p c : MemRegion} : canCoalesce p c = true ↔ Mergeable p c := by
  have hkind : p.regionSizeType &&& ~~~PAGE_NUM_MASK = c.regionSizeType &&& ~~~PAGE_NUM_MASK ↔
      p.kind = c.kind := by
    rw [← UInt64.toNat_inj, high_toNat, high_toNat]
    simp only [MemRegion.kind]
    omega
  have hpages : p.regionSizeType.toNat % 2 ^ 52 < 2 ^ 52 := Nat.mod_lt _ (by norm_num)
  have hp := p.regionAddress.toNat_lt
  have hc := c.regionAddress.toNat_lt
  have hmax : UInt64.toNat 0xFFFFFFFFFFFFFFFF = 2 ^ 64 - 1 := rfl
  have hmask : PAGE_NUM_MASK.toNat = 2 ^ 52 - 1 := rfl
  have h4096 : UInt64.toNat 4096 = 4096 := rfl
  have hroom : (0xFFFFFFFFFFFFFFFF - p.regionAddress).toNat = 2 ^ 64 - 1 - p.regionAddress.toNat := by
    rw [UInt64.toNat_sub_of_le _ _ (by rw [UInt64.le_iff_toNat_le, hmax]; omega), hmax]
  have hrest : (PAGE_NUM_MASK - (p.regionSizeType &&& PAGE_NUM_MASK)).toNat =
      2 ^ 52 - 1 - p.regionSizeType.toNat % 2 ^ 52 := by
    rw [UInt64.toNat_sub_of_le _ _ (by rw [UInt64.le_iff_toNat_le, low_toNat, hmask]; omega), hmask,
      low_toNat]
  simp only [canCoalesce, Bool.and_eq_true, decide_eq_true_eq, beq_iff_eq, hkind, PAGE_SIZE_4KB,
    UInt64.le_iff_toNat_le, ← UInt64.toNat_inj (a := _ + _), UInt64.toNat_add, UInt64.toNat_mul,
    UInt64.toNat_div, hroom, hrest, low_toNat, h4096, Mergeable, MemRegion.pages]
  constructor
  · rintro ⟨⟨⟨h1, h2⟩, h3⟩, h4⟩
    exact ⟨by omega, h3, by omega⟩
  · rintro ⟨h1, h2, h3⟩
    exact ⟨⟨⟨by omega, by omega⟩, h2⟩, by omega⟩

theorem coalesced_pages {p c : MemRegion} (h : Mergeable p c) :
    (coalesced p c).pages = p.pages + c.pages := by
  have hsum := h.2.2
  simp only [MemRegion.pages] at hsum ⊢
  rw [coalesced, setPageNum_toNat, UInt64.toNat_add, low_toNat, low_toNat]
  omega

theorem coalesced_kind (p c : MemRegion) : (coalesced p c).kind = p.kind := by
  simp only [MemRegion.kind]
  rw [coalesced, setPageNum_toNat]
  omega

theorem coalesced_has {p c : MemRegion} (h : Mergeable p c) (hp : p.Whole) {n : ℕ} :
    (coalesced p c).Has n ↔ p.Has n ∨ c.Has n := by
  have haddress : (coalesced p c).regionAddress = p.regionAddress := rfl
  have haligned := hp.aligned
  have hend := h.1
  simp only [MemRegion.Has, coalesced_pages h, haddress]
  omega

/-! ## The conversion -/

namespace MmapRegion

def kind (m : MmapRegion) : ℕ :=
  if m.attr &&& 7 = MT_DEVICE then 2 else if m.attr &&& 7 = MT_NON_CACHEABLE then 1 else 0

def Has (m : MmapRegion) (n : ℕ) : Prop :=
  m.basePa.toNat / 4096 ≤ n ∧ n < m.basePa.toNat / 4096 + m.size.toNat / 4096

structure Valid (m : MmapRegion) : Prop where
  base_aligned : m.basePa.toNat % 4096 = 0
  size_aligned : m.size.toNat % 4096 = 0
  bound : m.basePa.toNat + m.size.toNat ≤ 2 ^ 64
  known : m.attr &&& 7 = MT_DEVICE ∨ m.attr &&& 7 = MT_NON_CACHEABLE ∨ m.attr &&& 7 = MT_MEMORY

end MmapRegion

theorem insert_toNat {k d : ℕ} {x L D : UInt64} (hx : x.toNat < 2 ^ k)
    (hL : (2 ^ k - 1) &&& L.toNat = 2 ^ k - 1) (hD : D.toNat = 2 ^ k * d) :
    ((x &&& L) ||| D).toNat = x.toNat + 2 ^ k * d := by
  have hkeep : x.toNat &&& L.toNat = x.toNat := by
    calc x.toNat &&& L.toNat = (x.toNat &&& (2 ^ k - 1)) &&& L.toNat := by
          rw [Nat.and_two_pow_sub_one_eq_mod, Nat.mod_eq_of_lt hx]
      _ = x.toNat := by rw [Nat.and_assoc, hL, Nat.and_two_pow_sub_one_eq_mod, Nat.mod_eq_of_lt hx]
  rw [UInt64.toNat_or, UInt64.toNat_and, hkeep, hD, Nat.or_comm, ← Nat.two_pow_add_eq_or_of_lt hx,
    Nat.add_comm]

theorem convert_eq {m : MmapRegion} (h : m.Valid) : ∃ r, convert m = some r ∧
    r.regionAddress = m.basePa ∧ r.pages = m.size.toNat / 4096 ∧ r.kind = m.kind := by
  have hlt := m.size.toNat_lt
  have hsized : (setPageNum 0 (m.size / PAGE_SIZE_4KB)).toNat = m.size.toNat / 4096 := by
    have hdiv : (m.size / PAGE_SIZE_4KB).toNat = m.size.toNat / 4096 := UInt64.toNat_div _ _
    rw [setPageNum_toNat, hdiv]
    have h0 : UInt64.toNat 0 = 0 := rfl
    omega
  have hfits : (setPageNum 0 (m.size / PAGE_SIZE_4KB)).toNat < 2 ^ 52 := by omega
  have htype {v : UInt64} {d : ℕ} (hv : ((v &&& 7) <<< 52).toNat = 2 ^ 52 * d) :
      (setRegionType (setPageNum 0 (m.size / PAGE_SIZE_4KB)) v).toNat =
        m.size.toNat / 4096 + 2 ^ 52 * d :=
    (insert_toNat hfits (by decide) hv).trans (by rw [hsized])
  have hentry {w : UInt64} {d : ℕ} (hw : w.toNat = m.size.toNat / 4096 + 2 ^ 52 * d) :
      (MemRegion.mk m.basePa w).pages = m.size.toNat / 4096 ∧ (MemRegion.mk m.basePa w).kind = d := by
    simp only [MemRegion.pages, MemRegion.kind, hw]
    omega
  have hdiffer : MT_NON_CACHEABLE ≠ MT_DEVICE ∧ MT_MEMORY ≠ MT_DEVICE ∧ MT_MEMORY ≠ MT_NON_CACHEABLE := by
    decide
  unfold convert MmapRegion.kind
  obtain hd | hn | hm := h.known
  · rw [if_pos hd, if_pos hd]
    exact ⟨_, rfl, rfl, hentry (htype rfl)⟩
  · rw [hn, if_neg hdiffer.1, if_neg hdiffer.1, if_pos rfl, if_pos rfl]
    have htyped := htype (v := REGION_TYPE_NCAR) (d := 1) rfl
    have hcached := insert_toNat (k := 55) (d := 0) (D := (CACHEABILITY_NC &&& 3) <<< 55)
      (L := ~~~((3 : UInt64) <<< 55)) (by rw [htyped]; omega) (by decide) rfl
    exact ⟨_, rfl, rfl, hentry (hcached.trans htyped)⟩
  · rw [hm, if_neg hdiffer.2.1, if_neg hdiffer.2.1, if_neg hdiffer.2.2, if_neg hdiffer.2.2, if_pos rfl]
    exact ⟨_, rfl, rfl, hentry (htype rfl)⟩

end TrustedFirmware.Drtm.AddressMap
