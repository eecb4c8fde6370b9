import TrustedFirmware.Fdt.Translate
import TrustedFirmware.Common

/-! # Reserving memory in a device tree

`fdt_add_reserved_memory()` of `common/fdt_fixup.c` on the part of the tree it works on: the cell
counts of the root, and `/reserved-memory` with its subnodes. The writers of libfdt may fail, and all
answers but one go unused. -/
namespace TrustedFirmware.Fdt
open Libc
set_option autoImplicit false

def FDT_ERR_NOTFOUND : ℤ := 1
def FDT_ERR_BADNCELLS : ℤ := 14
def FDT_ERR_BADVALUE : ℤ := 15
def FDT_READ_PROP_MAX_CELLS : ℤ := 2

structure Subnode where
  name : String
  reg : Option Property

/-- The cell counts are the answers of libfdt. -/
structure ReservedMemory where
  addressCells : ℤ
  sizeCells : ℤ
  subnodes : List Subnode

structure Tree where
  addressCells : ℤ
  sizeCells : ℤ
  reserved : Option ReservedMemory

/-- What the writers answer: an offset or an error for a new node, and whether a property was written.
`behind` is what the blob holds behind the new property. -/
structure Writers where
  addReserved : ℤ
  setAddressCells : Bool
  setSizeCells : Bool
  addSubnode : ℤ
  setReg : Bool
  behind : ℤ → UInt32

/-! ## The functions -/

def fdtGetRegPropsByIndex (parent : ReservedMemory) (node : Subnode) (index : ℤ) :
    Except ℤ (UInt64 × UInt64) :=
  let ac := parent.addressCells
  let sc := parent.sizeCells
  if index < 0 then .error (-FDT_ERR_BADVALUE)
  else if ac < 0 then .error ac
  else if ac > FDT_READ_PROP_MAX_CELLS then .error (-FDT_ERR_BADNCELLS)
  else if sc < 0 then .error sc
  else if sc > FDT_READ_PROP_MAX_CELLS then .error (-FDT_ERR_BADNCELLS)
  else
    let cell := index * (ac + sc)
    match node.reg with
    | none => .error (-FDT_ERR_NOTFOUND)
    | some prop =>
      if (cell + ac + sc) * 4 > prop.len then .error (-FDT_ERR_BADVALUE)
      else .ok (fdtReadPropCells prop.data cell ac, fdtReadPropCells prop.data (cell + ac) sc)

def containsRegion (parent : ReservedMemory) (base size : UInt64) (node : Subnode) : Bool :=
  match fdtGetRegPropsByIndex parent node 0 with
  | .error _ => false
  | .ok (cBase, cSize) => base ≥ cBase && base + size ≤ cBase + cSize

def HIGH_BITS_U32 (x : UInt64) : UInt32 := (x >>> 32).toUInt32

def LO (x : UInt64) : UInt32 := x.toUInt32

/-- The array that is written as `reg`. -/
def addresses (ac sc : ℤ) (base size : UInt64) : List UInt32 :=
  (if ac > 1 then [HIGH_BITS_U32 base, LO base] else [LO base]) ++
    if sc > 1 then [HIGH_BITS_U32 size, LO size] else [LO size]

def regProperty (cells : List UInt32) (behind : ℤ → UInt32) : Property :=
  ⟨cells.length * 4, fun i => if 0 ≤ i ∧ i < cells.length then cells.getD i.toNat 0 else behind i⟩

/-- The node `/reserved-memory`, made if it does not exist. A count that could not be written is read
as the default. -/
def reservedNode (t : Tree) (w : Writers) : Option ReservedMemory :=
  match t.reserved with
  | some r => some r
  | none =>
    if w.addReserved < 0 then none
    else
      some ⟨if w.setAddressCells then t.addressCells else 2, if w.setSizeCells then t.sizeCells else 1, []⟩

def fdtAddReservedMemory (t : Tree) (w : Writers) (nodeName : String) (base size : UInt64) : ℤ × Tree :=
  if t.addressCells < 0 ∨ t.sizeCells < 0 then (-EINVAL, t)
  else
    match reservedNode t w with
    | none => (w.addReserved, t)
    | some r =>
      if r.subnodes.any (containsRegion r base size) then (0, { t with reserved := some r })
      else if w.addSubnode < 0 then (0, { t with reserved := some r })
      else
        let reg := regProperty (addresses t.addressCells t.sizeCells base size) w.behind
        (0, { t with reserved := some { r with
          subnodes := ⟨nodeName, if w.setReg then some reg else none⟩ :: r.subnodes } })

/-! ## What a region covers -/

/-- The first entry of the node contains the addresses from `base` to `base + size`. -/
def Subnode.Covers (node : Subnode) (parent : ReservedMemory) (base size : ℕ) : Prop :=
  ∃ reg, node.reg = some reg ∧ (parent.addressCells + parent.sizeCells) * 4 ≤ reg.len ∧
    ∀ a, base ≤ a → a < base + size →
      cellsValue reg.data parent.addressCells.toNat 0 ≤ a ∧
      a < cellsValue reg.data parent.addressCells.toNat 0 +
        cellsValue reg.data parent.sizeCells.toNat parent.addressCells

def writtenCells (count : ℤ) : ℤ := if count > 1 then 2 else 1

/-- When an existing region passes the test, the new one ends below 2 ^ 64 and the counts of the node
are not 0. Otherwise the new node is written, with the cells that are read back, and the numbers have
room in them. -/
structure Reservable (t : Tree) (w : Writers) (r : ReservedMemory) (base size : UInt64) : Prop where
  existing : r.subnodes.any (containsRegion r base size) = true →
    base.toNat + size.toNat < 2 ^ 64 ∧ r.addressCells ≠ 0 ∧ r.sizeCells ≠ 0
  added : r.subnodes.any (containsRegion r base size) = false →
    (0 ≤ w.addSubnode ∧ w.setReg = true) ∧
    (r.addressCells = writtenCells t.addressCells ∧ r.sizeCells = writtenCells t.sizeCells) ∧
    base.toNat < 2 ^ (32 * r.addressCells.toNat) ∧ size.toNat < 2 ^ (32 * r.sizeCells.toNat)

section Regions
variable {r : ReservedMemory} {node : Subnode} {base size : UInt64}

theorem regProps_ok {c : UInt64 × UInt64} (h : fdtGetRegPropsByIndex r node 0 = .ok c)
    (hac : r.addressCells ≠ 0) (hsc : r.sizeCells ≠ 0) :
    Readable r.addressCells ∧ Readable r.sizeCells ∧ ∃ reg, node.reg = some reg ∧
      (r.addressCells + r.sizeCells) * 4 ≤ reg.len ∧
      c = (fdtReadPropCells reg.data 0 r.addressCells,
        fdtReadPropCells reg.data r.addressCells r.sizeCells) := by
  unfold fdtGetRegPropsByIndex FDT_READ_PROP_MAX_CELLS at h
  simp only [Int.zero_mul, Int.zero_add] at h
  split at h
  · cases h
  split at h
  · cases h
  split at h
  · cases h
  split at h
  · cases h
  split at h
  · cases h
  split at h
  · cases h
  next reg hreg =>
  split at h
  · cases h
  cases h
  refine ⟨?_, ?_, reg, hreg, by omega, rfl⟩
  · unfold Readable
    omega
  · unfold Readable
    omega

theorem containsRegion_covers (h : containsRegion r base size node = true)
    (hend : base.toNat + size.toNat < 2 ^ 64) (hac : r.addressCells ≠ 0) (hsc : r.sizeCells ≠ 0) :
    node.Covers r base.toNat size.toNat := by
  unfold containsRegion at h
  split at h
  · cases h
  next cBase cSize hget =>
  obtain ⟨hrac, hrsc, reg, hreg, hlen, hval⟩ := regProps_ok hget hac hsc
  cases hval
  refine ⟨reg, hreg, hlen, ?_⟩
  rw [← readPropCells_toNat hrac, ← readPropCells_toNat hrsc]
  generalize fdtReadPropCells reg.data 0 r.addressCells = c at h ⊢
  generalize fdtReadPropCells reg.data r.addressCells r.sizeCells = z at h ⊢
  have hc := UInt64.toNat_lt c
  have hz := UInt64.toNat_lt z
  simp only [ge_iff_le, Bool.and_eq_true, decide_eq_true_eq, UInt64.le_iff_toNat_le,
    UInt64.toNat_add] at h
  intro a h1 h2
  omega

theorem hi_lo (x : UInt64) : (HIGH_BITS_U32 x).toNat * 2 ^ 32 + (LO x).toNat = x.toNat := by
  have hx := UInt64.toNat_lt x
  have hhi : (HIGH_BITS_U32 x).toNat = x.toNat / 2 ^ 32 := by
    rw [HIGH_BITS_U32, UInt64.toNat_toUInt32, UInt64.toNat_shiftRight, Nat.shiftRight_eq_div_pow]
    change x.toNat / 2 ^ 32 % 2 ^ 32 = _
    omega
  rw [hhi, LO, UInt64.toNat_toUInt32]
  omega

theorem lo_of_lt {x : UInt64} (h : x.toNat < 2 ^ 32) : (LO x).toNat = x.toNat := by
  rw [LO, UInt64.toNat_toUInt32, Nat.mod_eq_of_lt h]

/-- What is written for the counts of the root is read back with as many cells. -/
theorem addresses_value {ac sc : ℤ} {behind : ℤ → UInt32}
    (hbase : base.toNat < 2 ^ (32 * (writtenCells ac).toNat))
    (hsize : size.toNat < 2 ^ (32 * (writtenCells sc).toNat)) :
    (regProperty (addresses ac sc base size) behind).len =
        ((writtenCells ac + writtenCells sc) * 4).toNat ∧
      cellsValue (regProperty (addresses ac sc base size) behind).data (writtenCells ac).toNat 0 =
        base.toNat ∧
      cellsValue (regProperty (addresses ac sc base size) behind).data (writtenCells sc).toNat
        (writtenCells ac) = size.toNat := by
  have hb := hi_lo base
  have hs := hi_lo size
  by_cases hac : ac > 1 <;> by_cases hsc : sc > 1 <;>
    simp only [writtenCells, addresses, regProperty, hac, hsc, if_true, if_false] at hbase hsize ⊢ <;>
    simp [cellsValue]
  · exact ⟨by simpa using hb, by simpa using hs⟩
  · exact ⟨by simpa using hb, lo_of_lt (by simpa using hsize)⟩
  · exact ⟨lo_of_lt (by simpa using hbase), by simpa using hs⟩
  · exact ⟨lo_of_lt (by simpa using hbase), lo_of_lt (by simpa using hsize)⟩

end Regions

theorem reservedNode_none {t : Tree} {w : Writers} (h : reservedNode t w = none) : w.addReserved < 0 := by
  unfold reservedNode at h
  split at h
  · cases h
  split at h
  · assumption
  · cases h

/-- For every tree and every answer of the writers: an error leaves the tree as it was, and success
under the condition means that a subnode covers the region. -/
theorem addReservedMemory_covers (t : Tree) (w : Writers) (nodeName : String) (base size : UInt64) :
    ((fdtAddReservedMemory t w nodeName base size).1 ≠ 0 →
      (fdtAddReservedMemory t w nodeName base size).2 = t) ∧
    ((fdtAddReservedMemory t w nodeName base size).1 = 0 →
      (∀ r, reservedNode t w = some r → Reservable t w r base size) →
      ∃ r, (fdtAddReservedMemory t w nodeName base size).2.reserved = some r ∧
        ∃ node ∈ r.subnodes, node.Covers r base.toNat size.toNat) := by
  unfold fdtAddReservedMemory
  split
  · exact ⟨fun _ => rfl, fun h0 => absurd h0 (by decide : (-EINVAL : ℤ) ≠ 0)⟩
  cases hnode : reservedNode t w with
  | none => exact ⟨fun _ => rfl, fun h0 => absurd h0 (reservedNode_none hnode).ne⟩
  | some r =>
    -- Behind this point 0 is returned whatever happens.
    refine ⟨fun h0 => ?_, fun _ h => ?_⟩
    · dsimp only at h0
      split_ifs at h0 <;> exact absurd rfl h0
    obtain ⟨hexisting, hadded⟩ := h r rfl
    cases hany : r.subnodes.any (containsRegion r base size) with
    | true =>
      obtain ⟨hend, hac, hsc⟩ := hexisting hany
      obtain ⟨node, hmem, hnode⟩ := List.any_eq_true.mp hany
      dsimp only
      rw [if_pos hany]
      exact ⟨r, rfl, node, hmem, containsRegion_covers hnode hend hac hsc⟩
    | false =>
      obtain ⟨⟨hsub, hset⟩, ⟨hac, hsc⟩, hbase, hsize⟩ := hadded hany
      rw [hac] at hbase
      rw [hsc] at hsize
      obtain ⟨hlen, hbval, hsval⟩ := @addresses_value base size _ _ w.behind hbase hsize
      dsimp only
      rw [if_neg (Bool.eq_false_iff.mp hany), if_neg (Int.not_lt.mpr hsub)]
      refine ⟨_, rfl, _, List.mem_cons_self .., _, if_pos hset, ?_, ?_⟩
      · rw [hlen, hac, hsc]
        exact Int.self_le_toNat _
      · rw [hac, hsc, hbval, hsval]
        exact fun a h1 h2 => ⟨h1, h2⟩

def sampleTree : Tree := ⟨2, 1, none⟩

def goodWriters : Writers := ⟨0x100, true, true, 0x140, true, fun _ => 0⟩

theorem addReservedMemory_covers_sample :
    (fdtAddReservedMemory sampleTree goodWriters "tfa" 0x8_0000_0000 0x1000).1 = 0 ∧
      ∃ r, (fdtAddReservedMemory sampleTree goodWriters "tfa" 0x8_0000_0000 0x1000).2.reserved = some r ∧
        ∃ node ∈ r.subnodes, node.Covers r (0x8_0000_0000 : UInt64).toNat (0x1000 : UInt64).toNat := by
  refine ⟨rfl, (addReservedMemory_covers sampleTree goodWriters "tfa" 0x8_0000_0000 0x1000).2 rfl ?_⟩
  intro r hr
  obtain rfl : ⟨2, 1, []⟩ = r := Option.some.inj hr
  exact ⟨fun h => (nomatch h), fun _ => ⟨⟨by decide, rfl⟩, ⟨rfl, rfl⟩, by decide, by decide⟩⟩

/-- There is no room for the subnode: the function returns 0 and nothing is reserved. -/
theorem region_lost :
    (fdtAddReservedMemory sampleTree { goodWriters with addSubnode := -3 } "tfa" 0x8_0000_0000 0x1000).1 = 0 ∧
      (fdtAddReservedMemory sampleTree { goodWriters with addSubnode := -3 } "tfa" 0x8_0000_0000
        0x1000).2.reserved.map (fun r => r.subnodes.length) = some 0 := by
  decide

end TrustedFirmware.Fdt
