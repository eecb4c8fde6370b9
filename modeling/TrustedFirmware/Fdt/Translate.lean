import Mathlib.Tactic

/-! # Translating a bus address

`fdtw_translate_address()` of `common/fdt_wrappers.c`. A node is given by the buses above it, its
parent first and the root last, with what libfdt reads there. The cells of a property are numbered
from its start; cells outside it are what the blob holds there. -/
namespace TrustedFirmware.Fdt
set_option autoImplicit false

structure Property where
  len : ℕ
  data : ℤ → UInt32

/-- `#address-cells` and `#size-cells` are the answers of libfdt, which are negative for an error. -/
structure Bus where
  addressCells : ℤ
  sizeCells : ℤ
  ranges : Option Property

def ILLEGAL_ADDR : UInt64 := 0xFFFFFFFFFFFFFFFF
def FDT_ERR_BADOFFSET : ℤ := 4

/-! ## The functions -/

def fdtReadPropCells (data : ℤ → UInt32) (i nrCells : ℤ) : UInt64 :=
  if nrCells > 1 then ((data i).toUInt64 <<< 32) ||| (data (i + 1)).toUInt64
  else (data i).toUInt64

/-- The entry starts at cell `i`. -/
def fdtwXlatHit (data : ℤ → UInt32) (i childAddrSize parentAddrSize rangeSize : ℤ)
    (baseAddress : UInt64) : Option UInt64 :=
  let localAddress := fdtReadPropCells data i childAddrSize
  let parentAddress := fdtReadPropCells data (i + childAddrSize) parentAddrSize
  let addrRange := fdtReadPropCells data (i + childAddrSize + parentAddrSize) rangeSize
  if baseAddress < localAddress ∨ baseAddress ≥ localAddress + addrRange then none
  else some (parentAddress + (baseAddress - localAddress))

/-- The loop over `n` entries from cell `i` on. -/
def searchEntries (data : ℤ → UInt32) (child parent size : ℤ) (baseAddress : UInt64) : ℕ → ℤ → UInt64
  | 0, _ => ILLEGAL_ADDR
  | n + 1, i =>
    match fdtwXlatHit data i child parent size baseAddress with
    | some translatedAddr => translatedAddr
    | none => searchEntries data child parent size baseAddress n (i + (child + parent + size))

/-- `#address-cells` of the next bus; there is none above the root. -/
def parentAddrCells : List Bus → ℤ
  | [] => -FDT_ERR_BADOFFSET
  | parent :: _ => parent.addressCells

/-- There is no result when an assertion fails. -/
def fdtwSearchAllXlatEntries (rangesProp : Property) (self : Bus) (parentCells : ℤ)
    (baseAddress : UInt64) : Option UInt64 :=
  let ncellsXlat := self.addressCells + parentCells + self.sizeCells
  if ncellsXlat ≤ 0 then none
  else
    let nxlatEntries := rangesProp.len / 4 / ncellsXlat.toNat
    if nxlatEntries = 0 then none
    else
      some (searchEntries rangesProp.data self.addressCells parentCells self.sizeCells baseAddress
        nxlatEntries 0)

/-- Above the root there is no node, and so no property. -/
def fdtwTranslateAddress : List Bus → UInt64 → Option UInt64
  | [], _ => some ILLEGAL_ADDR
  | localBus :: above, baseAddress =>
    match localBus.ranges with
    | none => if above = [] then some baseAddress else some ILLEGAL_ADDR
    | some property =>
      if property.len = 0 then fdtwTranslateAddress above baseAddress
      else
        match fdtwSearchAllXlatEntries property localBus (parentAddrCells above) baseAddress with
        | none => none
        | some globalAddress =>
          if globalAddress = ILLEGAL_ADDR then some ILLEGAL_ADDR
          else fdtwTranslateAddress above globalAddress

/-! ## The composition over the integers -/

/-- The number that `n` cells from `i` on stand for. -/
def cellsValue (data : ℤ → UInt32) : ℕ → ℤ → ℕ
  | 0, _ => 0
  | n + 1, i => (data i).toNat * 2 ^ (32 * n) + cellsValue data n (i + 1)

structure Mapping where
  child : ℕ
  parent : ℕ
  size : ℕ
  deriving DecidableEq, Repr

def Mapping.contains (e : Mapping) (x : ℕ) : Bool := decide (e.child ≤ x ∧ x < e.child + e.size)

def Mapping.image (e : Mapping) (x : ℕ) : ℕ := e.parent + (x - e.child)

def mappingAt (data : ℤ → UInt32) (child parent size : ℤ) (i : ℤ) : Mapping :=
  ⟨cellsValue data child.toNat i, cellsValue data parent.toNat (i + child),
    cellsValue data size.toNat (i + child + parent)⟩

def mappingsFrom (data : ℤ → UInt32) (child parent size : ℤ) : ℕ → ℤ → List Mapping
  | 0, _ => []
  | n + 1, i =>
    mappingAt data child parent size i ::
      mappingsFrom data child parent size n (i + (child + parent + size))

def Bus.mappings (bus : Bus) (property : Property) (parentCells : ℤ) : List Mapping :=
  mappingsFrom property.data bus.addressCells parentCells bus.sizeCells
    (property.len / 4 / (bus.addressCells + parentCells + bus.sizeCells).toNat) 0

def compose : List Bus → ℕ → Option ℕ
  | [], x => some x
  | bus :: above, x =>
    match bus.ranges with
    | none => if above = [] then some x else none
    | some property =>
      if property.len = 0 then compose above x
      else
        ((bus.mappings property (parentAddrCells above)).find? fun e => e.contains x).bind fun e =>
          compose above (e.image x)

def Readable (nrCells : ℤ) : Prop := nrCells = 1 ∨ nrCells = 2

/-- The way up ends at a root without `ranges`, and at each bus on it the property has an entry, its
numbers have one or two cells, the range that is taken ends below 2 ^ 64, and the address at the next
bus is below the illegal one. -/
def Fits : List Bus → ℕ → Prop
  | [], _ => False
  | bus :: above, x =>
    match bus.ranges with
    | none => above = [] → x < ILLEGAL_ADDR.toNat
    | some property =>
      if property.len = 0 then Fits above x
      else
        (Readable bus.addressCells ∧ Readable (parentAddrCells above) ∧ Readable bus.sizeCells) ∧
        bus.mappings property (parentAddrCells above) ≠ [] ∧
        ∀ e, ((bus.mappings property (parentAddrCells above)).find? fun e => e.contains x) = some e →
          e.child + e.size < 2 ^ 64 ∧ e.image x < ILLEGAL_ADDR.toNat ∧ Fits above (e.image x)

/-! ## Words and numbers -/

section Search
variable {data : ℤ → UInt32} {child parent size i : ℤ} {x : UInt64}

theorem readPropCells_toNat {n : ℤ} (h : Readable n) (i : ℤ) :
    (fdtReadPropCells data i n).toNat = cellsValue data n.toNat i := by
  obtain rfl | rfl := h
  · simp [fdtReadPropCells, cellsValue]
  · have hlo : (data (i + 1)).toNat < 2 ^ 32 := UInt32.toNat_lt _
    have hhi : (data i).toNat < 2 ^ 32 := UInt32.toNat_lt _
    have hword : (fdtReadPropCells data i 2).toNat =
        ((data i).toNat <<< 32) % 2 ^ 64 ||| (data (i + 1)).toNat := by
      rw [fdtReadPropCells, if_pos (by decide), UInt64.toNat_or]
      rfl
    have hshift : ((data i).toNat <<< 32) % 2 ^ 64 = (data i).toNat <<< 32 :=
      Nat.mod_eq_of_lt (by rw [Nat.shiftLeft_eq]; omega)
    rw [hword, hshift, ← Nat.shiftLeft_add_eq_or_of_lt hlo, Nat.shiftLeft_eq]
    simp [cellsValue]

/-- What the test of the source says for the numbers of an entry. -/
theorem xlatHit_eq (hc : Readable child) (hp : Readable parent) (hs : Readable size) :
    (∀ r, fdtwXlatHit data i child parent size x = some r →
      (mappingAt data child parent size i).contains x.toNat = true) ∧
    ((mappingAt data child parent size i).contains x.toNat = true →
      (mappingAt data child parent size i).child + (mappingAt data child parent size i).size < 2 ^ 64 →
      (mappingAt data child parent size i).image x.toNat < 2 ^ 64 →
      ∃ r, fdtwXlatHit data i child parent size x = some r ∧
        r.toNat = (mappingAt data child parent size i).image x.toNat) := by
  have hchild := @readPropCells_toNat data child hc i
  have hparent := @readPropCells_toNat data parent hp (i + child)
  have hsize := @readPropCells_toNat data size hs (i + child + parent)
  unfold fdtwXlatHit Mapping.contains Mapping.image mappingAt
  rw [← hchild, ← hparent, ← hsize]
  generalize fdtReadPropCells data i child = c
  generalize fdtReadPropCells data (i + child) parent = q
  generalize fdtReadPropCells data (i + child + parent) size = z
  have hx := UInt64.toNat_lt x
  have hz := UInt64.toNat_lt z
  simp only [ge_iff_le, UInt64.lt_iff_toNat_lt, UInt64.le_iff_toNat_le, UInt64.toNat_add,
    decide_eq_true_eq]
  constructor
  · intro r h
    split at h
    · cases h
    · omega
  · intro hin hfit himage
    rw [if_neg (by omega)]
    refine ⟨_, rfl, ?_⟩
    rw [UInt64.toNat_add, UInt64.toNat_sub_of_le _ _ (UInt64.le_iff_toNat_le.mpr hin.1)]
    omega

theorem searchEntries_agrees (hc : Readable child) (hp : Readable parent) (hs : Readable size) (n : ℕ)
    (hfit : ∀ e, ((mappingsFrom data child parent size n i).find? fun e => e.contains x.toNat) = some e →
      e.child + e.size < 2 ^ 64 ∧ e.image x.toNat < 2 ^ 64) :
    match (mappingsFrom data child parent size n i).find? fun e => e.contains x.toNat with
    | some e => (searchEntries data child parent size x n i).toNat = e.image x.toNat
    | none => searchEntries data child parent size x n i = ILLEGAL_ADDR := by
  induction n generalizing i with
  | zero => rfl
  | succ n ih =>
    obtain ⟨hhit, hmiss⟩ := @xlatHit_eq data child parent size i x hc hp hs
    rw [mappingsFrom] at hfit ⊢
    cases hin : (mappingAt data child parent size i).contains x.toNat with
    | true =>
      simp only [List.find?_cons, hin] at hfit ⊢
      obtain ⟨hend, himage⟩ := hfit _ rfl
      obtain ⟨r, hr, hval⟩ := hmiss hin hend himage
      rw [searchEntries, hr]
      exact hval
    | false =>
      have hnot : ¬ (mappingAt data child parent size i).contains x.toNat = true :=
        Bool.eq_false_iff.mp hin
      simp only [List.find?_cons, hin] at hfit ⊢
      have hnone : fdtwXlatHit data i child parent size x = none := by
        cases hr : fdtwXlatHit data i child parent size x with
        | none => rfl
        | some r => exact absurd (hhit r hr) hnot
      rw [searchEntries, hnone]
      exact ih hfit

end Search

/-! ## The way up -/

def Agrees (r : UInt64) : Option ℕ → Prop
  | some v => r.toNat = v ∧ r ≠ ILLEGAL_ADDR
  | none => r = ILLEGAL_ADDR

theorem Readable.pos {n : ℤ} (h : Readable n) : 0 < n := by
  obtain rfl | rfl := h <;> decide

theorem ne_illegal {r : UInt64} (h : r.toNat < ILLEGAL_ADDR.toNat) : r ≠ ILLEGAL_ADDR := by
  rintro rfl
  exact Nat.lt_irrefl _ h

theorem translateAddress_agrees (buses : List Bus) (x : UInt64) (h : Fits buses x.toNat) :
    ∃ r, fdtwTranslateAddress buses x = some r ∧ Agrees r (compose buses x.toNat) := by
  induction buses generalizing x with
  | nil => exact absurd h id
  | cons bus above ih =>
    unfold Fits at h
    unfold fdtwTranslateAddress compose
    cases hranges : bus.ranges with
    | none =>
      rw [hranges] at h
      dsimp only at h ⊢
      split
      · next htop => exact ⟨x, rfl, rfl, ne_illegal (h htop)⟩
      · exact ⟨ILLEGAL_ADDR, rfl, rfl⟩
    | some property =>
      rw [hranges] at h
      dsimp only at h ⊢
      split at h
      · next hempty =>
        rw [if_pos hempty, if_pos hempty]
        exact ih x h
      · next hfull =>
        obtain ⟨⟨hc, hp, hs⟩, hsome, hfit⟩ := h
        rw [if_neg hfull, if_neg hfull]
        have hcells : ¬ bus.addressCells + parentAddrCells above + bus.sizeCells ≤ 0 := by
          have := hc.pos
          have := hp.pos
          have := hs.pos
          omega
        have hn : ¬ property.len / 4 /
            (bus.addressCells + parentAddrCells above + bus.sizeCells).toNat = 0 := by
          intro hn
          rw [Bus.mappings, hn] at hsome
          exact hsome rfl
        have hsearch := searchEntries_agrees hc hp hs _ fun e he =>
          ⟨(hfit e he).1, Nat.lt_trans (hfit e he).2.1 (by decide)⟩
        unfold fdtwSearchAllXlatEntries
        dsimp only
        rw [if_neg hcells, if_neg hn]
        dsimp only
        cases hfind : (bus.mappings property (parentAddrCells above)).find?
            fun e => e.contains x.toNat with
        | none =>
          unfold Bus.mappings at hfind
          rw [hfind] at hsearch
          rw [if_pos hsearch]
          exact ⟨_, rfl, rfl⟩
        | some e =>
          obtain ⟨-, himage, habove⟩ := hfit e hfind
          unfold Bus.mappings at hfind
          rw [hfind] at hsearch
          dsimp only at hsearch
          rw [← hsearch] at himage habove
          rw [if_neg (ne_illegal himage), Option.bind_some, ← hsearch]
          exact ih _ habove

def sampleRanges : Property := ⟨12, fun i => if i = 0 then 0x40 else if i = 1 then 0x8000000 else 0x1000⟩

def sampleBuses : List Bus := [⟨1, 1, some sampleRanges⟩, ⟨1, 1, none⟩]

theorem translateAddress_agrees_sample : Fits sampleBuses 0x50 ∧
    ∃ r, fdtwTranslateAddress sampleBuses 0x50 = some r ∧ Agrees r (compose sampleBuses 0x50) := by
  have hfits : Fits sampleBuses 0x50 := by
    refine ⟨⟨.inl rfl, .inl rfl, .inl rfl⟩, by decide, ?_⟩
    intro e he
    obtain rfl : ⟨0x40, 0x8000000, 0x1000⟩ = e := Option.some.inj he
    exact ⟨by decide, by decide, fun _ => by decide⟩
  exact ⟨hfits, translateAddress_agrees sampleBuses 0x50 hfits⟩

def topRanges : Property := ⟨24, fun i => if i = 0 then 0xFFFFFFFF else if i = 4 then 1 else 0⟩

/-- The end of the range is 2 ^ 64, which is 0 in 64 bits: an address in it is not found. -/
theorem top_of_space_not_translated :
    fdtwTranslateAddress [⟨2, 2, some topRanges⟩, ⟨2, 2, none⟩] 0xFFFFFFFF00000010 = some ILLEGAL_ADDR ∧
      compose [⟨2, 2, some topRanges⟩, ⟨2, 2, none⟩] 0xFFFFFFFF00000010 = some 0x10 := by
  decide

end TrustedFirmware.Fdt
