import TrustedFirmware.Gpt.TransitionTables

/-! # Building the tables

`gpt_init_pas_l1_tables()` with the functions it calls. `gpt_config` and `gpt_l1_tbl`, which
the source keeps in static variables, are passed and returned. -/
namespace TrustedFirmware.Gpt
open Nibbles WordMemory WordArray Libc
set_option autoImplicit false

/-! ## Regions -/

structure PasRegion where
  basePa : UInt64
  size : UInt64
  attrs : UInt32
  deriving DecidableEq, Repr

def GPT_PAS_ATTR_MAP_TYPE_BLOCK : ℕ := 0
def GPT_PAS_ATTR_MAP_TYPE_GRANULE : ℕ := 1

namespace PasRegion

def base (r : PasRegion) : ℕ := r.basePa.toNat
def len (r : PasRegion) : ℕ := r.size.toNat

/-- `GPT_PAS_ATTR_GPI`. -/
def gpi (r : PasRegion) : ℕ := r.attrs.toNat &&& 0xF

/-- `GPT_PAS_ATTR_MAP_TYPE`. -/
def mapType (r : PasRegion) : ℕ := (r.attrs.toNat >>> 4) &&& 1

/-- `base_pa + size` and `base_pa + size - 1`, as the source computes them in 64 bits. -/
def endPa (r : PasRegion) : ℕ := (r.base + r.len) % 2 ^ 64
def lastPa (r : PasRegion) : ℕ := (r.base + r.len + (2 ^ 64 - 1)) % 2 ^ 64

end PasRegion

/-! ## Granule sizes -/

def gptPLookup : ℕ → ℕ
  | 0 => 12
  | 1 => 16
  | _ => 14

def GPT_PGS_MAX : ℕ := 2

def Config.withPgs (cfg : Config) (pgs : ℕ) : Config :=
  { cfg with
    p := gptPLookup pgs
    p_mem := by unfold gptPLookup; split <;> decide }

/-! ## Validation -/

def checkPasOverlap (base1 size1 base2 size2 : ℕ) : Bool :=
  decide ((base1 + size1) % 2 ^ 64 > base2) && decide ((base2 + size2) % 2 ^ 64 > base1)

/-- `prev` holds the regions before the one in question. -/
def doesPreviousPasExistHere (cfg : Config) (l0Idx : ℕ) (prev : List PasRegion) : Bool :=
  prev.any fun r =>
    checkPasOverlap (gptL0gptszActualSize cfg * l0Idx) (gptL0gptszActualSize cfg) r.base r.len

/-- The loop over the existing level 0 descriptors: `n` of them from `i` have to be unused. -/
def checkL0Unused (cfg : Config) : ℕ → ℕ → GptProg Bool
  | 0, _ => pure true
  | n + 1, i => do
    let d ← Prog.load (cfg.platGptL0Base + 8 * i)
    if gptL0Type d = GPT_L0_TYPE_BLK_DESC ∧ gptL0BlkdGpi d = GPT_GPI_ANY then
      checkL0Unused cfg n (i + 1)
    else pure false

/-- The same loop from the first to the last entry of a region. Its counter is an
`unsigned int`, so a last entry above its range, as a region of size 0 at address 0 has, leaves
the loop no way out but a descriptor in use. -/
def checkL0Range (cfg : Config) (first last : ℕ) : GptProg Bool := do
  let unused ← checkL0Unused cfg (min (last + 1) (2 ^ 32) - first) first
  Prog.assert (!unused || decide (last < 2 ^ 32))
  pure unused

/-- `pas_l1_cnt`: the level 1 tables a region needs beyond those of earlier regions. -/
def pasL1Cnt (cfg : Config) (prev : List PasRegion) (r : PasRegion) : ℕ :=
  let cnt := (gptL0Idx cfg r.lastPa + 2 ^ 64 - gptL0Idx cfg r.base + 1) % 2 ^ 32
  let cnt := if cnt > 1 ∧ doesPreviousPasExistHere cfg (gptL0Idx cfg r.lastPa) prev = true then
    cnt - 1 else cnt
  if doesPreviousPasExistHere cfg (gptL0Idx cfg r.base) prev then (cnt + 2 ^ 32 - 1) % 2 ^ 32 else cnt

/-- The body of the loop of `validate_pas_mappings()`: the level 1 tables to add, or the error. -/
def validatePas (cfg : Config) (prev : List PasRegion) (r : PasRegion) (later : List PasRegion) :
    GptProg (Except Int ℕ) :=
  if ULONG_MAX - r.base < r.len then pure (.error (-EOVERFLOW))
  else if r.endPa > gptPpsActualSize cfg ∨ isGpiValid cfg r.gpi = false then
    pure (.error (-EFAULT))
  else if later.any (fun r' => checkPasOverlap r.base r.len r'.base r'.len) then
    pure (.error (-EFAULT))
  else do
    if ← checkL0Range cfg (gptL0Idx cfg r.base) (gptL0Idx cfg r.lastPa) then
      if r.mapType = GPT_PAS_ATTR_MAP_TYPE_BLOCK then
        if r.base &&& (gptL0gptszActualSize cfg - 1) ≠ 0 ∨
            r.len &&& (gptL0gptszActualSize cfg - 1) ≠ 0 then pure (.error (-EFAULT))
        else pure (.ok 0)
      else if r.mapType = GPT_PAS_ATTR_MAP_TYPE_GRANULE then
        if r.base &&& (gptPgsActualSize cfg - 1) ≠ 0 ∨
            r.len &&& (gptPgsActualSize cfg - 1) ≠ 0 then pure (.error (-EFAULT))
        else pure (.ok (pasL1Cnt cfg prev r))
      else pure (.error (-EINVAL))
    else pure (.error (-EFAULT))

def validateLoop (cfg : Config) : List PasRegion → List PasRegion → ℕ → GptProg (Except Int ℕ)
  | _, [], l1Cnt => pure (.ok l1Cnt)
  | prev, r :: later, l1Cnt => do
    match ← validatePas cfg prev r later with
    | .error e => pure (.error e)
    | .ok n => validateLoop cfg (prev ++ [r]) later ((l1Cnt + n) % 2 ^ 32)

/-- The `unsigned int` count comes back as an `int`. -/
def validatePasMappings (cfg : Config) (regions : List PasRegion) : GptProg Int := do
  Prog.assert (regions.length != 0)
  match ← validateLoop cfg [] regions 0 with
  | .error e => pure e
  | .ok n => pure (if n < 2 ^ 31 then (n : Int) else (n : Int) - 2 ^ 32)

def validateL1Params (cfg : Config) (granuleSupported : Bool) (l1MemBase l1MemSize l1GptCnt : ℕ) :
    Int :=
  if !granuleSupported then -EPERM
  else if l1MemBase &&& (gptL1TableSize cfg - 1) ≠ 0 then -EFAULT
  else if l1GptCnt * gptL1TableSize cfg % 2 ^ 64 / gptL1TableSize cfg ≠ l1GptCnt then -ENOMEM
  else if l1MemSize < l1GptCnt * gptL1TableSize cfg % 2 ^ 64 then -ENOMEM
  else 0

/-! ## Filling a level 1 table -/

/-- `ULONG_MAX << (k << 2)`: the nibbles from `k` on. -/
def maskFrom (k : ℕ) : Desc := BitVec.allOnes 64 <<< (k <<< 2)

/-- The mask for entry number `n` of the range, `last` for its last entry. -/
def granMask (cfg : Config) (first last : ℕ) (n : ℕ) : Desc :=
  let mask := if n = 0 then maskFrom (gptL1GpiIdx cfg first) else BitVec.allOnes 64
  if gptL1Index cfg first + n = gptL1Index cfg last then
    mask &&& (mask >>> ((15 - gptL1GpiIdx cfg last) <<< 2))
  else mask

def fillL1GranDesc (cfg : Config) (l1 first last gpi : ℕ) : GptProg ℕ := do
  Prog.times (fun n => do
    let mask := granMask cfg first last n
    let d ← Prog.load (l1 + 8 * (gptL1Index cfg first + n))
    Prog.assert (d &&& mask == GPT_L1_ANY_DESC &&& mask)
    Prog.store (l1 + 8 * (gptL1Index cfg first + n)) ((d &&& ~~~mask) ||| (buildL1Desc gpi &&& mask)))
    (gptL1Index cfg last + 1 - gptL1Index cfg first)
  pure (last + gptPgsActualSize cfg)

def gptRegionIsCont (length addr size : ℕ) : Bool :=
  decide (length ≥ size) && decide (addr &&& (size - 1) = 0)

structure FillBlock where
  size : ℕ
  contig : ℕ
  qwords : ℕ

/-- `gpt_fill_lookup`, with the counts of the switch. -/
def gptFillLookup (cfg : Config) : List FillBlock :=
  (if cfg.maxBlock = .b512 then [⟨SZ_512M, 3, l1Qwords512mb cfg⟩] else []) ++
  (if cfg.maxBlock = .b512 ∨ cfg.maxBlock = .b32 then [⟨SZ_32M, 2, l1Qwords32mb cfg⟩] else []) ++
  (if cfg.maxBlock ≠ .b0 then [⟨SZ_2M, 1, l1Qwords2mb cfg⟩] else [])

def fillL1ContDesc (cfg : Config) (l1 first length gpi : ℕ) : GptProg ℕ :=
  match (gptFillLookup cfg).find? fun b => gptRegionIsCont length first b.size with
  | some b => do
    fillDesc (l1 + 8 * gptL1Index cfg first) (gptL1GpiContDesc gpi (contTemplate b.contig)) b.qwords
    pure (first + b.size)
  | none => pure first

/-- One turn of the loop of `fill_l1_tbl()`: the next granule to fill. -/
def fillL1Piece (cfg : Config) (l1 first last gpi : ℕ) : GptProg ℕ :=
  let length := last - first + gptPgsActualSize cfg
  if length < SZ_2M then fillL1GranDesc cfg l1 first last gpi
  else if first &&& (SZ_2M - 1) = 0 then fillL1ContDesc cfg l1 first length gpi
  else fillL1GranDesc cfg l1 first (alignDown SZ_2M (first + SZ_2M) - gptPgsActualSize cfg) gpi

/-- Every turn advances `first`, so a fuel of one for each granule is enough. -/
def fillL1Loop (cfg : Config) (l1 last gpi : ℕ) : ℕ → ℕ → GptProg ℕ
  | 0, first => if first ≤ last then Prog.abort else pure first
  | fuel + 1, first =>
    if first ≤ last then do
      let first ← fillL1Piece cfg l1 first last gpi
      fillL1Loop cfg l1 last gpi fuel first
    else pure first

/-- The body of `fill_l1_tbl()`, by RME_GPT_MAX_BLOCK. -/
def fillL1Range (cfg : Config) (l1 first last gpi : ℕ) : GptProg ℕ :=
  if cfg.maxBlock ≠ .b0 then
    fillL1Loop cfg l1 last gpi ((last - first) / gptPgsActualSize cfg + 1) first
  else fillL1GranDesc cfg l1 first last gpi

def fillL1Tbl (cfg : Config) (l1 first last gpi : ℕ) : GptProg Unit := do
  Prog.assert (l1 != 0)
  Prog.assert (decide (first ≤ last))
  Prog.assert (first &&& (gptPgsActualSize cfg - 1) == 0)
  Prog.assert (last &&& (gptPgsActualSize cfg - 1) == 0)
  Prog.assert (gptL0Idx cfg first == gptL0Idx cfg last)
  let next ← fillL1Range cfg l1 first last gpi
  Prog.assert (next == last + gptPgsActualSize cfg)

/-! ## Generating the tables -/

def generateL0BlkDesc (cfg : Config) (r : PasRegion) : GptProg Unit := do
  Prog.assert (cfg.platGptL0Base != 0)
  Prog.times (fun n => Prog.store (cfg.platGptL0Base + 8 * (gptL0Idx cfg r.base + n))
    (gptL0BlkDesc r.gpi)) (gptL0Idx cfg r.endPa - gptL0Idx cfg r.base)

def getL1EndPa (cfg : Config) (curPa endPa : ℕ) : GptProg ℕ := do
  Prog.assert (decide (gptL0Idx cfg curPa ≤ gptL0Idx cfg endPa))
  if gptL0Idx cfg curPa = gptL0Idx cfg endPa then pure endPa
  else pure ((gptL0Idx cfg curPa + 1) <<< cfg.s)

/-- The table's address; `gpt_l1_tbl` moves on by one table. -/
def getNewL1Tbl (cfg : Config) (gptL1Tbl : ℕ) : GptProg ℕ := do
  Prog.times (fun i => Prog.store (gptL1Tbl + 8 * i) GPT_L1_ANY_DESC) (gptL1EntryCount cfg)
  pure gptL1Tbl

/-- The level 1 table of a level 0 entry, made if there is none, and the new `gpt_l1_tbl`. -/
def getL1Tbl (cfg : Config) (l0Idx gptL1Tbl : ℕ) : GptProg (ℕ × ℕ) := do
  let d ← Prog.load (cfg.platGptL0Base + 8 * l0Idx)
  if gptL0Type d = GPT_L0_TYPE_TBL_DESC then
    pure (gptL0TbldAddr d, gptL1Tbl)
  else
    let l1 ← getNewL1Tbl cfg gptL1Tbl
    Prog.store (cfg.platGptL0Base + 8 * l0Idx) (gptL0TblDesc l1)
    pure (l1, gptL1Tbl + gptL1TableSize cfg)

/-- `last_gran_pa`: one granule before the end, in 64 bits. -/
def lastGranPa (cfg : Config) (endPa : ℕ) : ℕ := (endPa + 2 ^ 64 - gptPgsActualSize cfg) % 2 ^ 64

/-- The loop of `generate_l0_tbl_desc()`: `n` level 0 regions, from `l0Idx` and `curPa` on. -/
def tblDescLoop (cfg : Config) (endPa gpi : ℕ) : ℕ → ℕ → ℕ → ℕ → GptProg ℕ
  | 0, _, _, gptL1Tbl => pure gptL1Tbl
  | n + 1, l0Idx, curPa, gptL1Tbl => do
    let (l1, gptL1Tbl) ← getL1Tbl cfg l0Idx gptL1Tbl
    let next ← getL1EndPa cfg curPa endPa
    fillL1Tbl cfg l1 curPa (lastGranPa cfg next) gpi
    tblDescLoop cfg endPa gpi n (l0Idx + 1) next gptL1Tbl

def generateL0TblDesc (cfg : Config) (r : PasRegion) (gptL1Tbl : ℕ) : GptProg ℕ := do
  Prog.assert (cfg.platGptL0Base != 0)
  tblDescLoop cfg r.endPa r.gpi (gptL0Idx cfg r.lastPa + 1 - gptL0Idx cfg r.base)
    (gptL0Idx cfg r.base) r.base gptL1Tbl

def generateTables (cfg : Config) : List PasRegion → ℕ → GptProg ℕ
  | [], gptL1Tbl => pure gptL1Tbl
  | r :: rest, gptL1Tbl => do
    if r.mapType = GPT_PAS_ATTR_MAP_TYPE_BLOCK then
      generateL0BlkDesc cfg r
      generateTables cfg rest gptL1Tbl
    else
      let gptL1Tbl ← generateL0TblDesc cfg r gptL1Tbl
      generateTables cfg rest gptL1Tbl

/-- One call: PGS, the memory for level 1 tables, and the regions. `granuleSupported` is what
`xlat_arch_is_granule_size_supported()` answers. -/
structure PasCall where
  pgs : ℕ
  granuleSupported : Bool
  l1MemBase : ℕ
  l1MemSize : ℕ
  regions : List PasRegion

/-- The return value, the configuration and `gpt_l1_tbl` afterwards. -/
def gptInitPasL1Tables (cfg : Config) (gptL1Tbl : ℕ) (c : PasCall) : GptProg (Int × Config × ℕ) := do
  if c.pgs > GPT_PGS_MAX then pure (-EINVAL, cfg, gptL1Tbl)
  else if cfg.platGptL0Base = 0 then pure (-EPERM, cfg.withPgs c.pgs, gptL1Tbl)
  else
    let l1GptCnt ← validatePasMappings (cfg.withPgs c.pgs) c.regions
    if l1GptCnt < 0 then pure (l1GptCnt, cfg.withPgs c.pgs, gptL1Tbl)
    else
      let ret := if l1GptCnt > 0 then
        validateL1Params (cfg.withPgs c.pgs) c.granuleSupported c.l1MemBase c.l1MemSize l1GptCnt.toNat
        else 0
      if ret ≠ 0 then pure (ret, cfg.withPgs c.pgs, gptL1Tbl)
      else
        let start := if l1GptCnt > 0 then c.l1MemBase else gptL1Tbl
        let gptL1Tbl ← generateTables (cfg.withPgs c.pgs) c.regions start
        pure (0, cfg.withPgs c.pgs, gptL1Tbl)

end TrustedFirmware.Gpt
