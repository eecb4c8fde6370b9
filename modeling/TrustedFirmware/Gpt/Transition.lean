import TrustedFirmware.Gpt.Config

/-! # Granule transitions

`gpt_transition_pas()` and the functions it calls, as programs over the memory that
holds the tables. Cache and TLB maintenance has no effect on the tables and is left
out, as are the locks themselves: `GpiInfo` carries which bitlock a transition
takes. -/
namespace TrustedFirmware.Gpt
open Nibbles WordMemory WordArray Libc
set_option autoImplicit false

/-- `gpi_info_t`. `lock` is the index into `gpt_bitlock`. -/
structure GpiInfo where
  gptL1Desc : Desc
  gptL1Addr : ℕ
  idx : ℕ
  gpiShift : ℕ
  gpi : ℕ
  lock : ℕ
  mask : ℕ
  deriving DecidableEq, Repr

/-! ## Bitlocks -/

def LOCK_SIZE : ℕ := 1
def LOCK_BITS : ℕ := LOCK_SIZE * 8

def bitlockOf (cfg : Config) (base : ℕ) : ℕ × ℕ :=
  let blockIdx := base / (cfg.bitlockBlock * SZ_512M) % 2 ^ 32
  (blockIdx / LOCK_BITS, 1 <<< (blockIdx &&& (LOCK_BITS - 1)))

/-! ## Reading and writing a GPI -/

def getGpiParams (cfg : Config) (base : ℕ) : GptProg (Except Int GpiInfo) := do
  let gptL0Desc ← Prog.load (cfg.platGptL0Base + 8 * gptL0Idx cfg base)
  if gptL0Type gptL0Desc ≠ GPT_L0_TYPE_TBL_DESC then
    pure (.error (-EINVAL))
  else
    pure (.ok {
      gptL1Desc := 0
      gptL1Addr := gptL0TbldAddr gptL0Desc
      idx := gptL1Index cfg base
      gpiShift := gptL1GpiIdx cfg base <<< 2
      gpi := 0
      lock := (bitlockOf cfg base).1
      mask := (bitlockOf cfg base).2 })

def readGpi (info : GpiInfo) : GptProg GpiInfo := do
  let d ← Prog.load (info.gptL1Addr + 8 * info.idx)
  if isCont d then
    pure { info with gptL1Desc := d, gpi := gptL1ContGpi d }
  else
    pure { info with gptL1Desc := d, gpi := (d >>> info.gpiShift).toNat % 16 }

def writeGpt (info : GpiInfo) (targetPas : ℕ) : GptProg GpiInfo := do
  let d := (info.gptL1Desc &&& ~~~(0xF#64 <<< info.gpiShift)) |||
    (BitVec.ofNat 64 targetPas <<< info.gpiShift)
  Prog.store (info.gptL1Addr + 8 * info.idx) d
  pure { info with gptL1Desc := d }

/-! ## Shattering -/

def l1Qwords2mb (cfg : Config) : ℕ := gptL1Cnt2mb cfg / 2
def l1Qwords32mb (cfg : Config) : ℕ := l1Qwords2mb cfg * 16
def l1Qwords512mb (cfg : Config) : ℕ := l1Qwords32mb cfg * 16
def l1Bytes2mb (cfg : Config) : ℕ := gptL1Cnt2mb cfg * 8
def l1Bytes32mb (cfg : Config) : ℕ := l1Bytes2mb cfg * 16

/-- Each 128-bit store writes the descriptor twice. -/
def fillDesc (l1 : ℕ) (l1Desc : Desc) (cnt : ℕ) : GptProg Unit :=
  Prog.times (fun i => do
    Prog.store (l1 + 16 * i) l1Desc
    Prog.store (l1 + 16 * i + 8) l1Desc) cnt

def shatter2mb (cfg : Config) (base : ℕ) (info : GpiInfo) (l1Desc : Desc) : GptProg Unit :=
  let idx := gptL1Index cfg (alignDown SZ_2M base)
  fillDesc (info.gptL1Addr + 8 * idx) l1Desc (l1Qwords2mb cfg)

def shatter32mb (cfg : Config) (base : ℕ) (info : GpiInfo) (l1Desc : Desc) : GptProg Unit :=
  let l1Gran := info.gptL1Addr + 8 * gptL1Index cfg (alignDown SZ_2M base)
  let l1ContDesc := gptL1ContDesc l1Desc 1
  let l1 := info.gptL1Addr + 8 * gptL1Index cfg (alignDown SZ_32M base)
  Prog.times (fun i =>
    let l1 := l1 + i * l1Bytes2mb cfg
    fillDesc l1 (if l1 = l1Gran then l1Desc else l1ContDesc) (l1Qwords2mb cfg)) 16

def shatter512mb (cfg : Config) (base : ℕ) (info : GpiInfo) (l1Desc : Desc) : GptProg Unit :=
  let l1Block32mb := info.gptL1Addr + 8 * gptL1Index cfg (alignDown SZ_32M base)
  let l1ContDesc := gptL1ContDesc l1Desc 2
  let l1 := info.gptL1Addr + 8 * gptL1Index cfg (alignDown SZ_512M base)
  Prog.times (fun i =>
    let l1 := l1 + i * l1Bytes32mb cfg
    if l1 = l1Block32mb then shatter32mb cfg base info l1Desc
    else fillDesc l1 l1ContDesc (l1Qwords32mb cfg)) 16

/-- `gpt_shatter_lookup`, indexed by the Contig field less one. A reserved Contig of zero indexes
outside the table. -/
def gptShatterLookup (cfg : Config) (base : ℕ) (info : GpiInfo) (l1Desc : Desc) : ℕ → GptProg Unit
  | 1 => shatter2mb cfg base info l1Desc
  | 2 => shatter32mb cfg base info l1Desc
  | 3 => shatter512mb cfg base info l1Desc
  | _ => Prog.abort

def shatterBlock (cfg : Config) (base : ℕ) (info : GpiInfo) (l1Desc : Desc) : GptProg GpiInfo := do
  gptShatterLookup cfg base info l1Desc (gptL1ContContig info.gptL1Desc)
  pure { info with gptL1Desc := l1Desc }

/-! ## Fusing -/

/-- The loop of the `check_fuse` functions: `cnt` entries, downwards from `idx`. -/
def checkEntries (l1Addr : ℕ) (desc : Desc) (stride : ℕ) : ℕ → ℕ → GptProg Bool
  | 0, _ => pure true
  | cnt + 1, idx => do
    let d ← Prog.load (l1Addr + 8 * idx)
    if d ≠ desc then pure false else checkEntries l1Addr desc stride cnt (idx - stride)

def checkFuse2mb (cfg : Config) (base : ℕ) (info : GpiInfo) (l1Desc : Desc) : GptProg Bool :=
  let idx := gptL1Index cfg (alignDown SZ_2M base) + gptL1Cnt2mb cfg - 1
  checkEntries info.gptL1Addr l1Desc 1 (gptL1Cnt2mb cfg) idx

def fuse2mb (cfg : Config) (base : ℕ) (info : GpiInfo) (l1Desc : Desc) : GptProg Unit :=
  fillDesc (info.gptL1Addr + 8 * gptL1Index cfg (alignDown SZ_2M base)) (gptL1ContDesc l1Desc 1)
    (l1Qwords2mb cfg)

def checkFuse32mb (cfg : Config) (base : ℕ) (info : GpiInfo) (l1Desc : Desc) : GptProg Bool := do
  let idx := gptL1Index cfg (alignDown SZ_32M base) + 15 * gptL1Cnt2mb cfg
  let l1ContDesc := gptL1ContDesc l1Desc 1
  Prog.store (info.gptL1Addr + 8 * gptL1Index cfg (alignDown SZ_2M base)) l1ContDesc
  checkEntries info.gptL1Addr l1ContDesc (gptL1Cnt2mb cfg) 16 idx

def fuse32mb (cfg : Config) (base : ℕ) (info : GpiInfo) (l1Desc : Desc) : GptProg Unit :=
  fillDesc (info.gptL1Addr + 8 * gptL1Index cfg (alignDown SZ_32M base)) (gptL1ContDesc l1Desc 2)
    (l1Qwords32mb cfg)

def checkFuse512mb (cfg : Config) (base : ℕ) (info : GpiInfo) (l1Desc : Desc) : GptProg Bool := do
  let idx := gptL1Index cfg (alignDown SZ_512M base) + 15 * 16 * gptL1Cnt2mb cfg
  let l1ContDesc := gptL1ContDesc l1Desc 2
  Prog.store (info.gptL1Addr + 8 * gptL1Index cfg (alignDown SZ_32M base)) l1ContDesc
  checkEntries info.gptL1Addr l1ContDesc (16 * gptL1Cnt2mb cfg) 16 idx

def fuse512mb (cfg : Config) (base : ℕ) (info : GpiInfo) (l1Desc : Desc) : GptProg Unit :=
  fillDesc (info.gptL1Addr + 8 * gptL1Index cfg (alignDown SZ_512M base)) (gptL1ContDesc l1Desc 3)
    (l1Qwords512mb cfg)

def fuseBlock (cfg : Config) (base : ℕ) (info : GpiInfo) (l1Desc : Desc) : GptProg Unit := do
  if ← checkFuse2mb cfg base info l1Desc then
    if cfg.maxBlock = .b2 then
      fuse2mb cfg base info l1Desc
    else if ← checkFuse32mb cfg base info l1Desc then
      if cfg.maxBlock = .b32 then
        fuse32mb cfg base info l1Desc
      else if ← checkFuse512mb cfg base info l1Desc then
        fuse512mb cfg base info l1Desc
      else
        fuse32mb cfg base info l1Desc
    else
      fuse2mb cfg base info l1Desc
  else
    pure ()

/-! ## Policies -/

def SMC_FROM_REALM : ℕ := 0x21

def swapPolicy (a b gpi : ℕ) : ℕ :=
  if gpi = a then 1 <<< b else if gpi = b then 1 <<< a else 0

/-- `gpi_config[gpi].policy[0]`. -/
def securePolicy : ℕ → ℕ := swapPolicy GPT_GPI_SECURE GPT_GPI_NS

/-- `gpi_config[gpi].policy[2]`. -/
def realmPolicy : ℕ → ℕ := swapPolicy GPT_GPI_NS GPT_GPI_REALM

/-- The bits `gpt_enable()` adds to `policy[SMC_FROM_NON_SECURE]` with FEAT_RME_GPC2. -/
def gpc2Policy : ℕ → ℕ := swapPolicy GPT_GPI_NS GPT_GPI_NSO

def gdiPolicy : ℕ → ℕ
  | GPT_GPI_NS | GPT_GPI_NSO => (1 <<< GPT_GPI_NSP) ||| (1 <<< GPT_GPI_SA)
  | GPT_GPI_NSP | GPT_GPI_SA => (1 <<< GPT_GPI_NS) ||| (1 <<< GPT_GPI_NSO)
  | _ => 0

def gptEnablePolicy (cfg : Config) (gpi : ℕ) : ℕ :=
  (if cfg.gdi then gdiPolicy gpi else 0) ||| (if cfg.gpc2 then gpc2Policy gpi else 0)

/-- `gpi_config[gpi].policy[caller]`. -/
def gpiPolicy (cfg : Config) (gpi : ℕ) : ℕ → ℕ
  | 0 => securePolicy gpi
  | 1 => if cfg.gptEnabled then gptEnablePolicy cfg gpi else 0
  | 2 => realmPolicy gpi
  | _ => 0

def isGpiTransitionPermitted (cfg : Config) (caller currentGpi targetGpi : ℕ) : GptProg Bool := do
  let caller := if caller = SMC_FROM_REALM then 2 else caller
  Prog.assert (decide (caller ≤ 2))
  Prog.assert (decide (currentGpi ≤ GPT_GPI_ANY))
  pure ((gpiPolicy cfg currentGpi caller).testBit targetGpi)

/-! ## The transition -/

def gptWriteEntry (targetGpi : ℕ) (info : GpiInfo) : GptProg GpiInfo := writeGpt info targetGpi

def gptDelegate (targetGpi : ℕ) (info : GpiInfo) : GptProg GpiInfo := gptWriteEntry targetGpi info

/-- `gpt_undelegate()`: the granule loses all access before it gets its new GPI. -/
def gptUndelegate (targetGpi : ℕ) (info : GpiInfo) : GptProg GpiInfo := do
  let info ← writeGpt info GPT_GPI_NO_ACCESS
  gptWriteEntry targetGpi info

def writeTarget (targetGpi : ℕ) (info : GpiInfo) : GptProg GpiInfo :=
  if (targetGpi = GPT_GPI_NS ∧ info.gpi = GPT_GPI_NSO) ∨
      (targetGpi = GPT_GPI_NSO ∧ info.gpi = GPT_GPI_NS) then
    gptWriteEntry targetGpi info
  else if targetGpi = GPT_GPI_NS ∨ targetGpi = GPT_GPI_NSO then
    gptUndelegate targetGpi info
  else
    gptDelegate targetGpi info

/-- A Contiguous descriptor is shattered first. -/
def shatterStep (cfg : Config) (base : ℕ) (info : GpiInfo) : GptProg GpiInfo :=
  if cfg.maxBlock ≠ .b0 ∧ isCont info.gptL1Desc = true then
    shatterBlock cfg base info (gpiToDesc info.gpi)
  else pure info

def fuseStep (cfg : Config) (base targetGpi : ℕ) (info : GpiInfo) : GptProg Unit :=
  if cfg.maxBlock ≠ .b0 ∧ info.gptL1Desc = gpiToDesc targetGpi then
    fuseBlock cfg base info (gpiToDesc targetGpi)
  else pure ()

def retypeGranule (cfg : Config) (base targetGpi : ℕ) (info : GpiInfo) : GptProg Unit := do
  let info ← shatterStep cfg base info
  let info ← writeTarget targetGpi info
  fuseStep cfg base targetGpi info

/-- What `gpt_transition_pas()` does with the lock held. -/
def transitionLocked (cfg : Config) (base targetGpi srcSecState : ℕ) (info : GpiInfo) :
    GptProg Int := do
  let info ← readGpi info
  if ← isGpiTransitionPermitted cfg srcSecState info.gpi targetGpi then
    retypeGranule cfg base targetGpi info
    pure 0
  else
    pure (-EPERM)

def transitionChecks (cfg : Config) (base targetGpi : ℕ) : Int :=
  let size := gptPgsActualSize cfg
  if !isGpiValid cfg targetGpi then -EPERM
  else if ULONG_MAX - base < size then -EINVAL
  else if base &&& (size - 1) ≠ 0 ∨ size &&& (size - 1) ≠ 0 ∨ size = 0 ∨
      base + size ≥ gptPpsActualSize cfg then -EINVAL
  else 0

/-- The result is the return value and what `*granule_count` holds afterwards. -/
def gptTransitionPas (cfg : Config) (base granuleCount : UInt64) (targetGpi srcSecState : UInt8) :
    GptProg (Int × UInt64) := do
  Prog.assert (cfg.platGptL0Base != 0)
  if granuleCount = 0 then
    pure (-EINVAL, granuleCount)
  else if transitionChecks cfg base.toNat targetGpi.toNat ≠ 0 then
    pure (transitionChecks cfg base.toNat targetGpi.toNat, 0)
  else
    match ← getGpiParams cfg base.toNat with
    | .error res => pure (res, 0)
    | .ok info =>
      let res ← transitionLocked cfg base.toNat targetGpi.toNat srcSecState.toNat info
      pure (res, if res = 0 then 1 else 0)

end TrustedFirmware.Gpt
