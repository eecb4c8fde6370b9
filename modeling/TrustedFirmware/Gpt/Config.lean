import TrustedFirmware.Foundations.Words
import TrustedFirmware.Foundations.WordMemory
import TrustedFirmware.Common

/-! # GPT configuration, indices and descriptors

The configuration of the granule protection tables and the macros of
`lib/gpt_rme/gpt_rme_private.h`: sizes, indices of a physical address, and the
layout of level 0 and level 1 descriptors. -/
namespace TrustedFirmware.Gpt
open Nibbles WordMemory WordArray
set_option autoImplicit false

abbrev Desc := BitVec 64

abbrev GptMem := Mem ℕ Desc

abbrev GptProg := Prog ℕ Desc

/-! ## Configuration -/

inductive MaxBlock where
  | b0
  | b2
  | b32
  | b512
  deriving DecidableEq, Repr

/-- `gpt_config`, GPCCR_EL3.L0GPTSZ, the build options and the CPU's features. `t`, `p` and `s`
take the values of their look-up tables; `bitlockBlock` is RME_GPT_BITLOCK_BLOCK, and
`gptEnabled` says that `gpt_enable()` has extended the policies of `gpi_config`. -/
structure Config where
  t : ℕ
  p : ℕ
  s : ℕ
  platGptL0Base : ℕ
  maxBlock : MaxBlock
  rmm : Bool
  gpc2 : Bool
  gdi : Bool
  gptEnabled : Bool
  bitlockBlock : ℕ
  t_mem : t = 32 ∨ t = 36 ∨ t = 40 ∨ t = 42 ∨ t = 44 ∨ t = 48 ∨ t = 52
  p_mem : p = 12 ∨ p = 14 ∨ p = 16
  s_mem : s = 30 ∨ s = 34 ∨ s = 36 ∨ s = 39
  l0_aligned : platGptL0Base % 4096 = 0
  bitlock_mem : bitlockBlock = 0 ∨ ∃ k ≤ 9, bitlockBlock = 2 ^ k

def SZ_2M : ℕ := 2 ^ 21
def SZ_32M : ℕ := 2 ^ 25
def SZ_512M : ℕ := 2 ^ 29
def ULONG_MAX : ℕ := 2 ^ 64 - 1

def gptPpsActualSize (cfg : Config) : ℕ := 1 <<< cfg.t
def gptPgsActualSize (cfg : Config) : ℕ := 1 <<< cfg.p
def gptL0gptszActualSize (cfg : Config) : ℕ := 1 <<< cfg.s

/-! ## Indices -/

def gptL0Idx (cfg : Config) (pa : ℕ) : ℕ := pa >>> cfg.s
def gptL1IdxShift (cfg : Config) : ℕ := cfg.p + 4
def gptL1IdxWidth (cfg : Config) : ℕ := (cfg.s - 1) - (cfg.p + 3)

def gptL1IndexMask (cfg : Config) : ℕ := 0x7FFFFF >>> (23 - gptL1IdxWidth cfg)

def gptL1Index (cfg : Config) (pa : ℕ) : ℕ := (pa >>> gptL1IdxShift cfg) &&& gptL1IndexMask cfg
def gptL1GpiIdx (cfg : Config) (pa : ℕ) : ℕ := (pa >>> cfg.p) &&& 0xF
def gptL1EntryCount (cfg : Config) : ℕ := gptL1IndexMask cfg + 1
def gptL1TableSize (cfg : Config) : ℕ := gptL1EntryCount cfg <<< 3

def gptL1Cnt2mb (cfg : Config) : ℕ := SZ_2M >>> gptL1IdxShift cfg

/-- `ALIGN_2MB`, `ALIGN_32MB` and `ALIGN_512MB`. -/
def alignDown (size addr : ℕ) : ℕ := addr - addr % size

section Indices
variable (cfg : Config)

theorem gptPpsActualSize_le : gptPpsActualSize cfg ≤ 2 ^ 52 := by
  rw [gptPpsActualSize, Nat.one_shiftLeft]
  apply Nat.pow_le_pow_right (by decide)
  rcases cfg.t_mem with h | h | h | h | h | h | h <;> omega

end Indices

/-! ## Granule protection information -/

@[match_pattern] def GPT_GPI_NO_ACCESS : ℕ := 0x0
@[match_pattern] def GPT_GPI_SA : ℕ := 0x4
@[match_pattern] def GPT_GPI_NSP : ℕ := 0x5
@[match_pattern] def GPT_GPI_SECURE : ℕ := 0x8
@[match_pattern] def GPT_GPI_NS : ℕ := 0x9
@[match_pattern] def GPT_GPI_ROOT : ℕ := 0xA
@[match_pattern] def GPT_GPI_REALM : ℕ := 0xB
@[match_pattern] def GPT_GPI_NSO : ℕ := 0xD
@[match_pattern] def GPT_GPI_ANY : ℕ := 0xF

def isGpiValid (cfg : Config) : ℕ → Bool
  | GPT_GPI_NO_ACCESS | GPT_GPI_SECURE | GPT_GPI_NS | GPT_GPI_ROOT => true
  | GPT_GPI_REALM => cfg.rmm
  | GPT_GPI_ANY => true
  | GPT_GPI_NSO => cfg.gpc2
  | GPT_GPI_SA | GPT_GPI_NSP => cfg.gdi
  | _ => false

/-! ## Descriptors -/

def GPT_L0_TYPE_TBL_DESC : ℕ := 3
def GPT_L0_TYPE_BLK_DESC : ℕ := 1
def GPT_L1_TYPE_CONT_DESC : ℕ := 1

/-- `GPT_L0_TYPE`: the type is nibble 0. -/
def gptL0Type (d : Desc) : ℕ := nib d 0

def gptL0BlkdGpi (d : Desc) : ℕ := nib d 1

/-- `GPT_L0_TBL_DESC_L1ADDR_MASK << GPT_L0_TBL_DESC_L1ADDR_SHIFT`. -/
def l1AddrMask : Desc := 0xFFFFFFFFFF#64 <<< 12

def gptL0TbldAddr (d : Desc) : ℕ := (d &&& l1AddrMask).toNat

def gptL0BlkDesc (gpi : ℕ) : Desc := 1#64 ||| ((BitVec.ofNat 64 gpi &&& 0xF#64) <<< 4)

def gptL0TblDesc (pa : ℕ) : Desc := 3#64 ||| (BitVec.ofNat 64 pa &&& l1AddrMask)

def isCont (d : Desc) : Bool := nib d 0 == GPT_L1_TYPE_CONT_DESC

def gptL1ContGpi (d : Desc) : ℕ := nib d 1

def gptL1ContContig (d : Desc) : ℕ := (d >>> 8).toNat % 4

/-- The templates `GPT_L1_CONT_DESC_2MB`, `_32MB` and `_512MB`: 1 to 3 in the Contig field. -/
def contTemplate (contig : ℕ) : Desc := 1#64 ||| (BitVec.ofNat 64 contig <<< 8)

def gptL1GpiContDesc (gpi : ℕ) (template : Desc) : Desc := template ||| (BitVec.ofNat 64 gpi <<< 4)

/-- `GPT_L1_CONT_DESC`: from a Granules descriptor and the size. -/
def gptL1ContDesc (d : Desc) (contig : ℕ) : Desc := contTemplate contig ||| ((d &&& 0xF#64) <<< 4)

/-- `GPT_BUILD_L1_DESC`, and `build_l1_desc`. -/
def buildL1Desc (gpi : ℕ) : Desc :=
  let d := BitVec.ofNat 64 gpi ||| (BitVec.ofNat 64 gpi <<< 4)
  let d := d ||| (d <<< 8)
  let d := d ||| (d <<< 16)
  d ||| (d <<< 32)

def GPT_L1_ANY_DESC : Desc := buildL1Desc GPT_GPI_ANY

/-- `GPI_TO_DESC`: the descriptors of `gpi_config`. -/
def gpiToDesc : ℕ → Desc
  | GPT_GPI_SA => buildL1Desc GPT_GPI_SA
  | GPT_GPI_NSP => buildL1Desc GPT_GPI_NSP
  | GPT_GPI_SECURE => buildL1Desc GPT_GPI_SECURE
  | GPT_GPI_NS => buildL1Desc GPT_GPI_NS
  | GPT_GPI_ROOT => buildL1Desc GPT_GPI_ROOT
  | GPT_GPI_REALM => buildL1Desc GPT_GPI_REALM
  | GPT_GPI_NSO => buildL1Desc GPT_GPI_NSO
  | _ => 0

/-- The GPI an entry gives to granule `k` of its sixteen, as `read_gpi()` decodes it. -/
def granuleGpi (d : Desc) (k : ℕ) : ℕ := if isCont d then gptL1ContGpi d else nib d k

end TrustedFirmware.Gpt
