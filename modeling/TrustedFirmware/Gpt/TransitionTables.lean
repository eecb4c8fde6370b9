import TrustedFirmware.Gpt.Transition

/-! # Transitions on the whole set of tables

The level 0 table and the level 1 tables its descriptors point to, each in memory of
its own. -/
namespace TrustedFirmware.Gpt
open Nibbles WordMemory WordArray Libc
set_option autoImplicit false

/-! ## Reading and permission -/

/-- The fields of `gpi_info` that locate the granule. -/
structure Locates (cfg : Config) (base : ℕ) (info : GpiInfo) : Prop where
  idx : info.idx = gptL1Index cfg base
  shift : info.gpiShift = 4 * gptL1GpiIdx cfg base

theorem run_readGpi {cfg : Config} {base : ℕ} {info : GpiInfo} (hloc : Locates cfg base info)
    (m : GptMem) :
    Prog.run (readGpi info) m = some ({ info with
      gptL1Desc := entries m info.gptL1Addr (gptL1Index cfg base)
      gpi := granuleGpi (entries m info.gptL1Addr (gptL1Index cfg base)) (gptL1GpiIdx cfg base) },
      m) := by
  rw [readGpi, Prog.run_bind, Prog.run_load, Option.bind_some, hloc.idx, hloc.shift]
  unfold granuleGpi entries
  cases hc : isCont (m (info.gptL1Addr + 8 * gptL1Index cfg base)) <;> rfl

/-- The callers `is_gpi_transition_permitted()` accepts. -/
def KnownCaller (caller : ℕ) : Prop := caller ≤ 2 ∨ caller = SMC_FROM_REALM

instance (caller : ℕ) : Decidable (KnownCaller caller) :=
  inferInstanceAs (Decidable (caller ≤ 2 ∨ caller = SMC_FROM_REALM))

theorem run_isGpiTransitionPermitted (cfg : Config) {caller gpi : ℕ} (hg : gpi < 16) (t : ℕ)
    (m : GptMem) :
    Prog.run (isGpiTransitionPermitted cfg caller gpi t) m =
      if KnownCaller caller then
        some ((gpiPolicy cfg gpi (if caller = SMC_FROM_REALM then 2 else caller)).testBit t, m)
      else none := by
  have hany : decide (gpi ≤ GPT_GPI_ANY) = true := decide_eq_true (Nat.le_of_lt_succ hg)
  unfold isGpiTransitionPermitted KnownCaller
  rw [hany]
  by_cases hR : caller = SMC_FROM_REALM
  · simp [hR]
  · by_cases h2 : caller ≤ 2
    · simp [hR, h2]
    · simp [hR, h2]

/-! ## The tables -/

def l0Desc (cfg : Config) (m : GptMem) (i : ℕ) : Desc := entries m cfg.platGptL0Base i

def HasTable (cfg : Config) (m : GptMem) (i : ℕ) : Prop :=
  gptL0Type (l0Desc cfg m i) = GPT_L0_TYPE_TBL_DESC

instance (cfg : Config) (m : GptMem) (i : ℕ) : Decidable (HasTable cfg m i) :=
  inferInstanceAs (Decidable (_ = _))

def l1Addr (cfg : Config) (m : GptMem) (i : ℕ) : ℕ := gptL0TbldAddr (l0Desc cfg m i)

/-! ## The GPI of a granule -/

/-- What `get_gpi_params()` and `read_gpi()` find for an address. -/
def readGranule (cfg : Config) (pa : ℕ) : GptProg (Option ℕ) := do
  match ← getGpiParams cfg pa with
  | .error _ => pure none
  | .ok info =>
    let info ← readGpi info
    pure (some info.gpi)

def gpiOf (cfg : Config) (m : GptMem) (pa : ℕ) : Option ℕ :=
  (Prog.run (readGranule cfg pa) m).bind Prod.fst

/-- The record `get_gpi_params()` fills in. -/
def paramsOf (cfg : Config) (m : GptMem) (base : ℕ) : GpiInfo where
  gptL1Desc := 0
  gptL1Addr := l1Addr cfg m (gptL0Idx cfg base)
  idx := gptL1Index cfg base
  gpiShift := gptL1GpiIdx cfg base <<< 2
  gpi := 0
  lock := (bitlockOf cfg base).1
  mask := (bitlockOf cfg base).2

section Lookup
variable (cfg : Config) (m : GptMem) (base : ℕ)

theorem run_getGpiParams : Prog.run (getGpiParams cfg base) m =
    some (if HasTable cfg m (gptL0Idx cfg base) then .ok (paramsOf cfg m base)
      else .error (-EINVAL), m) := by
  simp only [getGpiParams, Prog.run_bind, Prog.run_load, Option.bind_some]
  by_cases h : gptL0Type (m (cfg.platGptL0Base + 8 * gptL0Idx cfg base)) = GPT_L0_TYPE_TBL_DESC
  · rw [if_neg (not_not.mpr h)]
    exact congrArg (fun r => some (r, m)) (if_pos h).symm
  · rw [if_pos h]
    exact congrArg (fun r => some (r, m)) (if_neg h).symm

theorem locates_paramsOf : Locates cfg base (paramsOf cfg m base) := by
  refine ⟨rfl, ?_⟩
  change gptL1GpiIdx cfg base <<< 2 = _
  rw [Nat.shiftLeft_eq]
  omega

theorem gpiOf_eq : gpiOf cfg m base =
    if HasTable cfg m (gptL0Idx cfg base) then
      some (granuleGpi (entries m (l1Addr cfg m (gptL0Idx cfg base)) (gptL1Index cfg base))
        (gptL1GpiIdx cfg base))
    else none := by
  rw [gpiOf, readGranule, Prog.run_bind, run_getGpiParams, Option.bind_some]
  by_cases h : HasTable cfg m (gptL0Idx cfg base)
  · rw [if_pos h, if_pos h]
    change (Prog.run (readGpi (paramsOf cfg m base) >>= fun info => pure (some info.gpi)) m).bind
      Prod.fst = _
    rw [Prog.run_bind, run_readGpi (locates_paramsOf cfg m base)]
    rfl
  · rw [if_neg h, if_neg h]
    rfl

end Lookup

/-! ## A small set of tables -/

def sampleConfig (maxBlock : MaxBlock) : Config where
  t := 32
  p := 12
  s := 30
  platGptL0Base := 0x1000
  maxBlock := maxBlock
  rmm := true
  gpc2 := false
  gdi := false
  gptEnabled := true
  bitlockBlock := 1
  t_mem := by decide
  p_mem := by decide
  s_mem := by decide
  l0_aligned := by decide
  bitlock_mem := Or.inr ⟨0, by decide, rfl⟩

/-- The first region has a level 1 table filled with `d`, the others are blocks. -/
def sampleTables (d : Desc) : GptMem := fun x =>
  if 0x100000 ≤ x then d
  else if x = 0x1000 then gptL0TblDesc 0x100000
  else gptL0BlkDesc GPT_GPI_ANY

end TrustedFirmware.Gpt
