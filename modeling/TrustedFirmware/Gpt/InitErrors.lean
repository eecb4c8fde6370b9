import TrustedFirmware.Gpt.InitCount

/-! # Calls that return an error

`gpt_init_pas_l1_tables()` stores the granule size as soon as it is in range, before
the level 0 base, the regions and the level 1 memory are checked. None of these
checks writes to the tables, and none takes the granule size back. -/
namespace TrustedFirmware.Gpt
open Nibbles WordMemory WordArray Libc
set_option autoImplicit false

/-- `gpt_config.pgs` and `gpt_config.p` as stored; they are 0 before the first call, when `Config`
has no `p` to offer. -/
structure StoredPgs where
  pgs : ℕ
  p : ℕ
  deriving DecidableEq, Repr

def StoredPgs.of (pgs : ℕ) : StoredPgs := ⟨pgs, gptPLookup pgs⟩

def gptInitPasL1TablesStored (cfg : Config) (stored : StoredPgs) (gptL1Tbl : ℕ) (c : PasCall) :
    GptProg (Int × StoredPgs) := do
  let (ret, cfg', _) ← gptInitPasL1Tables cfg gptL1Tbl c
  pure (ret, if c.pgs > GPT_PGS_MAX then stored else ⟨c.pgs, cfg'.p⟩)

section Errors
variable {cfg cfg' : Config} {m m' : GptMem} {c : PasCall} {tbl tbl' : ℕ} {ret : Int}

theorem gptInitPasL1Tables_cases
    (h : Prog.run (gptInitPasL1Tables cfg tbl c) m = some ((ret, cfg', tbl'), m')) :
    (c.pgs > GPT_PGS_MAX ∧ cfg' = cfg ∧ m' = m) ∨
    (¬ c.pgs > GPT_PGS_MAX ∧ cfg' = cfg.withPgs c.pgs ∧ (m' = m ∨ ret = 0)) := by
  unfold gptInitPasL1Tables at h
  split at h
  · next hp =>
    cases h
    exact Or.inl ⟨hp, rfl, rfl⟩
  next hp =>
  refine Or.inr ⟨hp, ?_⟩
  split at h
  · cases h
    exact ⟨rfl, Or.inl rfl⟩
  rw [Prog.run_bind] at h
  cases hv : Prog.run (validatePasMappings (cfg.withPgs c.pgs) c.regions) m with
  | none =>
    rw [hv] at h
    cases h
  | some out =>
    obtain ⟨x, m1⟩ := out
    obtain rfl := validatePasMappings_frame hv
    rw [hv, Option.bind_some] at h
    dsimp only at h
    generalize (if x > 0 then validateL1Params _ _ _ _ _ else 0) = checked at h
    generalize (if x > 0 then c.l1MemBase else tbl) = start at h
    split at h
    · cases h
      exact ⟨rfl, Or.inl rfl⟩
    split at h
    · cases h
      exact ⟨rfl, Or.inl rfl⟩
    rw [Prog.run_bind] at h
    cases hg : Prog.run (generateTables (cfg.withPgs c.pgs) c.regions start) m1 with
    | none =>
      rw [hg] at h
      cases h
    | some out =>
      rw [hg] at h
      cases h
      exact ⟨rfl, Or.inr rfl⟩

end Errors

/-- A call that returns an error leaves the tables alone, and the stored granule size exactly when
it was out of range or the same as before. -/
theorem init_error_frame_iff (cfg : Config) (stored : StoredPgs) (tbl : ℕ) (c : PasCall)
    (m m' : GptMem) (ret : Int) (stored' : StoredPgs)
    (h : Prog.run (gptInitPasL1TablesStored cfg stored tbl c) m = some ((ret, stored'), m'))
    (hret : ret ≠ 0) :
    m' = m ∧ (stored' = stored ↔ c.pgs > GPT_PGS_MAX ∨ stored = StoredPgs.of c.pgs) := by
  rw [gptInitPasL1TablesStored, Prog.run_bind] at h
  cases hr : Prog.run (gptInitPasL1Tables cfg tbl c) m with
  | none =>
    rw [hr] at h
    cases h
  | some out =>
    obtain ⟨⟨r, cfg', tbl'⟩, m1⟩ := out
    rw [hr] at h
    cases h
    obtain ⟨hp, -, hm⟩ | ⟨hp, rfl, hm⟩ := gptInitPasL1Tables_cases hr
    · rw [if_pos hp]
      exact ⟨hm, fun _ => Or.inl hp, fun _ => rfl⟩
    · rw [if_neg hp, or_iff_right hp]
      exact ⟨hm.resolve_right hret, eq_comm⟩

def wrappedCall (pgs : ℕ) : PasCall where
  pgs := pgs
  granuleSupported := true
  l1MemBase := 0
  l1MemSize := 0
  regions := [⟨0xFFFFFFFFFFFFF000, 0x2000, 0x19⟩]

/-- The first granule is Non-secure, the others are Realm. -/
def mixedDesc : Desc := 0xBBBBBBBBBBBBBBB9#64

theorem init_error_frame_iff_same_pgs :
    StoredPgs.of 0 = ⟨0, 12⟩ ∧
    (Prog.run (gptInitPasL1TablesStored (sampleConfig .b0) ⟨0, 12⟩ 0 (wrappedCall 0))
      (sampleTables mixedDesc) = some ((-EOVERFLOW, ⟨0, 12⟩), sampleTables mixedDesc)) ∧
    ((⟨0, 12⟩ : StoredPgs) = ⟨0, 12⟩ ↔
      (wrappedCall 0).pgs > GPT_PGS_MAX ∨ (⟨0, 12⟩ : StoredPgs) = StoredPgs.of (wrappedCall 0).pgs) :=
  ⟨rfl, rfl, (init_error_frame_iff (sampleConfig .b0) ⟨0, 12⟩ 0 (wrappedCall 0)
    (sampleTables mixedDesc) (sampleTables mixedDesc) (-EOVERFLOW) ⟨0, 12⟩ rfl (by decide)).2⟩

/-- The table walk: a level 0 block descriptor, or a level 0 table descriptor and the
Contiguous or Granules descriptor it leads to. -/
def gptLookup (cfg : Config) (m : GptMem) (pa : ℕ) : Option ℕ :=
  let d := m (cfg.platGptL0Base + 8 * gptL0Idx cfg pa)
  if gptL0Type d = GPT_L0_TYPE_TBL_DESC then
    some (granuleGpi (m (gptL0TbldAddr d + 8 * gptL1Index cfg pa)) (gptL1GpiIdx cfg pa))
  else if gptL0Type d = GPT_L0_TYPE_BLK_DESC then some (gptL0BlkdGpi d)
  else none

/-- Tables built for 4KB granules: a call refused for its regions turns the granule size to 64KB,
and the same tables give another GPI for an address. -/
theorem refused_call_rereads :
    Prog.run (gptInitPasL1TablesStored (sampleConfig .b0) ⟨0, 12⟩ 0 (wrappedCall 1))
      (sampleTables mixedDesc) = some ((-EOVERFLOW, ⟨1, 16⟩), sampleTables mixedDesc) ∧
    gptLookup (sampleConfig .b0) (sampleTables mixedDesc) 0x1000 = some GPT_GPI_REALM ∧
    gptLookup ((sampleConfig .b0).withPgs 1) (sampleTables mixedDesc) 0x1000 = some GPT_GPI_NS :=
  ⟨rfl, by decide, by decide⟩

end TrustedFirmware.Gpt
