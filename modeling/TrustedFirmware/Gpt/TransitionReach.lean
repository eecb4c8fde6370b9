import TrustedFirmware.Gpt.Init

/-! # Which granules a transition reaches

`gpt_transition_pas()` on one granule, for tables of any content: the checks of the
range and the reserved Contig field of a Contiguous descriptor are all that keeps a
permitted transition from succeeding. -/
namespace TrustedFirmware.Gpt
open Nibbles WordMemory WordArray Libc
set_option autoImplicit false

/-! ## Steps that always return -/

section Totals
variable (cfg : Config) (base : ℕ) (info : GpiInfo) (l1Desc : Desc)

theorem total_fillDesc (l1 : ℕ) (d : Desc) (cnt : ℕ) : Prog.Total (fillDesc l1 d cnt) :=
  Prog.total_times (fun _ => (Prog.total_store _ _).bind fun _ => Prog.total_store _ _) cnt

theorem total_shatter32mb : Prog.Total (shatter32mb cfg base info l1Desc) :=
  Prog.total_times (fun _ => total_fillDesc _ _ _) 16

theorem total_shatter512mb : Prog.Total (shatter512mb cfg base info l1Desc) :=
  Prog.total_times
    (fun _ => Prog.total_ite (total_shatter32mb cfg base info l1Desc) (total_fillDesc _ _ _)) 16

theorem shatterBlock_returns_iff (m : GptMem) :
    (∃ out, Prog.run (shatterBlock cfg base info l1Desc) m = some out) ↔
      gptL1ContContig info.gptL1Desc ≠ 0 := by
  have hlt : gptL1ContContig info.gptL1Desc < 4 := Nat.mod_lt _ (by decide)
  unfold shatterBlock
  rw [Prog.run_bind]
  generalize gptL1ContContig info.gptL1Desc = contig at hlt ⊢
  constructor
  · rintro ⟨out, hout⟩ rfl
    cases hout
  · intro h0
    have htotal : Prog.Total (gptShatterLookup cfg base info l1Desc contig) := by
      obtain rfl | rfl | rfl : contig = 1 ∨ contig = 2 ∨ contig = 3 := by omega
      · exact total_fillDesc _ _ _
      · exact total_shatter32mb cfg base info l1Desc
      · exact total_shatter512mb cfg base info l1Desc
    obtain ⟨⟨_, m1⟩, h1⟩ := htotal m
    rw [h1]
    exact ⟨_, rfl⟩

theorem total_checkEntries (l1Addr : ℕ) (d : Desc) (stride cnt idx : ℕ) :
    Prog.Total (checkEntries l1Addr d stride cnt idx) := by
  induction cnt generalizing idx with
  | zero => exact Prog.total_pure true
  | succ cnt ih =>
    exact (Prog.total_load _).bind fun _ => Prog.total_ite (Prog.total_pure false) (ih _)

theorem total_fuseBlock : Prog.Total (fuseBlock cfg base info l1Desc) := by
  have hmarked : ∀ p (d : Desc) stride cnt idx, Prog.Total (do
      Prog.store p d
      checkEntries info.gptL1Addr d stride cnt idx) :=
    fun p d stride cnt idx => (Prog.total_store p d).bind fun _ => total_checkEntries _ _ _ _ _
  apply (total_checkEntries _ _ _ _ _).bind
  intro uniform2mb
  apply Prog.total_ite
  · apply Prog.total_ite
    · exact total_fillDesc _ _ _
    · apply (hmarked _ _ _ _ _).bind
      intro uniform32mb
      apply Prog.total_ite
      · apply Prog.total_ite
        · exact total_fillDesc _ _ _
        · apply (hmarked _ _ _ _ _).bind
          intro uniform512mb
          exact Prog.total_ite (total_fillDesc _ _ _) (total_fillDesc _ _ _)
      · exact total_fillDesc _ _ _
  · exact Prog.total_pure ()

theorem total_writeGpt (t : ℕ) : Prog.Total (writeGpt info t) :=
  (Prog.total_store _ _).bind fun _ => Prog.total_pure _

theorem total_writeTarget (t : ℕ) : Prog.Total (writeTarget t info) :=
  Prog.total_ite (total_writeGpt info t) (Prog.total_ite
    ((total_writeGpt info _).bind fun info' => total_writeGpt info' t) (total_writeGpt info t))

theorem total_fuseStep (t : ℕ) : Prog.Total (fuseStep cfg base t info) :=
  Prog.total_ite (total_fuseBlock cfg base info _) (Prog.total_pure ())

def Shatters (cfg : Config) (d : Desc) : Prop :=
  cfg.maxBlock ≠ .b0 → isCont d = true → gptL1ContContig d ≠ 0

instance (cfg : Config) (d : Desc) : Decidable (Shatters cfg d) :=
  inferInstanceAs (Decidable (_ → _ → _))

theorem shatterStep_returns_iff (m : GptMem) :
    (∃ out, Prog.run (shatterStep cfg base info) m = some out) ↔ Shatters cfg info.gptL1Desc := by
  unfold shatterStep
  by_cases h : cfg.maxBlock ≠ .b0 ∧ isCont info.gptL1Desc = true
  · rw [if_pos h, shatterBlock_returns_iff]
    exact ⟨fun h0 _ _ => h0, fun hs => hs h.1 h.2⟩
  · rw [if_neg h]
    exact ⟨fun _ hb hc => absurd ⟨hb, hc⟩ h, fun _ => ⟨_, rfl⟩⟩

theorem retypeGranule_returns_iff (t : ℕ) (m : GptMem) :
    (∃ m', Prog.run (retypeGranule cfg base t info) m = some ((), m')) ↔
      Shatters cfg info.gptL1Desc := by
  rw [← shatterStep_returns_iff cfg base info m, retypeGranule, Prog.run_bind]
  constructor
  · rintro ⟨m', h⟩
    cases hs : Prog.run (shatterStep cfg base info) m with
    | none =>
      rw [hs] at h
      cases h
    | some out => exact ⟨out, rfl⟩
  · rintro ⟨⟨info1, m1⟩, h1⟩
    obtain ⟨⟨_, m'⟩, h2⟩ :=
      (total_writeTarget info1 t).bind (fun info2 => total_fuseStep cfg base info2 t) m1
    rw [h1, Option.bind_some]
    exact ⟨m', h2⟩

end Totals

/-! ## The whole call -/

section Reach
variable {cfg : Config} {m : GptMem} {base : UInt64} {target caller : UInt8}

def Permitted (cfg : Config) (caller gpi target : ℕ) : Prop :=
  KnownCaller caller ∧
    (gpiPolicy cfg gpi (if caller = SMC_FROM_REALM then 2 else caller)).testBit target = true

instance (cfg : Config) (caller gpi target : ℕ) : Decidable (Permitted cfg caller gpi target) :=
  inferInstanceAs (Decidable (_ ∧ _))

def l1Entry (cfg : Config) (m : GptMem) (pa : ℕ) : Desc :=
  entries m (l1Addr cfg m (gptL0Idx cfg pa)) (gptL1Index cfg pa)

theorem granuleGpi_lt (d : Desc) {k : ℕ} : granuleGpi d k < 16 := by
  unfold granuleGpi gptL1ContGpi
  split <;> exact nib_lt _ _

theorem transitionLocked_succeeds_iff {pa t c : ℕ} {info : GpiInfo} (hloc : Locates cfg pa info)
    (hperm : Permitted cfg c (granuleGpi (entries m info.gptL1Addr (gptL1Index cfg pa))
      (gptL1GpiIdx cfg pa)) t) :
    (∃ m', Prog.run (transitionLocked cfg pa t c info) m = some (0, m')) ↔
      Shatters cfg (entries m info.gptL1Addr (gptL1Index cfg pa)) := by
  rw [transitionLocked, Prog.run_bind, run_readGpi hloc, Option.bind_some, Prog.run_bind,
    run_isGpiTransitionPermitted cfg (granuleGpi_lt _), if_pos hperm.1, Option.bind_some,
    if_pos hperm.2]
  constructor
  · rintro ⟨m', h⟩
    rw [← retypeGranule_returns_iff cfg pa { info with
      gptL1Desc := entries m info.gptL1Addr (gptL1Index cfg pa)
      gpi := granuleGpi (entries m info.gptL1Addr (gptL1Index cfg pa)) (gptL1GpiIdx cfg pa) } t m]
    rw [Prog.run_bind] at h
    cases hr : Prog.run (retypeGranule cfg pa t { info with
        gptL1Desc := entries m info.gptL1Addr (gptL1Index cfg pa)
        gpi := granuleGpi (entries m info.gptL1Addr (gptL1Index cfg pa)) (gptL1GpiIdx cfg pa) }) m with
    | none =>
      rw [hr] at h
      cases h
    | some out => exact ⟨out.2, rfl⟩
  · intro hs
    obtain ⟨m', hr⟩ := (retypeGranule_returns_iff cfg pa { info with
      gptL1Desc := entries m info.gptL1Addr (gptL1Index cfg pa)
      gpi := granuleGpi (entries m info.gptL1Addr (gptL1Index cfg pa)) (gptL1GpiIdx cfg pa) }
      t m).mpr hs
    refine ⟨m', ?_⟩
    rw [Prog.run_bind, hr]
    rfl

theorem transitionChecks_inside {pa t : ℕ} (haligned : gptPgsActualSize cfg ∣ pa)
    (hinside : pa + gptPgsActualSize cfg ≤ gptPpsActualSize cfg) (hvalid : isGpiValid cfg t = true) :
    transitionChecks cfg pa t =
      if pa + gptPgsActualSize cfg < gptPpsActualSize cfg then 0 else -EINVAL := by
  have hpow : gptPgsActualSize cfg = 2 ^ cfg.p := Nat.one_shiftLeft cfg.p
  have hpps := gptPpsActualSize_le cfg
  have hmask : ∀ x, gptPgsActualSize cfg ∣ x → x &&& (gptPgsActualSize cfg - 1) = 0 := by
    intro x hx
    rw [hpow] at hx ⊢
    rw [Nat.and_two_pow_sub_one_eq_mod]
    exact Nat.mod_eq_zero_of_dvd hx
  have hwrap : ¬ ULONG_MAX - pa < gptPgsActualSize cfg := by
    unfold ULONG_MAX
    omega
  have hsize : gptPgsActualSize cfg ≠ 0 := by
    rw [hpow]
    exact (Nat.two_pow_pos cfg.p).ne'
  unfold transitionChecks
  simp only [hvalid, Bool.not_true, Bool.false_eq_true, if_false, if_neg hwrap,
    hmask pa haligned, hmask _ (Nat.dvd_refl _), ne_eq, not_true_eq_false, hsize, false_or]
  by_cases hlast : pa + gptPgsActualSize cfg < gptPpsActualSize cfg
  · rw [if_pos hlast, if_neg (Nat.not_le_of_lt hlast)]
  · rw [if_neg hlast, if_pos (Nat.le_of_not_lt hlast)]

/-- A single granule, whatever the tables hold: `hgpi` says that its level 0 entry is a table
descriptor and what its GPI is. -/
theorem transition_reaches_iff (cfg : Config) (m : GptMem) (base : UInt64) (target caller : UInt8)
    (gpi : ℕ) (hl0 : cfg.platGptL0Base ≠ 0) (haligned : gptPgsActualSize cfg ∣ base.toNat)
    (hinside : base.toNat + gptPgsActualSize cfg ≤ gptPpsActualSize cfg)
    (hgpi : gpiOf cfg m base.toNat = some gpi) (hvalid : isGpiValid cfg target.toNat = true)
    (hperm : Permitted cfg caller.toNat gpi target.toNat) :
    (∃ m', Prog.run (gptTransitionPas cfg base 1 target caller) m = some ((0, 1), m')) ↔
      base.toNat + gptPgsActualSize cfg < gptPpsActualSize cfg ∧
        Shatters cfg (l1Entry cfg m base.toNat) := by
  have hassert : (cfg.platGptL0Base != 0) = true := bne_iff_ne.mpr hl0
  have hchk := transitionChecks_inside haligned hinside hvalid
  rw [gptTransitionPas, hassert, Prog.run_bind, Prog.run_assert, if_pos rfl, Option.bind_some,
    if_neg (by decide), hchk]
  by_cases hlast : base.toNat + gptPgsActualSize cfg < gptPpsActualSize cfg
  swap
  · rw [if_neg hlast, if_pos (by decide)]
    constructor
    · rintro ⟨m', h⟩
      have hret : (-EINVAL : Int) = 0 := congrArg (fun o => (o.map fun r => r.1.1).getD 0) h
      exact absurd hret (by decide)
    · exact fun h => absurd h.1 hlast
  rw [gpiOf_eq] at hgpi
  split at hgpi
  swap
  · cases hgpi
  next htable =>
  cases hgpi
  rw [if_pos hlast, if_neg (by decide), Prog.run_bind, run_getGpiParams, Option.bind_some,
    if_pos htable]
  have hlocked := transitionLocked_succeeds_iff (m := m) (locates_paramsOf cfg m base.toNat) hperm
  rw [and_iff_right hlast]
  refine Iff.trans ?_ hlocked
  dsimp only
  rw [Prog.run_bind]
  constructor
  · rintro ⟨m', h⟩
    cases hr : Prog.run (transitionLocked cfg base.toNat target.toNat caller.toNat
        (paramsOf cfg m base.toNat)) m with
    | none =>
      rw [hr] at h
      cases h
    | some out =>
      obtain ⟨res, m1⟩ := out
      rw [hr] at h
      obtain rfl : res = 0 := congrArg (fun o => (o.map fun r => r.1.1).getD 0) h
      exact ⟨m1, rfl⟩
  · rintro ⟨m', hr⟩
    rw [hr]
    exact ⟨m', rfl⟩

/-- A level 1 table of Non-secure granules for the last gigabyte, in the way of `sampleTables`. -/
def topTables : GptMem := fun x =>
  if 0x100000 ≤ x then buildL1Desc GPT_GPI_NS
  else if x = 0x1018 then gptL0TblDesc 0x100000
  else gptL0BlkDesc GPT_GPI_ANY

theorem transition_reaches_iff_before_last :
    ∃ m', Prog.run (gptTransitionPas (sampleConfig .b512) 0xFFFFE000 1 8 0) topTables =
      some ((0, 1), m') :=
  (transition_reaches_iff (sampleConfig .b512) topTables 0xFFFFE000 8 0 GPT_GPI_NS (by decide)
    (by decide) (by decide) (by decide) (by decide) (by decide)).mpr (by decide)

/-- The last granule of the protected space is accepted when the tables are built, and cannot be
retyped afterwards. -/
theorem last_granule_refused :
    let cfg := sampleConfig .b512
    (Prog.run (validatePasMappings cfg [⟨0xFFFFF000, 0x1000, 0x19⟩])
      fun _ => gptL0BlkDesc GPT_GPI_ANY).map Prod.fst = some 1 ∧
    0xFFFFF000 + gptPgsActualSize cfg = gptPpsActualSize cfg ∧
    gpiOf cfg topTables 0xFFFFF000 = some GPT_GPI_NS ∧
    Permitted cfg 0 GPT_GPI_NS GPT_GPI_SECURE ∧ isGpiValid cfg GPT_GPI_SECURE = true ∧
    (Prog.run (gptTransitionPas cfg 0xFFFFF000 1 8 0) topTables).map Prod.fst =
      some (-EINVAL, 0) := by
  decide

end Reach

end TrustedFirmware.Gpt
