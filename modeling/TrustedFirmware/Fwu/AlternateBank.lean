import TrustedFirmware.Fwu.Coverage

/-! # The alternate boot bank

What `fwu_get_alternate_boot_bank()` answers for accepted metadata. The search passes over the
active bank in its loops only: the previously active bank is looked at first, and the sanity check
lets it be the active one. -/
namespace TrustedFirmware.Fwu
open WordMemory
set_option autoImplicit false
set_option maxRecDepth 100000

def activeIndex (m : Buffer) : ℕ := ByteMemory.load m ACTIVE_INDEX 4

def previousActiveIndex (m : Buffer) : ℕ := ByteMemory.load m PREVIOUS_ACTIVE_INDEX 4

def bankState (m : Buffer) (i : ℕ) : UInt8 := m (BANK_STATE + i)

def Other (cfg : FwuConfig) (m : Buffer) (state : UInt8) (i : ℕ) : Prop :=
  i < cfg.banks ∧ i ≠ activeIndex m ∧ bankState m i = state

def Preferred (cfg : FwuConfig) (m : Buffer) (state : UInt8) (r : ℕ) : Prop :=
  Other cfg m state r ∧ (r = previousActiveIndex m ∨
    ¬ Other cfg m state (previousActiveIndex m) ∧ ∀ j < r, ¬ Other cfg m state j)

structure Alternate (cfg : FwuConfig) (m : Buffer) (r : ℕ) : Prop where
  not_active : r ≠ activeIndex m
  accepted : (∃ i, Other cfg m FWU_BANK_STATE_ACCEPTED i) → Preferred cfg m FWU_BANK_STATE_ACCEPTED r
  valid : (¬ ∃ i, Other cfg m FWU_BANK_STATE_ACCEPTED i) →
    (∃ i, Other cfg m FWU_BANK_STATE_VALID i) → Preferred cfg m FWU_BANK_STATE_VALID r
  failure : r = INVALID_BOOT_IDX ↔
    ¬ ∃ i, Other cfg m FWU_BANK_STATE_ACCEPTED i ∨ Other cfg m FWU_BANK_STATE_VALID i

section Search
variable {cfg : FwuConfig} {m : Buffer} {state : UInt8}

theorem loopTakes_iff {i : ℕ} : loopTakes m state i = true ↔
    i ≠ activeIndex m ∧ i ≠ previousActiveIndex m ∧ bankState m i = state := by
  refine decide_eq_true_iff.trans ?_
  rw [not_or, and_assoc]
  rfl

theorem firstInState_active (hsame : previousActiveIndex m = activeIndex m)
    (hstate : bankState m (activeIndex m) = state) :
    firstInState cfg m state = some (activeIndex m) := by
  rw [← hsame] at hstate ⊢
  exact if_pos hstate

theorem firstInState_preferred (hs : Sane cfg m)
    (hok : previousActiveIndex m = activeIndex m → bankState m (activeIndex m) ≠ state) {r : ℕ}
    (h : firstInState cfg m state = some r) : Preferred cfg m state r := by
  unfold firstInState at h
  split at h
  · next hprev =>
    cases h
    refine ⟨⟨hs.previous, ?_, hprev⟩, Or.inl rfl⟩
    intro hsame
    exact hok hsame (hsame ▸ hprev)
  · next hprev =>
    change bankState m (previousActiveIndex m) ≠ state at hprev
    obtain ⟨htakes, hmem, hfirst⟩ := List.find?_range_eq_some.mp h
    obtain ⟨hactive, -, hstate⟩ := loopTakes_iff.mp htakes
    refine ⟨⟨List.mem_range.mp hmem, hactive, hstate⟩, Or.inr ⟨fun ho => hprev ho.2.2, ?_⟩⟩
    intro j hj ho
    have hne : j ≠ previousActiveIndex m := fun he => hprev (he ▸ ho.2.2)
    have htaken := loopTakes_iff.mpr ⟨ho.2.1, hne, ho.2.2⟩
    exact absurd htaken (by simpa using hfirst j hj)

theorem firstInState_none (h : firstInState cfg m state = none) : ¬ ∃ i, Other cfg m state i := by
  unfold firstInState at h
  split at h
  · cases h
  · next hprev =>
    change bankState m (previousActiveIndex m) ≠ state at hprev
    rintro ⟨i, hlt, hactive, hstate⟩
    have hne : i ≠ previousActiveIndex m := fun he => hprev (he ▸ hstate)
    exact List.find?_eq_none.mp h i (List.mem_range.mpr hlt)
      (loopTakes_iff.mpr ⟨hactive, hne, hstate⟩)

theorem run_alternateBootBank (cfg : FwuConfig) (m : Buffer) :
    Prog.run (fwuGetAlternateBootBank cfg) m =
      some (((firstInState cfg m FWU_BANK_STATE_ACCEPTED).or
        (firstInState cfg m FWU_BANK_STATE_VALID)).getD INVALID_BOOT_IDX, m) := by
  rw [fwuGetAlternateBootBank, Prog.run_bind, run_bankInState, Option.bind_some]
  cases firstInState cfg m FWU_BANK_STATE_ACCEPTED with
  | some i => rfl
  | none =>
    change Prog.run (bankInState cfg FWU_BANK_STATE_VALID >>= _) m = _
    rw [Prog.run_bind, run_bankInState, Option.bind_some]
    cases firstInState cfg m FWU_BANK_STATE_VALID with
    | some i => rfl
    | none => rfl

theorem bank_ne_invalid {i : ℕ} (h : i < cfg.banks) : i ≠ INVALID_BOOT_IDX := by
  have hbanks := cfg.banks_mem.2
  unfold NR_OF_MAX_FW_BANKS at hbanks
  unfold INVALID_BOOT_IDX
  omega

theorem Preferred.alternate_accepted {r : ℕ} (h : Preferred cfg m FWU_BANK_STATE_ACCEPTED r) :
    Alternate cfg m r where
  not_active := h.1.2.1
  accepted := fun _ => h
  valid := fun hnone _ => absurd ⟨r, h.1⟩ hnone
  failure := iff_of_false (bank_ne_invalid h.1.1) (not_not.mpr ⟨r, Or.inl h.1⟩)

theorem Preferred.alternate_valid {r : ℕ} (h : Preferred cfg m FWU_BANK_STATE_VALID r)
    (hnone : ¬ ∃ i, Other cfg m FWU_BANK_STATE_ACCEPTED i) : Alternate cfg m r where
  not_active := h.1.2.1
  accepted := fun hsome => absurd hsome hnone
  valid := fun _ _ => h
  failure := iff_of_false (bank_ne_invalid h.1.1) (not_not.mpr ⟨r, Or.inr h.1⟩)

theorem alternate_failure (hs : Sane cfg m) (haccepted : ¬ ∃ i, Other cfg m FWU_BANK_STATE_ACCEPTED i)
    (hvalid : ¬ ∃ i, Other cfg m FWU_BANK_STATE_VALID i) : Alternate cfg m INVALID_BOOT_IDX where
  not_active := (bank_ne_invalid hs.active).symm
  accepted := fun hsome => absurd hsome haccepted
  valid := fun _ hsome => absurd hsome hvalid
  failure := by
    refine iff_of_true rfl ?_
    rintro ⟨i, hi | hi⟩
    · exact haccepted ⟨i, hi⟩
    · exact hvalid ⟨i, hi⟩

end Search

/-! ## The answer -/

/-- After `fwu_init()` the answer is the alternate bank, unless the active bank is also the
previously active one and is accepted, or valid with no other bank accepted. -/
theorem alternateBootBank_iff (cfg : FwuConfig) (main backup : LoadAnswer) (m0 m : Buffer)
    (h : Prog.run (fwuInit cfg main backup) m0 = some ((), m)) :
    ∃ r, Prog.run (fwuGetAlternateBootBank cfg) m = some (r, m) ∧
      (Alternate cfg m r ↔ (previousActiveIndex m = activeIndex m →
        bankState m (activeIndex m) ≠ FWU_BANK_STATE_ACCEPTED ∧
        (bankState m (activeIndex m) = FWU_BANK_STATE_VALID →
          ∃ i, Other cfg m FWU_BANK_STATE_ACCEPTED i))) := by
  obtain ⟨hs, -⟩ := fwuInit_accepts h
  refine ⟨_, run_alternateBootBank cfg m, ?_⟩
  constructor
  · intro halt hsame
    constructor
    · intro hstate
      rw [firstInState_active hsame hstate] at halt
      exact halt.not_active rfl
    · intro hstate
      by_contra hnone
      cases hacc : firstInState cfg m FWU_BANK_STATE_ACCEPTED with
      | some r =>
        refine hnone ⟨r, (firstInState_preferred hs ?_ hacc).1⟩
        intro _ hc
        exact absurd (hstate.symm.trans hc) (by decide)
      | none =>
        rw [hacc, firstInState_active hsame hstate] at halt
        exact halt.not_active rfl
  · intro hok
    have haccepted : previousActiveIndex m = activeIndex m →
        bankState m (activeIndex m) ≠ FWU_BANK_STATE_ACCEPTED := fun hsame => (hok hsame).1
    cases hacc : firstInState cfg m FWU_BANK_STATE_ACCEPTED with
    | some r =>
      have hpref := firstInState_preferred hs haccepted hacc
      exact hpref.alternate_accepted
    | none =>
      have hnone := firstInState_none hacc
      have hvalid : previousActiveIndex m = activeIndex m →
          bankState m (activeIndex m) ≠ FWU_BANK_STATE_VALID :=
        fun hsame hstate => hnone ((hok hsame).2 hstate)
      cases hval : firstInState cfg m FWU_BANK_STATE_VALID with
      | some r => exact (firstInState_preferred hs hvalid hval).alternate_valid hnone
      | none => exact alternate_failure hs hnone (firstInState_none hval)

theorem alternateBootBank_iff_full :
    ∃ m, Prog.run (fwuInit sampleConfig (sampleAnswer fullMetadata) (sampleAnswer fullMetadata))
        (fun _ => 0) = some ((), m) ∧
      ∃ r, Prog.run (fwuGetAlternateBootBank sampleConfig) m = some (r, m) ∧
        (Alternate sampleConfig m r ↔ (previousActiveIndex m = activeIndex m →
          bankState m (activeIndex m) ≠ FWU_BANK_STATE_ACCEPTED ∧
          (bankState m (activeIndex m) = FWU_BANK_STATE_VALID →
            ∃ i, Other sampleConfig m FWU_BANK_STATE_ACCEPTED i))) := by
  have hsome : (Prog.run (fwuInit sampleConfig (sampleAnswer fullMetadata)
      (sampleAnswer fullMetadata)) fun _ => 0).isSome = true := by decide +kernel
  obtain ⟨⟨_, m⟩, hm⟩ := Option.isSome_iff_exists.mp hsome
  exact ⟨m, hm, alternateBootBank_iff sampleConfig _ _ _ m hm⟩

def plainConfig : FwuConfig := ⟨2, 1, false, sampleConfig.banks_mem, sampleConfig.images_pos⟩

def sameIndexAnswer : LoadAnswer := ⟨0, 0, 0, 32,
  [0x46, 0xCB, 0x9E, 0xB1] ++ [2, 0, 0, 0] ++ [0, 0, 0, 0] ++ [0, 0, 0, 0] ++ [0x20, 0, 0, 0] ++
    [0, 0, 0, 0] ++ [0xFC, 0xFC, 0xFF, 0xFF] ++ [0, 0, 0, 0]⟩

/-- The metadata is accepted and the active bank is the answer, although bank 1 is accepted too. -/
theorem active_bank_returned :
    (Prog.run (do
      fwuInit plainConfig sameIndexAnswer sameIndexAnswer
      let active ← loadLe ACTIVE_INDEX 4
      let state ← Prog.load (BANK_STATE + 1)
      let r ← fwuGetAlternateBootBank plainConfig
      pure (active, state, r)) fun _ => 0).map Prod.fst = some (0, FWU_BANK_STATE_ACCEPTED, 0) := by
  decide +kernel

end TrustedFirmware.Fwu
