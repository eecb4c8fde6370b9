import TrustedFirmware.Gpt.Init

/-! # Validation

What `validate_pas_mappings()` establishes before a table is touched: the regions lie
apart in the protected space, the level 0 entries they cover are unused, and the number
it returns is the number of level 0 entries that will get a table. -/
namespace TrustedFirmware.Gpt
open Nibbles WordMemory WordArray Libc
set_option autoImplicit false

/-! ## The checks -/

/-- A level 0 entry no region has claimed. -/
def L0Unused (cfg : Config) (m : GptMem) (j : ℕ) : Prop :=
  gptL0Type (l0Desc cfg m j) = GPT_L0_TYPE_BLK_DESC ∧ gptL0BlkdGpi (l0Desc cfg m j) = GPT_GPI_ANY

section Checks
variable {cfg : Config} {m m' : GptMem} {r : PasRegion} {prev later regions : List PasRegion}

theorem run_checkL0Unused (cfg : Config) (m : GptMem) (n i : ℕ) :
    ∃ b, Prog.run (checkL0Unused cfg n i) m = some (b, m) ∧
      (b = true → ∀ k, i ≤ k → k < i + n → L0Unused cfg m k) := by
  induction n generalizing i with
  | zero => exact ⟨true, rfl, fun _ k h1 h2 => by omega⟩
  | succ n ih =>
    rw [checkL0Unused, Prog.run_bind, Prog.run_load, Option.bind_some]
    by_cases hd : gptL0Type (m (cfg.platGptL0Base + 8 * i)) = GPT_L0_TYPE_BLK_DESC ∧
        gptL0BlkdGpi (m (cfg.platGptL0Base + 8 * i)) = GPT_GPI_ANY
    · obtain ⟨b, hrun, hb⟩ := ih (i + 1)
      rw [if_pos hd]
      refine ⟨b, hrun, fun htrue k h1 h2 => ?_⟩
      by_cases hk : k = i
      · subst hk
        exact hd
      · exact hb htrue k (by omega) (by omega)
    · rw [if_neg hd]
      exact ⟨false, rfl, fun hc => by cases hc⟩

theorem run_checkL0Range (cfg : Config) (m : GptMem) (first last : ℕ) :
    (∃ b, Prog.run (checkL0Range cfg first last) m = some (b, m) ∧
      (b = true → last < 2 ^ 32 ∧ ∀ k, first ≤ k → k < last + 1 → L0Unused cfg m k)) ∨
    (Prog.run (checkL0Range cfg first last) m = none ∧ 2 ^ 32 ≤ last) := by
  obtain ⟨b, hb, hun⟩ := run_checkL0Unused cfg m (min (last + 1) (2 ^ 32) - first) first
  unfold checkL0Range
  rw [Prog.run_bind, hb, Option.bind_some, Prog.run_bind, Prog.run_assert]
  by_cases hlast : last < 2 ^ 32
  · left
    refine ⟨b, ?_, fun htrue => ⟨hlast, fun k h1 h2 => hun htrue k h1 (by omega)⟩⟩
    rw [decide_eq_true hlast, Bool.or_true, if_pos rfl]
    rfl
  · cases b with
    | false => exact Or.inl ⟨false, rfl, fun hc => by cases hc⟩
    | true =>
      right
      rw [decide_eq_false hlast]
      exact ⟨rfl, Nat.le_of_not_lt hlast⟩

theorem validatePas_frame {x : Except Int ℕ}
    (h : Prog.run (validatePas cfg prev r later) m = some (x, m')) : m' = m := by
  unfold validatePas at h
  split at h
  · cases h
    rfl
  split at h
  · cases h
    rfl
  split at h
  · cases h
    rfl
  rw [Prog.run_bind] at h
  obtain ⟨b, hb, -⟩ | ⟨hnone, -⟩ :=
    run_checkL0Range cfg m (gptL0Idx cfg r.base) (gptL0Idx cfg r.lastPa)
  · rw [hb, Option.bind_some] at h
    repeat' split at h
    all_goals
      cases h
      rfl
  · rw [hnone] at h
    cases h

theorem validateLoop_frame {acc : ℕ} {x : Except Int ℕ}
    (h : Prog.run (validateLoop cfg prev regions acc) m = some (x, m')) : m' = m := by
  induction regions generalizing prev acc m with
  | nil =>
    cases h
    rfl
  | cons r rest ih =>
    rw [validateLoop, Prog.run_bind] at h
    cases hv : Prog.run (validatePas cfg prev r rest) m with
    | none =>
      rw [hv] at h
      cases h
    | some res =>
      obtain ⟨y, m1⟩ := res
      obtain rfl := validatePas_frame hv
      rw [hv, Option.bind_some] at h
      cases y with
      | error e =>
        cases h
        rfl
      | ok k => exact ih h

theorem validatePasMappings_frame {x : Int}
    (h : Prog.run (validatePasMappings cfg regions) m = some (x, m')) : m' = m := by
  rw [validatePasMappings, Prog.run_bind, Prog.run_assert] at h
  split at h
  · rw [Option.bind_some, Prog.run_bind] at h
    cases hv : Prog.run (validateLoop cfg [] regions 0) m with
    | none =>
      rw [hv] at h
      cases h
    | some res =>
      obtain ⟨y, m1⟩ := res
      obtain rfl := validateLoop_frame hv
      rw [hv, Option.bind_some] at h
      cases y with
      | error e =>
        cases h
        rfl
      | ok n =>
        cases h
        rfl
  · cases h

end Checks

end TrustedFirmware.Gpt
