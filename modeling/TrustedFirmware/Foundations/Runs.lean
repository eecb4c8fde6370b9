import Mathlib.Logic.Relation

/-! Runs of a labelled step relation. `Reach step s t` says that some finite
sequence of labelled steps leads from `s` to `t`. The label carries the call and
its arguments, so a guard on the calls of a run is a guard on its steps. -/
namespace TrustedFirmware.Runs
set_option autoImplicit false

variable {σ α : Type}

def Step (step : σ → α → σ → Prop) (s t : σ) : Prop := ∃ a, step s a t

def Reach (step : σ → α → σ → Prop) : σ → σ → Prop := Relation.ReflTransGen (Step step)

/-- The steps whose label and source state meet a guard. -/
def Guarded (step : σ → α → σ → Prop) (guard : σ → α → Prop) (s : σ) (a : α) (t : σ) : Prop :=
  guard s a ∧ step s a t

theorem Reach.refl (step : σ → α → σ → Prop) (s : σ) : Reach step s s := Relation.ReflTransGen.refl

theorem Reach.tail {step : σ → α → σ → Prop} {s t u : σ} {a : α} (h : Reach step s t)
    (hs : step t a u) : Reach step s u := Relation.ReflTransGen.tail h ⟨a, hs⟩

/-- **The invariant rule.** What holds at the start and is kept by every step holds at the end
of every run. -/
theorem Reach.invariant {step : σ → α → σ → Prop} {I : σ → Prop} {s t : σ} (h : Reach step s t)
    (h0 : I s) (hstep : ∀ u a v, I u → step u a v → I v) : I t := by
  induction h with
  | refl => exact h0
  | tail _ hs ih =>
    obtain ⟨a, ha⟩ := hs
    exact hstep _ a _ ih ha

theorem Reach.of_foldlM {f : σ → α → Option σ} {as : List α} {s t : σ} (h : as.foldlM f s = some t) :
    Reach (fun s a s' => f s a = some s') s t := by
  induction as generalizing s with
  | nil =>
    cases h
    exact .refl _ _
  | cons a as ih =>
    obtain ⟨u, hu, hrest⟩ := Option.bind_eq_some_iff.mp h
    exact Relation.ReflTransGen.head ⟨a, hu⟩ (ih hrest)

/-! ## Runs with their history -/

/-- A run together with the labels of its steps, the oldest first. -/
inductive Traced (step : σ → α → σ → Prop) (s₀ : σ) : List α → σ → Prop
  | nil : Traced step s₀ [] s₀
  | snoc {t : List α} {s s' : σ} {a : α} (run : Traced step s₀ t s) (hs : step s a s') :
      Traced step s₀ (t ++ [a]) s'

theorem Traced.invariant {step : σ → α → σ → Prop} {I : List α → σ → Prop} {s₀ s : σ} {t : List α}
    (h : Traced step s₀ t s) (h0 : I [] s₀)
    (hstep : ∀ t u a v, I t u → step u a v → I (t ++ [a]) v) : I t s := by
  induction h with
  | nil => exact h0
  | snoc _ hs ih => exact hstep _ _ _ _ ih hs

/-! ## Calls that are executed -/

variable {β : Type}

/-- The steps of a function that performs a call and says what it did, as far as the call meets a
condition on the state it is made in. -/
def Performs (perform : σ → α → Option (σ × β)) (cond : σ → α → Prop) (s : σ) (a : α × β) (s' : σ) :
    Prop :=
  cond s a.1 ∧ perform s a.1 = some (s', a.2)

def execute (perform : σ → α → Option (σ × β)) (cond : σ → α → Prop)
    [∀ s a, Decidable (cond s a)] (s : σ) : List α → Option (List (α × β) × σ)
  | [] => some ([], s)
  | a :: as =>
    if cond s a then
      match perform s a with
      | none => none
      | some (s', b) => (execute perform cond s' as).map fun x => ((a, b) :: x.1, x.2)
    else none

theorem Traced.append_execute {perform : σ → α → Option (σ × β)} {cond : σ → α → Prop}
    [∀ s a, Decidable (cond s a)] {s₀ s s' : σ} {t t' : List (α × β)} {as : List α}
    (hrun : Traced (Performs perform cond) s₀ t s)
    (h : execute perform cond s as = some (t', s')) :
    Traced (Performs perform cond) s₀ (t ++ t') s' := by
  induction as generalizing s t t' with
  | nil =>
    simp only [execute, Option.some.injEq, Prod.mk.injEq] at h
    obtain ⟨rfl, rfl⟩ := h
    rw [List.append_nil]
    exact hrun
  | cons a as ih =>
    rw [execute] at h
    split at h
    · rename_i hc
      cases hs : perform s a with
      | none =>
        rw [hs] at h
        cases h
      | some x =>
        obtain ⟨s₁, b⟩ := x
        rw [hs] at h
        obtain ⟨⟨u, w⟩, hu, heq⟩ := Option.map_eq_some_iff.mp h
        cases heq
        have hstep : Performs perform cond s (a, b) s₁ := ⟨hc, hs⟩
        have hnext := ih (.snoc hrun hstep) hu
        rw [List.append_assoc] at hnext
        exact hnext
    · cases h

theorem execute_traced {perform : σ → α → Option (σ × β)} {cond : σ → α → Prop}
    [∀ s a, Decidable (cond s a)] {q : List (α × β) → σ → Bool} {s₀ : σ} {as : List α}
    (h : (execute perform cond s₀ as).any (fun x => q x.1 x.2) = true) :
    ∃ t s, Traced (Performs perform cond) s₀ t s ∧ q t s = true := by
  obtain ⟨⟨t, s⟩, hx, hq⟩ := (Option.any_eq_true _ _).mp h
  exact ⟨t, s, Traced.append_execute .nil hx, hq⟩

theorem execute_next {perform : σ → α → Option (σ × β)} {cond : σ → α → Prop}
    [∀ s a, Decidable (cond s a)] {q : List (α × β) → σ → β → σ → Bool} {s₀ : σ} {as : List α} {a : α}
    (h : (execute perform cond s₀ as).any (fun x =>
      (perform x.2 a).any fun y => q x.1 x.2 y.2 y.1) = true) :
    ∃ t s b s', Traced (Performs perform cond) s₀ t s ∧ perform s a = some (s', b) ∧
      q t s b s' = true := by
  obtain ⟨t, s, hrun, hq⟩ := @execute_traced _ _ _ perform cond _
    (fun t s => (perform s a).any fun y => q t s y.2 y.1) s₀ as h
  obtain ⟨⟨s', b⟩, hs, hq'⟩ := (Option.any_eq_true _ _).mp hq
  exact ⟨t, s, b, s', hrun, hs, hq'⟩

theorem Traced.weaken {perform : σ → α → Option (σ × β)} {C D : σ → α → Prop} {s₀ s : σ}
    {t : List (α × β)} (h : Traced (Performs perform C) s₀ t s) (hCD : ∀ s a, C s a → D s a) :
    Traced (Performs perform D) s₀ t s := by
  induction h with
  | nil => exact .nil
  | snoc _ hs ih => exact .snoc ih ⟨hCD _ _ hs.1, hs.2⟩

end TrustedFirmware.Runs
