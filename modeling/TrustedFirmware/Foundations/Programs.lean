import Mathlib.Logic.Basic
import Mathlib.Tactic.TypeStar

/-! # Programs that may stop

Computations that stop at the first error: a result means that every stage had one. Programs with a
state that may stop: such a program keeps a part of the state if that part is the same whenever the
program returns. -/
namespace TrustedFirmware.Staged
set_option autoImplicit false

variable {ε α γ : Type}

def check (cond : Bool) (stop : ε) : Except ε Unit := if cond then .ok () else .error stop

theorem bind_ok {x : Except ε α} {f : α → Except ε γ} {r : γ} (h : (x >>= f) = .ok r) :
    ∃ a, x = .ok a ∧ f a = .ok r := by
  cases x with
  | error e => cases h
  | ok a => exact ⟨a, rfl, h⟩

theorem ok_bind_iff {x : Except ε α} {f : α → Except ε γ} {r : γ} :
    (x >>= f) = .ok r ↔ ∃ a, x = .ok a ∧ f a = .ok r := by
  refine ⟨bind_ok, ?_⟩
  rintro ⟨a, rfl, h⟩
  exact h

theorem check_ok_iff {cond : Bool} {stop : ε} {u : Unit} :
    check cond stop = .ok u ↔ cond = true := by
  cases cond with
  | true => exact ⟨fun _ => rfl, fun _ => rfl⟩
  | false => simp [check]

end TrustedFirmware.Staged

namespace TrustedFirmware.Frames
set_option autoImplicit false

universe u

variable {σ α β : Type u} {γ : Type*} {part : σ → γ}

theorem bind_some {x : StateT σ Option α} {f : α → StateT σ Option β} {s s' : σ} {b : β}
    (h : (x >>= f) s = some (b, s')) : ∃ a s₁, x s = some (a, s₁) ∧ f a s₁ = some (b, s') := by
  have h' : (x s).bind (fun p => f p.1 p.2) = some (b, s') := h
  obtain ⟨⟨a, s₁⟩, hx, hf⟩ := Option.bind_eq_some_iff.mp h'
  exact ⟨a, s₁, hx, hf⟩

theorem bind_of_some {x : StateT σ Option α} {f : α → StateT σ Option β} {s s₁ : σ} {a : α}
    (h : x s = some (a, s₁)) : (x >>= f) s = f a s₁ := by
  change (x s).bind (fun p => f p.1 p.2) = f a s₁
  rw [h]
  rfl

def Keeps (part : σ → γ) (x : StateT σ Option α) : Prop :=
  ∀ s a s', x s = some (a, s') → part s' = part s

theorem Keeps.pure (a : α) : Keeps part (Pure.pure a : StateT σ Option α) := by
  intro s a' s' h
  cases h
  rfl

theorem Keeps.stop : Keeps part (fun _ => none : StateT σ Option α) :=
  fun _ _ _ h => nomatch h

theorem Keeps.bind {x : StateT σ Option α} {f : α → StateT σ Option β} (hx : Keeps part x)
    (hf : ∀ a, Keeps part (f a)) : Keeps part (x >>= f) := by
  intro s b s' h
  obtain ⟨a, s₁, hx', hf'⟩ := bind_some h
  exact (hf a s₁ b s' hf').trans (hx s a s₁ hx')

theorem Keeps.ite {p : Prop} [Decidable p] {x y : StateT σ Option α} (hx : Keeps part x)
    (hy : Keeps part y) : Keeps part (if p then x else y) := by
  split
  · exact hx
  · exact hy

theorem Keeps.step {f : σ → α × σ} (h : ∀ s, part (f s).2 = part s) :
    Keeps part (fun s => some (f s) : StateT σ Option α) := by
  intro s a s' hrun
  have heq : f s = (a, s') := Option.some.inj hrun
  rw [← h s, heq]

end TrustedFirmware.Frames
