import Mathlib.Data.List.Nodup
import Mathlib.Logic.Function.Basic

/-! # Traces of locks and guarded writes

What one thread does with locks and with the cells they protect, in order. A cell is
named by its lock. `after` follows the locks held; it has no result from the first event
that breaks the discipline on. -/
namespace TrustedFirmware.LockTrace
set_option autoImplicit false

inductive Event (α β : Type) where
  | acquire (lock : α)
  | write (cell : α) (value : β)
  | release (lock : α)
  /-- A point where the thread must hold nothing. -/
  | rest
  deriving DecidableEq, Repr

section Discipline
variable {α β : Type} [DecidableEq α]

def Event.next (held : List α) : Event α β → Option (List α)
  | .acquire a => if a ∈ held then none else some (a :: held)
  | .write a _ => if a ∈ held then some held else none
  | .release a => if a ∈ held then some (held.erase a) else none
  | .rest => if held = [] then some [] else none

def after (held : List α) : List (Event α β) → Option (List α)
  | [] => some held
  | e :: es => (e.next held).bind fun held => after held es

/-- Every write is made under the lock of its cell, and every lock taken is given back once, before the
next point of rest. -/
def Disciplined (es : List (Event α β)) : Prop := after [] (es ++ [.rest]) = some []

instance (es : List (Event α β)) : Decidable (Disciplined es) :=
  inferInstanceAs (Decidable (_ = _))

def replay (cells : α → β) : List (Event α β) → α → β
  | [] => cells
  | .write a v :: es => replay (Function.update cells a v) es
  | _ :: es => replay cells es

theorem after_append (held : List α) (xs ys : List (Event α β)) :
    after held (xs ++ ys) = (after held xs).bind fun held => after held ys := by
  induction xs generalizing held with
  | nil => rfl
  | cons e xs ih =>
    rw [List.cons_append, after, after]
    cases e.next held with
    | none => rfl
    | some held' => exact ih held'

theorem after_acquires (path held : List α) (hnd : path.Nodup) (hdis : ∀ a ∈ path, a ∉ held) :
    after held (path.map (Event.acquire : α → Event α β)) = some (path.reverse ++ held) := by
  induction path generalizing held with
  | nil => rfl
  | cons a path ih =>
    obtain ⟨hna, hnd⟩ := List.nodup_cons.mp hnd
    rw [List.map_cons, after, Event.next, if_neg (hdis a List.mem_cons_self)]
    refine (ih (a :: held) hnd fun b hb hmem => ?_).trans ?_
    · rcases List.mem_cons.mp hmem with rfl | hmem
      · exact hna hb
      · exact hdis b (List.mem_cons_of_mem a hb) hmem
    · rw [List.reverse_cons, List.append_assoc, List.singleton_append]

theorem after_releases (path held : List α) :
    after (path ++ held) (path.map (Event.release : α → Event α β)) = some held := by
  induction path with
  | nil => rfl
  | cons a path ih =>
    rw [List.map_cons, List.cons_append, after, Event.next, if_pos List.mem_cons_self,
      List.erase_cons_head]
    exact ih

theorem after_writes (held : List α) (ws : List (α × β)) :
    after held (ws.map fun w => Event.write w.1 w.2) =
      if ∀ w ∈ ws, w.1 ∈ held then some held else none := by
  induction ws with
  | nil => exact (if_pos fun w hw => absurd hw List.not_mem_nil).symm
  | cons w ws ih =>
    rw [List.map_cons, after, Event.next]
    by_cases hw : w.1 ∈ held
    · rw [if_pos hw, Option.bind_some, ih]
      simp only [List.forall_mem_cons, hw, true_and]
    · rw [if_neg hw, if_neg fun hall => hw (hall w List.mem_cons_self)]
      rfl

theorem replay_append (cells : α → β) (xs ys : List (Event α β)) :
    replay cells (xs ++ ys) = replay (replay cells xs) ys := by
  induction xs generalizing cells with
  | nil => rfl
  | cons e xs ih =>
    cases e with
    | write a v => exact ih _
    | acquire a => exact ih _
    | release a => exact ih _
    | rest => exact ih _

theorem replay_map {γ : Type} (cells : α → β) (f : γ → Event α β) (xs : List γ)
    (hf : ∀ x a v, f x ≠ .write a v) : replay cells (xs.map f) = cells := by
  induction xs with
  | nil => rfl
  | cons x xs ih =>
    rw [List.map_cons]
    cases hx : f x with
    | write a v => exact absurd hx (hf x a v)
    | acquire a => exact ih
    | release a => exact ih
    | rest => exact ih

theorem disciplined_iff {es : List (Event α β)} : Disciplined es ↔ after [] es = some [] := by
  rw [Disciplined, after_append]
  cases after [] es with
  | none => simp
  | some held =>
    cases held with
    | nil => simp [after, Event.next]
    | cons a held => simp [after, Event.next]

theorem disciplined_then {xs : List (Event α β)} (hxs : Disciplined xs) (ys : List (Event α β)) :
    Disciplined (xs ++ .rest :: ys) ↔ Disciplined ys := by
  rw [disciplined_iff] at hxs
  rw [disciplined_iff, disciplined_iff, after_append, hxs]
  rfl

/-- **Critical sections.** All locks of a path, writes, and the locks back in reverse order: disciplined
exactly if every cell written is on the path. -/
theorem disciplined_section {path : List α} (hnd : path.Nodup) (ws : List (α × β)) :
    Disciplined (path.map Event.acquire ++ ws.map (fun w => Event.write w.1 w.2) ++
      path.reverse.map Event.release) ↔ ∀ w ∈ ws, w.1 ∈ path := by
  have hacq := @after_acquires α β _ path [] hnd fun a _ => List.not_mem_nil
  have hrel := @after_releases α β _ path.reverse []
  rw [List.append_nil] at hacq hrel
  rw [disciplined_iff, after_append, after_append, hacq, Option.bind_some, after_writes]
  simp only [List.mem_reverse]
  by_cases hall : ∀ w ∈ ws, w.1 ∈ path
  · rw [if_pos hall]
    exact iff_of_true hrel hall
  · rw [if_neg hall]
    exact iff_of_false (fun hc => nomatch hc) hall

end Discipline

end TrustedFirmware.LockTrace
