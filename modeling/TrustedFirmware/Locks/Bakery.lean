import TrustedFirmware.Foundations.Runs
import Mathlib.Tactic

/-! # The bakery lock in coherent memory

`bakery_lock_get()` and `bakery_lock_release()` as each CPU executes them, one load or store of
`lock_data` at a time. A halfword holds the choosing flag and the ticket of a CPU. -/
namespace TrustedFirmware.Bakery
open Runs
set_option autoImplicit false

/-! ## The halfword -/

def CHOOSING_TICKET : ℕ := 1
def CHOSEN_TICKET : ℕ := 0

def makeBakeryData (choosing num : ℕ) : ℕ := ((choosing &&& 1) ||| (num <<< 1)) % 2 ^ 16

def bakeryIsChoosing (info : ℕ) : Bool := decide (info &&& 1 = CHOOSING_TICKET)

def bakeryTicketNumber (info : ℕ) : ℕ := (info >>> 1) &&& 0x7FFF

def bakeryGetPriority (t pos : ℕ) : ℕ := (t <<< 8) ||| pos

theorem makeBakeryData_choosing : makeBakeryData CHOOSING_TICKET 0 = 1 := by decide

theorem makeBakeryData_chosen {num : ℕ} (h : num < 2 ^ 15) :
    makeBakeryData CHOSEN_TICKET num = 2 * num := by
  simp only [makeBakeryData, CHOSEN_TICKET, Nat.shiftLeft_eq, Nat.zero_and, Nat.zero_or]
  omega

theorem bakeryTicketNumber_eq (info : ℕ) : bakeryTicketNumber info = info / 2 % 2 ^ 15 := by
  rw [bakeryTicketNumber, Nat.shiftRight_eq_div_pow, pow_one,
    show (0x7FFF : ℕ) = 2 ^ 15 - 1 by norm_num, Nat.and_two_pow_sub_one_eq_mod]

theorem bakeryGetPriority_eq {t pos : ℕ} (h : pos < 256) :
    bakeryGetPriority t pos = 256 * t + pos := by
  rw [bakeryGetPriority, ← Nat.shiftLeft_add_eq_or_of_lt h, Nat.shiftLeft_eq]
  omega

/-! ## CPUs -/

inductive Pc where
  | idle
  /-- In the loop of `bakery_get_ticket()`: the next CPU to look at, and the highest ticket. -/
  | choosing (they myTicket : ℕ)
  /-- In the loop of `bakery_lock_get()`: the next CPU to compare with. -/
  | scan (they myTicket : ℕ)
  /-- Waiting for the ticket of a CPU to change. -/
  | waiting (they myTicket theirTicket : ℕ)
  | critical (myTicket : ℕ)
  deriving DecidableEq, Repr

structure State (n : ℕ) where
  lockData : Fin n → ℕ
  pc : Fin n → Pc

/-- What a step means to the other CPUs. -/
inductive Event (n : ℕ) where
  | internal
  | start (me : Fin n)
  | chose (me : Fin n)
  | enter (me : Fin n)
  | release (me : Fin n)
  deriving DecidableEq, Repr

variable {n : ℕ}

def State.store (s : State n) (me : Fin n) (info : ℕ) (pc : Pc) : State n :=
  { lockData := Function.update s.lockData me info, pc := Function.update s.pc me pc }

def State.goto (s : State n) (me : Fin n) (pc : Pc) : State n :=
  { s with pc := Function.update s.pc me pc }

def start (n : ℕ) : State n := ⟨fun _ => 0, fun _ => .idle⟩

/-- The next load or store of a CPU; `none` where an assertion fails. -/
def step (s : State n) (me : Fin n) : Option (State n × Event n) :=
  match s.pc me with
  | .idle =>
    if bakeryTicketNumber (s.lockData me) = 0 then
      some (s.store me (makeBakeryData CHOOSING_TICKET 0) (.choosing 0 0), .start me)
    else none
  | .choosing they myTicket =>
    if h : they < n then
      let theirTicket := bakeryTicketNumber (s.lockData ⟨they, h⟩)
      some (s.goto me (.choosing (they + 1)
        (if theirTicket > myTicket then theirTicket else myTicket)), .internal)
    else
      some (s.store me (makeBakeryData CHOSEN_TICKET (myTicket + 1)) (.scan 0 (myTicket + 1)),
        .chose me)
  | .scan they myTicket =>
    if h : they < n then
      if me.val = they then some (s.goto me (.scan (they + 1) myTicket), .internal)
      else
        let theirBakeryData := s.lockData ⟨they, h⟩
        if bakeryIsChoosing theirBakeryData then some (s, .internal)
        else
          let theirTicket := bakeryTicketNumber theirBakeryData
          if theirTicket ≠ 0 ∧
              bakeryGetPriority theirTicket they < bakeryGetPriority myTicket me.val then
            some (s.goto me (.waiting they myTicket theirTicket), .internal)
          else some (s.goto me (.scan (they + 1) myTicket), .internal)
    else some (s.goto me (.critical myTicket), .enter me)
  | .waiting they myTicket theirTicket =>
    if h : they < n then
      if theirTicket = bakeryTicketNumber (s.lockData ⟨they, h⟩) then some (s, .internal)
      else some (s.goto me (.scan (they + 1) myTicket), .internal)
    else none
  | .critical _ =>
    if bakeryTicketNumber (s.lockData me) ≠ 0 then some (s.store me 0 .idle, .release me)
    else none

def TicketFits (s : State n) (me : Fin n) : Prop :=
  match s.pc me with
  | .choosing they myTicket => n ≤ they → myTicket + 1 < 2 ^ 15
  | _ => True

instance (s : State n) (me : Fin n) : Decidable (TicketFits s me) :=
  match h : s.pc me with
  | .choosing they myTicket =>
    decidable_of_iff (n ≤ they → myTicket + 1 < 2 ^ 15) (by simp [TicketFits, h])
  | .idle | .scan _ _ | .waiting _ _ _ | .critical _ => isTrue (by simp [TicketFits, h])

end TrustedFirmware.Bakery
