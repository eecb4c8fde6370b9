import TrustedFirmware.Spmc.Invariant
import TrustedFirmware.Spmc.Execution

/-! # Where the handlers write

An allocation zeroes 48 bytes of descriptor, a whole version 1.1 header. A shorter object
is overrun by it: FFA_MEM_SHARE and FFA_MEM_LEND allocate before they compare the total
length with anything, and a version 1.0 retrieve request may take 32 bytes. All other
writes stay inside the object they are meant for. -/
namespace TrustedFirmware.Spmc
open ByteMemory
set_option autoImplicit false

instance (dataSize : ℕ) (w : Write) : Decidable (w.Inside dataSize) := by
  cases w <;> unfold Write.Inside <;> infer_instance

/-- An object that is allocated for a caller's descriptor has room for a whole header. -/
def WholeHeader (s : State) (c : Call) : Prop := ∀ n, c.Allocates s n → Fits s.store n → 48 ≤ n

theorem writes_inside {P : Platform} {b : Boot} {t : List (Call × Reply)} {s : State}
    (h : RunWhen P WholeHeader b.state t s) : ∀ w ∈ s.store.written, w.Inside b.dataSize := by
  obtain ⟨objs, hinv, -⟩ := @RunWhen.objects (Write.Inside b.dataSize) P s WholeHeader b t
    (fun _ _ _ => True) h (fun _ hw => hw)
    (fun s c _ hc n hn hf hlt => absurd (hc n hn hf) (by omega)) trivial
    (fun _ _ _ _ _ _ _ _ _ _ _ _ => trivial)
  exact hinv.stored.logged

def longSends : Call → Bool
  | .memSend _ _ total _ _ _ _ => decide (48 ≤ total.toNat)
  | .memRetrieveReq .. => false
  | _ => true

theorem wholeHeader_of_longSends {s : State} {c : Call} (h : longSends c = true) : WholeHeader s c := by
  intro n hn _
  cases c with
  | memSend b =>
    cases b with
    | true => exact hn.elim
    | false => exact hn.2.2 ▸ of_decide_eq_true h
  | memRetrieveReq => cases h
  | _ => exact hn.elim

theorem writes_inside_send : ∃ t s, RunWhen onePartition WholeHeader (bootV11 256 (by decide)).state
    t s ∧ s.store.written ≠ [] ∧ ∀ w ∈ s.store.written, w.Inside 256 := by
  obtain ⟨t, s, hrun, hw⟩ := @executeWhen_run onePartition (fun _ c => longSends c) _
    (fun _ s => s.store.written.length == 10) (bootV11 256 (by decide)).state
    (setUp 0x10001 ++ [.memSend false false 96 96 0 0 (descriptorV11 0 [0x8001] [(0x1000, 1)])])
    (by decide +kernel) (fun _ _ => wholeHeader_of_longSends)
  refine ⟨t, s, hrun, ?_, writes_inside hrun⟩
  intro hnil
  rw [hnil] at hw
  exact absurd hw (by decide)

/-- FFA_MEM_SHARE of no bytes zeroes 48 bytes behind an object of 32, here the whole datastore. -/
theorem short_send_overruns : ∃ t s, Run onePartition (bootV11 32 (by decide)).state t s ∧
    ∃ w ∈ s.store.written, ¬ w.Inside 32 := by
  obtain ⟨t, s, hrun, hw⟩ := @execute_run onePartition
    (fun _ s => s.store.written.any fun w => !decide (w.Inside 32)) (bootV11 32 (by decide)).state
    (setUp 0x10001 ++ [.memSend false false 0 48 0 0 (record [])]) (by decide +kernel)
  obtain ⟨w, hmem, hout⟩ := List.any_eq_true.mp hw
  exact ⟨t, s, hrun, w, hmem, by simpa using hout⟩

end TrustedFirmware.Spmc
