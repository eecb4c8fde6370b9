import TrustedFirmware.Spmc.Calls

/-! # Executing runs

`executeWhen` makes a list of calls one after another, as long as each meets a condition
that can be decided. What it returns is a run. The descriptors and requests that callers
send are built from their fields. -/
namespace TrustedFirmware.Spmc
open ByteMemory
set_option autoImplicit false

def executeWhen (P : Platform) (C : State → Call → Bool) (s : State) :
    List Call → Option (List (Call × Reply) × State)
  | [] => some ([], s)
  | c :: cs =>
    if C s c then
      match spmcSmcHandler P s c with
      | none => none
      | some (s', r) => (executeWhen P C s' cs).map fun x => ((c, r) :: x.1, x.2)
    else none

theorem executeWhen_append {P : Platform} {C : State → Call → Bool} {D : State → Call → Prop}
    (hD : ∀ s c, C s c = true → D s c) {s₀ s s' : State} {t t' : List (Call × Reply)}
    {cs : List Call} (hrun : RunWhen P D s₀ t s) (h : executeWhen P C s cs = some (t', s')) :
    RunWhen P D s₀ (t ++ t') s' := by
  induction cs generalizing s t t' with
  | nil =>
    simp only [executeWhen, Option.some.injEq, Prod.mk.injEq] at h
    obtain ⟨rfl, rfl⟩ := h
    rw [List.append_nil]
    exact hrun
  | cons c cs ih =>
    rw [executeWhen] at h
    split at h
    · rename_i hc
      cases hs : spmcSmcHandler P s c with
      | none =>
        rw [hs] at h
        cases h
      | some a =>
        obtain ⟨s₁, r⟩ := a
        rw [hs] at h
        obtain ⟨⟨u, w⟩, hu, heq⟩ := Option.map_eq_some_iff.mp h
        cases heq
        have hnext := ih (.snoc hrun (hD s c hc) hs) hu
        rw [List.append_assoc] at hnext
        exact hnext
    · cases h

theorem executeWhen_run {P : Platform} {C : State → Call → Bool} {D : State → Call → Prop}
    {q : List (Call × Reply) → State → Bool} {s₀ : State} {cs : List Call}
    (h : (executeWhen P C s₀ cs).any (fun x => q x.1 x.2) = true)
    (hD : ∀ s c, C s c = true → D s c) : ∃ t s, RunWhen P D s₀ t s ∧ q t s = true := by
  obtain ⟨⟨t, s⟩, hx, hq⟩ := (Option.any_eq_true _ _).mp h
  exact ⟨t, s, executeWhen_append hD .nil hx, hq⟩

theorem execute_run {P : Platform} {q : List (Call × Reply) → State → Bool} {s₀ : State}
    {cs : List Call}
    (h : (executeWhen P (fun _ _ => true) s₀ cs).any (fun x => q x.1 x.2) = true) :
    ∃ t s, Run P s₀ t s ∧ q t s = true := executeWhen_run h fun _ _ _ => trivial

theorem execute_step {P : Platform} {q : State → Reply → State → Bool} {s₀ : State} {cs : List Call}
    {c : Call} (h : (executeWhen P (fun _ _ => true) s₀ cs).any (fun x =>
      (spmcSmcHandler P x.2 c).any fun y => q x.2 y.2 y.1) = true) :
    ∃ t s r s', Run P s₀ t s ∧ spmcSmcHandler P s c = some (s', r) ∧ q s r s' = true := by
  obtain ⟨t, s, hrun, hq⟩ := @execute_run P
    (fun _ s => (spmcSmcHandler P s c).any fun y => q s y.2 y.1) s₀ cs h
  obtain ⟨⟨s', r⟩, hstep, hq'⟩ := (Option.any_eq_true _ _).mp hq
  exact ⟨t, s, r, s', hrun, hstep, hq'⟩

/-! ## Descriptors -/

def record (fields : List (ℕ × ℕ × ℕ)) : Bytes :=
  fields.foldl (fun m f => store m f.1 f.2.1 f.2.2) fun _ => 0

/-- The fields of the endpoint descriptors from offset `first` on. -/
def emadFields (first comp : ℕ) : List ℕ → List (ℕ × ℕ × ℕ)
  | [] => []
  | id :: ids => (first, 2, id) :: (first + 4, 4, comp) :: emadFields (first + 16) comp ids

/-- The fields of the constituents from offset `first` on. -/
def rangeFields (first : ℕ) : List (ℕ × ℕ) → List (ℕ × ℕ × ℕ)
  | [] => []
  | r :: rs => (first, 8, r.1) :: (first + 8, 4, r.2) :: rangeFields (first + 16) rs

def compFields (comp : ℕ) (ranges : List (ℕ × ℕ)) : List (ℕ × ℕ × ℕ) :=
  (comp, 4, (ranges.map Prod.snd).sum) :: (comp + 4, 4, ranges.length) ::
    rangeFields (comp + 16) ranges

/-- A version 1.1 descriptor from the endpoint 0 for the endpoints `ids`, with `gap` bytes before
the composite descriptor. -/
def descriptorV11 (gap : ℕ) (ids : List ℕ) (ranges : List (ℕ × ℕ)) : Bytes :=
  record ([(24, 4, 16), (28, 4, ids.length), (32, 4, 48)] ++
    emadFields 48 (48 + 16 * ids.length + gap) ids ++
    compFields (48 + 16 * ids.length + gap) ranges)

def descriptorV10 (ids : List ℕ) (ranges : List (ℕ × ℕ)) : Bytes :=
  record ([(28, 4, ids.length)] ++ emadFields 32 (32 + 16 * ids.length) ids ++
    compFields (32 + 16 * ids.length) ranges)

/-- A version 1.1 retrieve request whose endpoint descriptors are at `first`. -/
def requestV11 (handle first : ℕ) (ids : List ℕ) : Bytes :=
  record ([(8, 8, handle), (24, 4, 16), (28, 4, ids.length), (32, 4, first)] ++
    emadFields first 0 ids)

def requestV10 (handle : ℕ) (ids : List ℕ) : Bytes :=
  record ([(8, 8, handle), (28, 4, ids.length)] ++ emadFields 32 0 ids)

/-! ## A platform -/

def onePartition : Platform := ⟨0x8001, [0x8001], by decide, fun _ => 0, fun _ => 0⟩

/-- A datastore of `dataSize` bytes and a partition of version 1.1. -/
def bootV11 (dataSize : ℕ) (h : dataSize < 2 ^ 64) : Boot :=
  ⟨true, dataSize, h, makeFfaVersion 1 1, by decide, by decide⟩

/-- A mailbox with buffers of `pages` pages. -/
def mappedMailbox (pages : Fin 32) : Mailbox := ⟨.empty, pages, fun _ => 0, 0, 0⟩

def setUp (version : UInt32) : List Call :=
  [.version false version, .mailbox false (mappedMailbox 1), .mailbox true (mappedMailbox 1)]

end TrustedFirmware.Spmc
