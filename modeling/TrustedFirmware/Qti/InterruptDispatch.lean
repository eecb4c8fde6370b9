import TrustedFirmware.Qti.InterruptTable

/-! # Dispatching an interrupt

`qti_interrupt_svc_dispatch()` on one CPU while others register and unregister. The entry is looked up
under the lock; the handler is called, and the context it returns is stored, after the lock was
released. What belongs to which registration is recorded beside the table. -/
namespace TrustedFirmware.Qti
open Libc SlotTable Runs
set_option autoImplicit false

/-! ## The steps -/

/-- What was registered together. The context is replaced by what the handler returns. -/
structure Registration where
  func : UInt64
  ctx : UInt64
  deriving DecidableEq, Repr

/-- Where the dispatching CPU stands: `p` is the index of the entry it found, and `reg` the
registration the entry held then. -/
inductive Dispatcher where
  | idle
  | found (p : ℕ) (type : IsrHandlerType) (func ctx : UInt64) (reg : Option ℕ)
  | running (p : ℕ) (type : IsrHandlerType) (reg : Option ℕ)
  deriving DecidableEq, Repr

structure IsrSystem where
  table : IsrTable
  cpu : Dispatcher
  /-- The registration that each entry holds. -/
  owner : ℕ → Option ℕ
  /-- All registrations that were made, the oldest first. -/
  regs : List Registration

def isrSystem : IsrSystem := ⟨isrTable, .idle, fun _ => none, []⟩

inductive IsrStep where
  | call (call : IsrCall)
  | lookup (id : UInt32)
  | enter
  | leave (ret : UInt64)

inductive IsrEvent where
  | answered (r : Int)
  | unhandled
  | copied
  | called (func ctx : UInt64) (reg : Option ℕ)
  | stored (p : ℕ) (reg : Option ℕ)
  | returned
  deriving DecidableEq, Repr

/-- The registration that a call with the answer `r` made. -/
def IsrCall.made (r : Int) : IsrCall → List Registration
  | .register _ _ func ctx => if r = 0 then [⟨func, ctx⟩] else []
  | .unregister _ => []

/-- A call changes one entry at most, which then belongs to the registration it made, if any. -/
def IsrSystem.answered (s : IsrSystem) (t : IsrTable) (made : List Registration) : IsrSystem :=
  { s with
    table := t
    owner := fun i =>
      if t.entry[i]? = s.table.entry[i]? then s.owner i
      else if made = [] then none else some s.regs.length
    regs := s.regs ++ made }

def IsrTable.lookup (t : IsrTable) (id : UInt32) : Option (ℕ × Isr) :=
  if t.cnt = 0 then none
  else (t.entry.findIdx? fun p => p.id == id).bind fun i => t.entry[i]?.map fun p => (i, p)

def IsrSystem.advance (s : IsrSystem) : IsrStep → Option (IsrSystem × IsrEvent)
  | .call call =>
    let (r, t) := call.perform s.table
    some (s.answered t (call.made r), .answered r)
  | .lookup id =>
    if s.cpu = .idle then
      match s.table.lookup id with
      | none => some (s, .unhandled)
      | some (i, p) => some ({ s with cpu := .found i p.type p.func p.ctx (s.owner i) }, .copied)
    else none
  | .enter =>
    match s.cpu with
    | .found i .QTI_ISR_HANDLER_ID_CTX func _ reg =>
      -- the context is read again from the entry
      s.table.entry[i]?.map fun p =>
        ({ s with cpu := .running i .QTI_ISR_HANDLER_ID_CTX reg }, .called func p.ctx reg)
    | .found i .QTI_ISR_HANDLER_CTX_ONLY func ctx reg =>
      some ({ s with cpu := .running i .QTI_ISR_HANDLER_CTX_ONLY reg }, .called func ctx reg)
    | _ => none
  | .leave ret =>
    match s.cpu with
    | .running i .QTI_ISR_HANDLER_ID_CTX reg =>
      s.table.entry[i]?.map fun p =>
        ({ s with
          table := s.table.write i { p with ctx := ret } s.table.cnt
          cpu := .idle
          regs := match reg with
            | some r => s.regs.modify r fun x => { x with ctx := ret }
            | none => s.regs }, .stored i reg)
    | .running _ .QTI_ISR_HANDLER_CTX_ONLY _ => some ({ s with cpu := .idle }, .returned)
    | _ => none

/-! ## What a step may do -/

def Owned (s : IsrSystem) : Prop :=
  ∀ i r, s.owner i = some r →
    ∃ p, s.table.entry[i]? = some p ∧ s.regs[r]? = some ⟨p.func, p.ctx⟩

/-- A handler is called with the context of its registration, and what it returns is stored into the
entry of this registration. -/
def RightEvent (s : IsrSystem) : IsrEvent → Prop
  | .called func ctx reg => ∃ r, reg = some r ∧ s.regs[r]? = some ⟨func, ctx⟩
  | .stored p reg => ∃ r, reg = some r ∧ s.owner p = some r
  | _ => True

def Dispatcher.pending : Dispatcher → Option ℕ
  | .found p .QTI_ISR_HANDLER_ID_CTX _ _ _ => some p
  | .running p .QTI_ISR_HANDLER_ID_CTX _ => some p
  | _ => none

/-- The pending entry is not unregistered, and the number of the free entries is not dispatched while
some entry is free and another one is counted. -/
def Undisturbed (s : IsrSystem) : IsrStep → Prop
  | .call (.unregister id) => s.table.cnt = 0 ∨
    ∀ i, s.cpu.pending = some i → (s.table.entry.findIdx? fun p => p.id == id) ≠ some i
  | .lookup id => id = QTI_INTR_INVALID_INT_NUM → s.table.cnt = 0 ∨ ∀ p ∈ s.table.entry, p.free = false
  | _ => True

/-! ## Calls of the other CPUs -/

def CpuOk (s : IsrSystem) : Prop :=
  match s.cpu with
  | .idle => True
  | .found p .QTI_ISR_HANDLER_ID_CTX func _ reg =>
    ∃ r c, reg = some r ∧ s.owner p = some r ∧ s.regs[r]? = some ⟨func, c⟩
  | .found _ .QTI_ISR_HANDLER_CTX_ONLY func ctx reg =>
    ∃ r, reg = some r ∧ s.regs[r]? = some ⟨func, ctx⟩
  | .running p .QTI_ISR_HANDLER_ID_CTX reg => ∃ r, reg = some r ∧ s.owner p = some r
  | .running _ .QTI_ISR_HANDLER_CTX_ONLY _ => True

structure SystemOk (s : IsrSystem) : Prop where
  own : ∀ i r, s.owner i = some r →
    ∃ p, s.table.entry[i]? = some p ∧ p.free = false ∧ s.regs[r]? = some ⟨p.func, p.ctx⟩
  occupied : ∀ i p, s.table.entry[i]? = some p → p.free = false → ∃ r, s.owner i = some r
  inj : ∀ i j r, s.owner i = some r → s.owner j = some r → i = j
  cpu : CpuOk s

/-- A state in which one entry was written, and the owner that its new content asks for. -/
structure Rewritten (s s' : IsrSystem) (i : ℕ) (q : Isr) : Prop where
  entry : ∀ j, s'.table.entry[j]? = if j = i then some q else s.table.entry[j]?
  others : ∀ j, j ≠ i → s'.owner j = s.owner j
  owner : s'.owner i = if q.free then none else some s.regs.length
  regs : ∀ (r : ℕ) x, s.regs[r]? = some x → s'.regs[r]? = some x
  made : q.free = false → s'.regs[s.regs.length]? = some ⟨q.func, q.ctx⟩
  cpu : s'.cpu = s.cpu

section Steps
variable {s s' : IsrSystem} {i : ℕ} {q : Isr}

theorem SystemOk.pending (h : SystemOk s) (hp : s.cpu.pending = some i) : ∃ r, s.owner i = some r := by
  have hcpu := h.cpu
  unfold CpuOk at hcpu
  unfold Dispatcher.pending at hp
  split at hp
  · next heq =>
    cases hp
    rw [heq] at hcpu
    obtain ⟨r, -, -, howner, -⟩ := hcpu
    exact ⟨r, howner⟩
  · next heq =>
    cases hp
    rw [heq] at hcpu
    obtain ⟨r, -, howner⟩ := hcpu
    exact ⟨r, howner⟩
  · cases hp

theorem SystemOk.rewritten (h : SystemOk s) (hw : Rewritten s s' i q) (hi : s.cpu.pending ≠ some i) :
    SystemOk s' := by
  have hnew : ∀ j, s.owner j ≠ some s.regs.length := by
    intro j hj
    obtain ⟨p, -, -, hreg⟩ := h.own j _ hj
    rw [List.getElem?_eq_none (Nat.le_refl _)] at hreg
    cases hreg
  have hcase : ∀ j r, s'.owner j = some r →
      (j = i ∧ q.free = false ∧ r = s.regs.length) ∨ j ≠ i ∧ s.owner j = some r := by
    intro j r hj
    by_cases hji : j = i
    · subst hji
      rw [hw.owner] at hj
      split at hj
      · cases hj
      · next hfree =>
        cases hj
        exact .inl ⟨rfl, Bool.eq_false_iff.mpr hfree, rfl⟩
    · exact .inr ⟨hji, hw.others j hji ▸ hj⟩
  constructor
  · intro j r hj
    rw [hw.entry]
    obtain ⟨rfl, hfree, rfl⟩ | ⟨hji, hj⟩ := hcase j r hj
    · exact ⟨q, if_pos rfl, hfree, hw.made hfree⟩
    · obtain ⟨p, hp, hfree, hreg⟩ := h.own j r hj
      exact ⟨p, (if_neg hji).trans hp, hfree, hw.regs r _ hreg⟩
  · intro j p hp hfree
    rw [hw.entry] at hp
    by_cases hji : j = i
    · rw [if_pos hji] at hp
      cases hp
      rw [hji, hw.owner, hfree]
      exact ⟨_, rfl⟩
    · rw [if_neg hji] at hp
      rw [hw.others j hji]
      exact h.occupied j p hp hfree
  · intro j k r hj hk
    obtain ⟨rfl, -, rfl⟩ | ⟨-, hj⟩ := hcase j r hj
    · obtain ⟨rfl, -, -⟩ | ⟨-, hk⟩ := hcase k _ hk
      · rfl
      · exact absurd hk (hnew k)
    · obtain ⟨rfl, -, rfl⟩ | ⟨-, hk⟩ := hcase k r hk
      · exact absurd hj (hnew j)
      · exact h.inj j k r hj hk
  · have hcpu := h.cpu
    unfold CpuOk at hcpu ⊢
    rw [hw.cpu]
    unfold Dispatcher.pending at hi
    split
    · trivial
    · next heq =>
      rw [heq] at hcpu hi
      obtain ⟨r, c, hreg, howner, hfunc⟩ := hcpu
      refine ⟨r, c, hreg, ?_, hw.regs r _ hfunc⟩
      rw [hw.others _ fun he => hi (congrArg some he), howner]
    · next heq =>
      rw [heq] at hcpu
      obtain ⟨r, hreg, hboth⟩ := hcpu
      exact ⟨r, hreg, hw.regs r _ hboth⟩
    · next heq =>
      rw [heq] at hcpu hi
      obtain ⟨r, hreg, howner⟩ := hcpu
      refine ⟨r, hreg, ?_⟩
      rw [hw.others _ fun he => hi (congrArg some he), howner]
    · trivial

theorem answered_refused (s : IsrSystem) : s.answered s.table [] = s := by
  simp [IsrSystem.answered]

theorem getElem?_of_split {l pre post : List Isr} {p : Isr} (h : l = pre ++ p :: post) :
    l[pre.length]? = some p := by simp [h]

theorem answered_rewritten {p : Isr} (hp : s.table.entry[i]? = some p) {cnt : ℕ}
    {made : List Registration} (hmade : q.free = false → made = [⟨q.func, q.ctx⟩])
    (howner : (if q = p then s.owner i else if made = [] then none else some s.regs.length) =
      if q.free then none else some s.regs.length) :
    Rewritten s (s.answered (s.table.write i q cnt) made) i q := by
  have hentry := IsrTable.getElem?_write hp q cnt
  constructor
  · exact hentry
  · intro j hj
    refine if_pos ?_
    rw [hentry, if_neg hj]
  · rw [← howner]
    simp only [IsrSystem.answered, hentry, if_true, hp, Option.some_inj]
  · intro r x hx
    exact (List.getElem?_append_left (List.getElem?_eq_some_iff.mp hx).1).trans hx
  · intro hfree
    rw [hmade hfree]
    exact List.getElem?_concat_length
  · rfl

theorem SystemOk.unowned (h : SystemOk s) {p : Isr} (hp : s.table.entry[i]? = some p)
    (hfree : p.free = true) : s.owner i = none := by
  cases howner : s.owner i with
  | none => rfl
  | some r =>
    obtain ⟨p', hp', hfree', -⟩ := h.own i r howner
    rw [hp] at hp'
    cases hp'
    rw [hfree] at hfree'
    cases hfree'

theorem SystemOk.answered (h : SystemOk s) {call : IsrCall} (hu : Undisturbed s (.call call)) {r : Int}
    {t : IsrTable} (hperf : call.perform s.table = (r, t)) : SystemOk (s.answered t (call.made r)) := by
  cases call with
  | register id type func ctx =>
    obtain ⟨hr, rfl⟩ | ⟨rfl, pre, p, post, hsplit, hfree, hnew, rfl⟩ := register_accepted hperf
    · rw [IsrCall.made, if_neg hr, answered_refused]
      exact h
    have hp := getElem?_of_split hsplit
    have hid : Isr.free ⟨type, func, id, ctx⟩ = false := by
      refine Bool.eq_false_iff.mpr fun hf => hnew p (mem_of_split hsplit) ?_
      exact (Isr.free_iff.mp hfree).trans (Isr.free_iff.mp hf).symm
    refine h.rewritten (answered_rewritten hp (fun _ => rfl) ?_) ?_
    · rw [hid, if_neg, IsrCall.made, if_pos rfl, if_neg (List.cons_ne_nil _ _), if_neg Bool.false_ne_true]
      rintro rfl
      rw [hid] at hfree
      cases hfree
    · intro hpending
      obtain ⟨r, howner⟩ := h.pending hpending
      rw [h.unowned hp hfree] at howner
      cases howner
  | unregister id =>
    obtain ⟨rfl, rfl⟩ | ⟨rfl, hcnt, pre, p, post, hsplit, -, hidx, rfl⟩ := unregister_accepted hperf
    · rw [IsrCall.made, answered_refused]
      exact h
    have hp := getElem?_of_split hsplit
    refine h.rewritten (answered_rewritten hp (fun hf => (nomatch hf)) ?_) ?_
    · -- an entry that was clear already has no owner
      split
      · next he => exact h.unowned hp (he ▸ rfl)
      · rfl
    · exact fun hpending => (hu.resolve_left hcnt) _ hpending hidx

/-! ## Steps of the dispatching CPU -/

theorem lookup_occupied {id : UInt32} {p : Isr} (hu : Undisturbed s (.lookup id))
    (hl : s.table.lookup id = some (i, p)) : s.table.entry[i]? = some p ∧ p.free = false := by
  unfold IsrTable.lookup at hl
  split at hl
  · cases hl
  next hcnt =>
  obtain ⟨j, hj, hl⟩ := Option.bind_eq_some_iff.mp hl
  obtain ⟨p', hp', heq⟩ := Option.map_eq_some_iff.mp hl
  cases heq
  refine ⟨hp', Bool.eq_false_iff.mpr fun hfree => ?_⟩
  obtain ⟨pre, a, post, hsplit, rfl, ha⟩ := findIdx?_split hj
  rw [getElem?_of_split hsplit] at hp'
  cases hp'
  have hid : id = QTI_INTR_INVALID_INT_NUM := (beq_iff_eq.mp ha).symm.trans (Isr.free_iff.mp hfree)
  have hfull := (hu hid).resolve_left hcnt p (mem_of_split hsplit)
  rw [hfree] at hfull
  cases hfull

theorem SystemOk.stored (h : SystemOk s) {p : Isr} {r : ℕ} (hp : s.table.entry[i]? = some p)
    (howner : s.owner i = some r) (ret : UInt64) :
    SystemOk { s with
      table := s.table.write i { p with ctx := ret } s.table.cnt
      cpu := .idle
      regs := s.regs.modify r fun x => { x with ctx := ret } } := by
  have hentry := IsrTable.getElem?_write hp { p with ctx := ret } s.table.cnt
  obtain ⟨p', hp', hfree, hreg⟩ := h.own i r howner
  rw [hp] at hp'
  cases hp'
  constructor
  · intro j r' hj
    change ∃ q, (s.table.write i _ _).entry[j]? = some q ∧ _ ∧ (s.regs.modify r _)[r']? = _
    rw [hentry, List.getElem?_modify]
    by_cases hji : j = i
    · subst hji
      obtain rfl : r = r' := Option.some.inj (howner.symm.trans hj)
      exact ⟨_, if_pos rfl, hfree, by simp [hreg]⟩
    · obtain ⟨q, hq, hqfree, hqreg⟩ := h.own j r' hj
      have hne : r ≠ r' := by
        rintro rfl
        exact hji (h.inj j i r hj howner)
      exact ⟨q, (if_neg hji).trans hq, hqfree, by simp [hqreg, hne]⟩
  · intro j q hq hqfree
    change (s.table.write i _ _).entry[j]? = some q at hq
    rw [hentry] at hq
    by_cases hji : j = i
    · exact ⟨r, hji ▸ howner⟩
    · rw [if_neg hji] at hq
      exact h.occupied j q hq hqfree
  · exact h.inj
  · trivial

theorem SystemOk.moved (h : SystemOk s) {cpu : Dispatcher} (hcpu : CpuOk { s with cpu := cpu }) :
    SystemOk { s with cpu := cpu } := ⟨h.own, h.occupied, h.inj, hcpu⟩

theorem SystemOk.enter (h : SystemOk s) {e : IsrEvent} (hs : s.advance .enter = some (s', e)) :
    SystemOk s' ∧ RightEvent s e := by
  have hcpu := h.cpu
  unfold CpuOk at hcpu
  unfold IsrSystem.advance at hs
  dsimp only at hs
  split at hs
  · next heq =>
    rw [heq] at hcpu
    obtain ⟨r, c, rfl, howner, hfunc⟩ := hcpu
    obtain ⟨p, hp, hstep⟩ := Option.map_eq_some_iff.mp hs
    cases hstep
    obtain ⟨p', hp', -, hreg⟩ := h.own _ r howner
    rw [hp] at hp'
    cases hp'
    rw [hreg] at hfunc
    cases hfunc
    exact ⟨h.moved ⟨r, rfl, howner⟩, r, rfl, hreg⟩
  · next heq =>
    rw [heq] at hcpu
    obtain ⟨r, rfl, hreg⟩ := hcpu
    cases hs
    exact ⟨h.moved trivial, r, rfl, hreg⟩
  · cases hs

theorem SystemOk.leave (h : SystemOk s) {ret : UInt64} {e : IsrEvent}
    (hs : s.advance (.leave ret) = some (s', e)) : SystemOk s' ∧ RightEvent s e := by
  have hcpu := h.cpu
  unfold CpuOk at hcpu
  unfold IsrSystem.advance at hs
  dsimp only at hs
  split at hs
  · next heq =>
    rw [heq] at hcpu
    obtain ⟨r, rfl, howner⟩ := hcpu
    obtain ⟨p, hp, hstep⟩ := Option.map_eq_some_iff.mp hs
    cases hstep
    exact ⟨h.stored hp howner ret, r, rfl, howner⟩
  · cases hs
    exact ⟨h.moved trivial, trivial⟩
  · cases hs

theorem SystemOk.advance (h : SystemOk s) {step : IsrStep} (hu : Undisturbed s step) {e : IsrEvent}
    (hs : s.advance step = some (s', e)) : SystemOk s' ∧ RightEvent s e := by
  cases step with
  | call call =>
    cases hs
    exact ⟨h.answered hu rfl, trivial⟩
  | lookup id =>
    unfold IsrSystem.advance at hs
    dsimp only at hs
    split at hs
    · split at hs
      · cases hs
        exact ⟨h, trivial⟩
      · next i p hl =>
        cases hs
        obtain ⟨hp, hfree⟩ := lookup_occupied hu hl
        obtain ⟨r, howner⟩ := h.occupied i p hp hfree
        obtain ⟨p', hp', -, hreg⟩ := h.own i r howner
        rw [hp] at hp'
        cases hp'
        refine ⟨h.moved ?_, trivial⟩
        cases htype : p.type with
        | QTI_ISR_HANDLER_ID_CTX => exact ⟨r, p.ctx, howner, howner, hreg⟩
        | QTI_ISR_HANDLER_CTX_ONLY => exact ⟨r, howner, hreg⟩
    · cases hs
  | enter => exact h.enter hs
  | leave ret => exact h.leave hs

theorem SystemOk.owned (h : SystemOk s) : Owned s := by
  intro i r howner
  obtain ⟨p, hp, -, hreg⟩ := h.own i r howner
  exact ⟨p, hp, hreg⟩

theorem systemOk_isrSystem : SystemOk isrSystem where
  own := fun _ _ h => nomatch h
  occupied := by
    intro i p hp hfree
    obtain rfl := List.eq_of_mem_replicate (List.mem_of_getElem? hp)
    cases hfree
  inj := fun _ _ _ h => nomatch h
  cpu := trivial

end Steps

/-! ## Runs -/

/-- In every run whose steps all leave the dispatch undisturbed, each registration's entry holds its
own handler and context, and the next such step calls a handler with its own context only and stores
into the entry of its registration only. -/
theorem dispatch_own_context {trace : List (IsrStep × IsrEvent)} {s : IsrSystem}
    (h : Traced (Performs IsrSystem.advance Undisturbed) isrSystem trace s) :
    Owned s ∧ ∀ step s' e, Undisturbed s step → s.advance step = some (s', e) →
      Owned s' ∧ RightEvent s e := by
  have hok : SystemOk s := by
    refine Traced.invariant (I := fun _ s => SystemOk s) h systemOk_isrSystem ?_
    rintro _ u ⟨step, e⟩ v hu ⟨hcond, hs⟩
    exact (hu.advance hcond hs).1
  refine ⟨hok.owned, ?_⟩
  intro step s' e hu hs
  obtain ⟨hok', hright⟩ := hok.advance hu hs
  exact ⟨hok'.owned, hright⟩

/-- Steps that disturb no dispatch in any state. -/
def IsrStep.plain : IsrStep → Bool
  | .call (.unregister _) => false
  | .lookup id => id != QTI_INTR_INVALID_INT_NUM
  | _ => true

theorem IsrStep.plain_undisturbed (s : IsrSystem) (step : IsrStep) (h : step.plain = true) :
    Undisturbed s step := by
  cases step with
  | call call =>
    cases call with
    | register => trivial
    | unregister => cases h
  | lookup id => exact fun hid => absurd hid (bne_iff_ne.mp h)
  | enter => trivial
  | leave => trivial

theorem dispatch_own_context_called : ∃ trace s s',
    Traced (Performs IsrSystem.advance Undisturbed) isrSystem trace s ∧
      s.advance .enter = some (s', .called 0x100 0xA (some 0)) ∧
      Owned s' ∧ RightEvent s (.called 0x100 0xA (some 0)) := by
  obtain ⟨trace, s, e, s', hrun, hnext, hq⟩ := @execute_next _ _ _ IsrSystem.advance
    (fun _ step => step.plain = true) _ (fun _ _ e _ => decide (e = .called 0x100 0xA (some 0))) isrSystem
    [.call (.register 1 .QTI_ISR_HANDLER_ID_CTX 0x100 0xA), .lookup 1] .enter (by decide)
  obtain rfl := of_decide_eq_true hq
  have hu := hrun.weaken IsrStep.plain_undisturbed
  exact ⟨trace, s, s', hu, hnext, (dispatch_own_context hu).2 .enter s' _ trivial hnext⟩

/-- Interrupt 1 is unregistered and its entry taken by interrupt 2 between the lookup and the call:
the handler of 1 is called with the context of 2, and what it returns replaces the context of 2. -/
theorem other_context_overwritten : ∃ trace s,
    Traced (Performs IsrSystem.advance fun _ _ => True) isrSystem trace s ∧
      (trace.map Prod.snd = [.answered 0, .copied, .answered 0, .answered 0,
          .called 0x100 0xB (some 0), .stored 0 (some 0)] ∧
        s.table.entry[0]? = some ⟨.QTI_ISR_HANDLER_ID_CTX, 0x200, 2, 0xC⟩ ∧
        s.owner 0 = some 1 ∧ s.regs = [⟨0x100, 0xC⟩, ⟨0x200, 0xB⟩]) := by
  obtain ⟨trace, s, hrun, hq⟩ := @execute_traced _ _ _ IsrSystem.advance (fun _ _ => True) _
    (fun trace (s : IsrSystem) => decide (trace.map Prod.snd = [.answered 0, .copied, .answered 0, .answered 0,
        .called 0x100 0xB (some 0), .stored 0 (some 0)] ∧
      s.table.entry[0]? = some (⟨.QTI_ISR_HANDLER_ID_CTX, 0x200, 2, 0xC⟩ : Isr) ∧
      s.owner 0 = some 1 ∧ s.regs = [⟨0x100, 0xC⟩, ⟨0x200, 0xB⟩]))
    isrSystem [.call (.register 1 .QTI_ISR_HANDLER_ID_CTX 0x100 0xA), .lookup 1, .call (.unregister 1),
      .call (.register 2 .QTI_ISR_HANDLER_ID_CTX 0x200 0xB), .enter, .leave 0xC] (by decide)
  exact ⟨trace, s, hrun, of_decide_eq_true hq⟩

end TrustedFirmware.Qti
