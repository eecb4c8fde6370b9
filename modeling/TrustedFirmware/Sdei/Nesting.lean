import TrustedFirmware.Sdei.ReleaseSafety

/-! # Nested dispatches

Interrupts are taken only at a higher priority than that of the dispatches that run on the PE, so a
dispatch stack holds at most a normal event with a critical one above it. A completion takes the
top of the stack, which is the context of the last dispatch that has not been completed. -/
namespace TrustedFirmware.Sdei
open Runs
set_option autoImplicit false
set_option linter.unusedSectionVars false

variable {M : Type} [DecidableEq M] {n : ℕ} {P : Platform M n} {s s' : State M n} {p : Fin n}

variable {d : DispatchContext M} {t : List (Action n × Outcome)} {a : Action n} {o : Outcome}

/-! ## The history of a PE -/

/-- The contexts over which events were dispatched on a PE and not completed yet, the last one
first. -/
def pendingStep (p : Fin n) (saved : List NsContext) (x : Action n × Outcome) : List NsContext :=
  if x.1.pe = some p then
    match x.2 with
    | .dispatched c => c :: saved
    | .completed => saved.tail
    | _ => saved
  else saved

def pending (p : Fin n) (t : List (Action n × Outcome)) : List NsContext :=
  t.foldl (pendingStep p) []

theorem pending_snoc (p : Fin n) (t : List (Action n × Outcome)) (x : Action n × Outcome) :
    pending p (t ++ [x]) = pendingStep p (pending p t) x := by
  simp [pending, List.foldl_append]

theorem pendingStep_silent {saved : List NsContext} (h : o.silent) :
    pendingStep p saved (a, o) = saved := by
  unfold pendingStep
  cases o with
  | internal => simp
  | returned ret => simp
  | dispatched c => exact absurd h id
  | completed => exact absurd h id

theorem pendingStep_other {saved : List NsContext} {x : Action n × Outcome} (h : x.1.pe ≠ some p) :
    pendingStep p saved x = saved := if_neg h

/-! ## The invariant -/

def slots (P : Platform M n) (s : State M n) (p : Fin n) : List (Slot M n) :=
  (s.cpu p).dispatchStack.map fun d => P.slot p d.map

/-- At most a normal event with a critical one above it. -/
def Nested (P : Platform M n) : List (DispatchContext M) → Prop
  | [] => True
  | [_] => True
  | [c, d] => P.isEventCritical c.map = true ∧ P.isEventCritical d.map = false
  | _ => False

def SavedFrom (d : DispatchContext M) (c : NsContext) : Prop := d = saveEventCtx d.map c d.dispatchJmp

structure NestInv (P : Platform M n) (t : List (Action n × Outcome)) (s : State M n) : Prop where
  nested : ∀ p, Nested P (s.cpu p).dispatchStack
  running : ∀ x, (s.entry x).state.running = true ↔ ∃ p, x ∈ slots P s p
  nodup : ∀ p, (slots P s p).Nodup
  apart : ∀ p q, p ≠ q → ∀ x ∈ slots P s p, x ∉ slots P s q
  saved : ∀ p, List.Forall₂ SavedFrom (s.cpu p).dispatchStack (pending p t)

theorem nestInv_start (gic : Gic n) (ctx : Fin n → NsContext) (online : Fin n → Bool) :
    NestInv P [] (start P gic ctx online) := by
  refine ⟨fun _ => trivial, ?_, fun _ => List.nodup_nil, ?_, fun _ => .nil⟩
  · intro x
    simp [start, slots, EvState.running]
  · intro p q _ x hx
    cases hx

theorem NestInv.of_same (hI : NestInv P t s) (ho : o.silent)
    (hstack : ∀ p, (s'.cpu p).dispatchStack = (s.cpu p).dispatchStack)
    (hrun : ∀ x, (s'.entry x).state.running = (s.entry x).state.running) :
    NestInv P (t ++ [(a, o)]) s' := by
  have hslots (p : Fin n) : slots P s' p = slots P s p := by
    unfold slots
    rw [hstack]
  refine ⟨?_, ?_, ?_, ?_, ?_⟩
  · intro p
    rw [hstack]
    exact hI.nested p
  · intro x
    rw [hrun, hI.running x]
    simp only [hslots]
  · intro p
    rw [hslots]
    exact hI.nodup p
  · intro p q hpq x hx
    rw [hslots] at hx ⊢
    exact hI.apart p q hpq x hx
  · intro p
    rw [hstack, pending_snoc, pendingStep_silent ho]
    exact hI.saved p

structure Grown (s s' : State M n) (p : Fin n) (d : DispatchContext M) : Prop where
  top : (s'.cpu p).dispatchStack = d :: (s.cpu p).dispatchStack
  other : ∀ q, q ≠ p → (s'.cpu q).dispatchStack = (s.cpu q).dispatchStack

theorem Grown.slots_eq (h : Grown s s' p d) (q : Fin n) :
    slots P s' q = if q = p then P.slot p d.map :: slots P s q else slots P s q := by
  unfold slots
  split
  · next hqp => rw [hqp, h.top, List.map_cons]
  · next hqp => rw [h.other q hqp]

theorem Grown.mem_iff (h : Grown s s' p d) {q : Fin n} {x : Slot M n} :
    x ∈ slots P s' q ↔ q = p ∧ x = P.slot p d.map ∨ x ∈ slots P s q := by
  rw [h.slots_eq]
  split
  · next hqp => rw [List.mem_cons, and_iff_right hqp]
  · next hqp => rw [or_iff_right fun h => hqp h.1]

theorem Grown.exists_mem_iff (h : Grown s s' p d) {x : Slot M n} (hx : x ≠ P.slot p d.map) :
    (∃ q, x ∈ slots P s' q) ↔ ∃ q, x ∈ slots P s q :=
  exists_congr fun _ => by rw [h.mem_iff, or_iff_right fun h => hx h.2]

theorem NestInv.push (hI : NestInv P t s) (ha : a.pe = some p) (hsaved : SavedFrom d (s.ctx p))
    (h : Grown s s' p d) (hnest : Nested P (d :: (s.cpu p).dispatchStack))
    (hstate : (s.entry (P.slot p d.map)).state = .rEG_) (hmoves : Moves s s' (P.slot p d.map) .REG_) :
    NestInv P (t ++ [(a, .dispatched (s.ctx p))]) s' := by
  have hfresh (q : Fin n) : P.slot p d.map ∉ slots P s q := by
    intro hx
    have hrun := (hI.running _).mpr ⟨q, hx⟩
    rw [hstate] at hrun
    cases hrun
  refine ⟨?_, ?_, ?_, ?_, ?_⟩
  · intro q
    by_cases hqp : q = p
    · subst hqp
      rw [h.top]
      exact hnest
    · rw [h.other q hqp]
      exact hI.nested q
  · intro x
    rw [hmoves]
    split
    · next hx => exact ⟨fun _ => ⟨p, h.mem_iff.mpr (.inl ⟨rfl, hx⟩)⟩, fun _ => rfl⟩
    · next hx => rw [hI.running x, h.exists_mem_iff hx]
  · intro q
    rw [h.slots_eq]
    split
    · exact List.nodup_cons.mpr ⟨hfresh q, hI.nodup q⟩
    · exact hI.nodup q
  · intro q r hqr x hx hx'
    rcases h.mem_iff.mp hx with ⟨rfl, rfl⟩ | hold
    · rcases h.mem_iff.mp hx' with ⟨rfl, -⟩ | hold'
      · exact hqr rfl
      · exact hfresh r hold'
    · rcases h.mem_iff.mp hx' with ⟨rfl, rfl⟩ | hold'
      · exact hfresh q hold
      · exact hI.apart q r hqr x hold hold'
  · intro q
    rw [pending_snoc]
    by_cases hqp : q = p
    · subst hqp
      rw [h.top, pendingStep, if_pos ha]
      exact .cons hsaved (hI.saved q)
    · rw [h.other q hqp, pendingStep_other (by rw [ha]; simpa using fun h => hqp h.symm)]
      exact hI.saved q

theorem NestInv.pop (hI : NestInv P t s) {st : EvState} (ha : a.pe = some p) (h : Grown s' s p d)
    (hst : st.running = false) (hmoves : Moves s s' (P.slot p d.map) st) :
    NestInv P (t ++ [(a, .completed)]) s' := by
  have hnodup (q : Fin n) := h.slots_eq q ▸ hI.nodup q
  have hgone (q : Fin n) : P.slot p d.map ∉ slots P s' q := by
    intro hx
    by_cases hqp : q = p
    · have hq := hnodup q
      rw [if_pos hqp, List.nodup_cons] at hq
      exact hq.1 hx
    · exact hI.apart p q (fun h => hqp h.symm) _ (h.mem_iff.mpr (.inl ⟨rfl, rfl⟩))
        (h.mem_iff.mpr (.inr hx))
  refine ⟨?_, ?_, ?_, ?_, ?_⟩
  · intro q
    by_cases hqp : q = p
    · subst hqp
      have hnest := hI.nested q
      rw [h.top] at hnest
      match (s'.cpu q).dispatchStack, hnest with
      | [], _ => trivial
      | [_], _ => trivial
    · rw [← h.other q hqp]
      exact hI.nested q
  · intro x
    rw [hmoves]
    split
    · next hx =>
      subst hx
      rw [hst]
      exact ⟨fun h => absurd h (by simp), fun ⟨q, hxq⟩ => absurd hxq (hgone q)⟩
    · next hx => rw [hI.running x, h.exists_mem_iff hx]
  · intro q
    have hq := hnodup q
    split at hq
    · exact (List.nodup_cons.mp hq).2
    · exact hq
  · intro q r hqr x hx hx'
    exact hI.apart q r hqr x (h.mem_iff.mpr (.inr hx)) (h.mem_iff.mpr (.inr hx'))
  · intro q
    rw [pending_snoc]
    by_cases hqp : q = p
    · subst hqp
      have hsaved := hI.saved q
      rw [h.top] at hsaved
      obtain ⟨c, cs, -, htail, heq⟩ := List.forall₂_cons_left_iff.mp hsaved
      rw [pendingStep, if_pos ha, heq]
      exact htail
    · rw [← h.other q hqp, pendingStep_other (by rw [ha]; simpa using fun h => hqp h.symm)]
      exact hI.saved q

/-! ## Priorities -/

def takenMap (P : Platform M n) (s : State M n) (p : Fin n) : Option M :=
  match (s.cpu p).phase with
  | .acknowledged intr => P.findEventMapByIntr s intr (P.isSpi intr)
  | _ => none

def Action.handles : Action n → Option (Fin n)
  | .handle p => some p
  | _ => none

/-- Interrupts are taken at a higher priority than that of the dispatches running on the PE, a lower
value being a higher priority; and a PE is not powered up in the middle of a handler. -/
def Prioritised (P : Platform M n) (s : State M n) (a : Action n) : Prop :=
  (∀ p ∈ a.handles, ∀ m ∈ takenMap P s p, ∀ d ∈ (s.cpu p).dispatchStack,
    P.sdeiEventPriority m < P.sdeiEventPriority d.map) ∧
  ∀ p ∈ a.powersUp, (s.cpu p).dispatchStack.isEmpty = true

instance (P : Platform M n) (s : State M n) (a : Action n) : Decidable (Prioritised P s a) :=
  inferInstanceAs (Decidable ((∀ p ∈ a.handles, _) ∧ _))

theorem critical_of_lt {m m' : M} (h : P.sdeiEventPriority m < P.sdeiEventPriority m') :
    P.isEventCritical m = true ∧ P.isEventCritical m' = false := by
  have hlt := P.sdei_critical_must_have_higher_priority
  unfold Platform.sdeiEventPriority at h
  cases hm : P.isEventCritical m <;> cases hm' : P.isEventCritical m' <;> simp [hm, hm'] at h ⊢
  omega

theorem nested_push {ds : List (DispatchContext M)} (h : Nested P ds)
    (hd : ∀ c cs, ds = c :: cs → P.isEventCritical d.map = true ∧ P.isEventCritical c.map = false) :
    Nested P (d :: ds) := by
  match ds, h with
  | [], _ => trivial
  | [c], _ => exact hd c [] rfl
  | [c, e], h =>
    have hc := (hd c [e] rfl).2
    rw [h.1] at hc
    cases hc

theorem nested_of_cause {m : M} {intr : Option ℕ} {c : NsContext} (hnest : Nested P (s.cpu p).dispatchStack)
    (hprio : ∀ m ∈ takenMap P s p, ∀ d ∈ (s.cpu p).dispatchStack,
      P.sdeiEventPriority m < P.sdeiEventPriority d.map)
    (cause : ((s.cpu p).phase = .outside ∧ intr = none ∧ P.isMapExplicit m = true ∧
        mayNest P s p m = true) ∨
      ∃ i, (s.cpu p).phase = .acknowledged i ∧ intr = some i ∧
        P.findEventMapByIntr s i (P.isSpi i) = some m ∧
        (P.evNum m = SDEI_EVENT_0 ∨ (s.map m).bound = true)) :
    Nested P (saveEventCtx m c ⟨m, intr⟩ :: (s.cpu p).dispatchStack) := by
  refine nested_push hnest ?_
  intro e es hes
  rcases cause with ⟨-, -, -, hmay⟩ | ⟨i, hphase, -, hfind, -⟩
  · unfold mayNest at hmay
    rw [hes] at hmay
    simpa [saveEventCtx] using hmay
  · refine critical_of_lt (hprio m ?_ e ?_)
    · rw [takenMap, hphase]
      exact hfind
    · rw [hes]
      exact List.mem_cons_self

/-! ## Runs -/

theorem Moves.running {sl : Slot M n} {st : EvState} (h : Moves s s' sl st)
    (hst : st.running = (s.entry sl).state.running) (x : Slot M n) :
    (s'.entry x).state.running = (s.entry x).state.running := by
  rw [h]
  split
  · rename_i hx
    rw [hst, hx]
  · rfl

theorem SameStates.running (h : SameStates s s') (x : Slot M n) :
    (s'.entry x).state.running = (s.entry x).state.running := by
  rw [h]

theorem ResetStep.running {ok : M → Prop} (h : ResetStep P p ok s s') (x : Slot M n) :
    (s'.entry x).state.running = (s.entry x).state.running := by
  cases h with
  | quiet h =>
    cases h with
    | quiet map states view active => exact states.running x
  | unregistered hok h =>
    cases h with
    | unregistered state map states view active => exact states.running (trans_running state) x
  | released h =>
    cases h with
    | released dynamic count state bound inactive map states view active => exact states.running x

theorem Resets.same {ok : M → Prop} (h : Resets P p ok s s') :
    s'.view = s.view ∧ ∀ x, (s'.entry x).state.running = (s.entry x).state.running := by
  induction h with
  | refl => exact ⟨rfl, fun _ => rfl⟩
  | tail _ hstep ih => exact ⟨hstep.view.trans ih.1, fun x => (hstep.running x).trans (ih.2 x)⟩

theorem stack_of_view (h : s'.view = s.view) (p : Fin n) :
    (s'.cpu p).dispatchStack = (s.cpu p).dispatchStack :=
  congrArg Prod.fst (congrFun h p)

theorem Turns.stack {ds : List (DispatchContext M)} {f : Phase M} (h : Turns s s' p (ds, f)) :
    (s'.cpu p).dispatchStack = ds :=
  congrArg Prod.fst h.self

theorem Turns.stack_other {v : List (DispatchContext M) × Phase M} (h : Turns s s' p v) {q : Fin n}
    (hq : q ≠ p) : (s'.cpu q).dispatchStack = (s.cpu q).dispatchStack :=
  congrArg Prod.fst (h.other hq)

theorem Turns.same_stack {f : Phase M} (h : Turns s s' p ((s.cpu p).dispatchStack, f)) (q : Fin n) :
    (s'.cpu q).dispatchStack = (s.cpu q).dispatchStack := by
  by_cases hq : q = p
  · subst hq
    exact h.stack
  · exact h.stack_other hq

theorem NestInv.not_running (hI : NestInv P t s) (hempty : (s.cpu p).dispatchStack = []) (m : M) :
    (s.entry (some p, m)).state.running = false := by
  by_contra h
  rw [Bool.not_eq_false] at h
  obtain ⟨q, hx⟩ := (hI.running _).mp h
  obtain ⟨d, hd, heq⟩ := List.mem_map.mp hx
  have hq : q = p := by
    have h1 := congrArg Prod.fst heq
    simp only [Platform.slot] at h1
    split at h1
    · exact Option.some.inj h1
    · cases h1
  subst hq
  rw [hempty] at hd
  cases hd

theorem NestInv.effect {l : Label M n} (hI : NestInv P t s) (hl : Origin P s a o l)
    (h : Effect P l s s')
    (hprio : ∀ p m, l = .dispatched p m → ∀ m ∈ takenMap P s p, ∀ d ∈ (s.cpu p).dispatchStack,
      P.sdeiEventPriority m < P.sdeiEventPriority d.map)
    (hon : ∀ p, l = .cleared p → (s.cpu p).dispatchStack = []) : NestInv P (t ++ [(a, o)]) s' := by
  cases h with
  | quiet map states view active => exact hI.of_same hl (stack_of_view view) states.running
  | registered state dynamic map states view active =>
    exact hI.of_same hl (stack_of_view view) (states.running (by rw [state]; rfl))
  | unregistered state map states view active =>
    exact hI.of_same hl.1 (stack_of_view view) (states.running (trans_running state))
  | toggled hact state map states view active =>
    refine hI.of_same hl (stack_of_view view) (states.running ?_)
    rcases hact with rfl | rfl
    · exact trans_running state
    · exact trans_running state
  | bound dynamic free kind number map states view active =>
    exact hI.of_same hl (stack_of_view view) states.running
  | released dynamic count state bound inactive map states view active =>
    exact hI.of_same hl (stack_of_view view) states.running
  | acknowledged phase inactive map states view active =>
    exact hI.of_same hl view.same_stack states.running
  | ended map states view active => exact hI.of_same hl view.same_stack states.running
  | @dispatched _ _ p m intr cause state map states view active =>
    obtain ⟨rfl, hact⟩ := hl
    have ha : a.pe = some p := by
      rcases hact with rfl | ⟨evNum, rfl⟩
      · rfl
      · rfl
    have hsaved : SavedFrom (saveEventCtx m (s.ctx p) ⟨m, intr⟩) (s.ctx p) := rfl
    exact hI.push ha hsaved ⟨view.stack, fun q hq => view.stack_other hq⟩
      (nested_of_cause (hI.nested p) (hprio p m rfl) cause) state states
  | @completed _ _ p d ds act st phase hact stack state map states view active =>
    obtain ⟨rfl, c, rfl⟩ := hl
    have hst : st.running = false := by
      rcases hact with rfl | rfl
      · exact trans_running state
      · exact trans_running state
    exact hI.pop rfl ⟨by rw [view.stack, stack], fun q hq => (view.stack_other hq).symm⟩ hst states
  | @cleared _ _ p map states view active =>
    refine hI.of_same hl.1 (stack_of_view view) ?_
    rintro ⟨q, m⟩
    rw [states]
    split
    · rename_i hx
      rw [show q = some p from hx.1, hI.not_running (hon p rfl) m]
      rfl
    · rfl

theorem NestInv.act (hI : NestInv P t s) (ha : Prioritised P s a) (h : act P s a = some (s', o)) :
    NestInv P (t ++ [(a, o)]) s' := by
  rcases act_effect h with ⟨l, hl, hq⟩ | ⟨p, c, r, rfl, rfl, hq⟩
  · refine hI.effect hl hq ?_ ?_
    · rintro p m rfl
      obtain ⟨-, rfl | ⟨evNum, rfl⟩⟩ := hl
      · exact ha.1 p rfl
      · -- A PE that dispatches explicitly has not acknowledged an interrupt.
        simp only [Sdei.act] at h
        split at h
        · cases h
        · rename_i hfree
          rw [takenMap, CpuState.free_phase hfree]
          simp
    · rintro p rfl
      obtain ⟨-, rfl⟩ := hl
      exact List.isEmpty_iff.mp (ha.2 p rfl)
  · have hsame := Resets.same hq
    exact hI.of_same trivial (stack_of_view hsame.1) hsame.2

theorem Nested.length_le {ds : List (DispatchContext M)} (h : Nested P ds) : ds.length ≤ 2 := by
  match ds, h with
  | [], _ => simp
  | [_], _ => simp
  | [_, _], _ => simp

/-! ## Completion -/

/-- The context after a completion: the saved x0 to x17 and, with the workaround, the saved
mitigation state. EVENT_COMPLETE returns to where the dispatch interrupted; COMPLETE_AND_RESUME
continues at `pc` in the client, with the interrupted place in the exception registers. -/
structure Restored (P : Platform M n) (resume : Option (BitVec 64)) (saved now after : NsContext) :
    Prop where
  x : ∀ i : Fin 31, after.x i = if i.val < 18 then saved.x i else now.x i
  cve : after.cve20183639Disable =
    if P.DYNAMIC_WORKAROUND_CVE_2018_3639 then saved.cve20183639Disable
    else now.cve20183639Disable
  complete : resume = none → after.elr = saved.elr ∧ after.spsr = saved.spsr ∧
    after.elrElx = now.elrElx ∧ after.spsrElx = now.spsrElx
  resume : ∀ pc, resume = some pc → after.elr = pc ∧ after.spsr = P.clientEl.spsr64 ∧
    after.elrElx = saved.elr ∧ after.spsrElx = saved.spsr

theorem restored_completedCtx {saved : NsContext} (h : SavedFrom d saved)
    (resume : Option (BitVec 64)) (now : NsContext) :
    Restored P resume saved now (completedCtx P resume d now) := by
  rw [h]
  cases resume with
  | none =>
    refine ⟨?_, rfl, fun _ => ⟨rfl, rfl, rfl, rfl⟩, fun pc hpc => absurd hpc (by simp)⟩
    intro i
    simp only [completedCtx, restoreEventCtx, saveEventCtx]
    split <;> rfl
  | some pc =>
    refine ⟨?_, rfl, fun hno => absurd hno (by simp), ?_⟩
    · intro i
      simp only [completedCtx, restoreEventCtx, saveEventCtx]
      split <;> rfl
    · rintro pc' hpc
      cases hpc
      exact ⟨rfl, rfl, rfl, rfl⟩

theorem complete_ctx {resume : Option (BitVec 64)} (h : sdeiEventComplete P s p resume = some s') :
    ∃ d ds, (s.cpu p).dispatchStack = d :: ds ∧ s'.ctx p = completedCtx P resume d (s.ctx p) := by
  unfold sdeiEventComplete at h
  split at h
  · cases h
  · rename_i d ds hstack
    split at h
    · cases h
    · dsimp only at h
      split at h
      · cases h
      · cases h
        exact ⟨d, ds, hstack, Function.update_self _ _ _⟩

/-- **Nesting.** In every run in which interrupts are taken only at a higher priority than that of
the dispatches running on the PE: a stack has at most two entries, a second one is a critical event
above a normal one; an entry is running exactly while it is on the stack of some PE; and a
completion restores the context of the dispatch that it matches. -/
theorem dispatch_stack_sound (P : Platform M n) (gic : Gic n) (ctx : Fin n → NsContext)
    (online : Fin n → Bool) (t : List (Action n × Outcome)) (s : State M n)
    (hrun : Traced (Performs (act P) (Prioritised P)) (start P gic ctx online) t s) :
    (∀ p, (s.cpu p).dispatchStack.length ≤ MAX_EVENT_NESTING ∧
      ∀ c d, (s.cpu p).dispatchStack = [c, d] →
        P.isEventCritical c.map = true ∧ P.isEventCritical d.map = false) ∧
    (∀ x, (s.entry x).state.running = true ↔
      ∃ p, ∃ d ∈ (s.cpu p).dispatchStack, P.slot p d.map = x) ∧
    ∀ p c s', act P s (.call p c) = some (s', .completed) →
      ∃ resume saved rest, c.completion = some resume ∧ pending p t = saved :: rest ∧
        Restored P resume saved (s.ctx p) (s'.ctx p) := by
  have hI : NestInv P t s := by
    refine hrun.invariant (I := fun t s => NestInv P t s) (nestInv_start gic ctx online) ?_
    rintro t u ⟨a, o⟩ v hI ⟨ha, hstep⟩
    exact hI.act ha hstep
  refine ⟨?_, ?_, ?_⟩
  · intro p
    refine ⟨(hI.nested p).length_le, ?_⟩
    intro c d hcd
    have hnest := hI.nested p
    rw [hcd] at hnest
    exact hnest
  · intro x
    rw [hI.running x]
    simp only [slots, List.mem_map]
  · intro p c s' h
    simp only [Sdei.act] at h
    split at h
    · cases h
    · split at h
      · rename_i u hu
        cases h
        obtain ⟨resume, hresume, hu'⟩ := Option.bind_eq_some_iff.mp hu
        obtain ⟨d, ds, hstack, hctx⟩ := complete_ctx hu'
        have hsaved := hI.saved p
        rw [hstack] at hsaved
        obtain ⟨saved, rest, hd, -, hpending⟩ := List.forall₂_cons_left_iff.mp hsaved
        refine ⟨resume, saved, rest, hresume, hpending, ?_⟩
        rw [hctx]
        exact restored_completedCtx hd resume _
      · obtain ⟨r, -, heq⟩ := Option.map_eq_some_iff.mp h
        exact absurd (Prod.mk.inj heq).2 (by simp)

theorem dispatch_stack_sound_taken :
    ∃ t s, Traced (Performs (act twoEvents) (Prioritised twoEvents)) twoEventsStart t s ∧
      (s.entry (some 1, 1)).state.running = true ∧
      ∃ p, ∃ d ∈ (s.cpu p).dispatchStack, twoEvents.slot p d.map = (some 1, 1) := by
  obtain ⟨t, s, hrun, hq⟩ := @execute_traced _ _ _ (act twoEvents) (Prioritised twoEvents) _
    (fun _ s => (s.entry (some 1, 1)).state.running) twoEventsStart takeEvent (by decide +kernel)
  exact ⟨t, s, hrun, hq, ((dispatch_stack_sound twoEvents _ _ _ t s hrun).2.1 _).mp hq⟩

/-- COMPLETE_AND_RESUME does not return to the place that the dispatch saved. -/
theorem resume_elsewhere :
    ∃ t s o s', Traced (Performs (act twoEvents) (Prioritised twoEvents)) twoEventsStart t s ∧
      act twoEvents s (.call 1 (.completeAndResume 0x5000)) = some (s', o) ∧
      (pending 1 t).map NsContext.elr = [0] ∧ (s'.ctx 1).elr = 0x5000 := by
  obtain ⟨t, s, o, s', hrun, hs, hq⟩ := @execute_next _ _ _ (act twoEvents) (Prioritised twoEvents) _
    (fun t _ _ s' => decide ((pending 1 t).map NsContext.elr = [0] ∧ (s'.ctx 1).elr = 0x5000))
    twoEventsStart takeEvent (.call 1 (.completeAndResume 0x5000)) (by decide +kernel)
  exact ⟨t, s, o, s', hrun, hs, of_decide_eq_true hq⟩

end TrustedFirmware.Sdei
