import TrustedFirmware.Sdei.System

/-! # What a step can do

A step changes the maps, the states of the entries, the dispatch stacks and the interrupts that
PEs hold in one of a few ways. A reset is a sequence of such changes. -/
namespace TrustedFirmware.Sdei
open Runs
set_option autoImplicit false
set_option linter.unusedSectionVars false

variable {M : Type} [DecidableEq M] {n : ℕ} (P : Platform M n)

inductive Label (M : Type) (n : ℕ) where
  | quiet
  | registered (p : Fin n) (m : M)
  | unregistered (p : Fin n) (m : M)
  | toggled (p : Fin n) (m : M)
  | bound (m : M)
  | released (p : Fin n) (m : M)
  | acknowledged (p : Fin n) (intr : ℕ)
  | ended (p : Fin n)
  | dispatched (p : Fin n) (m : M)
  | completed (p : Fin n)
  | cleared (p : Fin n)

def State.view (s : State M n) (p : Fin n) : List (DispatchContext M) × Phase M :=
  ((s.cpu p).dispatchStack, (s.cpu p).phase)

def Moves (s s' : State M n) (sl : Slot M n) (st : EvState) : Prop :=
  ∀ x, (s'.entry x).state = if x = sl then st else (s.entry x).state

def SameStates (s s' : State M n) : Prop := ∀ x, (s'.entry x).state = (s.entry x).state

def Turns (s s' : State M n) (p : Fin n) (v : List (DispatchContext M) × Phase M) : Prop :=
  ∀ q, s'.view q = if q = p then v else s.view q

inductive Effect : Label M n → State M n → State M n → Prop
  | quiet {s s' : State M n} (map : s'.map = s.map) (states : SameStates s s')
      (view : s'.view = s.view)
      (active : ∀ p, ∀ i ∈ (s.cpu p).holds, s'.gic.active (P.line p i) = s.gic.active (P.line p i)) :
      Effect .quiet s s'
  | registered {s s' : State M n} {p : Fin n} {m : M}
      (state : (s.entry (P.slot p m)).state = .reg_)
      (dynamic : P.isMapDynamic m = true → (s.map m).bound = true)
      (map : s'.map = Function.update s.map m { s.map m with regCount := (s.map m).regCount + 1 })
      (states : Moves s s' (P.slot p m) .reG_) (view : s'.view = s.view)
      (active : s'.gic.active = s.gic.active) : Effect (.registered p m) s s'
  | unregistered {s s' : State M n} {p : Fin n} {m : M} {st : EvState}
      (state : canSdeiStateTrans (s.entry (P.slot p m)).state .unregister = some st)
      (map : s'.map = Function.update s.map m { s.map m with regCount := (s.map m).regCount - 1 })
      (states : Moves s s' (P.slot p m) st) (view : s'.view = s.view)
      (active : s'.gic.active = s.gic.active) : Effect (.unregistered p m) s s'
  | toggled {s s' : State M n} {p : Fin n} {m : M} {st : EvState} {act : SdeiAction}
      (hact : act = .enable ∨ act = .disable)
      (state : canSdeiStateTrans (s.entry (P.slot p m)).state act = some st)
      (map : s'.map = s.map) (states : Moves s s' (P.slot p m) st) (view : s'.view = s.view)
      (active : s'.gic.active = s.gic.active) : Effect (.toggled p m) s s'
  | bound {s s' : State M n} {m : M} {intr : ℕ} (dynamic : P.isMapDynamic m = true)
      (free : (s.map m).bound = false) (kind : P.isSpi intr = !P.isEventPrivate m)
      (number : P.isPpi intr = true ∨ P.isSpi intr = true)
      (map : s'.map = Function.update s.map m { s.map m with intr := intr, bound := true })
      (states : SameStates s s') (view : s'.view = s.view)
      (active : s'.gic.active = s.gic.active) : Effect (.bound m) s s'
  | released {s s' : State M n} {p : Fin n} {m : M} (dynamic : P.isMapDynamic m = true)
      (count : (s.map m).regCount = 0) (state : (s.entry (P.slot p m)).state = .reg_)
      (bound : (s.map m).bound = true)
      (inactive : s.gic.active (P.line p (s.map m).intr) = false)
      (map : s'.map = Function.update s.map m { s.map m with intr := SDEI_DYN_IRQ, bound := false })
      (states : SameStates s s') (view : s'.view = s.view)
      (active : s'.gic.active = s.gic.active) : Effect (.released p m) s s'
  | acknowledged {s s' : State M n} {p : Fin n} {intr : ℕ} (phase : (s.cpu p).phase = .outside)
      (inactive : s.gic.active (P.line p intr) = false)
      (map : s'.map = s.map) (states : SameStates s s')
      (view : Turns s s' p ((s.cpu p).dispatchStack, .acknowledged intr))
      (active : s'.gic.active = Function.update s.gic.active (P.line p intr) true) :
      Effect (.acknowledged p intr) s s'
  | ended {s s' : State M n} {p : Fin n} (map : s'.map = s.map) (states : SameStates s s')
      (view : Turns s s' p ((s.cpu p).dispatchStack, .outside))
      (active : s'.gic.active = s.gic.active ∨ ∃ i,
        ((s.cpu p).phase = .acknowledged i ∨ ∃ m, (s.cpu p).phase = .completed ⟨m, some i⟩) ∧
        s'.gic.active = Function.update s.gic.active (P.line p i) false) :
      Effect (.ended p) s s'
  | dispatched {s s' : State M n} {p : Fin n} {m : M} {intr : Option ℕ}
      (cause : ((s.cpu p).phase = .outside ∧ intr = none ∧ P.isMapExplicit m = true ∧
          mayNest P s p m = true) ∨
        ∃ i, (s.cpu p).phase = .acknowledged i ∧ intr = some i ∧
          P.findEventMapByIntr s i (P.isSpi i) = some m ∧
          (P.evNum m = SDEI_EVENT_0 ∨ (s.map m).bound = true))
      (state : (s.entry (P.slot p m)).state = .rEG_) (map : s'.map = s.map)
      (states : Moves s s' (P.slot p m) .REG_)
      (view : Turns s s' p
        (saveEventCtx m (s.ctx p) ⟨m, intr⟩ :: (s.cpu p).dispatchStack, .outside))
      (active : s'.gic.active = s.gic.active) : Effect (.dispatched p m) s s'
  | completed {s s' : State M n} {p : Fin n} {d : DispatchContext M} {ds : List (DispatchContext M)}
      {act : SdeiAction} {st : EvState} (phase : (s.cpu p).phase = .outside)
      (hact : act = .complete ∨ act = .completeResume)
      (stack : (s.cpu p).dispatchStack = d :: ds)
      (state : canSdeiStateTrans (s.entry (P.slot p d.map)).state act = some st)
      (map : s'.map = s.map) (states : Moves s s' (P.slot p d.map) st)
      (view : Turns s s' p (ds, .completed d.dispatchJmp))
      (active : s'.gic.active = s.gic.active) : Effect (.completed p) s s'
  | cleared {s s' : State M n} {p : Fin n} (map : s'.map = s.map)
      (states : ∀ x, (s'.entry x).state =
        if x.1 = some p ∧ x.2 ∈ P.privateMaps then .reg_ else (s.entry x).state)
      (view : s'.view = s.view) (active : s'.gic.active = s.gic.active) :
      Effect (.cleared p) s s'

variable {P}

theorem Effect.refl (s : State M n) : Effect P .quiet s s :=
  .quiet rfl (fun _ => rfl) rfl fun _ _ _ => rfl

theorem Effect.setCtx {l : Label M n} {s s' : State M n} (h : Effect P l s s') (p : Fin n)
    (c : NsContext) : Effect P l s (s'.setCtx p c) := by
  cases h with
  | quiet map states view active => exact .quiet map states view active
  | registered state dynamic map states view active =>
    exact .registered state dynamic map states view active
  | unregistered state map states view active => exact .unregistered state map states view active
  | toggled hact state map states view active => exact .toggled hact state map states view active
  | bound dynamic free kind number map states view active =>
    exact .bound dynamic free kind number map states view active
  | released dynamic count state bound inactive map states view active =>
    exact .released dynamic count state bound inactive map states view active
  | acknowledged phase inactive map states view active =>
    exact .acknowledged phase inactive map states view active
  | ended map states view active => exact .ended map states view active
  | dispatched cause state map states view active =>
    exact .dispatched cause state map states view active
  | completed phase hact stack state map states view active =>
    exact .completed phase hact stack state map states view active
  | cleared map states view active => exact .cleared map states view active

/-! ## Client calls -/

variable {s s' : State M n} {p : Fin n} {r : Int}

theorem moves_setEntry {sl : Slot M n} {e : Entry} {st : EvState}
    (h : s'.entry = Function.update s.entry sl e) (hst : e.state = st) : Moves s s' sl st := by
  intro x
  rw [h, Function.update_apply, ← hst]
  split <;> rfl

theorem active_ite {b : Bool} {g g' : Gic n} (h : g'.active = g.active) :
    (if b then g' else g).active = g.active := by
  cases b with
  | true => exact h
  | false => rfl

theorem findEventMapByIntr_kind {i j : ℕ} {m : M}
    (h : P.findEventMapByIntr s i (P.isSpi j) = some m) : P.isSpi j = !P.isEventPrivate m := by
  unfold Platform.findEventMapByIntr at h
  have hmem := List.mem_of_find?_eq_some h
  cases hj : P.isSpi j with
  | true =>
    rw [hj] at hmem
    rw [P.shared_of_mem m hmem]
    rfl
  | false =>
    rw [hj] at hmem
    rw [P.private_of_mem m hmem]
    rfl

theorem register_effect {evNum : Int} {ep arg flags mpidr : BitVec 64}
    (h : sdeiEventRegister P s p evNum ep arg flags mpidr = some (s', r)) :
    Effect P .quiet s s' ∨ ∃ m, Effect P (.registered p m) s s' := by
  have refused {r' : Int} (h : some (s, r') = some (s', r)) : Effect P .quiet s s' := by
    cases h
    exact .refl s
  unfold sdeiEventRegister at h
  split at h
  · exact .inl (refused h)
  · split at h
    · exact .inl (refused h)
    · split at h
      · exact .inl (refused h)
      · rename_i m _
        dsimp only at h
        split at h
        · exact .inl (refused h)
        · rename_i st hst
          split at h
          · exact .inl (refused h)
          · rename_i hdyn
            split at h
            · cases h
            · split at h
              · exact .inl (refused h)
              · split at h
                · exact .inl (refused h)
                · cases h
                  have hreg := register_from hst
                  have hst' : st = .reG_ := by
                    rw [hreg] at hst
                    exact (Option.some.inj hst).symm
                  subst hst'
                  refine .inr ⟨m, .registered hreg ?_ rfl (moves_setEntry rfl rfl) rfl
                    (active_ite (takeInterrupt_active _ _ _))⟩
                  intro hd
                  simpa [hd] using hdyn

theorem unregister_effect {evNum : Int} (h : sdeiEventUnregister P s p evNum = some (s', r)) :
    Effect P .quiet s s' ∨
      ∃ m, P.findEventMap evNum = some m ∧ Effect P (.unregistered p m) s s' := by
  unfold sdeiEventUnregister at h
  split at h
  · cases h
    exact .inl (.refl s)
  · rename_i m hm
    dsimp only at h
    split at h
    · cases h
      exact .inl (.refl s)
    · rename_i st hst
      split at h
      · cases h
      · split at h
        · cases h
        · cases h
          exact .inr ⟨m, hm, .unregistered hst rfl (moves_setEntry rfl rfl) rfl
            (active_ite (returnInterrupt_active _ _ _))⟩

theorem set_effect {act : SdeiAction} {write : Gic n → Line n → Gic n} {evNum : Int}
    (hact : act = .enable ∨ act = .disable) (hwrite : ∀ g l, (write g l).active = g.active) :
    Effect P .quiet s (sdeiEventSet P s p act write evNum).1 ∨
      ∃ m, Effect P (.toggled p m) s (sdeiEventSet P s p act write evNum).1 := by
  unfold sdeiEventSet
  split
  · exact .inl (.refl s)
  · rename_i m _
    dsimp only
    split
    · exact .inl (.refl s)
    · rename_i st hst
      exact .inr ⟨m, .toggled hact hst rfl (moves_setEntry rfl rfl) rfl (active_ite (hwrite _ _))⟩

theorem bindFree_effect {intrNum : ℕ} (hnum : P.isPpi intrNum = true ∨ P.isSpi intrNum = true)
    (h : bindFree P s p intrNum = some (s', r)) :
    Effect P .quiet s s' ∨ ∃ m, Effect P (.bound m) s s' := by
  unfold bindFree at h
  split at h
  · cases h
    exact .inl (.refl s)
  · rename_i m hm
    split at h
    · cases h
      exact .inl (.refl s)
    · rename_i hdyn
      split at h
      · cases h
        exact .inl (.refl s)
      · split at h
        · cases h
        · rename_i hfree
          cases h
          refine .inr ⟨m, .bound (by simpa using hdyn) (by simpa using hfree) ?_ hnum rfl
            (fun _ => rfl) rfl rfl⟩
          exact findEventMapByIntr_kind hm

theorem bind_effect {intrNum : ℕ} (h : sdeiInterruptBind P s p intrNum = some (s', r)) :
    Effect P .quiet s s' ∨ ∃ m, Effect P (.bound m) s s' := by
  unfold sdeiInterruptBind at h
  split at h
  · cases h
    exact .inl (.refl s)
  · rename_i hkind
    have hnum : P.isPpi intrNum = true ∨ P.isSpi intrNum = true := by
      rw [not_and_or, Bool.not_eq_false, Bool.not_eq_false] at hkind
      exact hkind
    split at h
    · exact bindFree_effect hnum h
    · split at h
      · cases h
        exact .inl (.refl s)
      · split at h
        · cases h
          exact .inl (.refl s)
        · exact bindFree_effect hnum h

theorem release_effect (P : Platform M n) (s : State M n) (p : Fin n) (evNum : Int) :
    Effect P .quiet s (sdeiInterruptRelease P s p evNum).1 ∨
      ∃ m, Effect P (.released p m) s (sdeiInterruptRelease P s p evNum).1 := by
  unfold sdeiInterruptRelease
  split
  · exact .inl (.refl s)
  · rename_i m _
    split
    · exact .inl (.refl s)
    · rename_i hdyn
      split
      · exact .inl (.refl s)
      · rename_i hcount
        split
        · exact .inl (.refl s)
        · rename_i hst
          split
          · exact .inl (.refl s)
          · rename_i hbound
            split
            · exact .inl (.refl s)
            · rename_i hactive
              refine .inr ⟨m, .released (by simpa using hdyn) (by simpa using hcount) ?_
                (by simpa using hbound) (by simpa using hactive) rfl (fun _ => rfl) rfl rfl⟩
              by_contra hne
              exact hst (release_none.mpr hne)

theorem turns_setCpu {c : CpuState M} {v : List (DispatchContext M) × Phase M}
    (h : s'.cpu = Function.update s.cpu p c) (hv : (c.dispatchStack, c.phase) = v) :
    Turns s s' p v := by
  intro q
  rw [State.view, h, Function.update_apply, ← hv]
  split <;> rfl

theorem view_setCpu {c : CpuState M} (h : s'.cpu = Function.update s.cpu p c)
    (hc : (c.dispatchStack, c.phase) = s.view p) : s'.view = s.view := by
  funext q
  rw [turns_setCpu h hc q]
  split
  · rename_i hq
    rw [hq]
  · rfl

theorem routingSet_effect (P : Platform M n) (s : State M n) (p : Fin n) (evNum : Int)
    (flags mpidr : BitVec 64) : Effect P .quiet s (sdeiEventRoutingSet P s p evNum flags mpidr).1 := by
  unfold sdeiEventRoutingSet
  split
  · exact .refl s
  · split
    · exact .refl s
    · dsimp only
      split
      · exact .refl s
      · split
        · exact .refl s
        · split
          · exact .refl s
          · rename_i st hst
            refine .quiet rfl ?_ rfl fun _ _ _ => rfl
            intro x
            rw [moves_setEntry (s := s) rfl rfl x]
            split
            · rename_i hx
              rw [hx]
              exact routing_same hst
            · rfl

theorem foldl_active {f : Gic n → M → Gic n} (hf : ∀ g m, (f g m).active = g.active) (ms : List M)
    (g : Gic n) : (ms.foldl f g).active = g.active := by
  induction ms generalizing g with
  | nil => rfl
  | cons m ms ih => rw [List.foldl_cons, ih, hf]

theorem enablePending_active (g : Gic n) : (enablePending P s p g).active = g.active := by
  unfold enablePending
  dsimp only
  rw [foldl_active, foldl_active]
  · intro g m
    exact active_ite rfl
  · intro g m
    split
    · exact active_ite rfl
    · rfl

theorem unmask_effect (P : Platform M n) (s : State M n) (p : Fin n) :
    Effect P .quiet s (sdeiPeUnmask P s p) := by
  refine .quiet rfl (fun _ => rfl) (view_setCpu rfl rfl) ?_
  intro q i _
  exact congrFun (active_ite (enablePending_active _)) _

theorem mask_effect (P : Platform M n) (s : State M n) (p : Fin n) :
    Effect P .quiet s (sdeiPeMask s p).1 :=
  .quiet rfl (fun _ => rfl) (view_setCpu rfl rfl) fun _ _ _ => rfl

theorem signal_effect (P : Platform M n) (s : State M n) (evNum : Int) (targetPe : BitVec 64) :
    Effect P .quiet s (sdeiSignal P s evNum targetPe).1 := by
  unfold sdeiSignal
  split
  · exact .refl s
  · split
    · dsimp only
      split
      · exact .refl s
      · split
        · exact .refl s
        · split
          · exact .refl s
          · exact .quiet rfl (fun _ => rfl) rfl fun _ _ _ => rfl
    · exact .refl s

/-! ## Interrupts and dispatches -/

theorem ended_leave {u : State M n} {intr : ℕ} {m : M}
    (hphase : (s.cpu p).phase = .acknowledged intr ∨ (s.cpu p).phase = .completed ⟨m, some intr⟩)
    (hmap : u.map = s.map) (hst : u.entry = s.entry) (hview : u.view = s.view)
    (hact : u.gic.active = s.gic.active) : Effect P (.ended p) s (leave P u p intr) := by
  refine .ended hmap ?_ ?_ (.inr ⟨intr, hphase.imp id fun h => ⟨m, h⟩, ?_⟩)
  · intro x
    exact congrArg (fun e => (e x).state) hst
  · have hturn : Turns u (leave P u p intr) p ((u.cpu p).dispatchStack, .outside) :=
      turns_setCpu rfl rfl
    intro q
    rw [hturn q, hview, show (u.cpu p).dispatchStack = (s.cpu p).dispatchStack from
      congrArg Prod.fst (congrFun hview p)]
  · change Function.update u.gic.active _ _ = _
    rw [hact]

theorem masked_effect {m : M} {intr : ℕ} (hphase : (s.cpu p).phase = .acknowledged intr)
    (h : handleMaskedTrigger P s p m intr = some s') : Effect P (.ended p) s s' := by
  unfold handleMaskedTrigger at h
  dsimp only at h
  split at h
  · cases h
    exact .ended rfl (fun _ => rfl) (turns_setCpu rfl rfl) (.inl rfl)
  · split at h
    · cases h
    · split at h
      · cases h
        exact ended_leave (m := m) (.inl hphase) rfl rfl (view_setCpu rfl rfl) rfl
      · split at h
        · cases h
        · cases h
          exact ended_leave (m := m) (.inl hphase) rfl rfl rfl rfl

theorem setupNsDispatch_eq {u : State M n} {m : M} {jmp : Frame M}
    (h : setupNsDispatch P u p m jmp = some s') :
    s' = (u.setCpu p
      { u.cpu p with
        dispatchStack := saveEventCtx m (u.ctx p) jmp :: (u.cpu p).dispatchStack
        phase := .outside }).setCtx p (handlerCtx P m (u.entry (P.slot p m)) (u.ctx p)) := by
  unfold setupNsDispatch at h
  dsimp only at h
  split at h
  · cases h
  · exact (Option.some.inj h).symm

theorem handler_effect {intr : ℕ} {b : Bool} (hphase : (s.cpu p).phase = .acknowledged intr)
    (hbound : ofBoundMap P s intr = true) (h : sdeiIntrHandler P s p intr = some (s', b)) :
    (b = false ∧ Effect P (.ended p) s s') ∨
      (b = true ∧ ∃ m, P.findEventMapByIntr s intr (P.isSpi intr) = some m ∧
        Effect P (.dispatched p m) s s') := by
  unfold sdeiIntrHandler at h
  split at h
  · cases h
  · rename_i m hm
    rw [ofBoundMap, hm] at hbound
    split at h
    · cases h
    · split at h
      · obtain ⟨u, hu, heq⟩ := Option.map_eq_some_iff.mp h
        cases heq
        exact .inl ⟨rfl, masked_effect hphase hu⟩
      · dsimp only at h
        split at h
        · cases h
        · split at h
          · cases h
            exact .inl ⟨rfl, ended_leave (m := m) (.inl hphase) rfl rfl rfl (active_ite rfl)⟩
          · rename_i st hst
            split at h
            · cases h
            · obtain ⟨u, hu, heq⟩ := Option.map_eq_some_iff.mp h
              cases heq
              have hfrom := dispatch_from hst
              have hst' : st = .REG_ := by
                rw [hfrom] at hst
                exact (Option.some.inj hst).symm
              subst hst'
              rw [setupNsDispatch_eq hu]
              refine .inr ⟨rfl, m, hm, .dispatched (.inr ⟨intr, hphase, rfl, hm, ?_⟩) hfrom rfl
                (moves_setEntry rfl rfl) (turns_setCpu rfl rfl) rfl⟩
              simpa using hbound

theorem dispatchEvent_effect {evNum : Int} (hphase : (s.cpu p).phase = .outside)
    (h : sdeiDispatchEvent P s p evNum = some s') : ∃ m, Effect P (.dispatched p m) s s' := by
  unfold sdeiDispatchEvent at h
  split at h
  · cases h
  · split at h
    · cases h
    · split at h
      · cases h
      · rename_i m _
        split at h
        · cases h
        · rename_i hexp
          split at h
          · cases h
          · rename_i hnest
            split at h
            · cases h
            · rename_i st hst
              have hfrom := dispatch_from hst
              have hst' : st = .REG_ := by
                rw [hfrom] at hst
                exact (Option.some.inj hst).symm
              subst hst'
              rw [setupNsDispatch_eq h]
              exact ⟨m, .dispatched (.inl ⟨hphase, rfl, by simpa using hexp, by simpa using hnest⟩)
                hfrom rfl (moves_setEntry rfl rfl) (turns_setCpu rfl rfl) rfl⟩

theorem complete_effect {resume : Option (BitVec 64)} (hphase : (s.cpu p).phase = .outside)
    (h : sdeiEventComplete P s p resume = some s') : Effect P (.completed p) s s' := by
  unfold sdeiEventComplete at h
  split at h
  · cases h
  · rename_i d ds hstack
    split at h
    · cases h
    · dsimp only at h
      split at h
      · cases h
      · rename_i st hst
        cases h
        refine .completed hphase ?_ hstack hst rfl (moves_setEntry rfl rfl) (turns_setCpu rfl rfl) rfl
        cases resume with
        | none => exact .inl rfl
        | some pc => exact .inr rfl

/-! ## Resets -/

/-- What happens in a reset on a PE, the events that it unregisters being among those of `ok`. -/
inductive ResetStep (P : Platform M n) (p : Fin n) (ok : M → Prop) (s s' : State M n) : Prop
  | quiet (h : Effect P .quiet s s')
  | unregistered {m : M} (hok : ok m) (h : Effect P (.unregistered p m) s s')
  | released {m : M} (h : Effect P (.released p m) s s')

/-- A sequence of these. -/
abbrev Resets (P : Platform M n) (p : Fin n) (ok : M → Prop) :=
  Relation.ReflTransGen (ResetStep P p ok)

theorem unregisterAll_resets {ok : M → Prop} {ms : List M} {finalRet : Int}
    (hok : ∀ m' ∈ ms, ∀ m, P.findEventMap (P.evNum m') = some m → ok m)
    (h : unregisterAll P p ms s finalRet = some (s', r)) : Resets P p ok s s' := by
  induction ms generalizing s finalRet with
  | nil =>
    cases h
    exact .refl
  | cons m ms ih =>
    rw [unregisterAll] at h
    split at h
    · cases h
    · rename_i u ret hu
      have hrest := ih (fun m' hm' => hok m' (List.mem_cons_of_mem _ hm')) h
      refine .head ?_ hrest
      rcases unregister_effect hu with hq | ⟨m', hm', hq⟩
      · exact .quiet hq
      · exact .unregistered (hok m List.mem_cons_self m' hm') hq

theorem releaseAll_resets {ok : M → Prop} (ms : List M) (s : State M n) (finalRet : Int) :
    Resets P p ok s (releaseAll P p ms s finalRet).1 := by
  induction ms generalizing s finalRet with
  | nil => exact .refl
  | cons m ms ih =>
    rw [releaseAll]
    split
    · refine .head ?_ (ih _ _)
      rcases release_effect P s p (P.evNum m) with hq | ⟨m', hq⟩
      · exact .quiet hq
      · exact .released hq
    · exact ih _ _

/-- The maps that a call unregisters on the calling PE, where they are registered. -/
def Platform.unregistered (P : Platform M n) : Call → List M
  | .unregister evNum => (P.findEventMap evNum).toList
  | .privateReset => P.privateMaps.filterMap fun m => P.findEventMap (P.evNum m)
  | .sharedReset => P.sharedMaps.filterMap fun m => P.findEventMap (P.evNum m)
  | _ => []

theorem sharedReset_resets (h : sdeiSharedReset P s p = some (s', r)) :
    Resets P p (· ∈ P.unregistered .sharedReset) s s' := by
  unfold sdeiSharedReset at h
  split at h
  · cases h
  · rename_i u finalRet hu
    have hfirst : Resets P p (· ∈ P.unregistered .sharedReset) s u :=
      unregisterAll_resets (fun m' hm' m hm => List.mem_filterMap.mpr ⟨m', hm', hm⟩) hu
    split at h
    · cases h
      exact hfirst
    · have hs' : (releaseAll P p (P.privateMaps ++ P.sharedMaps) u 0).1 = s' :=
        congrArg Prod.fst (Option.some.inj h)
      rw [← hs']
      exact hfirst.trans (releaseAll_resets _ _ _)

/-! ## Steps -/

def Action.pe : Action n → Option (Fin n)
  | .call p _ | .acknowledge p _ | .handle p | .dispatch p _ | .finish p | .cpuOff p | .cpuOn p
  | .wakeup p | .run p _ => some p
  | .trigger _ | .nonSecure _ _ _ => none

def Outcome.silent : Outcome → Prop
  | internal | returned _ => True
  | _ => False

def Origin (P : Platform M n) (s : State M n) (a : Action n) (o : Outcome) : Label M n → Prop
  | .unregistered p m => o.silent ∧ ∃ c, a = .call p c ∧ m ∈ P.unregistered c
  | .cleared p => o.silent ∧ a = .cpuOn p
  | .dispatched p _ => o = .dispatched (s.ctx p) ∧ (a = .handle p ∨ ∃ evNum, a = .dispatch p evNum)
  | .completed p => o = .completed ∧ ∃ c, a = .call p c
  | _ => o.silent

theorem CpuState.free_phase {c : CpuState M} (h : ¬c.free = false) : c.phase = .outside := by
  simp only [CpuState.free, Bool.not_eq_false, Bool.and_eq_true, decide_eq_true_eq] at h
  exact h.2

theorem call_effect {c : Call} (h : sdeiCall P s p c = some (s', r)) :
    (∃ l, Origin P s (.call p c) (.returned r) l ∧ Effect P l s s') ∨
      Resets P p (· ∈ P.unregistered c) s s' := by
  have same {u : State M n × Int} (hu : some u = some (s', r)) (hq : Effect P .quiet s u.1) :
      ∃ l, Origin P s (.call p c) (.returned r) l ∧ Effect P l s s' := by
    cases hu
    exact ⟨.quiet, trivial, hq⟩
  have toggle {u : State M n × Int} (hu : some u = some (s', r))
      (hq : Effect P .quiet s u.1 ∨ ∃ m, Effect P (.toggled p m) s u.1) :
      ∃ l, Origin P s (.call p c) (.returned r) l ∧ Effect P l s s' := by
    cases hu
    rcases hq with hq | ⟨m, hq⟩
    · exact ⟨.quiet, trivial, hq⟩
    · exact ⟨.toggled p m, trivial, hq⟩
  cases c with
  | register evNum ep arg flags mpidr =>
    rcases register_effect h with hq | ⟨m, hq⟩
    · exact .inl ⟨.quiet, trivial, hq⟩
    · exact .inl ⟨.registered p m, trivial, hq⟩
  | enable evNum => exact .inl (toggle h (set_effect (.inl rfl) fun _ _ => rfl))
  | disable evNum => exact .inl (toggle h (set_effect (.inr rfl) fun _ _ => rfl))
  | context param => exact .inl (same h (.refl s))
  | complete => exact .inl (same h (.refl s))
  | completeAndResume pc => exact .inl (same h (.refl s))
  | unregister evNum =>
    rcases unregister_effect h with hq | ⟨m, hm, hq⟩
    · exact .inl ⟨.quiet, trivial, hq⟩
    · exact .inl ⟨.unregistered p m, ⟨trivial, _, rfl, Option.mem_toList.mpr hm⟩, hq⟩
  | status evNum => exact .inl (same h (.refl s))
  | getInfo evNum info => exact .inl (same h (.refl s))
  | routingSet evNum flags mpidr => exact .inl (same h (routingSet_effect P s p evNum flags mpidr))
  | mask => exact .inl (same h (mask_effect P s p))
  | unmask => exact .inl (same h (unmask_effect P s p))
  | bind intrNum =>
    rcases bind_effect h with hq | ⟨m, hq⟩
    · exact .inl ⟨.quiet, trivial, hq⟩
    · exact .inl ⟨.bound m, trivial, hq⟩
  | release evNum =>
    obtain ⟨hs, -⟩ := Prod.mk.inj (Option.some.inj h)
    rw [← hs]
    rcases release_effect P s p evNum with hq | ⟨m, hq⟩
    · exact .inl ⟨.quiet, trivial, hq⟩
    · exact .inl ⟨.released p m, trivial, hq⟩
  | privateReset => exact .inr (unregisterAll_resets (fun m' hm' m hm => List.mem_filterMap.mpr ⟨m', hm', hm⟩) h)
  | sharedReset => exact .inr (sharedReset_resets h)
  | signal evNum targetPe => exact .inl (same h (signal_effect P s evNum targetPe))

theorem nonSecure_effect {l : Line n} {active enabled : Bool}
    (hfree : ¬∃ p, ∃ i ∈ (s.cpu p).holds, P.line p i = l) :
    Effect P .quiet s (s.setGic
      { s.gic with
        active := Function.update s.gic.active l active
        enabled := Function.update s.gic.enabled l enabled }) := by
  refine .quiet rfl (fun _ => rfl) rfl ?_
  intro q i hi
  have hne : P.line q i ≠ l := fun h => hfree ⟨q, i, hi, h⟩
  exact Function.update_of_ne hne _ _

/-- **What a step can do.** Every step has one effect, or is a reset. -/
theorem act_effect {a : Action n} {o : Outcome} (h : act P s a = some (s', o)) :
    (∃ l, Origin P s a o l ∧ Effect P l s s') ∨
      ∃ p c r, a = .call p c ∧ o = .returned r ∧ Resets P p (· ∈ P.unregistered c) s s' := by
  cases a with
  | call p c =>
    simp only [act] at h
    split at h
    · cases h
    · rename_i hfree
      have hphase := CpuState.free_phase hfree
      split at h
      · rename_i u hu
        cases h
        obtain ⟨resume, -, hu'⟩ := Option.bind_eq_some_iff.mp hu
        exact .inl ⟨.completed p, ⟨rfl, c, rfl⟩, complete_effect hphase hu'⟩
      · obtain ⟨⟨u, r⟩, hu, heq⟩ := Option.map_eq_some_iff.mp h
        cases heq
        rcases call_effect hu with ⟨l, hl, hq⟩ | hq
        · exact .inl ⟨l, hl, hq.setCtx p _⟩
        · exact .inr ⟨p, c, r, rfl, rfl, hq.tail (.quiet ((Effect.refl u).setCtx p _))⟩
  | acknowledge p intr =>
    simp only [act] at h
    split at h
    · cases h
    · rename_i hfree
      split at h
      · cases h
      · rename_i hline
        rw [not_or] at hline
        cases h
        exact .inl ⟨.acknowledged p intr, trivial, .acknowledged (CpuState.free_phase hfree)
          (by simpa using hline.1) rfl (fun _ => rfl) (turns_setCpu rfl rfl) rfl⟩
  | handle p =>
    simp only [act] at h
    split at h
    · rename_i intr hphase
      split at h
      · cases h
      rename_i hbound
      obtain ⟨⟨u, b⟩, hu, heq⟩ := Option.map_eq_some_iff.mp h
      cases heq
      rcases handler_effect hphase (by simpa using hbound) hu with ⟨hb, hq⟩ | ⟨hb, m, -, hq⟩
      · subst hb
        exact .inl ⟨.ended p, trivial, hq⟩
      · subst hb
        exact .inl ⟨.dispatched p m, ⟨rfl, .inl rfl⟩, hq⟩
    · cases h
  | dispatch p evNum =>
    simp only [act] at h
    split at h
    · cases h
    · rename_i hfree
      obtain ⟨u, hu, heq⟩ := Option.map_eq_some_iff.mp h
      cases heq
      obtain ⟨m, hq⟩ := dispatchEvent_effect (CpuState.free_phase hfree) hu
      exact .inl ⟨.dispatched p m, ⟨rfl, .inr ⟨evNum, rfl⟩⟩, hq⟩
  | finish p =>
    simp only [act] at h
    split at h
    · rename_i m intr hphase
      obtain ⟨u, hu, heq⟩ := Option.map_eq_some_iff.mp h
      cases heq
      unfold sdeiIntrReturn at hu
      split at hu
      · cases hu
      · cases hu
        exact .inl ⟨.ended p, trivial, ended_leave (.inr hphase) rfl rfl rfl rfl⟩
    · cases h
      exact .inl ⟨.ended p, trivial, .ended rfl (fun _ => rfl) (turns_setCpu rfl rfl) (.inl rfl)⟩
    · cases h
  | cpuOff p =>
    simp only [act] at h
    split at h
    · cases h
    · cases h
      exact .inl ⟨.quiet, trivial, .quiet rfl (fun _ => rfl) (view_setCpu rfl rfl) fun _ _ _ => rfl⟩
  | cpuOn p =>
    simp only [act] at h
    split at h
    · cases h
    · cases h
      refine .inl ⟨.cleared p, ⟨trivial, rfl⟩, .cleared rfl ?_ ?_ rfl⟩
      · intro x
        change (if _ then _ else _ : Entry).state = _
        split <;> rfl
      · have hinit : (sdeiCpuOnInit P s p).view = s.view := view_setCpu rfl rfl
        exact (view_setCpu (p := p)
          (c := { (sdeiCpuOnInit P s p).cpu p with online := true }) rfl rfl).trans hinit
  | wakeup p =>
    simp only [act] at h
    split at h
    · cases h
    · cases h
      exact .inl ⟨.quiet, trivial, mask_effect P s p⟩
  | run p c =>
    simp only [act] at h
    split at h
    · cases h
    · cases h
      exact .inl ⟨.quiet, trivial, (Effect.refl s).setCtx p c⟩
  | trigger l =>
    simp only [act] at h
    cases h
    exact .inl ⟨.quiet, trivial, .quiet rfl (fun _ => rfl) rfl fun _ _ _ => rfl⟩
  | nonSecure l active enabled =>
    simp only [act] at h
    split at h
    · cases h
    · rename_i hline
      rw [not_or] at hline
      cases h
      exact .inl ⟨.quiet, trivial, nonSecure_effect hline.2⟩

end TrustedFirmware.Sdei
