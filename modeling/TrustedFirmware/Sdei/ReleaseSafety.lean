import TrustedFirmware.Sdei.RegCount

/-! # Releasing a map while its handler runs

`sdei_interrupt_release()` looks at the count of the map, at the entry on the calling PE and at the
interrupt as the calling PE sees it. For a shared event the interrupt stays active until the handler
of interrupts ends it, on every PE. For a private event only the registration of the PE that runs
the handler keeps the map bound. -/
namespace TrustedFirmware.Sdei
open Runs Counting
set_option autoImplicit false
set_option linter.unusedSectionVars false

variable {M : Type} [DecidableEq M] {n : ℕ} {P : Platform M n} {s s' : State M n} {p : Fin n}

variable {f : Frame M} {v : List (DispatchContext M) × Phase M} {m : M} {l : Label M n}

/-! ## Frames and the interrupts they hold -/

def framesOf (v : List (DispatchContext M) × Phase M) : List (Frame M) :=
  (match v.2 with
    | .completed f => [f]
    | _ => []) ++ v.1.map DispatchContext.dispatchJmp

def heldBy (v : List (DispatchContext M) × Phase M) : List ℕ :=
  (match v.2 with
    | .outside => []
    | .acknowledged intr => [intr]
    | .completed f => f.intr.toList) ++ v.1.flatMap fun d => d.dispatchJmp.intr.toList

theorem heldBy_of_frame {i : ℕ} (hf : f ∈ framesOf v) (hi : f.intr = some i) : i ∈ heldBy v := by
  unfold framesOf at hf
  unfold heldBy
  rw [List.mem_append] at hf ⊢
  rcases hf with hf | hf
  · left
    split at hf
    · rename_i g hg
      rw [List.mem_singleton] at hf
      subst hf
      rw [hg]
      simp [hi]
    · cases hf
  · right
    obtain ⟨d, hd, rfl⟩ := List.mem_map.mp hf
    exact List.mem_flatMap.mpr ⟨d, hd, by simp [hi]⟩

/-- The handler of an event runs on a PE: it is on the stack, or the client has completed it and
EL3 has not gone on yet. -/
def HandlerRuns (s : State M n) (p : Fin n) (m : M) : Prop :=
  ∃ f ∈ framesOf (s.view p), f.map = m

instance (s : State M n) (p : Fin n) (m : M) : Decidable (HandlerRuns s p m) :=
  inferInstanceAs (Decidable (∃ f ∈ framesOf (s.view p), f.map = m))

/-- The interrupts that PEs hold are active, and each is held once. -/
structure LineInv (P : Platform M n) (s : State M n) : Prop where
  active : ∀ p, ∀ i ∈ heldBy (s.view p), s.gic.active (P.line p i) = true
  nodup : ∀ p, (heldBy (s.view p)).Nodup
  apart : ∀ p q, p ≠ q → ∀ i ∈ heldBy (s.view p), ∀ j ∈ heldBy (s.view q),
    P.line p i ≠ P.line q j

theorem line_inj {i j : ℕ} (h : P.line p i = P.line p j) : i = j := congrArg Prod.snd h

theorem LineInv.of_same (hI : LineInv P s) (hview : ∀ p, heldBy (s'.view p) = heldBy (s.view p))
    (hact : ∀ p, ∀ i ∈ heldBy (s.view p), s'.gic.active (P.line p i) = s.gic.active (P.line p i)) :
    LineInv P s' := by
  refine ⟨?_, ?_, ?_⟩
  · intro p i hi
    rw [hview] at hi
    rw [hact p i hi]
    exact hI.active p i hi
  · intro p
    rw [hview]
    exact hI.nodup p
  · intro p q hpq i hi j hj
    rw [hview] at hi hj
    exact hI.apart p q hpq i hi j hj

theorem LineInv.acknowledge (hI : LineInv P s) {intr : ℕ}
    (hp : heldBy (s'.view p) = intr :: heldBy (s.view p))
    (hq : ∀ q, q ≠ p → heldBy (s'.view q) = heldBy (s.view q))
    (hin : s.gic.active (P.line p intr) = false)
    (hact : s'.gic.active = Function.update s.gic.active (P.line p intr) true) : LineInv P s' := by
  have hne (q : Fin n) (i : ℕ) (hi : i ∈ heldBy (s.view q)) : P.line q i ≠ P.line p intr := by
    intro heq
    have h := hI.active q i hi
    rw [heq, hin] at h
    cases h
  -- The new list of a PE is the old one, with the interrupt in front on the PE that acknowledges.
  have hmem (q : Fin n) (i : ℕ) (hi : i ∈ heldBy (s'.view q)) :
      (q = p ∧ i = intr) ∨ i ∈ heldBy (s.view q) := by
    by_cases hqp : q = p
    · subst hqp
      rw [hp, List.mem_cons] at hi
      exact hi.imp (fun h => ⟨rfl, h⟩) id
    · rw [hq q hqp] at hi
      exact .inr hi
  refine ⟨?_, ?_, ?_⟩
  · intro q i hi
    rw [hact, Function.update_apply]
    split
    · rfl
    · rename_i hline
      rcases hmem q i hi with ⟨rfl, rfl⟩ | hold
      · exact absurd rfl hline
      · exact hI.active q i hold
  · intro q
    by_cases hqp : q = p
    · subst hqp
      rw [hp, List.nodup_cons]
      exact ⟨fun hi => hne q intr hi rfl, hI.nodup q⟩
    · rw [hq q hqp]
      exact hI.nodup q
  · intro q r hqr i hi j hj heq
    rcases hmem q i hi with ⟨rfl, rfl⟩ | hi'
    · rcases hmem r j hj with ⟨rfl, rfl⟩ | hj'
      · exact hqr rfl
      · exact hne r j hj' heq.symm
    · rcases hmem r j hj with ⟨rfl, rfl⟩ | hj'
      · exact hne q i hi' heq
      · exact hI.apart q r hqr i hi' j hj' heq

theorem LineInv.endOf (hI : LineInv P s) {l : List ℕ} (hp : heldBy (s.view p) = l ++ heldBy (s'.view p))
    (hq : ∀ q, q ≠ p → heldBy (s'.view q) = heldBy (s.view q))
    (hact : s'.gic.active = s.gic.active ∨ ∃ i ∈ l,
      s'.gic.active = Function.update s.gic.active (P.line p i) false) : LineInv P s' := by
  have hsub (q : Fin n) (i : ℕ) (hi : i ∈ heldBy (s'.view q)) : i ∈ heldBy (s.view q) := by
    by_cases hqp : q = p
    · subst hqp
      rw [hp]
      exact List.mem_append_right _ hi
    · rw [hq q hqp] at hi
      exact hi
  refine ⟨?_, ?_, ?_⟩
  · intro q i hi
    have hold := hI.active q i (hsub q i hi)
    rcases hact with hact | ⟨j, hj, hact⟩
    · rw [hact]
      exact hold
    · rw [hact, Function.update_of_ne ?_]
      · exact hold
      · intro heq
        have hjp : j ∈ heldBy (s.view p) := by
          rw [hp]
          exact List.mem_append_left _ hj
        by_cases hqp : q = p
        · subst hqp
          have hnodup := hI.nodup q
          rw [hp] at hnodup
          exact (List.nodup_append.mp hnodup).2.2 j hj i hi (line_inj heq).symm
        · exact hI.apart q p hqp i (hsub q i hi) j hjp heq
  · intro q
    by_cases hqp : q = p
    · subst hqp
      have hnodup := hI.nodup q
      rw [hp] at hnodup
      exact (List.nodup_append.mp hnodup).2.1
    · rw [hq q hqp]
      exact hI.nodup q
  · intro q r hqr i hi j hj
    exact hI.apart q r hqr i (hsub q i hi) j (hsub r j hj)

theorem Turns.other (h : Turns s s' p v) {q : Fin n} (hq : q ≠ p) : s'.view q = s.view q := by
  rw [h q, if_neg hq]

theorem Turns.self {v : List (DispatchContext M) × Phase M} (h : Turns s s' p v) :
    s'.view p = v := by
  rw [h p, if_pos rfl]

theorem Turns.held (h : Turns s s' p v) (hv : heldBy v = heldBy (s.view p)) (q : Fin n) :
    heldBy (s'.view q) = heldBy (s.view q) := by
  by_cases hq : q = p
  · subst hq
    rw [h.self, hv]
  · rw [h.other hq]

theorem view_of {ds : List (DispatchContext M)} {f : Phase M} (hds : (s.cpu p).dispatchStack = ds)
    (hf : (s.cpu p).phase = f) : s.view p = (ds, f) := by
  rw [State.view, hds, hf]

theorem LineInv.effect (hI : LineInv P s) (h : Effect P l s s') : LineInv P s' := by
  have same (hview : s'.view = s.view) (hact : s'.gic.active = s.gic.active) : LineInv P s' :=
    hI.of_same (fun p => by rw [hview]) fun p i _ => by rw [hact]
  cases h with
  | quiet map states view active => exact hI.of_same (fun p => by rw [view]) active
  | registered state dynamic map states view active => exact same view active
  | unregistered state map states view active => exact same view active
  | toggled hact state map states view active => exact same view active
  | bound dynamic free kind number map states view active => exact same view active
  | released dynamic count state bound inactive map states view active => exact same view active
  | acknowledged phase inactive map states view active =>
    refine hI.acknowledge ?_ (fun q hq => by rw [view.other hq]) inactive active
    rw [view.self, view_of rfl phase]
    rfl
  | @ended _ _ p map states view active =>
    refine hI.endOf (l := match (s.cpu p).phase with
      | .outside => []
      | .acknowledged intr => [intr]
      | .completed f => f.intr.toList) ?_ (fun q hq => by rw [view.other hq]) ?_
    · rw [view.self]
      rfl
    · refine active.imp id ?_
      rintro ⟨i, hphase | ⟨m, hphase⟩, hact⟩
      · exact ⟨i, by rw [hphase]; exact List.mem_singleton.mpr rfl, hact⟩
      · exact ⟨i, by rw [hphase]; exact List.mem_singleton.mpr rfl, hact⟩
  | dispatched cause state map states view active =>
    refine hI.of_same (view.held ?_) fun q i _ => by rw [active]
    rcases cause with ⟨hphase, rfl, -⟩ | ⟨i, hphase, rfl, -⟩
    · rw [view_of rfl hphase]
      rfl
    · rw [view_of rfl hphase]
      rfl
  | completed phase hact stack state map states view active =>
    refine hI.of_same (view.held ?_) fun q i _ => by rw [active]
    rw [view_of stack phase]
    rfl
  | cleared map states view active => exact same view active

/-! ## What keeps the map of a frame bound -/

/-- A frame of an interrupt has a bound map, or event 0. A dynamic private event is registered on
the PE; a dynamic shared one has the frame's interrupt. -/
structure Kept (P : Platform M n) (s : State M n) (p : Fin n) (f : Frame M) : Prop where
  explicit : f.intr = none → P.isMapDynamic f.map = false
  bound : ∀ i, f.intr = some i → P.evNum f.map = SDEI_EVENT_0 ∨ (s.map f.map).bound = true
  registered : P.isMapDynamic f.map = true → P.isEventPrivate f.map = true →
    s.registeredOn P f.map p = true
  shared : ∀ i, f.intr = some i → P.isMapDynamic f.map = true → P.isEventPrivate f.map = false →
    P.isSpi i = true ∧ (s.map f.map).intr = i

theorem Kept.of_same (h : Kept P s p f) (hbound : (s'.map f.map).bound = (s.map f.map).bound)
    (hintr : (s'.map f.map).intr = (s.map f.map).intr)
    (hreg : P.isMapDynamic f.map = true → P.isEventPrivate f.map = true →
      s.registeredOn P f.map p = true → s'.registeredOn P f.map p = true) :
    Kept P s' p f := by
  refine ⟨h.explicit, ?_, ?_, ?_⟩
  · intro i hi
    rw [hbound]
    exact h.bound i hi
  · intro hd hpriv
    exact hreg hd hpriv (h.registered hd hpriv)
  · intro i hi hd hsh
    rw [hintr]
    exact h.shared i hi hd hsh

theorem Kept.bound_of_dynamic (h : Kept P s p f) (hd : P.isMapDynamic f.map = true) :
    (s.map f.map).bound = true := by
  cases hi : f.intr with
  | none => exact absurd hd (by simp [h.explicit hi])
  | some i =>
    rcases h.bound i hi with h0 | hb
    · exact absurd h0 (P.dynamic_plain f.map hd).2
    · exact hb

structure FrameInv (P : Platform M n) (s : State M n) : Prop where
  reg : RegInv P s
  lines : LineInv P s
  kept : ∀ p, ∀ f ∈ framesOf (s.view p), Kept P s p f

theorem frameInv_start (gic : Gic n) (ctx : Fin n → NsContext) (online : Fin n → Bool) :
    FrameInv P (start P gic ctx online) := by
  refine ⟨regInv_start gic ctx online, ⟨?_, ?_, ?_⟩, ?_⟩
  · intro p i hi
    cases hi
  · intro p
    exact List.nodup_nil
  · intro p q _ i hi
    cases hi
  · intro p f hf
    cases hf

/-- **The release is refused.** No PE releases the map of a frame. -/
theorem FrameInv.not_released (hI : FrameInv P s) (hf : f ∈ framesOf (s.view p)) {q : Fin n}
    (hd : P.isMapDynamic f.map = true) (hcount : (s.map f.map).regCount = 0)
    (hinactive : s.gic.active (P.line q (s.map f.map).intr) = false) : False := by
  have hK := hI.kept p f hf
  cases hpriv : P.isEventPrivate f.map with
  | true =>
    have hreg := hK.registered hd hpriv
    have hzero : registrations P s f.map = 0 := by
      have h := hI.reg.counted f.map
      omega
    rw [(registrations_eq_zero p).mp hzero p] at hreg
    cases hreg
  | false =>
    cases hi : f.intr with
    | none => exact absurd hd (by simp [hK.explicit hi])
    | some i =>
      obtain ⟨hspi, hintr⟩ := hK.shared i hi hd hpriv
      have hactive := hI.lines.active p i (heldBy_of_frame hf hi)
      -- A shared interrupt is the same line on both PEs.
      have hline : P.line q (s.map f.map).intr = P.line p i := by
        rw [hintr]
        simp [Platform.line, hspi]
      rw [hline, hactive] at hinactive
      cases hinactive

theorem Moves.registeredOn {sl : Slot M n} {st : EvState} (h : Moves s s' sl st)
    (hst : (s.entry sl).state.registered = true → st.registered = true)
    (hreg : s.registeredOn P m p = true) : s'.registeredOn P m p = true := by
  unfold State.registeredOn at hreg ⊢
  rw [h]
  split
  · rename_i heq
    rw [heq] at hreg
    exact hst hreg
  · exact hreg

theorem SameStates.registeredOn (h : SameStates s s') (hreg : s.registeredOn P m p = true) :
    s'.registeredOn P m p = true := by
  unfold State.registeredOn at hreg ⊢
  rw [h]
  exact hreg

/-- The effects under which a frame keeps its map: its PE does not unregister its private event, and
a PE is powered up without registered events. -/
structure Gentle (P : Platform M n) (s : State M n) (l : Label M n) : Prop where
  unregister : ∀ p m, l = .unregistered p m → P.isMapDynamic m = true →
    P.isEventPrivate m = true → ∀ f ∈ framesOf (s.view p), f.map ≠ m
  powerUp : ∀ p, l = .cleared p → NoneRegistered P s p

theorem Kept.effect (hI : FrameInv P s) (hf : f ∈ framesOf (s.view p)) (h : Effect P l s s')
    (hl : Gentle P s l) : Kept P s' p f := by
  have hK := hI.kept p f hf
  cases h with
  | quiet map states view active =>
    exact hK.of_same (by rw [map]) (by rw [map]) fun _ _ => states.registeredOn
  | @registered _ _ q m state dynamic map states view active =>
    refine hK.of_same ?_ ?_ fun _ _ => states.registeredOn fun _ => rfl
    · rw [map, Function.update_apply]
      split
      · rename_i heq
        rw [heq]
      · rfl
    · rw [map, Function.update_apply]
      split
      · rename_i heq
        rw [heq]
      · rfl
  | @unregistered _ _ q m st state map states view active =>
    refine hK.of_same ?_ ?_ ?_
    · rw [map, Function.update_apply]
      split
      · rename_i heq
        rw [heq]
      · rfl
    · rw [map, Function.update_apply]
      split
      · rename_i heq
        rw [heq]
      · rfl
    · intro hd hpriv hreg
      have hne : P.slot p f.map ≠ P.slot q m := by
        intro heq
        have hm : f.map = m := congrArg Prod.snd heq
        have hpq : p = q := by
          have h1 := congrArg Prod.fst heq
          simp only [Platform.slot, ← hm, hpriv, if_true, Option.some.injEq] at h1
          exact h1
        subst hpq
        exact hl.unregister p m rfl (hm ▸ hd) (hm ▸ hpriv) f hf hm
      unfold State.registeredOn at hreg ⊢
      rw [states, if_neg hne]
      exact hreg
  | toggled hact state map states view active =>
    refine hK.of_same (by rw [map]) (by rw [map]) fun _ _ => states.registeredOn ?_
    intro hreg
    have htrans := trans_registered state
    rcases hact with rfl | rfl
    · rw [htrans]
      exact hreg
    · rw [htrans]
      exact hreg
  | @bound _ _ m intr dynamic free kind number map states view active =>
    have hne : f.map ≠ m := by
      intro heq
      rw [← heq] at dynamic free
      rw [hK.bound_of_dynamic dynamic] at free
      exact absurd free (by simp)
    refine hK.of_same ?_ ?_ fun _ _ => states.registeredOn
    · rw [map, Function.update_of_ne hne]
    · rw [map, Function.update_of_ne hne]
  | @released _ _ q m dynamic count state bound inactive map states view active =>
    have hne : f.map ≠ m := by
      intro heq
      rw [← heq] at dynamic count inactive
      exact hI.not_released hf dynamic count inactive
    refine hK.of_same ?_ ?_ fun _ _ => states.registeredOn
    · rw [map, Function.update_of_ne hne]
    · rw [map, Function.update_of_ne hne]
  | acknowledged phase inactive map states view active =>
    exact hK.of_same (by rw [map]) (by rw [map]) fun _ _ => states.registeredOn
  | ended map states view active =>
    exact hK.of_same (by rw [map]) (by rw [map]) fun _ _ => states.registeredOn
  | dispatched cause state map states view active =>
    exact hK.of_same (by rw [map]) (by rw [map]) fun _ _ => states.registeredOn fun _ => rfl
  | completed phase hact stack state map states view active =>
    refine hK.of_same (by rw [map]) (by rw [map]) fun _ _ => states.registeredOn ?_
    intro hreg
    have htrans := trans_registered state
    rcases hact with rfl | rfl
    · rw [htrans]
      exact hreg
    · rw [htrans]
      exact hreg
  | @cleared _ _ q map states view active =>
    refine hK.of_same (by rw [map]) (by rw [map]) ?_
    intro _ _ hreg
    unfold State.registeredOn at hreg ⊢
    rw [states]
    split
    · rename_i hx
      have hno := hl.powerUp q rfl f.map hx.2
      rw [show P.slot p f.map = (some q, f.map) from Prod.ext hx.1 rfl, hno] at hreg
      cases hreg
    · exact hreg

theorem Effect.frames (h : Effect P l s s') (hf : f ∈ framesOf (s'.view p)) :
    f ∈ framesOf (s.view p) ∨ ∃ m intr, l = .dispatched p m ∧ f = ⟨m, intr⟩ := by
  have same (hview : s'.view = s.view) : f ∈ framesOf (s.view p) := by
    rw [hview] at hf
    exact hf
  cases h with
  | quiet map states view active => exact .inl (same view)
  | registered state dynamic map states view active => exact .inl (same view)
  | unregistered state map states view active => exact .inl (same view)
  | toggled hact state map states view active => exact .inl (same view)
  | bound dynamic free kind number map states view active => exact .inl (same view)
  | released dynamic count state bound inactive map states view active => exact .inl (same view)
  | @acknowledged _ _ q intr phase inactive map states view active =>
    left
    by_cases hq : p = q
    · subst hq
      rw [view.self] at hf
      rw [view_of rfl phase]
      exact hf
    · rw [view.other hq] at hf
      exact hf
  | @ended _ _ q map states view active =>
    left
    by_cases hq : p = q
    · subst hq
      rw [view.self] at hf
      exact List.mem_append_right _ hf
    · rw [view.other hq] at hf
      exact hf
  | @dispatched _ _ q m intr cause state map states view active =>
    by_cases hq : p = q
    · subst hq
      rw [view.self] at hf
      rcases List.mem_cons.mp hf with rfl | hf
      · exact .inr ⟨m, intr, rfl, rfl⟩
      · exact .inl (List.mem_append_right _ hf)
    · rw [view.other hq] at hf
      exact .inl hf
  | @completed _ _ q d ds act st phase hact stack state map states view active =>
    left
    by_cases hq : p = q
    · subst hq
      rw [view.self] at hf
      rw [view_of stack phase]
      exact hf
    · rw [view.other hq] at hf
      exact hf
  | cleared map states view active => exact .inl (same view)

theorem kept_dispatched (h : Effect P (.dispatched p m) s s') (hf : f ∈ framesOf (s'.view p))
    (hnew : f ∉ framesOf (s.view p)) : Kept P s' p f := by
  cases h with
  | @dispatched _ _ _ _ intr cause state map states view active =>
    have hreg : s'.registeredOn P m p = true := by
      unfold State.registeredOn
      rw [states, if_pos rfl]
      rfl
    rw [view.self] at hf
    rcases List.mem_cons.mp hf with rfl | hf
    · rcases cause with ⟨-, rfl, hexp, -⟩ | ⟨i, -, rfl, hfind, hbound⟩
      · have hstatic : P.isMapDynamic m = false := by
          by_contra hd
          rw [Bool.not_eq_false] at hd
          rw [(P.dynamic_plain m hd).1] at hexp
          cases hexp
        exact ⟨fun _ => hstatic, fun i hi => absurd hi (by simp [saveEventCtx]), fun _ _ => hreg,
          fun i hi => absurd hi (by simp [saveEventCtx])⟩
      · refine ⟨fun h => absurd h (by simp [saveEventCtx]), ?_, fun _ _ => hreg, ?_⟩
        · intro j _
          rw [map]
          exact hbound
        · intro j hj _ hshared
          cases hj
          rw [map]
          change P.isEventPrivate m = false at hshared
          refine ⟨?_, ?_⟩
          · rw [findEventMapByIntr_kind hfind, hshared]
            rfl
          · have hi := List.find?_some hfind
            exact of_decide_eq_true hi
    · exact absurd (List.mem_append_right _ hf) hnew

theorem FrameInv.effect (hI : FrameInv P s) (h : Effect P l s s') (hl : Gentle P s l) :
    FrameInv P s' := by
  refine ⟨hI.reg.effect h hl.powerUp, hI.lines.effect h, ?_⟩
  intro p f hf
  by_cases hold : f ∈ framesOf (s.view p)
  · exact Kept.effect hI hold h hl
  · rcases h.frames hf with hf' | ⟨m, intr, rfl, rfl⟩
    · exact absurd hf' hold
    · exact kept_dispatched h hf hold

/-! ## Runs -/

def Action.clientCall : Action n → Option (Fin n × Call)
  | .call p c => some (p, c)
  | _ => none

/-- No PE unregisters a private dynamic event, by a call or by a reset, while it runs the handler
of the event; and a PE is powered up only without registered private events. -/
def KeepsHandlers (P : Platform M n) (s : State M n) (a : Action n) : Prop :=
  (∀ x ∈ a.clientCall, ∀ m ∈ P.unregistered x.2, P.isMapDynamic m = true →
    P.isEventPrivate m = true → ∀ f ∈ framesOf (s.view x.1), f.map ≠ m) ∧
  OnUnregistered P s a

instance (P : Platform M n) (s : State M n) (a : Action n) : Decidable (KeepsHandlers P s a) :=
  inferInstanceAs (Decidable ((∀ x ∈ a.clientCall, _) ∧ _))

theorem ResetStep.view {ok : M → Prop} (h : ResetStep P p ok s s') : s'.view = s.view := by
  cases h with
  | quiet h =>
    cases h with
    | quiet map states view active => exact view
  | unregistered hok h =>
    cases h with
    | unregistered state map states view active => exact view
  | released h =>
    cases h with
    | released dynamic count state bound inactive map states view active => exact view

theorem FrameInv.resets {ok : M → Prop} (hI : FrameInv P s) (h : Resets P p ok s s')
    (hok : ∀ m, ok m → P.isMapDynamic m = true → P.isEventPrivate m = true →
      ∀ f ∈ framesOf (s.view p), f.map ≠ m) : FrameInv P s' ∧ s'.view = s.view := by
  induction h with
  | refl => exact ⟨hI, rfl⟩
  | @tail u v _ hstep ih =>
    obtain ⟨hu, hview⟩ := ih
    refine ⟨?_, hstep.view.trans hview⟩
    cases hstep with
    | quiet h => exact hu.effect h ⟨by simp, by simp⟩
    | @unregistered m hm h =>
      refine hu.effect h ⟨?_, by simp⟩
      intro q m' heq hd hpriv f hf
      injection heq with hq hm'
      subst hq hm'
      rw [hview] at hf
      exact hok m hm hd hpriv f hf
    | released h => exact hu.effect h ⟨by simp, by simp⟩

theorem FrameInv.act {a : Action n} {o : Outcome} (hI : FrameInv P s) (ha : KeepsHandlers P s a)
    (h : act P s a = some (s', o)) : FrameInv P s' := by
  rcases act_effect h with ⟨l, hl, hq⟩ | ⟨p, c, r, rfl, -, hq⟩
  · refine hI.effect hq ⟨?_, ?_⟩
    · rintro p m rfl hd hpriv
      obtain ⟨-, c, rfl, hm⟩ := hl
      exact ha.1 (p, c) rfl m hm hd hpriv
    · rintro p rfl
      obtain ⟨-, rfl⟩ := hl
      exact ha.2 p rfl
  · exact (hI.resets hq fun m hm => ha.1 (p, c) rfl m hm).1

theorem view_of_released {a : Action n} {o : Outcome} (h : act P s a = some (s', o))
    (hb : (s.map m).bound = true) (hb' : (s'.map m).bound = false) : s'.view = s.view := by
  have same (hmap : s'.map = s.map) : s'.view = s.view := by
    rw [hmap, hb] at hb'
    exact absurd hb' (by simp)
  rcases act_effect h with ⟨l, -, hq⟩ | ⟨p, c, r, -, -, hq⟩
  · cases hq with
    | quiet map states view active => exact view
    | registered state dynamic map states view active => exact view
    | unregistered state map states view active => exact view
    | toggled hact state map states view active => exact view
    | bound dynamic free kind number map states view active => exact view
    | released dynamic count state bound inactive map states view active => exact view
    | acknowledged phase inactive map states view active => exact same map
    | ended map states view active => exact same map
    | dispatched cause state map states view active => exact same map
    | completed phase hact stack state map states view active => exact same map
    | cleared map states view active => exact view
  · clear h same hb hb'
    induction hq with
    | refl => rfl
    | tail _ hstep ih => exact hstep.view.trans ih

/-- **Handlers and releases.** In every run in which no PE unregisters a private dynamic event while
it runs its handler: the map of a running handler stays bound, the check after a completion does
not panic, and no step releases a map while a handler for it runs on some PE. -/
theorem bound_while_running (P : Platform M n) (gic : Gic n) (ctx : Fin n → NsContext)
    (online : Fin n → Bool) (t : List (Action n × Outcome)) (s : State M n)
    (hrun : Traced (Performs (act P) (KeepsHandlers P)) (start P gic ctx online) t s) :
    (∀ p m, HandlerRuns s p m → P.isMapDynamic m = true → (s.map m).bound = true) ∧
    (∀ p m intr, (s.cpu p).phase = .completed ⟨m, some intr⟩ →
      sdeiIntrReturn P s p m intr ≠ none) ∧
    ∀ a s' o m, KeepsHandlers P s a → act P s a = some (s', o) → P.isMapDynamic m = true →
      (s.map m).bound = true → (s'.map m).bound = false → ∀ p, ¬HandlerRuns s p m := by
  have hI : FrameInv P s := by
    refine hrun.invariant (I := fun _ s => FrameInv P s) (frameInv_start gic ctx online) ?_
    rintro t u ⟨a, o⟩ v hI ⟨ha, hstep⟩
    exact hI.act ha hstep
  refine ⟨?_, ?_, ?_⟩
  · rintro p m ⟨f, hf, rfl⟩ hd
    exact (hI.kept p f hf).bound_of_dynamic hd
  · intro p m intr hphase hpanic
    have hf : (⟨m, some intr⟩ : Frame M) ∈ framesOf (s.view p) := by
      rw [view_of rfl hphase]
      exact List.mem_cons_self
    unfold sdeiIntrReturn at hpanic
    split at hpanic
    · rename_i hno
      rcases (hI.kept p _ hf).bound intr rfl with h0 | hb
      · exact hno.1 h0
      · exact absurd (hno.2.symm.trans hb) (by simp)
    · cases hpanic
  · rintro a s' o m ha hstep hd hb hb' p ⟨f, hf, rfl⟩
    rw [← view_of_released hstep hb hb'] at hf
    rw [((hI.act ha hstep).kept p f hf).bound_of_dynamic hd] at hb'
    exact absurd hb' (by simp)

def takeEvent : List (Action 2) :=
  bindAndRegister ++ [.call 1 (.enable 1), .call 1 .unmask, .trigger (some 1, 20),
    .acknowledge 1 20, .handle 1]

theorem bound_while_running_taken :
    ∃ t s, Traced (Performs (act twoEvents) (KeepsHandlers twoEvents)) twoEventsStart t s ∧
      HandlerRuns s 1 1 ∧ (s.map 1).bound = true := by
  obtain ⟨t, s, hrun, hq⟩ := @execute_traced _ _ _ (act twoEvents) (KeepsHandlers twoEvents) _
    (fun _ s => decide (HandlerRuns s 1 1)) twoEventsStart takeEvent
    (by decide +kernel)
  have hruns : HandlerRuns s 1 1 := of_decide_eq_true hq
  exact ⟨t, s, hrun, hruns, (bound_while_running twoEvents _ _ _ t s hrun).1 1 1 hruns rfl⟩

/-- PE 1 unregisters the event from its handler. PE 0 then releases the map, while the handler runs,
and the check after the completion panics. -/
theorem release_under_handler :
    (∃ t s b s', Traced (Performs (act twoEvents) fun _ _ => True) twoEventsStart t s ∧
      act twoEvents s (.call 0 (.release 1)) = some (s', b) ∧ HandlerRuns s 1 1 ∧
      (s.map 1).bound = true ∧ (s'.map 1).bound = false) ∧
    ∃ t s, Traced (Performs (act twoEvents) fun _ _ => True) twoEventsStart t s ∧
      (s.cpu 1).phase = .completed ⟨1, some 20⟩ ∧ sdeiIntrReturn twoEvents s 1 1 20 = none := by
  constructor
  · obtain ⟨t, s, b, s', hrun, hs, hq⟩ := @execute_next _ _ _ (act twoEvents) (fun _ _ => True) _
      (fun _ s _ s' => decide (HandlerRuns s 1 1 ∧ (s.map 1).bound = true ∧
        (s'.map 1).bound = false)) twoEventsStart (takeEvent ++ [.call 1 (.unregister 1)])
      (.call 0 (.release 1)) (by decide +kernel)
    exact ⟨t, s, b, s', hrun, hs, of_decide_eq_true hq⟩
  · obtain ⟨t, s, hrun, hq⟩ := @execute_traced _ _ _ (act twoEvents) (fun _ _ => True) _
      (fun _ s => decide ((s.cpu 1).phase = .completed ⟨1, some 20⟩) &&
        (sdeiIntrReturn twoEvents s 1 1 20).isNone) twoEventsStart
      (takeEvent ++ [.call 1 (.unregister 1), .call 0 (.release 1), .call 1 .complete])
      (by decide +kernel)
    rw [Bool.and_eq_true, decide_eq_true_eq, Option.isNone_iff_eq_none] at hq
    exact ⟨t, s, hrun, hq⟩

end TrustedFirmware.Sdei
