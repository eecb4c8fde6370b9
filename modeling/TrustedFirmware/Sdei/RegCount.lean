import TrustedFirmware.Foundations.Tables
import TrustedFirmware.Sdei.Effects

/-! # The registration counts

The count of a map is global and the registrations are kept in the entries, for a private event on
each PE. Registering and unregistering change both. Powering a PE up clears the entries of its
private events and leaves the counts. -/
namespace TrustedFirmware.Sdei
open Runs Counting
set_option autoImplicit false
set_option linter.unusedSectionVars false

variable {M : Type} [DecidableEq M] {n : ℕ}

/-! ## Counting registrations -/

def State.registeredOn (P : Platform M n) (s : State M n) (m : M) (p : Fin n) : Bool :=
  (s.entry (P.slot p m)).state.registered

/-- On how many PEs an event is registered; a shared event is registered once for all of them. -/
def registrations (P : Platform M n) (s : State M n) (m : M) : ℕ :=
  if P.isEventPrivate m then tally (s.registeredOn P m)
  else if (s.entry (none, m)).state.registered then 1 else 0

def AgreesOn (s s' : State M n) (m : M) : Prop :=
  ∀ o, (s'.entry (o, m)).state.registered = (s.entry (o, m)).state.registered

variable {P : Platform M n} {s s' : State M n} {p : Fin n} {m : M}

theorem AgreesOn.registeredOn (h : AgreesOn s s' m) (p : Fin n) :
    s'.registeredOn P m p = s.registeredOn P m p := h _

theorem AgreesOn.registrations (h : AgreesOn s s' m) :
    registrations P s' m = registrations P s m := by
  unfold Sdei.registrations
  rw [tally_congr h.registeredOn, h none]

theorem SameStates.agreesOn (h : SameStates s s') (m : M) : AgreesOn s s' m := by
  intro o
  rw [h]

theorem slot_ne {m' : M} {o : Option (Fin n)} (h : m' ≠ m) : ((o, m') : Slot M n) ≠ P.slot p m := by
  intro heq
  exact h (congrArg Prod.snd heq)

theorem Moves.agreesOn_of_ne {st : EvState} (h : Moves s s' (P.slot p m) st) {m' : M}
    (hne : m' ≠ m) : AgreesOn s s' m' := by
  intro o
  rw [h, if_neg (slot_ne hne)]

theorem Moves.agreesOn {st : EvState} (h : Moves s s' (P.slot p m) st)
    (hst : st.registered = (s.entry (P.slot p m)).state.registered) (m' : M) : AgreesOn s s' m' := by
  intro o
  rw [h]
  split
  · rename_i heq
    rw [hst, heq]
  · rfl

theorem registrations_gain
    (hoff : ∀ x, x ≠ P.slot p m →
      (s'.entry x).state.registered = (s.entry x).state.registered)
    (h0 : (s.entry (P.slot p m)).state.registered = false)
    (h1 : (s'.entry (P.slot p m)).state.registered = true) :
    registrations P s' m = registrations P s m + 1 := by
  unfold registrations
  cases hm : P.isEventPrivate m with
  | true =>
    rw [if_pos rfl, if_pos rfl]
    refine tally_gain (i := p) ?_ h0 h1
    intro q hq
    refine hoff _ ?_
    intro heq
    simp only [Platform.slot, hm, if_true, Prod.mk.injEq, Option.some.injEq, and_true] at heq
    exact hq heq
  | false =>
    simp only [Platform.slot, hm, Bool.false_eq_true, if_false] at h0 h1 ⊢
    rw [h0, h1]
    rfl

theorem registrations_eq_zero (q : Fin n) :
    registrations P s m = 0 ↔ ∀ p, s.registeredOn P m p = false := by
  unfold registrations
  cases hm : P.isEventPrivate m with
  | true =>
    rw [if_pos rfl]
    exact tally_eq_zero
  | false =>
    have hslot (p : Fin n) : s.registeredOn P m p = (s.entry (none, m)).state.registered := by
      simp [State.registeredOn, Platform.slot, hm]
    rw [if_neg (by simp)]
    constructor
    · intro h p
      rw [hslot]
      by_contra hreg
      rw [Bool.not_eq_false] at hreg
      rw [if_pos hreg] at h
      omega
    · intro h
      rw [← hslot q, h q]
      rfl

/-! ## The invariant -/

structure RegInv (P : Platform M n) (s : State M n) : Prop where
  counted : ∀ m, (s.map m).regCount = registrations P s m
  valid : ∀ x, (s.entry x).state.valid = true
  bound : ∀ m, P.isMapDynamic m = true → ∀ p, s.registeredOn P m p = true → (s.map m).bound = true

theorem regInv_start (gic : Gic n) (ctx : Fin n → NsContext) (online : Fin n → Bool) :
    RegInv P (start P gic ctx online) := by
  refine ⟨?_, fun _ => rfl, ?_⟩
  · intro m
    have hno (p : Fin n) : (start P gic ctx online).registeredOn P m p = false := rfl
    unfold registrations
    rw [tally_eq_zero.mpr hno]
    cases P.isEventPrivate m <;> rfl
  · intro m _ p h
    cases h

theorem RegInv.of_agrees (hI : RegInv P s) (hmap : s'.map = s.map) (hbit : ∀ m, AgreesOn s s' m)
    (hvalid : ∀ x, (s'.entry x).state.valid = true) : RegInv P s' := by
  refine ⟨?_, hvalid, ?_⟩
  · intro m
    rw [hmap, hI.counted m, (hbit m).registrations]
  · intro m hd p hp
    rw [hmap]
    exact hI.bound m hd p ((hbit m).registeredOn p ▸ hp)

theorem Moves.valid {st : EvState} {x : Slot M n} (h : Moves s s' x st) (hst : st.valid = true)
    (hv : ∀ x, (s.entry x).state.valid = true) (y : Slot M n) : (s'.entry y).state.valid = true := by
  rw [h]
  split
  · exact hst
  · exact hv y

theorem SameStates.valid (h : SameStates s s') (hv : ∀ x, (s.entry x).state.valid = true)
    (x : Slot M n) : (s'.entry x).state.valid = true := by
  rw [h]
  exact hv x

theorem RegInv.of_trans (hI : RegInv P s) {a : SdeiAction} {st : EvState}
    (ha : a ≠ .register ∧ a ≠ .unregister)
    (hst : canSdeiStateTrans (s.entry (P.slot p m)).state a = some st)
    (hmoves : Moves s s' (P.slot p m) st) (hmap : s'.map = s.map) : RegInv P s' := by
  refine hI.of_agrees hmap (hmoves.agreesOn ?_) (hmoves.valid (trans_valid hst) hI.valid)
  have hreg := trans_registered hst
  cases a <;> simp_all

theorem RegInv.of_count (hI : RegInv P s) {st : EvState} {c : Int}
    (hmap : s'.map = Function.update s.map m { s.map m with regCount := c })
    (hmoves : Moves s s' (P.slot p m) st) (hst : st.valid = true)
    (hcount : c = registrations P s' m)
    (hbound : P.isMapDynamic m = true → (s.map m).bound = true) : RegInv P s' := by
  refine ⟨?_, hmoves.valid hst hI.valid, ?_⟩
  · intro m'
    rw [hmap, Function.update_apply]
    split
    · rename_i heq
      rw [heq]
      exact hcount
    · rename_i hne
      rw [hI.counted m', (hmoves.agreesOn_of_ne hne).registrations]
  · intro m' hd q hq
    rw [hmap, Function.update_apply]
    split
    · rename_i heq
      exact hbound (heq ▸ hd)
    · rename_i hne
      exact hI.bound m' hd q ((hmoves.agreesOn_of_ne hne).registeredOn q ▸ hq)

theorem RegInv.of_bound (hI : RegInv P s) {i : ℕ} {b : Bool}
    (hmap : s'.map = Function.update s.map m { s.map m with intr := i, bound := b })
    (hst : SameStates s s') (hb : b = true ∨ ∀ q, s.registeredOn P m q = false) : RegInv P s' := by
  refine ⟨?_, hst.valid hI.valid, ?_⟩
  · intro m'
    rw [(hst.agreesOn m').registrations, ← hI.counted m', hmap, Function.update_apply]
    split
    · rename_i heq
      rw [heq]
    · rfl
  · intro m' hd q hq
    rw [(hst.agreesOn m').registeredOn q] at hq
    rw [hmap, Function.update_apply]
    split
    · rename_i heq
      rcases hb with hb | hb
      · exact hb
      · rw [heq, hb q] at hq
        cases hq
    · exact hI.bound m' hd q hq

def NoneRegistered (P : Platform M n) (s : State M n) (p : Fin n) : Prop :=
  ∀ m ∈ P.privateMaps, (s.entry (some p, m)).state.registered = false

theorem RegInv.effect {l : Label M n} (hI : RegInv P s) (h : Effect P l s s')
    (hon : ∀ p, l = .cleared p → NoneRegistered P s p) : RegInv P s' := by
  cases h with
  | quiet map states view active => exact hI.of_agrees map states.agreesOn (states.valid hI.valid)
  | @registered _ _ p m state dynamic map states view active =>
    refine hI.of_count map states rfl ?_ dynamic
    have hgain : registrations P s' m = registrations P s m + 1 := by
      refine registrations_gain ?_ (by rw [state]; rfl) (by rw [states, if_pos rfl]; rfl)
      intro x hx
      rw [states, if_neg hx]
    rw [hI.counted m, hgain]
    rfl
  | @unregistered _ _ p m st state map states view active =>
    have hreg := unregister_from state
    refine hI.of_count map states (trans_valid state) ?_ fun hd => hI.bound m hd p hreg
    have hgain : registrations P s m = registrations P s' m + 1 := by
      refine registrations_gain ?_ ?_ hreg
      · intro x hx
        rw [states, if_neg hx]
      · rw [states, if_pos rfl]
        exact trans_registered state
    rw [hI.counted m, hgain]
    omega
  | toggled hact state map states view active =>
    refine hI.of_trans ?_ state states map
    rcases hact with rfl | rfl <;> simp
  | bound dynamic free kind number map states view active => exact hI.of_bound map states (.inl rfl)
  | @released _ _ p m dynamic count state bound inactive map states view active =>
    have hzero : registrations P s m = 0 := by
      have hcount := hI.counted m
      omega
    exact hI.of_bound map states (.inr ((registrations_eq_zero p).mp hzero))
  | acknowledged phase inactive map states view active =>
    exact hI.of_agrees map states.agreesOn (states.valid hI.valid)
  | ended map states view active => exact hI.of_agrees map states.agreesOn (states.valid hI.valid)
  | dispatched cause state map states view active =>
    exact hI.of_trans (a := .dispatch) (by simp) (by rw [state]; rfl) states map
  | completed phase hact stack state map states view active =>
    refine hI.of_trans ?_ state states map
    rcases hact with rfl | rfl <;> simp
  | @cleared _ _ p map states view active =>
    refine hI.of_agrees map ?_ ?_
    · intro m o
      rw [states]
      split
      · rename_i hx
        have hno := hon p rfl m hx.2
        rw [show o = some p from hx.1, hno]
        rfl
      · rfl
    · intro x
      rw [states]
      split
      · rfl
      · exact hI.valid x

theorem RegInv.resets {ok : M → Prop} (hI : RegInv P s) (h : Resets P p ok s s') : RegInv P s' := by
  induction h with
  | refl => exact hI
  | tail _ hstep ih =>
    cases hstep with
    | quiet h => exact ih.effect h (by simp)
    | unregistered hok h => exact ih.effect h (by simp)
    | released h => exact ih.effect h (by simp)

/-! ## Runs -/

def Action.powersUp : Action n → Option (Fin n)
  | .cpuOn p => some p
  | _ => none

/-- A PE is powered up only when none of its private events is registered. -/
def OnUnregistered (P : Platform M n) (s : State M n) (a : Action n) : Prop :=
  ∀ p ∈ a.powersUp, NoneRegistered P s p

instance (P : Platform M n) (s : State M n) (p : Fin n) : Decidable (NoneRegistered P s p) :=
  inferInstanceAs (Decidable (∀ m ∈ P.privateMaps, _ = false))

instance (P : Platform M n) (s : State M n) (a : Action n) : Decidable (OnUnregistered P s a) :=
  inferInstanceAs (Decidable (∀ p ∈ a.powersUp, _))

theorem RegInv.act {a : Action n} {o : Outcome} (hI : RegInv P s) (hon : OnUnregistered P s a)
    (h : act P s a = some (s', o)) : RegInv P s' := by
  rcases act_effect h with ⟨l, hl, hq⟩ | ⟨p, c, r, -, -, hq⟩
  · refine hI.effect hq ?_
    rintro p rfl
    obtain ⟨-, rfl⟩ := hl
    exact hon p rfl
  · exact hI.resets hq

theorem regInv {gic : Gic n} {ctx : Fin n → NsContext} {online : Fin n → Bool}
    {t : List (Action n × Outcome)}
    (hrun : Traced (Performs (Sdei.act P) (OnUnregistered P)) (start P gic ctx online) t s) :
    RegInv P s := by
  refine hrun.invariant (I := fun _ s => RegInv P s) (regInv_start gic ctx online) ?_
  rintro t u ⟨a, o⟩ v hI ⟨hon, hstep⟩
  exact hI.act hon hstep

theorem release_eq {q : Fin n} {evNum : Int} (hm : P.findEventMap evNum = some m)
    (hd : P.isMapDynamic m = true) (hb : (s.map m).bound = true)
    (hst : (s.map m).regCount = 0 → (s.entry (P.slot q m)).state = .reg_)
    (hact : s.gic.active (P.line q (s.map m).intr) = false) :
    sdeiInterruptRelease P s q evNum =
      if (s.map m).regCount = 0 then
        (s.setMap m { s.map m with intr := SDEI_DYN_IRQ, bound := false }, 0)
      else (s, SDEI_EDENY) := by
  unfold sdeiInterruptRelease
  rw [hm]
  by_cases hc : (s.map m).regCount = 0
  · have hrel : ¬canSdeiStateTrans (s.entry (P.slot q m)).state .release = none := by
      rw [hst hc]
      simp [canSdeiStateTrans, sdeiStateTable]
    simp [hd, hb, hact, hc, hrel]
  · simp [hd, hc]

/-- **Counts and registrations.** In every run in which a PE is powered up only without registered
private events, the count of every map is the number of PEs on which its event is registered. So a
bound event that is not running on the calling PE, and whose interrupt is not active, is released
exactly when no PE has it registered; its map is then free to be bound again, and no free map has
an event that is registered. -/
theorem reg_count_exact (P : Platform M n) (gic : Gic n) (ctx : Fin n → NsContext)
    (online : Fin n → Bool) (t : List (Action n × Outcome)) (s : State M n)
    (hrun : Traced (Performs (act P) (OnUnregistered P)) (start P gic ctx online) t s) :
    (∀ m, (s.map m).regCount = registrations P s m) ∧
    (∀ q evNum m, P.findEventMap evNum = some m → P.isMapDynamic m = true →
      (s.map m).bound = true → (s.entry (P.slot q m)).state.running = false →
      s.gic.active (P.line q (s.map m).intr) = false →
      ((sdeiInterruptRelease P s q evNum).2 = 0 ↔ ∀ p, s.registeredOn P m p = false) ∧
      ((sdeiInterruptRelease P s q evNum).2 = 0 →
        ((sdeiInterruptRelease P s q evNum).1.map m).intr = SDEI_DYN_IRQ ∧
        ((sdeiInterruptRelease P s q evNum).1.map m).bound = false)) ∧
    ∀ m, P.isMapDynamic m = true → (s.map m).bound = false → ∀ p, s.registeredOn P m p = false := by
  have hI := regInv hrun
  refine ⟨hI.counted, ?_, ?_⟩
  · intro q evNum m hm hd hb hrunning hact
    have hcount : (s.map m).regCount = 0 ↔ ∀ p, s.registeredOn P m p = false := by
      rw [← registrations_eq_zero q, hI.counted m]
      omega
    have hst (hc : (s.map m).regCount = 0) : (s.entry (P.slot q m)).state = .reg_ :=
      eq_reg_ (hI.valid _) (hcount.mp hc q) hrunning
    rw [release_eq hm hd hb hst hact, ← hcount]
    by_cases hc : (s.map m).regCount = 0
    · simp [hc, State.setMap]
    · simp [hc, SDEI_EDENY]
  · intro m hd hfree p
    by_contra hreg
    rw [Bool.not_eq_false] at hreg
    rw [hI.bound m hd p hreg] at hfree
    cases hfree

/-! ## A small platform -/

scoped instance neZero2 : NeZero 2 := ⟨nofun⟩
scoped instance neZero3 : NeZero 3 := ⟨nofun⟩

theorem critical_lt_normal : 0x60 < 0x70 := by decide

def twoEvents : Platform (Fin 2) 2 where
  privateMaps := [0, 1]
  sharedMaps := []
  evNum m := m.val
  intr m := if m = 0 then 8 else SDEI_DYN_IRQ
  isEventPrivate _ := true
  isEventCritical _ := false
  isEventSignalable m := decide (m = 0)
  isMapDynamic m := decide (m = 1)
  isMapExplicit _ := false
  isSpi i := decide (32 ≤ i)
  isPpi i := decide (16 ≤ i ∧ i < 32)
  readMpidr p := BitVec.ofNat 64 p.val
  isValidMpidr x := decide (x.toNat < 2)
  corePosByMpidr x := if h : x.toNat < 2 then some ⟨x.toNat, h⟩ else none
  validateEntryPoint _ := true
  clientEl := .el2
  createSpsr _ := ClientEl.el2.spsr64
  PLAT_SDEI_CRITICAL_PRI := 0x60
  PLAT_SDEI_NORMAL_PRI := 0x70
  ENABLE_ASSERTIONS := true
  DYNAMIC_WORKAROUND_CVE_2018_3639 := false
  private_of_mem := by decide
  shared_of_mem := by decide
  dynamic_plain := by decide
  sdei_critical_must_have_higher_priority := critical_lt_normal

def idleGic (n : ℕ) : Gic n :=
  ⟨fun _ => false, fun _ => .ns, fun _ => false, fun _ => false⟩

def zeroCtx : NsContext := ⟨fun _ => 0, 0, 0, 0, 0, 0⟩

def twoEventsStart : State (Fin 2) 2 := start twoEvents (idleGic 2) (fun _ => zeroCtx) fun _ => true

def bindAndRegister : List (Action 2) :=
  [.call 1 (.bind 20), .call 1 (.register 1 0x80000000 0 0 0)]

theorem reg_count_exact_registered :
    ∃ t s, Traced (Performs (act twoEvents) (OnUnregistered twoEvents)) twoEventsStart t s ∧
      s.registeredOn twoEvents 1 1 = true ∧ (s.map 1).regCount = registrations twoEvents s 1 := by
  obtain ⟨t, s, hrun, hreg⟩ := @execute_traced _ _ _ (act twoEvents) (OnUnregistered twoEvents) _
    (fun _ s => s.registeredOn twoEvents 1 1) twoEventsStart bindAndRegister (by decide +kernel)
  exact ⟨t, s, hrun, hreg, (reg_count_exact twoEvents _ _ _ t s hrun).1 1⟩

/-- PE 1 registers the event and is powered off and on again: no PE has the event registered, the
count is 1, and the event cannot be released. -/
theorem hotplug_count_stale :
    ∃ t s, Traced (Performs (act twoEvents) fun _ _ => True) twoEventsStart t s ∧
      (∀ p, s.registeredOn twoEvents 1 p = false) ∧ registrations twoEvents s 1 = 0 ∧
      (s.map 1).regCount = 1 ∧ (s.map 1).bound = true ∧
      (s.entry (twoEvents.slot 0 1)).state.running = false ∧
      s.gic.active (twoEvents.line 0 (s.map 1).intr) = false ∧
      (sdeiInterruptRelease twoEvents s 0 1).2 = SDEI_EDENY := by
  obtain ⟨t, s, hrun, hq⟩ := @execute_traced _ _ _ (act twoEvents) (fun _ _ => True) _
    (fun _ s => decide ((∀ p, s.registeredOn twoEvents 1 p = false) ∧
      registrations twoEvents s 1 = 0 ∧ (s.map 1).regCount = 1 ∧ (s.map 1).bound = true ∧
      (s.entry (twoEvents.slot 0 1)).state.running = false ∧
      s.gic.active (twoEvents.line 0 (s.map 1).intr) = false ∧
      (sdeiInterruptRelease twoEvents s 0 1).2 = SDEI_EDENY))
    twoEventsStart (bindAndRegister ++ [.cpuOff 1, .cpuOn 1]) (by decide +kernel)
  exact ⟨t, s, hrun, of_decide_eq_true hq⟩

end TrustedFirmware.Sdei
