import TrustedFirmware.Sdei.Slots

/-! # Binding and releasing on several PEs

`sdei_interrupt_bind()` looks for the interrupt and for a free map without a lock, and takes the lock
of the map it has chosen only to store the interrupt there. So each look at a map is a step of its
own, with those of other PEs in between; the critical sections are one step each. -/
namespace TrustedFirmware.Sdei
open Runs
set_option autoImplicit false

/-! ## Steps -/

/-- Where a PE is in `sdei_interrupt_bind()`; a list has the maps that a search has still to look
at. -/
inductive BindPc (M : Type) where
  | idle
  | searching (intrNum : ℕ) (rest : List M)
  | found (intrNum : ℕ) (m : M)
  | searchingFree (intrNum : ℕ) (rest : List M)
  | chosen (intrNum : ℕ) (m : M)
  deriving DecidableEq

structure BindState (M : Type) (n : ℕ) where
  map : M → EvMap
  pc : Fin n → BindPc M

inductive BindAction (n : ℕ) where
  | bind (p : Fin n) (intrNum : ℕ)
  /-- The call goes on; `ns` is what the interrupt controller says of the interrupt's owner. -/
  | step (p : Fin n) (ns : Bool)
  /-- SDEI_INTERRUPT_RELEASE; `permitted` says that nobody has registered the event, that its handler
  does not run and that its interrupt is not active. -/
  | release (p : Fin n) (evNum : Int) (permitted : Bool)
  deriving DecidableEq

inductive BindOutcome (M : Type) (n : ℕ) where
  | silent
  /-- A bind returns the event number of the map. -/
  | returned (p : Fin n) (intrNum : ℕ) (m : M)
  | refused (ret : Int)
  | released (intrNum : ℕ) (m : M)
  deriving DecidableEq

section

variable {M : Type} {n : ℕ}

def BindState.goto (b : BindState M n) (p : Fin n) (pc : BindPc M) : BindState M n :=
  { b with pc := Function.update b.pc p pc }

variable {b : BindState M n} {p : Fin n}

theorem goto_goto (pc pc' : BindPc M) : (b.goto p pc).goto p pc' = b.goto p pc' := by
  simp [BindState.goto]

theorem goto_pc (pc : BindPc M) : (b.goto p pc).pc p = pc := Function.update_self ..

theorem pc_goto {pc : BindPc M} (r : Fin n) : (b.goto p pc).pc r = if r = p then pc else b.pc r :=
  Function.update_apply ..

end

section

variable {M : Type} [DecidableEq M] {n : ℕ}

namespace BindState

def setMap (b : BindState M n) (m : M) (e : EvMap) : BindState M n :=
  { b with map := Function.update b.map m e }

end BindState

variable (P : Platform M n)

/-- The start of the loop: the search for the interrupt. -/
def searchIntr (b : BindState M n) (p : Fin n) (intrNum : ℕ) : BindState M n :=
  b.goto p (.searching intrNum (P.mapsOf (P.isSpi intrNum)))

def searchFree (b : BindState M n) (p : Fin n) (intrNum : ℕ) : BindState M n :=
  b.goto p (.searchingFree intrNum (P.mapsOf (P.isSpi intrNum)))

def refuse (b : BindState M n) (p : Fin n) (ret : Int) : BindState M n × BindOutcome M n :=
  (b.goto p .idle, .refused ret)

/-- The next step of a bind. A map that is already bound when the lock is taken makes the loop go
round again. -/
def bindStep (b : BindState M n) (p : Fin n) (ns : Bool) :
    Option (BindState M n × BindOutcome M n) :=
  match b.pc p with
  | .idle => none
  | .searching intrNum [] => some (searchFree P b p intrNum, .silent)
  | .searching intrNum (m :: rest) =>
    some (b.goto p (if (b.map m).intr = intrNum then .found intrNum m else .searching intrNum rest),
      .silent)
  | .found intrNum m =>
    if P.isMapDynamic m = false then some (refuse b p SDEI_EINVAL)
    else if (b.map m).bound then some (b.goto p .idle, .returned p intrNum m)
    else some (searchFree P b p intrNum, .silent)
  | .searchingFree _ [] => some (refuse b p SDEI_ENOMEM)
  | .searchingFree intrNum (m :: rest) =>
    some (b.goto p (if (b.map m).intr = SDEI_DYN_IRQ then .chosen intrNum m
      else .searchingFree intrNum rest), .silent)
  | .chosen intrNum m =>
    if P.isMapDynamic m = false then some (refuse b p SDEI_ENOMEM)
    else if ns = false then some (refuse b p SDEI_EDENY)
    else if (b.map m).bound then some (searchIntr P b p intrNum, .silent)
    else some ((b.setMap m { b.map m with intr := intrNum, bound := true }).goto p .idle,
      .returned p intrNum m)

def bindRelease (b : BindState M n) (p : Fin n) (evNum : Int) (permitted : Bool) :
    BindState M n × BindOutcome M n :=
  match P.findEventMap evNum with
  | none => refuse b p SDEI_EINVAL
  | some m =>
    if P.isMapDynamic m = false then refuse b p SDEI_EINVAL
    else if permitted = false then refuse b p SDEI_EDENY
    else if (b.map m).bound = false then refuse b p SDEI_EINVAL
    else (b.setMap m { b.map m with intr := SDEI_DYN_IRQ, bound := false },
      .released (b.map m).intr m)

def bindAct (b : BindState M n) : BindAction n → Option (BindState M n × BindOutcome M n)
  | .bind p intrNum =>
    if b.pc p ≠ .idle then none
    else if P.isPpi intrNum = false ∧ P.isSpi intrNum = false then some (refuse b p SDEI_EINVAL)
    else some (searchIntr P b p intrNum, .silent)
  | .step p ns => bindStep P b p ns
  | .release p evNum permitted =>
    if b.pc p ≠ .idle then none else some (bindRelease P b p evNum permitted)

/-- No PE is binding, and the maps are as after `sdei_init()`. -/
def bindStart : BindState M n where
  map m :=
    { intr := P.intr m
      bound := decide (P.evNum m ≠ SDEI_EVENT_0) && !P.isMapDynamic m && !P.isMapExplicit m
      regCount := 0 }
  pc _ := .idle

/-! ## What is expected of it -/

def AtMostOne (b : BindState M n) : Prop :=
  ∀ m ∈ P.privateMaps ++ P.sharedMaps, ∀ m' ∈ P.privateMaps ++ P.sharedMaps,
    (b.map m).bound = true → (b.map m').bound = true → (b.map m).intr = (b.map m').intr → m = m'

/-- A PE that is binding the interrupt will look at the map, or has found or chosen it. -/
def BindPc.sees (intrNum : ℕ) (m : M) : BindPc M → Prop
  | .idle => True
  | .searching i rest => i = intrNum → m ∈ rest
  | .found i x => i = intrNum → x = m
  | .searchingFree i _ => i ≠ intrNum
  | .chosen i x => i = intrNum → x = m

instance (intrNum : ℕ) (m : M) : DecidablePred (BindPc.sees intrNum m) := fun pc =>
  match pc with
  | .idle => inferInstanceAs (Decidable True)
  | .searching i rest => inferInstanceAs (Decidable (i = intrNum → m ∈ rest))
  | .found i x => inferInstanceAs (Decidable (i = intrNum → x = m))
  | .searchingFree i _ => inferInstanceAs (Decidable (i ≠ intrNum))
  | .chosen i x => inferInstanceAs (Decidable (i = intrNum → x = m))

def stores (b : BindState M n) : BindAction n → Option (Fin n × ℕ × M)
  | .step p ns =>
    match b.pc p with
    | .chosen intrNum m =>
      if P.isMapDynamic m = true ∧ ns = true ∧ (b.map m).bound = false then some (p, intrNum, m) else none
    | _ => none
  | _ => none

def OthersSee (b : BindState M n) (a : BindAction n) : Prop :=
  ∀ x ∈ stores P b a, ∀ q, q ≠ x.1 → (b.pc q).sees x.2.1 x.2.2

instance (b : BindState M n) (a : BindAction n) : Decidable (OthersSee P b a) :=
  inferInstanceAs (Decidable (∀ x ∈ stores P b a, _))

/-! ## What a step can do -/

def Platform.bindable {M : Type} {n : ℕ} (P : Platform M n) (i : ℕ) : Prop :=
  P.isPpi i = true ∨ P.isSpi i = true

inductive BindEffect (b : BindState M n) :
    BindAction n → BindState M n → BindOutcome M n → Prop
  | refused {a : BindAction n} {p : Fin n} {ret : Int} :
      BindEffect b a (b.goto p .idle) (.refused ret)
  | started {p : Fin n} {i : ℕ} (number : P.bindable i) :
      BindEffect b (.bind p i) (searchIntr P b p i) .silent
  | hit {p : Fin n} {i : ℕ} {m : M} {rest : List M} {ns : Bool}
      (pc : b.pc p = .searching i (m :: rest)) (intr : (b.map m).intr = i) :
      BindEffect b (.step p ns) (b.goto p (.found i m)) .silent
  | missed {p : Fin n} {i : ℕ} {m : M} {rest : List M} {ns : Bool}
      (pc : b.pc p = .searching i (m :: rest)) (intr : (b.map m).intr ≠ i) :
      BindEffect b (.step p ns) (b.goto p (.searching i rest)) .silent
  | notFound {p : Fin n} {i : ℕ} {ns : Bool} (pc : b.pc p = .searching i []) :
      BindEffect b (.step p ns) (searchFree P b p i) .silent
  | already {p : Fin n} {i : ℕ} {m : M} {ns : Bool} (pc : b.pc p = .found i m)
      (bound : (b.map m).bound = true) :
      BindEffect b (.step p ns) (b.goto p .idle) (.returned p i m)
  | lost {p : Fin n} {i : ℕ} {m : M} {ns : Bool} (pc : b.pc p = .found i m)
      (free : (b.map m).bound = false) :
      BindEffect b (.step p ns) (searchFree P b p i) .silent
  | chose {p : Fin n} {i : ℕ} {m : M} {rest : List M} {ns : Bool}
      (pc : b.pc p = .searchingFree i (m :: rest)) :
      BindEffect b (.step p ns) (b.goto p (.chosen i m)) .silent
  | skipped {p : Fin n} {i : ℕ} {m : M} {rest : List M} {ns : Bool}
      (pc : b.pc p = .searchingFree i (m :: rest)) :
      BindEffect b (.step p ns) (b.goto p (.searchingFree i rest)) .silent
  | retried {p : Fin n} {i : ℕ} {m : M} {ns : Bool} (pc : b.pc p = .chosen i m) :
      BindEffect b (.step p ns) (searchIntr P b p i) .silent
  | stored {p : Fin n} {i : ℕ} {m : M} (pc : b.pc p = .chosen i m)
      (dynamic : P.isMapDynamic m = true) (free : (b.map m).bound = false) :
      BindEffect b (.step p true)
        ((b.setMap m { b.map m with intr := i, bound := true }).goto p .idle) (.returned p i m)
  | released {p : Fin n} {evNum : Int} {permitted : Bool} {m : M}
      (dynamic : P.isMapDynamic m = true) (bound : (b.map m).bound = true) :
      BindEffect b (.release p evNum permitted)
        (b.setMap m { b.map m with intr := SDEI_DYN_IRQ, bound := false })
        (.released (b.map m).intr m)

variable {P} {b b' : BindState M n} {o : BindOutcome M n} {p : Fin n}

theorem bindStep_effect {ns : Bool} (h : bindStep P b p ns = some (b', o)) :
    BindEffect P b (.step p ns) b' o := by
  unfold bindStep at h
  split at h
  · cases h
  · rename_i i hpc
    cases h
    exact .notFound hpc
  · rename_i i m rest hpc
    cases h
    split
    · rename_i hintr
      exact .hit hpc hintr
    · rename_i hintr
      exact .missed hpc hintr
  · rename_i i m hpc
    split at h
    · cases h
      exact .refused
    split at h
    · rename_i hbound
      cases h
      exact .already hpc hbound
    · rename_i hfree
      cases h
      exact .lost hpc (by simpa using hfree)
  · cases h
    exact .refused
  · rename_i i m rest hpc
    cases h
    split
    · exact .chose hpc
    · exact .skipped hpc
  · rename_i i m hpc
    split at h
    · cases h
      exact .refused
    rename_i hd
    split at h
    · cases h
      exact .refused
    rename_i hns
    split at h
    · cases h
      exact .retried hpc
    · rename_i hfree
      cases h
      obtain rfl : ns = true := by simpa using hns
      exact .stored hpc (by simpa using hd) (by simpa using hfree)

theorem bindAct_effect {a : BindAction n} (h : bindAct P b a = some (b', o)) :
    BindEffect P b a b' o := by
  cases a with
  | bind p i =>
    simp only [bindAct] at h
    split at h
    · cases h
    split at h
    · cases h
      exact .refused
    · rename_i hkind
      cases h
      rw [not_and_or, Bool.not_eq_false, Bool.not_eq_false] at hkind
      exact .started hkind
  | step p ns => exact bindStep_effect h
  | release p evNum permitted =>
    simp only [bindAct] at h
    split at h
    · cases h
    have h := Option.some.inj h
    unfold bindRelease at h
    split at h
    · cases h
      exact .refused
    split at h
    · cases h
      exact .refused
    rename_i hd
    split at h
    · cases h
      exact .refused
    split at h
    · cases h
      exact .refused
    · rename_i hbound
      cases h
      exact .released (by simpa using hd) (by simpa using hbound)

/-! ## A bind without interference -/

def GoesOn (P : Platform M n) (p : Fin n) (ns : Bool) (b b' : BindState M n) : Prop :=
  bindStep P b p ns = some (b', .silent)

/-- A search over maps ends at the first one with the interrupt, by induction over those left. -/
theorem searches {ns : Bool} {search : List M → BindPc M} (hit : M → BindPc M) (i : ℕ)
    (hstep : ∀ (b : BindState M n) x rest, b.pc p = search (x :: rest) →
      GoesOn P p ns b (b.goto p (if (b.map x).intr = i then hit x else search rest)))
    {maps : List M} (hpc : b.pc p = search maps) :
    Relation.ReflTransGen (GoesOn P p ns) b
      (b.goto p ((maps.find? fun m => decide ((b.map m).intr = i)).elim (search []) hit)) := by
  induction maps generalizing b with
  | nil =>
    have hself : b.goto p (search []) = b := by
      rw [BindState.goto, ← hpc, Function.update_eq_self]
    exact (congrArg _ hself).mpr .refl
  | cons x rest ih =>
    have hnext := hstep b x rest hpc
    by_cases hx : (b.map x).intr = i
    · rw [if_pos hx] at hnext
      rw [List.find?_cons_of_pos (by simpa using hx)]
      exact .single hnext
    · rw [if_neg hx] at hnext
      have hrest := @ih (b.goto p (search rest)) (goto_pc _)
      rw [goto_goto] at hrest
      rw [List.find?_cons_of_neg (by simpa using hx)]
      exact hrest.head hnext

def BindOutcome.ret (P : Platform M n) : BindOutcome M n → Option Int
  | .returned _ _ m => some (P.evNum m)
  | .refused ret => some ret
  | _ => none

def Completes (P : Platform M n) (p : Fin n) (ns : Bool) (b : BindState M n) (map : M → EvMap)
    (r : Int) : Prop :=
  ∃ b₁ b' o, Relation.ReflTransGen (GoesOn P p ns) b b₁ ∧ bindStep P b₁ p ns = some (b', o) ∧
    o.ret P = some r ∧ b'.map = map ∧ b'.pc p = .idle

theorem Completes.after {ns : Bool} {map : M → EvMap} {r : Int}
    (hsteps : Relation.ReflTransGen (GoesOn P p ns) b b') (h : Completes P p ns b' map r) :
    Completes P p ns b map r := by
  obtain ⟨b₁, b₂, o, hmore, hrest⟩ := h
  exact ⟨b₁, b₂, o, hsteps.trans hmore, hrest⟩

theorem Completes.last {ns : Bool} {map : M → EvMap} {r : Int}
    (h : bindStep P b p ns = some (b', o)) (hr : o.ret P = some r) (hmap : b'.map = map)
    (hpc : b'.pc p = .idle) : Completes P p ns b map r :=
  ⟨b, b', o, .refl, h, hr, hmap, hpc⟩

theorem Completes.refused {ns : Bool} {ret : Int} (h : bindStep P b p ns = some (refuse b p ret)) :
    Completes P p ns b b.map ret := .last h rfl rfl (goto_pc _)

variable {s s' : State M n} {r : Int} {i : ℕ}

theorem bindFree_completes (hmap : b.map = s.map)
    (hpc : b.pc p = .searchingFree i (P.mapsOf (P.isSpi i)))
    (h : bindFree P s p i = some (s', r)) :
    Completes P p (decide (s.gic.intrType (P.line p i) = .ns)) b s'.map r := by
  rw [bindFree] at h
  refine .after (searches (.chosen i) SDEI_DYN_IRQ (fun b x rest hpc => ?_) hpc) ?_
  · rw [GoesOn, bindStep, hpc]
  rw [hmap]
  change Completes P p _ (b.goto p ((P.findEventMapByIntr s SDEI_DYN_IRQ (P.isSpi i)).elim _ _)) _ _
  cases hfind : P.findEventMapByIntr s SDEI_DYN_IRQ (P.isSpi i) with
  | none =>
    rw [hfind] at h
    cases h
    rw [← hmap]
    refine .refused ?_
    rw [bindStep, goto_pc]
    rfl
  | some m =>
    rw [hfind] at h
    dsimp only [Option.elim] at h ⊢
    split at h
    · rename_i hd
      cases h
      rw [← hmap]
      refine .refused ?_
      rw [bindStep, goto_pc]
      exact if_pos hd
    rename_i hd
    split at h
    · rename_i hns
      cases h
      rw [← hmap]
      refine .refused ?_
      rw [bindStep, goto_pc]
      exact (if_neg hd).trans (if_pos (decide_eq_false hns))
    rename_i hns
    split at h
    · cases h
    · rename_i hbound
      cases h
      rw [← hmap] at hbound
      have hend : (((b.goto p (.chosen i m)).setMap m
            { b.map m with intr := i, bound := true }).goto p .idle).map =
          (s.setMap m { s.map m with intr := i, bound := true }).map := by
        rw [State.setMap, ← hmap]
        rfl
      refine .last (o := .returned p i m) ?_ rfl hend (goto_pc _)
      rw [bindStep, goto_pc]
      exact (if_neg hd).trans ((if_neg (by simpa using hns)).trans (if_neg hbound))

/-- A bind during which no other PE takes a step does what the atomic call does. -/
theorem bind_alone (hmap : b.map = s.map) (hnum : P.bindable i)
    (h : sdeiInterruptBind P s p i = some (s', r)) :
    Completes P p (decide (s.gic.intrType (P.line p i) = .ns)) (searchIntr P b p i) s'.map r := by
  rw [sdeiInterruptBind, if_neg (by rcases hnum with hnum | hnum <;> simp [hnum])] at h
  have hfree : ∀ {b' : BindState M n}, b'.map = s.map → bindFree P s p i = some (s', r) →
      GoesOn P p (decide (s.gic.intrType (P.line p i) = .ns)) b' (searchFree P b' p i) →
      Completes P p (decide (s.gic.intrType (P.line p i) = .ns)) b' s'.map r :=
    fun hmap h hstep => .after (.single hstep) (bindFree_completes hmap (goto_pc _) h)
  refine .after (searches (.found i) i (fun b x rest hpc => ?_) (goto_pc _)) ?_
  · rw [GoesOn, bindStep, hpc]
  have hmap' : (searchIntr P b p i).map = s.map := hmap
  rw [hmap', searchIntr, goto_goto]
  change Completes P p _ (b.goto p ((P.findEventMapByIntr s i (P.isSpi i)).elim _ _)) _ _
  cases hfind : P.findEventMapByIntr s i (P.isSpi i) with
  | none =>
    rw [hfind] at h
    refine hfree hmap h ?_
    rw [GoesOn, bindStep, goto_pc]
    rfl
  | some m =>
    rw [hfind] at h
    dsimp only [Option.elim] at h ⊢
    split at h
    · rename_i hd
      cases h
      rw [← hmap]
      refine .refused ?_
      rw [bindStep, goto_pc]
      exact if_pos hd
    rename_i hd
    split at h
    · rename_i hbound
      cases h
      rw [← hmap] at hbound ⊢
      have hstep : bindStep P (b.goto p (.found i m)) p (decide (s.gic.intrType (P.line p i) = .ns)) =
          some ((b.goto p (.found i m)).goto p .idle, .returned p i m) := by
        rw [bindStep, goto_pc]
        exact (if_neg hd).trans (if_pos hbound)
      exact .last hstep rfl rfl (goto_pc _)
    · rename_i hbound
      rw [← hmap] at hbound
      refine hfree hmap h ?_
      rw [GoesOn, bindStep, goto_pc]
      exact (if_neg hd).trans (if_neg hbound)

end

end TrustedFirmware.Sdei
