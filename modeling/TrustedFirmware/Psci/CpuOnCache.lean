import TrustedFirmware.Psci.Calls

/-! # CPU_ON and the cache

Without hardware coherency the affinity state of a CPU is a word in memory and a line in the caches
that are on. A CPU that turns itself off does so with its cache off: it stores OFF to memory and then
drops the line, in which a CPU_ON call may have written ON_PENDING by then. The call looks again for
this reason. -/
namespace TrustedFirmware.Psci
open Runs
set_option autoImplicit false

structure CachedWord where
  mem : AffInfoState
  /-- The line, and whether it is dirty. -/
  line : Option (AffInfoState × Bool)
  deriving DecidableEq

section Word
variable (w : CachedWord) (v : AffInfoState)

def CachedWord.read : AffInfoState := (w.line.map Prod.fst).getD w.mem

def CachedWord.write : CachedWord := { w with line := some (v, true) }

/-- Clean and invalidate; an eviction does the same. -/
def CachedWord.flush : CachedWord :=
  match w.line with
  | some (v, true) => ⟨v, none⟩
  | _ => ⟨w.mem, none⟩

def CachedWord.fill : CachedWord := { w with line := some (w.line.getD (w.mem, false)) }

/-- Memory and the line agree. -/
def CachedWord.Settled : Prop := w = ⟨v, none⟩ ∨ w = ⟨v, some (v, false)⟩

/-- The value was written over `u`, and may have got to memory. -/
def CachedWord.Over (u : AffInfoState) : Prop := w = ⟨u, some (v, true)⟩ ∨ w.Settled v

end Word

/-! ## The system -/

/-- Where the holder of the target's lock is in `psci_cpu_on_start()`; `free` if nobody holds it. -/
inductive HolderPc where
  | free | clean | validate | pend | flush | recheck | retry | retryFlush | retryCheck | powerOn
  | restore | restoreFlush | leave
  deriving DecidableEq

/-- Where the target is: on its way up from `entry`, on its way down from `offFlush` on. -/
inductive CachedPc where
  | down | entry | branch | finish | finishCheck | toRun | runFlush | running | offFlush | offStore | offInv
  deriving DecidableEq

structure CachedSystem where
  word : CachedWord
  holder : HolderPc
  powerRequested : Bool
  target : CachedPc

inductive CachedAction where
  /-- The next step of the holder, or the first one of a new one, with the answer of `pwr_domain_on()`. -/
  | holder (platFails : Bool)
  | target
  | evict
  | fill
  deriving DecidableEq

/-- `none` where an assertion fails. -/
def advanceHolder (s : CachedSystem) (platFails : Bool) : Option CachedSystem :=
  match s.holder with
  | .free => some { s with holder := .clean }
  | .clean => some { s with word := s.word.flush, holder := .validate }
  | .validate => some { s with holder := if s.word.read = .off then .pend else .leave }
  | .pend => some { s with word := s.word.write .onPending, holder := .flush }
  | .flush => some { s with word := s.word.flush, holder := .recheck }
  | .recheck =>
    match s.word.read with
    | .onPending => some { s with holder := .powerOn }
    | .off => some { s with holder := .retry }
    | .on => none
  | .retry => some { s with word := s.word.write .onPending, holder := .retryFlush }
  | .retryFlush => some { s with word := s.word.flush, holder := .retryCheck }
  | .retryCheck => if s.word.read = .onPending then some { s with holder := .powerOn } else none
  | .powerOn =>
    if platFails then some { s with holder := .restore }
    else some { s with powerRequested := true, holder := .leave }
  | .restore => some { s with word := s.word.write .off, holder := .restoreFlush }
  | .restoreFlush => some { s with word := s.word.flush, holder := .leave }
  | .leave => some { s with holder := .free }

/-- `none` where the target waits, panics, takes its boot for a resume or an assertion fails. -/
def advanceCached (s : CachedSystem) : Option CachedSystem :=
  match s.target with
  | .down => if s.powerRequested then some { s with powerRequested := false, target := .entry } else none
  | .entry => if s.word.mem = .off then none else some { s with target := .branch }
  | .branch => if s.word.mem = .onPending then some { s with target := .finish } else none
  | .finish => if s.holder = .free then some { s with target := .finishCheck } else none
  | .finishCheck => if s.word.read = .onPending then some { s with target := .toRun } else none
  | .toRun => some { s with word := s.word.write .on, target := .runFlush }
  | .runFlush => some { s with word := s.word.flush, target := .running }
  | .running => some { s with target := .offFlush }
  | .offFlush => some { s with word := s.word.flush, target := .offStore }
  | .offStore => some { s with word := { s.word with mem := .off }, target := .offInv }
  | .offInv => some { s with word := { s.word with line := none }, target := .down }

/-- The caches may evict or fill the line at any time. -/
def cachedStep (s : CachedSystem) : CachedAction → Option CachedSystem
  | .holder platFails => advanceHolder s platFails
  | .target => advanceCached s
  | .evict => some { s with word := s.word.flush }
  | .fill => some { s with word := s.word.fill }

def CachedSteps (s : CachedSystem) (a : CachedAction) (s' : CachedSystem) : Prop :=
  cachedStep s a = some s'

/-- Nobody turns the target on, and it is off or runs. -/
structure CachedStart (s : CachedSystem) : Prop where
  free : s.holder = .free
  quiet : s.powerRequested = false
  target : s.target = .down ∧ s.word.Settled .off ∨ s.target = .running ∧ s.word.Settled .on

/-! ## The invariant -/

/-- What holds of the word while no caller has claimed the target. Where it is down without a request,
a call that the platform has refused may have lost its OFF to the invalidation. -/
def Unclaimed (w : CachedWord) (powerRequested : Bool) : CachedPc → Prop
  | .down => w.Settled .onPending ∨ powerRequested = false ∧ w.Settled .off
  | .offInv => w.Settled .onPending ∧ powerRequested = true ∨
      powerRequested = false ∧ (w.Settled .off ∨ w = ⟨.off, some (.on, false)⟩)
  | .entry | .branch | .finish | .finishCheck | .toRun => powerRequested = false ∧ w.Settled .onPending
  | .runFlush | .running | .offFlush => powerRequested = false ∧ w.Over .on .onPending
  | .offStore => powerRequested = false ∧ w.Settled .on

/-- What the word may be while a caller has claimed the target: before the target has dropped the line,
and after it has, as what the caller wrote may have been lost with the line. -/
def HolderPc.claim : HolderPc → Option ((CachedWord → Prop) × (CachedWord → Prop))
  | .free | .clean | .validate | .leave => none
  | .pend => some ((·.Settled .off), (·.Settled .off))
  | .flush => some ((·.Over .onPending .off), (·.Settled .off))
  | .recheck => some ((·.Settled .onPending), (·.Settled .off))
  | .retry => some (fun _ => False, (·.Settled .off))
  | .retryFlush => some (fun _ => False, (·.Over .onPending .off))
  | .retryCheck => some (fun _ => False, (·.Settled .onPending))
  | .powerOn | .restore => some ((·.Settled .onPending), (·.Settled .onPending))
  | .restoreFlush => some ((·.Over .off .onPending), (·.Settled .onPending))

def Claimed (s : CachedSystem) (c : (CachedWord → Prop) × (CachedWord → Prop)) : Prop :=
  s.powerRequested = false ∧
    ((s.target = .down ∨ s.target = .offInv) ∧ c.1 s.word ∨ s.target = .down ∧ c.2 s.word)

def CachedInv (s : CachedSystem) : Prop :=
  match s.holder.claim with
  | none => Unclaimed s.word s.powerRequested s.target
  | some c => Claimed s c

section Word
variable {w w' : CachedWord} {u v : AffInfoState}

theorem CachedWord.Settled.read_eq (h : w.Settled v) : w.read = v := by
  rcases h with rfl | rfl <;> rfl

theorem CachedWord.Settled.mem_eq (h : w.Settled v) : w.mem = v := by
  rcases h with rfl | rfl <;> rfl

theorem CachedWord.Settled.drift (h : w.Settled v) (hw : w' = w.flush ∨ w' = w.fill) : w'.Settled v := by
  rcases h with rfl | rfl <;> exact hw

theorem CachedWord.Settled.drop (h : w.Settled v) : CachedWord.Settled ⟨w.mem, none⟩ v := by
  rw [h.mem_eq]
  exact .inl rfl

theorem CachedWord.Settled.write (h : w.Settled u) (v : AffInfoState) : (w.write v).Over v u := by
  rcases h with rfl | rfl <;> exact .inl rfl

theorem CachedWord.Over.read_eq (h : w.Over v u) : w.read = v := by
  rcases h with rfl | h
  · rfl
  · exact h.read_eq

theorem CachedWord.Over.flush (h : w.Over v u) : w.flush.Settled v := by
  rcases h with rfl | h
  · exact .inl rfl
  · exact h.drift (.inl rfl)

theorem CachedWord.Over.drift (h : w.Over v u) (hw : w' = w.flush ∨ w' = w.fill) : w'.Over v u := by
  rcases hw with rfl | rfl
  · exact .inr h.flush
  · exact h.imp (fun hw => by rw [hw]; rfl) (·.drift (.inr rfl))

theorem CachedWord.Over.drop (h : w.Over v u) :
    CachedWord.Settled ⟨w.mem, none⟩ v ∨ CachedWord.Settled ⟨w.mem, none⟩ u := by
  rcases h with rfl | h
  · exact .inr (.inl rfl)
  · exact .inl h.drop

end Word

section Steps
variable {s s' : CachedSystem} {w w' : CachedWord} {q : Bool} {t : CachedPc} {pc : HolderPc}
  {c c' : (CachedWord → Prop) × (CachedWord → Prop)}

theorem Unclaimed.drift (h : Unclaimed w q t) (hw : w' = w.flush ∨ w' = w.fill) : Unclaimed w' q t := by
  cases t with
  | down => exact h.imp (·.drift hw) (·.imp_right (·.drift hw))
  | offInv =>
    refine h.imp (·.imp_left (·.drift hw)) (·.imp_right fun h => ?_)
    rcases h with h | rfl
    · exact .inl (h.drift hw)
    · exact hw.imp_left .inl
  | _ => exact h.imp_right (·.drift hw)

theorem Unclaimed.off (h : Unclaimed w q t) (hoff : w.read = .off) :
    q = false ∧ (t = .down ∨ t = .offInv) ∧ w.Settled .off := by
  cases t with
  | down =>
    rcases h with h | ⟨hq, h⟩
    · cases h.read_eq.symm.trans hoff
    · exact ⟨hq, .inl rfl, h⟩
  | offInv =>
    rcases h with ⟨h, -⟩ | ⟨hq, h | rfl⟩
    · cases h.read_eq.symm.trans hoff
    · exact ⟨hq, .inr rfl, h⟩
    · cases hoff
  | _ => cases h.2.read_eq.symm.trans hoff

/-- A step of the target that nobody has claimed, or where it stops. -/
theorem Unclaimed.target (h : Unclaimed w q t) (pc : HolderPc) :
    (advanceCached ⟨w, pc, q, t⟩ = none ∧ (t = .down ∧ q = false ∨ t = .finish ∧ pc ≠ .free)) ∨
    ∃ w' q' t', advanceCached ⟨w, pc, q, t⟩ = some ⟨w', pc, q', t'⟩ ∧ Unclaimed w' q' t' := by
  cases t with
  | down =>
    cases q with
    | true => exact .inr ⟨_, _, _, rfl, rfl, h.resolve_right nofun⟩
    | false => exact .inl ⟨rfl, .inl ⟨rfl, rfl⟩⟩
  | entry => exact .inr ⟨w, q, .branch, if_neg (by rw [h.2.mem_eq]; nofun), h⟩
  | branch => exact .inr ⟨w, q, .finish, if_pos h.2.mem_eq, h⟩
  | finish =>
    by_cases hfree : pc = .free
    · exact .inr ⟨w, q, .finishCheck, if_pos hfree, h⟩
    · exact .inl ⟨if_neg hfree, .inr ⟨rfl, hfree⟩⟩
  | finishCheck => exact .inr ⟨w, q, .toRun, if_pos h.2.read_eq, h⟩
  | toRun => exact .inr ⟨_, _, _, rfl, h.1, h.2.write _⟩
  | runFlush => exact .inr ⟨_, _, _, rfl, h.1, .inr h.2.flush⟩
  | running => exact .inr ⟨_, _, _, rfl, h⟩
  | offFlush => exact .inr ⟨_, _, _, rfl, h.1, h.2.flush⟩
  | offStore =>
    obtain ⟨hq, rfl | rfl⟩ := h
    · exact .inr ⟨_, _, _, rfl, .inr ⟨hq, .inl (.inl rfl)⟩⟩
    · exact .inr ⟨_, _, _, rfl, .inr ⟨hq, .inr rfl⟩⟩
  | offInv =>
    refine .inr ⟨_, _, _, rfl, ?_⟩
    rcases h with ⟨h, -⟩ | ⟨hq, h | rfl⟩
    · exact .inl h.drop
    · exact .inr ⟨hq, h.drop⟩
    · exact .inr ⟨hq, .inl rfl⟩

theorem HolderPc.claim_drift (hpc : pc.claim = some c) (hw : w' = w.flush ∨ w' = w.fill) :
    (c.1 w → c.1 w') ∧ (c.2 w → c.2 w') := by
  cases pc <;> cases hpc
  case retry | retryFlush | retryCheck => exact ⟨id, (·.drift hw)⟩
  all_goals exact ⟨(·.drift hw), (·.drift hw)⟩

theorem HolderPc.claim_drop (hpc : pc.claim = some c) (h : c.1 w) : c.1 ⟨w.mem, none⟩ ∨ c.2 ⟨w.mem, none⟩ := by
  cases pc <;> cases hpc
  case flush | restoreFlush => exact h.drop.imp_left .inr
  case retry | retryFlush | retryCheck => exact h.elim
  all_goals exact .inl h.drop

theorem Claimed.next (h : Claimed s c) (hbefore : c.1 s.word → c'.1 w)
    (hafter : c.2 s.word → c'.1 w ∨ c'.2 w) : Claimed { s with word := w, holder := pc } c' := by
  obtain ⟨hq, ⟨ht, hw⟩ | ⟨ht, hw⟩⟩ := h
  · exact ⟨hq, .inl ⟨ht, hbefore hw⟩⟩
  · exact ⟨hq, (hafter hw).imp (⟨.inl ht, ·⟩) (⟨ht, ·⟩)⟩

/-- The holder can take its next step. What it has written is lost if the target drops the line before the
flush; the retry then finds the target down. -/
theorem CachedInv.holder (h : CachedInv s) (platFails : Bool) :
    ∃ s', advanceHolder s platFails = some s' ∧ CachedInv s' := by
  obtain ⟨w, pc, q, t⟩ := s
  cases pc with
  | free | leave => exact ⟨_, rfl, h⟩
  | clean => exact ⟨_, rfl, Unclaimed.drift h (.inl rfl)⟩
  | validate =>
    refine ⟨_, rfl, ?_⟩
    by_cases hoff : w.read = .off
    · obtain ⟨hq, ht, hw⟩ := Unclaimed.off h hoff
      rw [if_pos hoff]
      exact ⟨hq, .inl ⟨ht, hw⟩⟩
    · rw [if_neg hoff]
      exact h
  | pend | restore => exact ⟨_, rfl, Claimed.next h (·.write _) (.inl <| ·.write _)⟩
  | flush => exact ⟨_, rfl, Claimed.next h (·.flush) fun hw => .inr (hw.drift (.inl rfl))⟩
  | recheck =>
    obtain ⟨hq, ⟨ht, hw⟩ | ⟨ht, hw⟩⟩ := h
    · exact ⟨⟨w, .powerOn, q, t⟩, by rw [advanceHolder, hw.read_eq], hq, .inl ⟨ht, hw⟩⟩
    · exact ⟨⟨w, .retry, q, t⟩, by rw [advanceHolder, hw.read_eq], hq, .inr ⟨ht, hw⟩⟩
  | retry => exact ⟨_, rfl, Claimed.next h False.elim fun hw => .inr (hw.write _)⟩
  | retryFlush => exact ⟨_, rfl, Claimed.next h False.elim fun hw => .inr hw.flush⟩
  | retryCheck =>
    obtain ⟨hq, ⟨-, hw⟩ | ⟨ht, hw⟩⟩ := h
    · exact hw.elim
    · exact ⟨⟨w, .powerOn, q, t⟩, if_pos hw.read_eq, hq, .inr ⟨ht, hw⟩⟩
  | powerOn =>
    cases platFails with
    | true => exact ⟨_, rfl, h⟩
    | false =>
      refine ⟨_, rfl, ?_⟩
      obtain ⟨-, ⟨rfl | rfl, hw⟩ | ⟨rfl, hw⟩⟩ := h
      · exact .inl hw
      · exact .inl ⟨hw, rfl⟩
      · exact .inl hw
  | restoreFlush =>
    refine ⟨_, rfl, ?_⟩
    obtain ⟨hq, ⟨rfl | rfl, hw⟩ | ⟨rfl, hw⟩⟩ := h
    · exact .inr ⟨hq, hw.flush⟩
    · exact .inr ⟨hq, .inl hw.flush⟩
    · exact .inl (hw.drift (.inl rfl))

theorem CachedInv.target (h : CachedInv s) :
    (advanceCached s = none ∧
      (s.target = .down ∧ s.powerRequested = false ∨ s.target = .finish ∧ s.holder ≠ .free)) ∨
    ∃ s', advanceCached s = some s' ∧ CachedInv s' := by
  obtain ⟨w, pc, q, t⟩ := s
  cases hpc : pc.claim with
  | none =>
    rw [CachedInv, hpc] at h
    refine (Unclaimed.target h pc).imp_right fun ⟨_, _, _, hs, h⟩ => ⟨_, hs, ?_⟩
    rw [CachedInv, hpc]
    exact h
  | some c =>
    rw [CachedInv, hpc] at h
    obtain ⟨rfl, ⟨rfl | rfl, hw⟩ | ⟨rfl, hw⟩⟩ := h
    · exact .inl ⟨rfl, .inl ⟨rfl, rfl⟩⟩
    · refine .inr ⟨_, rfl, ?_⟩
      rw [CachedInv, hpc]
      exact ⟨rfl, (HolderPc.claim_drop hpc hw).imp (⟨.inl rfl, ·⟩) (⟨rfl, ·⟩)⟩
    · exact .inl ⟨rfl, .inl ⟨rfl, rfl⟩⟩

theorem CachedInv.drift (h : CachedInv s) (hw : w = s.word.flush ∨ w = s.word.fill) :
    CachedInv { s with word := w } := by
  cases hpc : s.holder.claim with
  | none =>
    rw [CachedInv, hpc] at h ⊢
    exact Unclaimed.drift h hw
  | some c =>
    rw [CachedInv, hpc] at h ⊢
    obtain ⟨hbefore, hafter⟩ := HolderPc.claim_drift hpc hw
    exact Claimed.next h hbefore fun h => .inr (hafter h)

theorem CachedInv.step {a : CachedAction} (h : CachedInv s) (hs : CachedSteps s a s') : CachedInv s' := by
  cases a with
  | holder platFails =>
    obtain ⟨_, hs', h⟩ := h.holder platFails
    exact Option.some.inj (hs'.symm.trans hs) ▸ h
  | target =>
    rcases h.target with ⟨hnone, -⟩ | ⟨_, hs', h⟩
    · cases hnone.symm.trans hs
    · exact Option.some.inj (hs'.symm.trans hs) ▸ h
  | evict => exact Option.some.inj hs ▸ h.drift (.inl rfl)
  | fill => exact Option.some.inj hs ▸ h.drift (.inr rfl)

theorem CachedInv.pending (h : CachedInv s)
    (hon : s.holder = .powerOn ∨ s.powerRequested = true ∨ s.target = .entry ∨ s.target = .branch) :
    s.word.mem = .onPending := by
  obtain ⟨w, pc, q, t⟩ := s
  cases hpc : pc.claim with
  | none =>
    rw [CachedInv, hpc] at h
    rcases hon with rfl | rfl | rfl | rfl
    · cases hpc
    · cases t with
      | down => exact (Or.resolve_right h nofun).mem_eq
      | offInv => exact (Or.resolve_right h nofun).1.mem_eq
      | _ => cases h.1
    · exact h.2.mem_eq
    · exact h.2.mem_eq
  | some c =>
    rw [CachedInv, hpc] at h
    obtain ⟨rfl, h⟩ := h
    rcases hon with rfl | hon | rfl | rfl
    · cases hpc
      rcases h with ⟨-, hw⟩ | ⟨-, hw⟩ <;> exact hw.mem_eq
    · cases hon
    · simp at h
    · simp at h

end Steps

/-- **The retry is enough.** In every interleaving of CPU_ON calls with the target's way down and up,
whatever the caches evict or fill, no assertion on the affinity state fails: the holder of the lock can
take its next step, and the target stops only while nobody has turned it on and while it waits for the
lock. When the platform is asked to power it on, memory has ON_PENDING, and it keeps it until the target
has seen it. -/
theorem cpuOn_survives_invalidation {s₀ s : CachedSystem} (h₀ : CachedStart s₀)
    (h : Reach CachedSteps s₀ s) :
    (∀ platFails, advanceHolder s platFails ≠ none) ∧
    (advanceCached s = none →
      s.target = .down ∧ s.powerRequested = false ∨ s.target = .finish ∧ s.holder ≠ .free) ∧
    (s.holder = .powerOn ∨ s.powerRequested = true ∨ s.target = .entry ∨ s.target = .branch →
      s.word.mem = .onPending) := by
  have hstart : CachedInv s₀ := by
    rw [CachedInv, h₀.free]
    rcases h₀.target with ⟨ht, hw⟩ | ⟨ht, hw⟩
    · rw [ht]
      exact .inr ⟨h₀.quiet, hw⟩
    · rw [ht]
      exact ⟨h₀.quiet, .inr hw⟩
  have hinv : CachedInv s := h.invariant hstart fun _ _ _ hu hs => hu.step hs
  refine ⟨fun platFails hnone => ?_, fun hnone => ?_, hinv.pending⟩
  · obtain ⟨_, hs, -⟩ := hinv.holder platFails
    cases hnone.symm.trans hs
  · rcases hinv.target with ⟨-, hstop⟩ | ⟨_, hs, -⟩
    · exact hstop
    · cases hnone.symm.trans hs

/-- The invalidation comes between the write of ON_PENDING and its flush. -/
theorem cpuOn_survives_invalidation_retry : ∃ s,
    Reach CachedSteps ⟨⟨.on, none⟩, .free, false, .running⟩ s ∧ s.holder = .retryCheck ∧
    ∀ platFails, advanceHolder s platFails ≠ none := by
  have hrun : ([.target, .target, .target, .holder false, .holder false, .holder false, .holder false,
      .target, .holder false, .holder false, .holder false, .holder false].foldlM cachedStep
        ⟨⟨.on, none⟩, .free, false, .running⟩).any (fun s => decide (s.holder = .retryCheck)) = true := by
    decide +kernel
  obtain ⟨s, hs, hpc⟩ := (Option.any_eq_true _ _).mp hrun
  have hreach : Reach CachedSteps _ s := Reach.of_foldlM hs
  exact ⟨s, hreach, of_decide_eq_true hpc,
    (cpuOn_survives_invalidation ⟨rfl, rfl, .inr ⟨rfl, .inl rfl⟩⟩ hreach).1⟩

end TrustedFirmware.Psci
