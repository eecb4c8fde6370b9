import TrustedFirmware.Bl1.FwuControl

/-! # The record of the secure image that runs

`sec_exec_image_id` is set by IMAGE_EXECUTE and cleared by SEC_IMAGE_DONE. IMAGE_RESET accepts an
interrupted image and leaves the record as it is, and IMAGE_EXECUTE of another image replaces the
record of an interrupted one. Without these two calls the record says which secure image is
executed or interrupted. The normal world's own image is in the EXECUTED state as well. -/
namespace TrustedFirmware.Bl1
open Libc ByteMemory Runs
set_option autoImplicit false

variable {P : Platform} {s s' s₀ : Fwu} {info : Image} {id : ℕ} {c : Call} {e : Event}
  {t : List (Call × Event)} {x x' : Cpu}

def Busy (P : Platform) (s : Fwu) (id : ℕ) : Prop :=
  ∃ info, P.image id = some info ∧ info.secure = true ∧ (s.desc id).state.running

/-- The calls that keep the record: the normal world resets no interrupted image, and executes no
image while the recorded one is interrupted. -/
def KeepsRecord (P : Platform) (x : Cpu) : Call → Prop
  | .imageReset false i =>
    ¬ ((P.image i.toNat).isSome = true ∧ (x.fwu.desc i.toNat).state = .interrupted)
  | .imageExecute false i =>
    ¬ ((P.image i.toNat).any (fun info => info.secure && info.executable) = true ∧
      (x.fwu.desc i.toNat).state = .authenticated ∧
      (P.image x.fwu.secExecImageId).isSome = true ∧
      (x.fwu.desc x.fwu.secExecImageId).state = .interrupted)
  | _ => True

instance (x : Cpu) (c : Call) : Decidable (KeepsRecord P x c) := by
  unfold KeepsRecord
  split <;> infer_instance

structure RecordInv (P : Platform) (s : Fwu) : Prop where
  busy : ∀ info, P.image s.secExecImageId = some info → (s.desc s.secExecImageId).state.running
  only : ∀ id, Busy P s id → id = s.secExecImageId

theorem RecordInv.start (hs : Started P s₀) : RecordInv P s₀ := by
  constructor
  · intro info himg
    exact absurd hs.secExecImageId (image_ne himg)
  · rintro id ⟨info, himg, hsec, hrunning⟩
    obtain ⟨hmem, rfl⟩ := image_some himg
    rcases (hs.desc info hmem).2.2 with hr | ⟨hns, -⟩
    · rw [hr] at hrunning
      exact absurd hrunning (by decide)
    · exact absurd hsec (by simp [hns])

theorem RecordInv.quiet (h : RecordInv P s)
    (states : ∀ j, (s'.desc j).state = (s.desc j).state ∨
      ¬ (s.desc j).state.running ∧ ¬ (s'.desc j).state.running)
    (same : s'.secExecImageId = s.secExecImageId) : RecordInv P s' := by
  have hiff : ∀ j, (s'.desc j).state.running ↔ (s.desc j).state.running := by
    intro j
    rcases states j with heq | ⟨hold, hnew⟩
    · rw [heq]
    · exact ⟨fun hr => absurd hr hnew, fun hr => absurd hr hold⟩
  constructor
  · rw [same]
    exact fun info himg => (hiff _).mpr (h.busy info himg)
  · rintro id ⟨info, himg, hsec, hrunning⟩
    rw [same]
    exact h.only id ⟨info, himg, hsec, (hiff id).mp hrunning⟩

theorem RecordInv.taken {state : ImageState} (hstate : state.running)
    (set : StateSet s s' id state) (hrec : s'.secExecImageId = id)
    (honly : ∀ j, Busy P s j → j = id) : RecordInv P s' := by
  constructor
  · intro info _
    rw [hrec, set.1]
    exact hstate
  · rintro j ⟨info, himg, hsec, hrunning⟩
    rw [hrec]
    by_contra hne
    rw [set.2 j hne] at hrunning
    exact hne (honly j ⟨info, himg, hsec, hrunning⟩)

theorem RecordInv.interrupted (h : RecordInv P x.fwu) (hctl : ControlInv P t x)
    (hns : x.secureRuns = false) (himg : P.image x.fwu.secExecImageId = some info) :
    (x.fwu.desc x.fwu.secExecImageId).state = .interrupted :=
  (h.busy info himg).resolve_left (hctl.idle hns himg (hctl.recorded info himg).1)

theorem executed_call (hcall : fwuSmcHandler P s c = some (s', .entered id))
    (hstate : (s.desc id).state = .authenticated) : ∃ i, c = .imageExecute false i ∧ i.toNat = id := by
  have hmade := fwuSmcHandler_madeBy hcall
  cases c with
  | imageExecute sec i =>
    obtain ⟨rfl, hi⟩ := hmade
    exact ⟨i, rfl, hi⟩
  | imageResume sec =>
    simp only [fwuSmcHandler, fwuImageResume] at hcall
    split at hcall
    · split at hcall <;> simp at hcall
    split at hcall
    · cases hcall
    split at hcall
    · split at hcall <;> simp at hcall
    split at hcall
    · cases hcall
    · rename_i hi
      simp only [Option.some.injEq, Prod.mk.injEq, Event.entered.injEq] at hcall
      rw [← hcall.2, not_not.mp hi] at hstate
      exact absurd hstate (by decide)
  | _ => exact hmade.elim

theorem reset_call {base n : ℕ} (hcall : fwuSmcHandler P s c = some (s', .reset id base n)) :
    ∃ i, c = .imageReset false i ∧ i.toNat = id := by
  have hmade := fwuSmcHandler_madeBy hcall
  cases c with
  | imageReset sec i =>
    obtain ⟨rfl, hi⟩ := hmade
    exact ⟨i, rfl, hi⟩
  | _ => exact hmade.elim

theorem RecordInv.none_busy {i : UInt32} (h : RecordInv P x.fwu) (hctl : ControlInv P t x)
    (hns : x.secureRuns = false) (hkeeps : KeepsRecord P x (.imageExecute false i))
    (himg : P.image i.toNat = some info) (hsec : info.secure = true) (hexe : info.executable = true)
    (hstate : (x.fwu.desc i.toNat).state = .authenticated) (j : ℕ) : ¬ Busy P x.fwu j := by
  rintro ⟨other, ho, hosec, hrunning⟩
  obtain rfl := h.only j ⟨other, ho, hosec, hrunning⟩
  exact hkeeps ⟨by simp [himg, hsec, hexe], hstate, by simp [ho], h.interrupted hctl hns ho⟩

theorem RecordInv.step (h : RecordInv P x.fwu) (hctl : ControlInv P t x)
    (hkeeps : KeepsRecord P x c) (hs : cpuCall P x c = some (x', e)) : RecordInv P x'.fwu := by
  obtain ⟨hcall, -, hcaller⟩ := cpuCall_some hs
  have hmove := (fwuSmcHandler_change hcall).move
  generalize x'.fwu = u at hcall hmove
  cases hmove with
  | quiet states same _ => exact h.quiet states same
  | @started id info image secure executable state set recorded =>
    obtain ⟨i, rfl, rfl⟩ := executed_call hcall state
    have hns : x.secureRuns = false := by simpa [Call.secureCaller] using hcaller
    have hnone := h.none_busy hctl hns hkeeps image secure executable state
    exact .taken (by decide) set recorded fun j hj => absurd hj (hnone j)
  | interrupted _ _ set same => exact .taken (by decide) set same h.only
  | resumed _ _ set same => exact .taken (by decide) set same h.only
  | done _ _ set cleared =>
    constructor
    · intro info himg
      exact absurd cleared (image_ne himg)
    · rintro j ⟨info, himg, hsec, hrunning⟩
      by_cases hj : j = x.fwu.secExecImageId
      · rw [hj, set.1] at hrunning
        exact absurd hrunning (by decide)
      · rw [set.2 j hj] at hrunning
        exact absurd (h.only j ⟨info, himg, hsec, hrunning⟩) hj
  | @reset id base n info image state set same =>
    obtain ⟨i, rfl, rfl⟩ := reset_call hcall
    have hnot : (x.fwu.desc i.toNat).state ≠ .interrupted := fun hi => hkeeps ⟨by simp [image], hi⟩
    exact h.quiet (set.quiet (not_or.mpr ⟨state.2, hnot⟩) (by decide)) same

theorem recordInv (hs : Started P s₀)
    (hrun : Traced (Performs (cpuCall P) (KeepsRecord P)) ⟨s₀, false⟩ t x) :
    ControlInv P t x ∧ RecordInv P x.fwu :=
  hrun.invariant (I := fun t x => ControlInv P t x ∧ RecordInv P x.fwu)
    ⟨ControlInv.start hs, RecordInv.start hs⟩
    fun _ _ _ _ h hstep => ⟨h.1.step hstep.2, h.2.step h.1 hstep.1 hstep.2⟩

/-! ## Resuming -/

theorem resume_entered (h : fwuImageResume P s false = some (s', .entered id)) :
    id = s.secExecImageId ∧ (∃ info, P.image id = some info) ∧ (s.desc id).state = .interrupted := by
  rw [fwuImageResume] at h
  split at h
  · simp at h
  rename_i info himg
  split at h
  · cases h
  split at h
  · rename_i hsec
    cases hsec
  split at h
  · cases h
  · rename_i hi
    simp only [Option.some.injEq, Prod.mk.injEq, Event.entered.injEq] at h
    obtain ⟨-, rfl⟩ := h
    exact ⟨rfl, ⟨info, himg⟩, not_not.mp hi⟩

theorem resume_ne_none (hrec : ∀ info, P.image s.secExecImageId = some info →
      info.secure = true ∧ info.executable = true ∧ (s.desc s.secExecImageId).state = .interrupted) :
    fwuImageResume P s false ≠ none := by
  rw [fwuImageResume]
  split
  · simp
  rename_i info himg
  obtain ⟨hsec, hexe, hstate⟩ := hrec info himg
  simp [hsec, hexe, hstate]

/-- Of the images that count, this one is executed or interrupted and no other is. -/
def OnlyRunning (P : Platform) (s : Fwu) (counts : Image → Bool) (id : ℕ) : Prop :=
  (∃ info, P.image id = some info ∧ counts info = true ∧ (s.desc id).state.running) ∧
    ∀ j info, P.image j = some info → counts info = true → (s.desc j).state.running → j = id

/-- **The record of the secure image that runs.** In every sequence of calls that keep the record,
made by the world that runs, `sec_exec_image_id` is valid exactly if it is the one secure image that
is executed or interrupted. IMAGE_RESUME by the normal world then fails no assertion, and the
image it enters was started, interrupted, and not reset or ended since. -/
theorem record_matches (hs : Started P s₀)
    (hrun : Traced (Performs (cpuCall P) (KeepsRecord P)) ⟨s₀, false⟩ t x) :
    ((P.image x.fwu.secExecImageId).isSome = true ↔
      OnlyRunning P x.fwu Image.secure x.fwu.secExecImageId) ∧
    (P.image x.fwu.secExecImageId = none → ∀ id, ¬ Busy P x.fwu id) ∧
    (x.secureRuns = false → fwuSmcHandler P x.fwu (.imageResume false) ≠ none) ∧
    (∀ s' id, fwuSmcHandler P x.fwu (.imageResume false) = some (s', .entered id) →
      ∃ l, runEvents id t = l ++ [.entered id, .left id]) := by
  obtain ⟨hctl, hinv⟩ := recordInv hs hrun
  refine ⟨⟨fun hvalid => ?_, ?_⟩, ?_, ?_, ?_⟩
  · obtain ⟨info, himg⟩ := Option.isSome_iff_exists.mp hvalid
    refine ⟨⟨info, himg, (hctl.recorded info himg).1, hinv.busy info himg⟩, ?_⟩
    exact fun j info' himg' hsec hrunning => hinv.only j ⟨info', himg', hsec, hrunning⟩
  · rintro ⟨⟨info, himg, -⟩, -⟩
    simp [himg]
  · rintro hnone id hbusy
    obtain rfl := hinv.only id hbusy
    obtain ⟨info, himg, -⟩ := hbusy
    exact absurd himg (by simp [hnone])
  · intro hns
    refine resume_ne_none fun info himg => ?_
    obtain ⟨hsec, hexe⟩ := hctl.recorded info himg
    exact ⟨hsec, hexe, hinv.interrupted hctl hns himg⟩
  · intro s' id hresume
    obtain ⟨-, ⟨info, himg⟩, hstate⟩ := resume_entered hresume
    exact hctl.interrupted id info himg hstate

def interruptedRun : List Call :=
  [.imageCopy false 1 0x100 8 8 0, .imageAuth false 1 0 0 0 0, .imageExecute false 1,
    .imageResume true]

theorem record_matches_interrupted : ∃ t x,
    Traced (Performs (cpuCall fiveImages) (KeepsRecord fiveImages)) booted t x ∧
    x.fwu.secExecImageId = 1 ∧
    OnlyRunning fiveImages x.fwu Image.secure x.fwu.secExecImageId := by
  obtain ⟨t, x, hrun, hq⟩ := @execute_traced _ _ _ (cpuCall fiveImages) (KeepsRecord fiveImages) _
    (fun _ x => decide (x.fwu.secExecImageId = 1)) booted interruptedRun (by decide +kernel)
  have h1 : x.fwu.secExecImageId = 1 := of_decide_eq_true hq
  exact ⟨t, x, hrun, h1, (record_matches (untouched_started _) hrun).1.mp (by rw [h1]; rfl)⟩

/-- The normal world's image is in the EXECUTED state besides the secure one that was interrupted.
After that one was reset, it is still the recorded one, and resuming it fails an assertion. -/
theorem record_outlives_reset :
    (∃ t x, Traced (Performs (cpuCall fiveImages) AnyCpuCall) booted t x ∧
      (fiveImages.image x.fwu.secExecImageId).isSome = true ∧
      ¬ OnlyRunning fiveImages x.fwu (fun _ => true) x.fwu.secExecImageId) ∧
    ∃ t x, Traced (Performs (cpuCall fiveImages) AnyCpuCall) booted t x ∧
      (fiveImages.image x.fwu.secExecImageId).isSome = true ∧
      ¬ OnlyRunning fiveImages x.fwu Image.secure x.fwu.secExecImageId ∧
      x.secureRuns = false ∧ fwuSmcHandler fiveImages x.fwu (.imageResume false) = none := by
  constructor
  · obtain ⟨t, x, hrun, hq⟩ := @execute_traced _ _ _ (cpuCall fiveImages) AnyCpuCall _
      (fun _ x => decide (x.fwu.secExecImageId = 1 ∧ (x.fwu.desc 3).state.running))
      booted interruptedRun (by decide +kernel)
    obtain ⟨h1, h3⟩ := of_decide_eq_true hq
    refine ⟨t, x, hrun, by rw [h1]; rfl, ?_⟩
    rintro ⟨-, honly⟩
    have heq := honly 3 _ rfl rfl h3
    rw [h1] at heq
    exact absurd heq (by decide)
  · obtain ⟨t, x, hrun, hq⟩ := @execute_traced _ _ _ (cpuCall fiveImages) AnyCpuCall _
      (fun _ x => decide (x.fwu.secExecImageId = 1 ∧ (x.fwu.desc 1).state = .reset ∧
        x.secureRuns = false ∧
        (fwuSmcHandler fiveImages x.fwu (.imageResume false)).isNone = true))
      booted (interruptedRun ++ [.imageReset false 1]) (by decide +kernel)
    obtain ⟨h1, hreset, hns, hnone⟩ := of_decide_eq_true hq
    refine ⟨t, x, hrun, by rw [h1]; rfl, ?_, hns, Option.isNone_iff_eq_none.mp hnone⟩
    rintro ⟨⟨info, -, -, hrunning⟩, -⟩
    rw [h1, hreset] at hrunning
    exact absurd hrunning (by decide)

end TrustedFirmware.Bl1
