import TrustedFirmware.Bl1.FwuLoaded

/-! # Who makes a firmware update call

One CPU runs the normal world and, from IMAGE_EXECUTE or IMAGE_RESUME on, a secure image, until
that image hands control back. A call is made by the world that runs. So a normal world caller
never finds a secure image in the EXECUTED state. -/
namespace TrustedFirmware.Bl1
open Libc ByteMemory Runs
set_option autoImplicit false

variable {P : Platform} {s s' s₀ : Fwu} {info : Image} {id : ℕ} {c : Call} {e : Event}
  {t : List (Call × Event)}

/-! ## Events and calls -/

/-- The world that makes a call; a write by someone else is no call. -/
def Call.secureCaller : Call → Option Bool
  | .imageCopy sec _ _ _ _ _ => some sec
  | .imageAuth sec _ _ _ _ _ => some sec
  | .imageExecute sec _ => some sec
  | .imageResume sec => some sec
  | .secImageDone sec => some sec
  | .imageReset sec _ => some sec
  | .write _ _ => none

def Event.madeBy : Event → Call → Prop
  | .refused _, c => c.secureCaller ≠ none
  | .copied _ _ _, .imageCopy sec _ _ _ _ _ => sec = false
  | .accepted _ _, .imageAuth _ _ _ _ _ _ => True
  | .rejected _, .imageAuth _ _ _ _ _ _ => True
  | .entered id, .imageExecute sec i => sec = false ∧ i.toNat = id
  | .entered _, .imageResume sec => sec = false
  | .left _, .imageResume sec => sec = true
  | .done _, .secImageDone sec => sec = true
  | .reset id _ _, .imageReset sec i => sec = false ∧ i.toNat = id
  | .idle, .imageReset sec _ => sec = false
  | .outside, .write _ _ => True
  | _, _ => False

theorem refused_madeBy {ret : Int} (hc : c.secureCaller ≠ none)
    (h : some (s, Event.refused ret) = some (s', e)) : e.madeBy c := by
  cases h
  exact hc

theorem copyLoad_event {src block : ℕ} {pre : Int} :
    (∃ ret, (copyLoad P s info src block pre).2 = .refused ret) ∨
      ∃ j d n, (copyLoad P s info src block pre).2 = .copied j d n := by
  rw [copyLoad]
  split
  · exact Or.inl ⟨_, rfl⟩
  split
  · exact Or.inl ⟨_, rfl⟩
  split
  · exact Or.inl ⟨_, rfl⟩
  · exact Or.inr ⟨_, _, _, rfl⟩

theorem fwuImageCopy_madeBy {sec : Bool} {i : UInt32} {src : UInt64} {block size : UInt32} {pre : Int}
    (h : fwuImageCopy P s sec i.toNat src.toNat block.toNat size.toNat pre = some (s', e)) :
    e.madeBy (.imageCopy sec i src block size pre) := by
  have hrefused : ∀ ret, (Event.refused ret).madeBy (.imageCopy sec i src block size pre) := fun _ => nofun
  rw [fwuImageCopy] at h
  split at h
  · exact refused_madeBy nofun h
  rename_i info hchecks
  have hns : sec = false := by
    rw [copyChecks] at hchecks
    split at hchecks
    · cases hchecks
    · cases sec
      · rfl
      · rw [if_pos rfl] at hchecks
        cases hchecks
  obtain ⟨⟨s₁, r⟩, -, heq⟩ := Option.map_eq_some_iff.mp h
  cases r with
  | some ret =>
    rw [← (Prod.mk.inj heq).2]
    exact hrefused ret
  | none =>
    have he : (copyLoad P s₁ info src.toNat block.toNat pre).2 = e := congrArg Prod.snd heq
    rw [← he]
    rcases @copyLoad_event P s₁ info src.toNat block.toNat pre with ⟨ret, hr⟩ | ⟨j, d, n, hr⟩
    · rw [hr]
      exact hrefused ret
    · rw [hr]
      exact hns

theorem authVerify_madeBy {base : ℕ} {verify post : Int} {sec : Bool} {i : UInt32} {src : UInt64}
    {size : UInt32} (h : authVerify s info base verify post = some (s', e)) :
    e.madeBy (.imageAuth sec i src size verify post) := by
  rw [authVerify] at h
  split at h
  · split at h <;>
    · simp only [Option.some.injEq, Prod.mk.injEq] at h
      rw [← h.2]
      trivial
  · split at h
    · cases h
    · simp only [Option.some.injEq, Prod.mk.injEq] at h
      rw [← h.2]
      trivial

theorem fwuImageAuth_madeBy {verify post : Int} {sec : Bool} {i : UInt32} {src : UInt64}
    {size : UInt32} (h : fwuImageAuth P s sec i.toNat src.toNat size.toNat verify post = some (s', e)) :
    e.madeBy (.imageAuth sec i src size verify post) := by
  rw [fwuImageAuth] at h
  split at h
  · exact refused_madeBy nofun h
  split at h
  · exact refused_madeBy nofun h
  split at h
  · exact authVerify_madeBy h
  split at h
  · exact refused_madeBy nofun h
  · exact authVerify_madeBy h

theorem fwuImageResume_madeBy {sec : Bool} (h : fwuImageResume P s sec = some (s', e)) :
    e.madeBy (.imageResume sec) := by
  rw [fwuImageResume] at h
  split at h
  · split at h
    · cases h
    · exact refused_madeBy nofun h
  split at h
  · cases h
  split at h
  · rename_i hsec
    split at h
    · cases h
    · simp only [Option.some.injEq, Prod.mk.injEq] at h
      rw [← h.2]
      exact hsec
  · rename_i hsec
    split at h
    · cases h
    · simp only [Option.some.injEq, Prod.mk.injEq] at h
      rw [← h.2]
      simpa [Event.madeBy] using hsec

theorem fwuImageReset_madeBy {sec : Bool} {i : UInt32}
    (h : fwuImageReset P s sec i.toNat = some (s', e)) : e.madeBy (.imageReset sec i) := by
  rw [fwuImageReset] at h
  split at h
  · exact refused_madeBy nofun h
  split at h
  · exact refused_madeBy nofun h
  rename_i hsec
  have hns : sec = false := by simpa using hsec
  split at h
  · simp only [Option.some.injEq, Prod.mk.injEq] at h
    rw [← h.2]
    exact hns
  · cases h
  split at h
  · exact refused_madeBy nofun h
  split at h
  · cases h
  · simp only [Option.some.injEq, Prod.mk.injEq] at h
    rw [← h.2]
    exact ⟨hns, rfl⟩

theorem fwuSmcHandler_madeBy (h : fwuSmcHandler P s c = some (s', e)) : e.madeBy c := by
  cases c with
  | imageCopy sec i src block size pre => exact fwuImageCopy_madeBy h
  | imageAuth sec i src size verify post => exact fwuImageAuth_madeBy h
  | imageExecute sec i =>
    simp only [fwuSmcHandler, fwuImageExecute, Option.some.injEq] at h
    split at h
    · exact refused_madeBy (Option.some_ne_none _) (congrArg some h)
    split at h
    · exact refused_madeBy (Option.some_ne_none _) (congrArg some h)
    · rename_i hchecks
      rw [← (Prod.mk.inj h).2]
      simp only [not_or, Bool.not_eq_true] at hchecks
      exact ⟨hchecks.1, rfl⟩
  | imageResume sec => exact fwuImageResume_madeBy h
  | secImageDone sec =>
    simp only [fwuSmcHandler, fwuSecImageDone] at h
    split at h
    · exact refused_madeBy (Option.some_ne_none _) h
    rename_i hsec
    split at h
    · cases h
    split at h
    · cases h
    obtain ⟨ids, -, heq⟩ := Option.map_eq_some_iff.mp h
    rw [← (Prod.mk.inj heq).2]
    simpa [Event.madeBy] using hsec
  | imageReset sec i => exact fwuImageReset_madeBy h
  | write a v =>
    cases h
    trivial

/-! ## Control -/

def Event.secureAfter (secureRuns : Bool) : Event → Bool
  | .entered _ => true
  | .left _ => false
  | .done _ => false
  | _ => secureRuns

structure Cpu where
  fwu : Fwu
  secureRuns : Bool

def cpuCall (P : Platform) (x : Cpu) (c : Call) : Option (Cpu × Event) :=
  if c.secureCaller = some (!x.secureRuns) then none
  else (fwuSmcHandler P x.fwu c).map fun r => (⟨r.1, r.2.secureAfter x.secureRuns⟩, r.2)

theorem cpuCall_some {x x' : Cpu} (h : cpuCall P x c = some (x', e)) :
    fwuSmcHandler P x.fwu c = some (x'.fwu, e) ∧ x'.secureRuns = e.secureAfter x.secureRuns ∧
      c.secureCaller ≠ some (!x.secureRuns) := by
  rw [cpuCall] at h
  split at h
  · cases h
  · rename_i hw
    obtain ⟨⟨u, ev⟩, hu, heq⟩ := Option.map_eq_some_iff.mp h
    cases heq
    exact ⟨hu, rfl, hw⟩

def AnyCpuCall (_ : Cpu) (_ : Call) : Prop := True

instance (x : Cpu) (c : Call) : Decidable (AnyCpuCall x c) := .isTrue trivial

theorem entered_caller (h : (Event.entered id).madeBy c) : c.secureCaller = some false := by
  cases c with
  | imageExecute sec i => exact congrArg some h.1
  | imageResume sec => exact congrArg some h
  | _ => exact h.elim

/-! ## The images that run -/

def Event.runs : Event → Option ℕ
  | .entered id => some id
  | .left id => some id
  | .done id => some id
  | .reset id _ _ => some id
  | _ => none

theorem secureAfter_of_quiet {w : Bool} (h : e.runs = none) : e.secureAfter w = w := by
  cases e <;> first | rfl | cases h

def ImageState.running (state : ImageState) : Prop := state = .executed ∨ state = .interrupted

instance : DecidablePred ImageState.running := fun _ => instDecidableOr

def StateSet (s s' : Fwu) (id : ℕ) (state : ImageState) : Prop :=
  (s'.desc id).state = state ∧ ∀ j, j ≠ id → s'.desc j = s.desc j

theorem stateSet_setDesc {u : Fwu} {d : ImageDesc} {state : ImageState} (h : u.desc = s.desc)
    (hd : d.state = state) : StateSet s (u.setDesc id d) id state :=
  ⟨by rw [setDesc_self, hd], fun j hj => by rw [setDesc_other hj, h]⟩

/-- What a call does to the images that run and to the record of the one that does. -/
inductive Move (P : Platform) (s : Fwu) : Fwu → Event → Prop
  | quiet {s' : Fwu} {e : Event}
      (states : ∀ j, (s'.desc j).state = (s.desc j).state ∨
        ¬ (s.desc j).state.running ∧ ¬ (s'.desc j).state.running)
      (same : s'.secExecImageId = s.secExecImageId) (hruns : e.runs = none) : Move P s s' e
  | started {s' : Fwu} {id : ℕ} {info : Image} (image : P.image id = some info)
      (secure : info.secure = true) (executable : info.executable = true)
      (state : (s.desc id).state = .authenticated) (set : StateSet s s' id .executed)
      (recorded : s'.secExecImageId = id) : Move P s s' (.entered id)
  | interrupted {s' : Fwu} {info : Image} (image : P.image s.secExecImageId = some info)
      (state : (s.desc s.secExecImageId).state = .executed)
      (set : StateSet s s' s.secExecImageId .interrupted)
      (same : s'.secExecImageId = s.secExecImageId) : Move P s s' (.left s.secExecImageId)
  | resumed {s' : Fwu} {info : Image} (image : P.image s.secExecImageId = some info)
      (state : (s.desc s.secExecImageId).state = .interrupted)
      (set : StateSet s s' s.secExecImageId .executed)
      (same : s'.secExecImageId = s.secExecImageId) : Move P s s' (.entered s.secExecImageId)
  | done {s' : Fwu} {info : Image} (image : P.image s.secExecImageId = some info)
      (state : (s.desc s.secExecImageId).state = .executed)
      (set : StateSet s s' s.secExecImageId .reset)
      (cleared : s'.secExecImageId = INVALID_IMAGE_ID) : Move P s s' (.done s.secExecImageId)
  | reset {s' : Fwu} {id base n : ℕ} {info : Image} (image : P.image id = some info)
      (state : (s.desc id).state ≠ .reset ∧ (s.desc id).state ≠ .executed)
      (set : StateSet s s' id .reset) (same : s'.secExecImageId = s.secExecImageId) :
      Move P s s' (.reset id base n)

theorem StateSet.quiet {state : ImageState} (h : StateSet s s' id state)
    (hold : ¬ (s.desc id).state.running) (hnew : ¬ state.running) (j : ℕ) :
    (s'.desc j).state = (s.desc j).state ∨
      ¬ (s.desc j).state.running ∧ ¬ (s'.desc j).state.running := by
  by_cases hj : j = id
  · subst hj
    exact Or.inr ⟨hold, by rw [h.1]; exact hnew⟩
  · exact Or.inl (by rw [h.2 j hj])

theorem Change.move (h : Change P s c s' e) : Move P s s' e := by
  cases h with
  | unchanged he =>
    refine .quiet (fun _ => Or.inl rfl) rfl ?_
    rcases he with rfl | ⟨ret, rfl⟩ <;> rfl
  | @sized _ id info d ids ret _ state hd _ =>
    have hset : StateSet s ({ s with loadedIds := ids }.setDesc id d) id .reset :=
      stateSet_setDesc rfl hd.1
    exact .quiet (hset.quiet (by rw [state]; decide) (by decide)) rfl rfl
  | @copied _ info size k n src ids _ _ block _ =>
    have hself : (blockCopied s info size k n src ids).desc info.imageId =
        ⟨if n = size - k then .copied else .copying, k + n, size⟩ := Function.update_self ..
    have hset : StateSet s (blockCopied s info size k n src ids) info.imageId
        (if n = size - k then .copied else .copying) :=
      ⟨by rw [hself], fun j hj => Function.update_of_ne hj ..⟩
    refine .quiet (hset.quiet ?_ ?_) rfl rfl
    · rcases block.start with ⟨hr, -⟩ | ⟨hc, -⟩
      · rw [hr]
        decide
      · rw [hc]
        decide
    · split <;> decide
  | @acceptedCopy _ id info _ _ state =>
    have hset : StateSet s (s.setDesc id { s.desc id with state := .authenticated }) id
        .authenticated := stateSet_setDesc rfl rfl
    exact .quiet (hset.quiet (by rw [state]; decide) (by decide)) rfl rfl
  | @acceptedInPlace sec i size src v p info ids _ state _ _ =>
    have hset : StateSet s ({ s with loadedIds := ids }.setDesc i.toNat
        ⟨.authenticated, (s.desc i.toNat).copiedSize, size.toNat⟩) i.toNat .authenticated :=
      stateSet_setDesc rfl rfl
    exact .quiet (hset.quiet (by rw [state]; decide) (by decide)) rfl rfl
  | @rejectedCopy _ id info _ _ _ state =>
    have hset : StateSet s ({ s with
        memory := blit s.memory info.imageBase (fun _ => 0) (s.desc id).imageSize
        loadedIds := without s.loadedIds id }.setDesc id { s.desc id with state := .reset }) id
        .reset := stateSet_setDesc rfl rfl
    exact .quiet (hset.quiet (by rw [state]; decide) (by decide)) rfl rfl
  | @rejectedInPlace _ id size info ids _ state _ =>
    have hset : StateSet s ({ s with loadedIds := without ids id }.setDesc id
        { s.desc id with imageSize := size }) id .reset := stateSet_setDesc rfl state
    exact .quiet (hset.quiet (by rw [state]; decide) (by decide)) rfl rfl
  | executed image secure executable state =>
    exact .started image secure executable state (stateSet_setDesc rfl rfl) rfl
  | interrupted image state => exact .interrupted image state (stateSet_setDesc rfl rfl) rfl
  | resumed image _ _ state => exact .resumed image state (stateSet_setDesc rfl rfl) rfl
  | done image state _ => exact .done image state (stateSet_setDesc rfl rfl) rfl
  | reset _ image state _ _ => exact .reset image state (stateSet_setDesc rfl rfl) rfl
  | outside => exact .quiet (fun _ => Or.inl rfl) rfl rfl

/-! ## What the world that runs finds -/

def runEvents (id : ℕ) (t : List (Call × Event)) : List Event :=
  (t.map Prod.snd).filter fun e => e.runs = some id

theorem runEvents_snoc (id : ℕ) (t : List (Call × Event)) (c : Call) (e : Event) :
    runEvents id (t ++ [(c, e)]) = runEvents id t ++ if e.runs = some id then [e] else [] := by
  rw [runEvents, List.map_append, List.filter_append, List.map_singleton, List.filter_singleton,
    runEvents]
  by_cases h : e.runs = some id <;> simp [h]

/-- A secure image in the EXECUTED state is the one that is recorded, and the secure world runs.
The runs of an image that is executed or interrupted were begun before. -/
structure ControlInv (P : Platform) (t : List (Call × Event)) (x : Cpu) : Prop where
  recorded : ∀ info, P.image x.fwu.secExecImageId = some info →
    info.secure = true ∧ info.executable = true
  executing : ∀ id info, P.image id = some info → info.secure = true →
    (x.fwu.desc id).state = .executed → x.secureRuns = true ∧ id = x.fwu.secExecImageId
  begun : ∀ id info, P.image id = some info → info.secure = true →
    (x.fwu.desc id).state = .executed → ∃ l, runEvents id t = l ++ [.entered id]
  interrupted : ∀ id info, P.image id = some info → (x.fwu.desc id).state = .interrupted →
    ∃ l, runEvents id t = l ++ [.entered id, .left id]

theorem ControlInv.start (hs : Started P s₀) : ControlInv P [] ⟨s₀, false⟩ := by
  have hstate : ∀ id info, P.image id = some info → (s₀.desc id).state = .reset ∨
      (info.secure = false ∧ (s₀.desc id).state = .executed) := by
    intro id info himg
    obtain ⟨hmem, rfl⟩ := image_some himg
    exact (hs.desc info hmem).2.2
  constructor
  · intro info himg
    exact absurd hs.secExecImageId (image_ne himg)
  · intro id info himg hsec hx
    rcases hstate id info himg with hr | ⟨hns, -⟩
    · exact absurd (hr.symm.trans hx) (by decide)
    · exact absurd hsec (by simp [hns])
  · intro id info himg hsec hx
    rcases hstate id info himg with hr | ⟨hns, -⟩
    · exact absurd (hr.symm.trans hx) (by decide)
    · exact absurd hsec (by simp [hns])
  · intro id info himg hi
    rcases hstate id info himg with hr | ⟨-, hx⟩
    · exact absurd (hr.symm.trans hi) (by decide)
    · exact absurd (hx.symm.trans hi) (by decide)

theorem runEvents_other (hruns : e.runs ≠ some id) :
    runEvents id (t ++ [(c, e)]) = runEvents id t := by
  rw [runEvents_snoc, if_neg hruns, List.append_nil]

theorem runEvents_self (hruns : e.runs = some id) :
    runEvents id (t ++ [(c, e)]) = runEvents id t ++ [e] := by
  rw [runEvents_snoc, if_pos hruns]

theorem StateSet.state_eq {state state' : ImageState} {j : ℕ} (h : StateSet s s' id state)
    (hj : (s'.desc j).state = state') : (j = id ∧ state = state') ∨
      (j ≠ id ∧ (s.desc j).state = state') := by
  by_cases heq : j = id
  · subst heq
    exact Or.inl ⟨rfl, h.1.symm.trans hj⟩
  · rw [h.2 j heq] at hj
    exact Or.inr ⟨heq, hj⟩

section Step
variable {x x' : Cpu}

theorem ControlInv.idle (h : ControlInv P t x) (hns : x.secureRuns = false)
    (himg : P.image id = some info) (hsec : info.secure = true) :
    (x.fwu.desc id).state ≠ .executed :=
  fun hx => absurd (h.executing id info himg hsec hx).1 (by simp [hns])

theorem ControlInv.quiet (h : ControlInv P t x)
    (states : ∀ j, (x'.fwu.desc j).state = (x.fwu.desc j).state ∨
      ¬ (x.fwu.desc j).state.running ∧ ¬ (x'.fwu.desc j).state.running)
    (same : x'.fwu.secExecImageId = x.fwu.secExecImageId) (hruns : e.runs = none)
    (hw : x'.secureRuns = e.secureAfter x.secureRuns) : ControlInv P (t ++ [(c, e)]) x' := by
  rw [secureAfter_of_quiet hruns] at hw
  have hold : ∀ j state, state.running → (x'.fwu.desc j).state = state →
      (x.fwu.desc j).state = state := by
    intro j state hrunning hj
    rcases states j with heq | ⟨-, hnot⟩
    · exact heq.symm.trans hj
    · exact absurd hrunning (hj ▸ hnot)
  have hevents : ∀ j, runEvents j (t ++ [(c, e)]) = runEvents j t :=
    fun j => runEvents_other (by simp [hruns])
  constructor
  · rw [same]
    exact h.recorded
  · intro id info himg hsec hx
    rw [hw, same]
    exact h.executing id info himg hsec (hold id _ (by decide) hx)
  · intro id info himg hsec hx
    rw [hevents]
    exact h.begun id info himg hsec (hold id _ (by decide) hx)
  · intro id info himg hi
    rw [hevents]
    exact h.interrupted id info himg (hold id _ (by decide) hi)

theorem ControlInv.entered (h : ControlInv P t x) (hns : x.secureRuns = false)
    (himg : P.image id = some info) (hsec : info.secure = true) (hexe : info.executable = true)
    (set : StateSet x.fwu x'.fwu id .executed) (hrec : x'.fwu.secExecImageId = id)
    (hw : x'.secureRuns = true) : ControlInv P (t ++ [(c, .entered id)]) x' := by
  constructor
  · intro info' himg'
    rw [hrec, himg, Option.some.injEq] at himg'
    exact himg' ▸ ⟨hsec, hexe⟩
  · intro j info' himg' hsec' hx
    rcases set.state_eq hx with ⟨rfl, -⟩ | ⟨-, hold⟩
    · exact ⟨hw, hrec.symm⟩
    · exact absurd hold (h.idle hns himg' hsec')
  · intro j info' himg' hsec' hx
    rcases set.state_eq hx with ⟨rfl, -⟩ | ⟨-, hold⟩
    · exact ⟨runEvents j t, runEvents_self rfl⟩
    · exact absurd hold (h.idle hns himg' hsec')
  · intro j info' himg' hi
    rcases set.state_eq hi with ⟨-, heq⟩ | ⟨hne, hold⟩
    · exact absurd heq (by decide)
    · rw [runEvents_other (by simpa [Event.runs] using Ne.symm hne)]
      exact h.interrupted j info' himg' hold

theorem ControlInv.left (h : ControlInv P t x) (himg : P.image x.fwu.secExecImageId = some info)
    (state : (x.fwu.desc x.fwu.secExecImageId).state = .executed)
    (set : StateSet x.fwu x'.fwu x.fwu.secExecImageId .interrupted)
    (same : x'.fwu.secExecImageId = x.fwu.secExecImageId) :
    ControlInv P (t ++ [(c, .left x.fwu.secExecImageId)]) x' := by
  have hnone : ∀ j info', P.image j = some info' → info'.secure = true →
      (x'.fwu.desc j).state ≠ .executed := by
    intro j info' himg' hsec' hx
    rcases set.state_eq hx with ⟨-, heq⟩ | ⟨hne, hold⟩
    · exact absurd heq (by decide)
    · exact hne (h.executing j info' himg' hsec' hold).2
  constructor
  · rw [same]
    exact h.recorded
  · exact fun j info' himg' hsec' hx => absurd hx (hnone j info' himg' hsec')
  · exact fun j info' himg' hsec' hx => absurd hx (hnone j info' himg' hsec')
  · intro j info' himg' hi
    rcases set.state_eq hi with ⟨rfl, -⟩ | ⟨hne, hold⟩
    · obtain ⟨l, hl⟩ := h.begun _ info himg (h.recorded info himg).1 state
      refine ⟨l, ?_⟩
      rw [runEvents_self rfl, hl, List.append_assoc]
      rfl
    · rw [runEvents_other (by simpa [Event.runs] using Ne.symm hne)]
      exact h.interrupted j info' himg' hold

theorem ControlInv.cleared (h : ControlInv P t x) (set : StateSet x.fwu x'.fwu id .reset)
    (hruns : e.runs = some id)
    (hrec : x'.fwu.secExecImageId = x.fwu.secExecImageId ∧ x'.secureRuns = x.secureRuns ∨
      x'.fwu.secExecImageId = INVALID_IMAGE_ID ∧ id = x.fwu.secExecImageId) :
    ControlInv P (t ++ [(c, e)]) x' := by
  have hother : ∀ j state, state.running → (x'.fwu.desc j).state = state →
      j ≠ id ∧ (x.fwu.desc j).state = state := by
    intro j state hrunning hj
    rcases set.state_eq hj with ⟨-, rfl⟩ | hold
    · exact absurd hrunning (by decide)
    · exact hold
  have hevents : ∀ j, j ≠ id → runEvents j (t ++ [(c, e)]) = runEvents j t :=
    fun j hj => runEvents_other (by simpa [hruns] using Ne.symm hj)
  constructor
  · intro info himg
    rcases hrec with ⟨same, -⟩ | ⟨hinvalid, -⟩
    · exact h.recorded info (same ▸ himg)
    · exact absurd hinvalid (image_ne himg)
  · intro j info himg hsec hx
    obtain ⟨hne, hold⟩ := hother j _ (by decide) hx
    have hexec := h.executing j info himg hsec hold
    rcases hrec with ⟨same, hw⟩ | ⟨-, heq⟩
    · rw [same, hw]
      exact hexec
    · exact absurd (hexec.2.trans heq.symm) hne
  · intro j info himg hsec hx
    obtain ⟨hne, hold⟩ := hother j _ (by decide) hx
    rw [hevents j hne]
    exact h.begun j info himg hsec hold
  · intro j info himg hi
    obtain ⟨hne, hold⟩ := hother j _ (by decide) hi
    rw [hevents j hne]
    exact h.interrupted j info himg hold

theorem ControlInv.step (h : ControlInv P t x) (hs : cpuCall P x c = some (x', e)) :
    ControlInv P (t ++ [(c, e)]) x' := by
  obtain ⟨hcall, hw, hcaller⟩ := cpuCall_some hs
  have hmade := fwuSmcHandler_madeBy hcall
  have hentered : ∀ id, e = .entered id → x.secureRuns = false := by
    rintro id rfl
    rw [entered_caller hmade] at hcaller
    simpa using hcaller
  have hmove := (fwuSmcHandler_change hcall).move
  generalize hfwu : x'.fwu = u at hmove
  cases hmove with
  | quiet states same hruns => exact h.quiet (hfwu ▸ states) (hfwu ▸ same) hruns hw
  | started image secure executable _ set recorded =>
    exact h.entered (hentered _ rfl) image secure executable (hfwu ▸ set) (hfwu ▸ recorded) hw
  | interrupted image state set same => exact h.left image state (hfwu ▸ set) (hfwu ▸ same)
  | @resumed info image state set same =>
    obtain ⟨hsec, hexe⟩ := h.recorded info image
    exact h.entered (hentered _ rfl) image hsec hexe (hfwu ▸ set) (hfwu ▸ same) hw
  | done _ _ set cleared => exact h.cleared (hfwu ▸ set) rfl (Or.inr ⟨hfwu ▸ cleared, rfl⟩)
  | reset _ _ set same => exact h.cleared (hfwu ▸ set) rfl (Or.inl ⟨hfwu ▸ same, hw⟩)

theorem controlInv {cond : Cpu → Call → Prop} (hs : Started P s₀)
    (hrun : Traced (Performs (cpuCall P) cond) ⟨s₀, false⟩ t x) : ControlInv P t x :=
  hrun.invariant (ControlInv.start hs) fun _ _ _ _ h hstep => h.step hstep.2

end Step

def booted : Cpu :=
  ⟨untouched fun _ => 7, false⟩

end TrustedFirmware.Bl1
