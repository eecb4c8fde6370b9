import TrustedFirmware.Bl1.FwuLoaded

/-! # What BL1 executes was authenticated

When control goes to a secure image, its memory holds the bytes that were accepted for it. This
needs that no secure image is authenticated in place that can be executed, or for which IMAGE_RESET
would still zero memory: BL1 keeps no record of where such an image was authenticated. -/
namespace TrustedFirmware.Bl1
open Libc ByteMemory Runs
set_option autoImplicit false

variable {P : Platform} {s s' s₀ : Fwu} {info : Image} {id : ℕ} {c : Call} {e : Event}
  {t : List (Call × Event)}

/-- The event accepts the image or resets it. -/
def Event.judges (id : ℕ) : Event → Bool
  | .accepted j _ => decide (j = id)
  | .rejected j => decide (j = id)
  | .done j => decide (j = id)
  | .reset j _ _ => decide (j = id)
  | _ => false

def Event.bytes : Event → Option (List UInt8)
  | .accepted _ bytes => some bytes
  | _ => none

/-- The bytes that were accepted for the image since it was last reset. -/
def acceptedBytes (id : ℕ) (t : List (Call × Event)) : Option (List UInt8) :=
  (lastEvent (Event.judges id) t).bind Event.bytes

theorem acceptedBytes_snoc (id : ℕ) (t : List (Call × Event)) (c : Call) (e : Event) :
    acceptedBytes id (t ++ [(c, e)]) = if e.judges id then e.bytes else acceptedBytes id t := by
  rw [acceptedBytes, lastEvent_snoc]
  cases e.judges id <;> simp [acceptedBytes]

/-- A secure image is authenticated in place only if it cannot be executed and nothing of it is
copied. -/
def InPlaceInert (P : Platform) (s : Fwu) : Call → Prop
  | .imageAuth true i _ _ _ _ =>
    match P.image i.toNat with
    | none => True
    | some info => info.secure = true → (s.desc i.toNat).state = .reset →
        info.executable = false ∧ (s.desc i.toNat).copiedSize = 0
  | _ => True

instance (P : Platform) (s : Fwu) (c : Call) : Decidable (InPlaceInert P s c) := by
  unfold InPlaceInert
  split
  · split <;> infer_instance
  · infer_instance

/-! ## The invariant -/

def ImageState.ready (state : ImageState) : Bool :=
  match state with
  | .authenticated => true
  | .executed => true
  | .interrupted => true
  | _ => false

/-- Nobody but BL1 writes to the memory of the image. -/
def Unwritten (info : Image) (t : List (Call × Event)) : Prop :=
  ∀ x ∈ t, ∀ a v, x.1 = .write a v → a < info.imageBase ∨ info.imageBase + info.imageMaxSize ≤ a

theorem Unwritten.init {x : Call × Event} (h : Unwritten info (t ++ [x])) : Unwritten info t :=
  fun y hy => h y (List.mem_append_left _ hy)

structure AuthImage (t : List (Call × Event)) (s : Fwu) (info : Image) : Prop where
  stale : (s.desc info.imageId).state ≠ .reset → copiedIn info.imageId t = false →
    (s.desc info.imageId).copiedSize = 0
  intact : info.secure = true → info.executable = true →
    (s.desc info.imageId).state.ready = true →
    copiedIn info.imageId t = true ∧ (Unwritten info t → acceptedBytes info.imageId t =
      some (readBytes s.memory info.imageBase (s.desc info.imageId).imageSize))

def AuthInv (P : Platform) (t : List (Call × Event)) (s : Fwu) : Prop :=
  ∀ id info, P.image id = some info → AuthImage t s info

theorem AuthInv.memory_kept (h : AuthInv P t s) (hl : LoadedInv P t s) (hs : Change P s c s' e)
    (himg : P.image info.imageId = some info) (hc : copiedIn info.imageId t = true)
    (hplaces : e.places info.imageId = false) (hun : Unwritten info (t ++ [(c, e)])) {a : ℕ}
    (h1 : info.imageBase ≤ a)
    (h2 : a < info.imageBase + (s.desc info.imageId).imageSize) : s'.memory a = s.memory a := by
  have hwhole := (hl.image _ _ himg).whole hc
  have hstep := hl.step hs
  cases hs with
  | @copied _ b size k n src ids htarget hb block hids =>
    have hne : info.imageId ≠ b.imageId := fun heq => by simp [Event.places, heq] at hplaces
    have hkept : copiedIn info.imageId (t ++ [(c, .copied b.imageId (b.imageBase + k) n)]) = true := by
      rw [copiedIn_snoc, hplaces]
      exact hc
    have hapart := hstep.apart _ _ info b himg hb hne hkept
      (by simp [copiedIn_snoc, Event.places, Event.isCopied])
    have hself : ((blockCopied s b size k n src ids).desc b.imageId).imageSize = size := by
      simp [blockCopied]
    have hother : (blockCopied s b size k n src ids).desc info.imageId = s.desc info.imageId :=
      Function.update_of_ne hne ..
    rw [Apart, hself, hother] at hapart
    have hle := block.le
    exact blit_outside (by omega)
  | @rejectedCopy _ id b _ hb _ hstate =>
    obtain ⟨-, rfl⟩ := image_some hb
    have hne : info.imageId ≠ b.imageId := fun heq => by simp [Event.places, heq] at hplaces
    have hapart := hl.apart _ _ info b himg hb hne hc ((hl.image _ _ hb).part (Or.inr hstate))
    rw [Apart] at hapart
    simp only [setDesc_memory]
    refine blit_outside ?_
    omega
  | @reset _ id b ids _ hb hstate _ _ =>
    obtain ⟨-, rfl⟩ := image_some hb
    have hne : info.imageId ≠ b.imageId := fun heq => by simp [Event.places, heq] at hplaces
    simp only [setDesc_memory]
    cases hcb : copiedIn b.imageId t with
    | false =>
      have h0 := (h _ _ hb).stale hstate.1 hcb
      simp only [h0, blit_zero]
    | true =>
      have hapart := hl.apart _ _ info b himg hb hne hc hcb
      have hle := ((hl.image _ _ hb).whole hcb).2.2.2.2.2
      rw [Apart] at hapart
      refine blit_outside ?_
      omega
  | @outside b v =>
    have hout := hun _ List.mem_concat_self b v rfl
    obtain ⟨-, -, -, -, hmax, -⟩ := hwhole
    exact Function.update_of_ne (by omega) ..
  | _ => rfl

theorem AuthInv.about {i : ℕ} (h : AuthInv P t s) (hl : LoadedInv P t s) (hs : Change P s c s' e)
    (hdesc : ∀ j, j ≠ i → s'.desc j = s.desc j)
    (hevent : ∀ j, j ≠ i → e.places j = false ∧ e.judges j = false)
    (himage : ∀ info, P.image i = some info → AuthImage (t ++ [(c, e)]) s' info) :
    AuthInv P (t ++ [(c, e)]) s' := by
  intro j info hinfo
  by_cases hji : j = i
  · exact himage info (hji ▸ hinfo)
  obtain ⟨-, rfl⟩ := image_some hinfo
  obtain ⟨hplaces, hjudges⟩ := hevent _ hji
  have hold := h _ _ hinfo
  constructor
  · rw [hdesc _ hji, copiedIn_snoc, hplaces]
    exact hold.stale
  · intro hsec hexec hready
    rw [hdesc _ hji] at hready ⊢
    obtain ⟨hc, hbytes⟩ := hold.intact hsec hexec hready
    rw [copiedIn_snoc, hplaces, acceptedBytes_snoc, hjudges]
    refine ⟨hc, fun hun => (hbytes hun.init).trans (congrArg some (readBytes_congr fun k hk => ?_))⟩
    exact (h.memory_kept hl hs hinfo hc hplaces hun (by omega) (by omega)).symm

theorem AuthImage.not_ready (hready : (s.desc info.imageId).state.ready = false)
    (hstale : (s.desc info.imageId).state = .reset ∨ copiedIn info.imageId t = true) :
    AuthImage t s info := by
  constructor
  · intro hr hc
    rcases hstale with h | h
    · exact absurd h hr
    · exact absurd h (by simp [hc])
  · exact fun _ _ h => absurd h (by simp [hready])

theorem AuthInv.restated {state : ImageState} (h : AuthInv P t s) (hl : LoadedInv P t s)
    (hs : Change P s c s' e) (himg : P.image id = some info)
    (hready : (s.desc id).state.ready = true)
    (hevent : ∀ j, e.places j = false ∧ e.judges j = false)
    (hdesc : s'.desc = Function.update s.desc id { s.desc id with state := state })
    (hmem : s'.memory = s.memory) : AuthInv P (t ++ [(c, e)]) s' := by
  obtain ⟨-, rfl⟩ := image_some himg
  have hself : s'.desc info.imageId = { s.desc info.imageId with state := state } := by
    rw [hdesc, Function.update_self]
  refine h.about hl hs (fun j hj => by rw [hdesc, Function.update_of_ne hj]) (fun j _ => hevent j) ?_
  intro info' himg'
  rw [himg, Option.some.injEq] at himg'
  subst himg'
  obtain ⟨hplaces, hjudges⟩ := hevent info.imageId
  have hold := h _ _ himg
  constructor
  · rw [hself, copiedIn_snoc, hplaces]
    intro _ hc
    refine hold.stale (fun hr => ?_) hc
    simp [hr, ImageState.ready] at hready
  · intro hsec hexec _
    rw [hself, hmem, copiedIn_snoc, hplaces, acceptedBytes_snoc, hjudges]
    obtain ⟨hc, hbytes⟩ := hold.intact hsec hexec hready
    exact ⟨hc, fun hun => hbytes hun.init⟩

theorem AuthInv.unready {d : ImageDesc} (h : AuthInv P t s) (hl : LoadedInv P t s)
    (hs : Change P s c s' e) (himg : P.image id = some info)
    (hevent : ∀ j, j ≠ id → e.places j = false ∧ e.judges j = false)
    (hdesc : s'.desc = Function.update s.desc id d) (hready : d.state.ready = false)
    (hstale : d.state = .reset ∨ copiedIn id (t ++ [(c, e)]) = true) :
    AuthInv P (t ++ [(c, e)]) s' := by
  obtain ⟨-, rfl⟩ := image_some himg
  have hself : s'.desc info.imageId = d := by rw [hdesc, Function.update_self]
  refine h.about hl hs (fun j hj => by rw [hdesc, Function.update_of_ne hj]) hevent ?_
  intro info' himg'
  rw [himg, Option.some.injEq] at himg'
  subst himg'
  exact AuthImage.not_ready (hself ▸ hready) (hself ▸ hstale)

theorem AuthInv.acceptedCopy (h : AuthInv P t s) (hl : LoadedInv P t s)
    (himg : P.image id = some info) (hstate : (s.desc id).state = .copied)
    (hs : Change P s c (s.setDesc id { s.desc id with state := .authenticated })
      (.accepted id (readBytes s.memory info.imageBase (s.desc id).imageSize))) :
    AuthInv P (t ++ [(c, .accepted id (readBytes s.memory info.imageBase (s.desc id).imageSize))])
      (s.setDesc id { s.desc id with state := .authenticated }) := by
  obtain ⟨-, rfl⟩ := image_some himg
  refine h.about hl hs (fun j hj => setDesc_other hj ..)
    (fun j hj => ⟨rfl, decide_eq_false (Ne.symm hj)⟩) ?_
  intro info' himg'
  rw [himg, Option.some.injEq] at himg'
  subst himg'
  have hc := (hl.image _ _ himg).part (Or.inr hstate)
  constructor
  · intro _ hnot
    rw [copiedIn_snoc] at hnot
    exact absurd hc (by simpa [Event.places] using hnot)
  · intro _ _ _
    rw [copiedIn_snoc, acceptedBytes_snoc, setDesc_self]
    exact ⟨hc, fun _ => if_pos (decide_eq_true rfl)⟩

theorem AuthInv.acceptedInPlace {sec : Bool} {i size : UInt32} {src : UInt64} {v p : Int}
    {ids : List ℕ} (h : AuthInv P t s) (hl : LoadedInv P t s)
    (hcond : InPlaceInert P s (.imageAuth sec i src size v p)) (himg : P.image i.toNat = some info)
    (hstate : (s.desc i.toNat).state = .reset) (hallowed : sec = true ∨ info.secure = false)
    (hs : Change P s (.imageAuth sec i src size v p)
      ({ s with loadedIds := ids }.setDesc i.toNat
        ⟨.authenticated, (s.desc i.toNat).copiedSize, size.toNat⟩)
      (.accepted i.toNat (readBytes s.memory src.toNat size.toNat))) :
    AuthInv P (t ++ [(.imageAuth sec i src size v p,
        .accepted i.toNat (readBytes s.memory src.toNat size.toNat))])
      ({ s with loadedIds := ids }.setDesc i.toNat
        ⟨.authenticated, (s.desc i.toNat).copiedSize, size.toNat⟩) := by
  refine h.about hl hs (fun j hj => setDesc_other hj ..)
    (fun j hj => ⟨rfl, decide_eq_false (Ne.symm hj)⟩) ?_
  intro info' himg'
  rw [himg, Option.some.injEq] at himg'
  subst himg'
  have hid := (image_some himg).2
  have hinert : info.secure = true →
      info.executable = false ∧ (s.desc i.toNat).copiedSize = 0 := by
    intro hsec
    have hcaller : sec = true := hallowed.resolve_right (by simp [hsec])
    subst hcaller
    simp only [InPlaceInert, himg] at hcond
    exact hcond hsec hstate
  constructor
  · intro _ _
    rw [hid, setDesc_self]
    cases hsec : info.secure with
    | true => exact (hinert hsec).2
    | false => exact hid ▸ (hl.image _ _ himg).nonSecure hsec
  · intro hsec hexec
    exact absurd hexec (by simp [(hinert hsec).1])

theorem AuthInv.step (h : AuthInv P t s) (hl : LoadedInv P t s) (hcond : InPlaceInert P s c)
    (hs : Change P s c s' e) : AuthInv P (t ++ [(c, e)]) s' := by
  have hs' := hs
  cases hs with
  | unchanged he =>
    refine h.about (i := INVALID_IMAGE_ID) hl hs' (fun j _ => rfl) ?_ ?_
    · rcases he with rfl | ⟨ret, rfl⟩ <;> exact fun j _ => ⟨rfl, rfl⟩
    · exact fun info hinfo => absurd rfl (image_ne hinfo)
  | sized himg _ hd _ =>
    exact h.unready hl hs' himg (fun j _ => ⟨rfl, rfl⟩) rfl (by rw [hd.1]; rfl) (Or.inl hd.1)
  | copied _ himg block _ =>
    refine h.unready hl hs' himg (fun j hj => ⟨decide_eq_false (Ne.symm hj), rfl⟩) rfl ?_
      (Or.inr (by simp [copiedIn_snoc, Event.places, Event.isCopied]))
    dsimp only
    split <;> rfl
  | acceptedCopy himg _ hstate => exact h.acceptedCopy hl himg hstate hs'
  | acceptedInPlace himg hstate hallowed hids =>
    exact h.acceptedInPlace hl hcond himg hstate hallowed hs'
  | rejectedCopy _ himg _ _ =>
    exact h.unready hl hs' himg
      (fun j hj => ⟨decide_eq_false (Ne.symm hj), decide_eq_false (Ne.symm hj)⟩) rfl rfl (Or.inl rfl)
  | rejectedInPlace himg hstate _ =>
    exact h.unready hl hs' himg
      (fun j hj => ⟨decide_eq_false (Ne.symm hj), decide_eq_false (Ne.symm hj)⟩) rfl
      (by rw [hstate]; rfl) (Or.inl hstate)
  | executed himg _ _ hstate =>
    exact h.restated hl hs' himg (by rw [hstate]; rfl) (fun j => ⟨rfl, rfl⟩) rfl rfl
  | interrupted himg hstate =>
    exact h.restated hl hs' himg (by rw [hstate]; rfl) (fun j => ⟨rfl, rfl⟩) rfl rfl
  | resumed himg _ _ hstate =>
    exact h.restated hl hs' himg (by rw [hstate]; rfl) (fun j => ⟨rfl, rfl⟩) rfl rfl
  | done himg _ _ =>
    exact h.unready hl hs' himg
      (fun j hj => ⟨decide_eq_false (Ne.symm hj), decide_eq_false (Ne.symm hj)⟩) rfl rfl (Or.inl rfl)
  | reset _ himg _ _ _ =>
    exact h.unready hl hs' himg
      (fun j hj => ⟨decide_eq_false (Ne.symm hj), decide_eq_false (Ne.symm hj)⟩) rfl rfl (Or.inl rfl)
  | outside =>
    refine h.about (i := INVALID_IMAGE_ID) hl hs' (fun j _ => rfl) (fun j _ => ⟨rfl, rfl⟩) ?_
    exact fun info hinfo => absurd rfl (image_ne hinfo)

theorem AuthInv.start (hs : Started P s₀) : AuthInv P [] s₀ := by
  intro id info himg
  obtain ⟨hmem, -⟩ := image_some himg
  obtain ⟨hcopied, -, hstate⟩ := hs.desc info hmem
  constructor
  · exact fun _ _ => hcopied
  · intro hsec _ hready
    rcases hstate with hr | ⟨hns, -⟩
    · simp [hr, ImageState.ready] at hready
    · exact absurd hsec (by simp [hns])

theorem authInv (hs : Started P s₀)
    (hrun : Traced (Performs (fwuSmcHandler P) (InPlaceInert P)) s₀ t s) :
    LoadedInv P t s ∧ AuthInv P t s := by
  refine hrun.invariant (I := fun t s => LoadedInv P t s ∧ AuthInv P t s)
    ⟨LoadedInv.start hs, AuthInv.start hs⟩ ?_
  intro t u a v h hstep
  have hchange := fwuSmcHandler_change hstep.2
  exact ⟨h.1.step hchange, h.2.step h.1 hstep.1 hchange⟩

theorem AuthInv.entered (h : AuthInv P t s) (hs : Change P s c s' e) (he : e = .entered id) :
    ∃ info, P.image id = some info ∧ info.secure = true ∧ (Unwritten info t →
      acceptedBytes id t = some (readBytes s'.memory info.imageBase (s'.desc id).imageSize)) := by
  cases hs with
  | executed himg hsec hexec hstate =>
    obtain rfl := Event.entered.inj he
    have hready := (h _ _ himg).intact hsec hexec
    rw [(image_some himg).2, hstate] at hready
    rw [setDesc_self]
    exact ⟨_, himg, hsec, (hready rfl).2⟩
  | resumed himg hsec hexec hstate =>
    obtain rfl := Event.entered.inj he
    have hready := (h _ _ himg).intact hsec hexec
    rw [(image_some himg).2, hstate] at hready
    rw [setDesc_self]
    exact ⟨_, himg, hsec, (hready rfl).2⟩
  | unchanged h => rcases h with rfl | ⟨ret, rfl⟩ <;> cases he
  | _ => cases he

end TrustedFirmware.Bl1
