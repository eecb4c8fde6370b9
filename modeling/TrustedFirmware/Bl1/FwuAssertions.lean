import TrustedFirmware.Bl1.FwuControl

/-! # Assertions of the firmware update

IMAGE_COPY scans the recorded images for one that overlaps the new image, and asserts that each of
them ends after it begins. An image of one byte does not, nor does one whose end is past the last
address. IMAGE_RESET asserts that no image is in the EXECUTED state, which the image of the normal
world is. No other assertion of these calls fails. -/
namespace TrustedFirmware.Bl1
open Libc ByteMemory Runs
set_option autoImplicit false

variable {P : Platform} {s s' s₀ : Fwu} {info : Image} {id : ℕ} {c : Call} {e : Event}
  {t : List (Call × Event)} {x x' : Cpu}

/-! ## The sizes of images -/

/-- The recorded images are images of the platform; an image that is not in the RESET state has a
size of at most 2^64 bytes; one that is being copied has some of its bytes, and not all. -/
structure SizesInv (P : Platform) (s : Fwu) : Prop where
  known : ∀ j ∈ s.loadedIds, j ≠ INVALID_IMAGE_ID → ∃ info, P.image j = some info
  size_le : ∀ j info, P.image j = some info → (s.desc j).state ≠ .reset →
    (s.desc j).imageSize ≤ 2 ^ 64
  copying : ∀ j info, P.image j = some info → (s.desc j).state = .copying →
    0 < (s.desc j).copiedSize ∧ (s.desc j).copiedSize < (s.desc j).imageSize

theorem SizesInv.start (hs : Started P s₀) : SizesInv P s₀ := by
  constructor
  · intro j hj hne
    rw [hs.loadedIds] at hj
    exact absurd (List.eq_of_mem_replicate hj) hne
  · intro j info himg _
    obtain ⟨hmem, rfl⟩ := image_some himg
    rw [(hs.desc info hmem).2.1]
    exact Nat.zero_le _
  · intro j info himg hc
    obtain ⟨hmem, rfl⟩ := image_some himg
    rcases (hs.desc info hmem).2.2 with hr | ⟨-, hx⟩
    · exact absurd (hr.symm.trans hc) (by decide)
    · exact absurd (hx.symm.trans hc) (by decide)

theorem SizesInv.about (h : SizesInv P s) (himg : P.image id = some info)
    (hdesc : ∀ j, j ≠ id → s'.desc j = s.desc j)
    (hids : ∀ j ∈ s'.loadedIds, j ≠ INVALID_IMAGE_ID → j ∈ s.loadedIds ∨ j = id)
    (hsize : (s'.desc id).state ≠ .reset → (s'.desc id).imageSize ≤ 2 ^ 64)
    (hcopying : (s'.desc id).state = .copying →
      0 < (s'.desc id).copiedSize ∧ (s'.desc id).copiedSize < (s'.desc id).imageSize) :
    SizesInv P s' := by
  constructor
  · intro j hj hne
    rcases hids j hj hne with hold | rfl
    · exact h.known j hold hne
    · exact ⟨info, himg⟩
  · intro j info' himg' hstate
    by_cases hj : j = id
    · subst hj
      exact hsize hstate
    · rw [hdesc j hj] at hstate ⊢
      exact h.size_le j info' himg' hstate
  · intro j info' himg' hstate
    by_cases hj : j = id
    · subst hj
      exact hcopying hstate
    · rw [hdesc j hj] at hstate ⊢
      exact h.copying j info' himg' hstate

theorem SizesInv.copied {size k n src : ℕ} {ids : List ℕ} (h : SizesInv P s)
    (hl : LoadedInv P t s) (himg : P.image info.imageId = some info)
    (block : Block P s info size k n) (hids : fwuAddLoadedId s.loadedIds info.imageId = some ids) :
    SizesInv P (blockCopied s info size k n src ids) := by
  have hself : (blockCopied s info size k n src ids).desc info.imageId =
      ⟨if n = size - k then .copied else .copying, k + n, size⟩ := Function.update_self ..
  have hmem := (add_some (image_ne himg) hids hl.distinct).2
  have hwindow := P.window_le info (image_some himg).1
  have hpos := block.pos
  have hle := block.le
  refine h.about himg (fun j hj => Function.update_of_ne hj ..)
    (fun j hj hne => (hmem j hne).mp hj) ?_ ?_
  · intro _
    rw [hself]
    rcases block.start with ⟨-, -, -, hmax, -⟩ | ⟨hstate, -, rfl, -⟩
    · simp only
      omega
    · exact h.size_le _ info himg (by rw [hstate]; decide)
  · rw [hself]
    intro hstate
    simp only at hstate ⊢
    split at hstate
    · cases hstate
    · omega

theorem SizesInv.restated {d : ImageDesc} (h : SizesInv P s) (himg : P.image id = some info)
    (hdesc : s'.desc = Function.update s.desc id d)
    (hids : ∀ j ∈ s'.loadedIds, j ≠ INVALID_IMAGE_ID → j ∈ s.loadedIds ∨ j = id)
    (hsize : d.state ≠ .reset → d.imageSize ≤ 2 ^ 64) (hstate : d.state ≠ .copying) :
    SizesInv P s' := by
  have hself : s'.desc id = d := by rw [hdesc, Function.update_self]
  refine h.about himg (fun j hj => by rw [hdesc, Function.update_of_ne hj]) hids ?_ ?_
  · rw [hself]
    exact hsize
  · rw [hself]
    exact fun hc => absurd hc hstate

theorem SizesInv.step (h : SizesInv P s) (hl : LoadedInv P t s) (hs : Change P s c s' e) :
    SizesInv P s' := by
  cases hs with
  | unchanged _ => exact h
  | @sized _ id info d ids ret himg _ hd hids =>
    refine h.restated himg rfl ?_ (fun hr => absurd hd.1 hr) (by rw [hd.1]; decide)
    intro j hj hne
    rcases hids with rfl | ⟨mid, hmid, rfl⟩
    · exact Or.inl hj
    · exact Or.inl (((add_without (image_ne himg) hmid hl.distinct).2 j hne).mp hj).1
  | copied _ himg block hids => exact h.copied hl himg block hids
  | @acceptedCopy _ id info himg _ state =>
    exact h.restated himg rfl (fun j hj _ => Or.inl hj)
      (fun _ => h.size_le id info himg (by rw [state]; decide)) ImageState.noConfusion
  | @acceptedInPlace sec i size src v p info ids himg _ _ hids =>
    refine h.restated himg rfl
      (fun j hj hne => ((add_some (image_ne himg) hids hl.distinct).2 j hne).mp hj) ?_
      ImageState.noConfusion
    intro _
    have := size.toNat_lt
    simp only
    omega
  | @rejectedCopy _ id info _ himg _ _ =>
    exact h.restated himg rfl
      (fun j hj hne => Or.inl (((without_mem (image_ne himg) hl.distinct).2 j hne).mp hj).1)
      (fun hr => absurd rfl hr) ImageState.noConfusion
  | @rejectedInPlace _ id size info ids himg state hids =>
    exact h.restated himg rfl
      (fun j hj hne => Or.inl (((add_without (image_ne himg) hids hl.distinct).2 j hne).mp hj).1)
      (fun hr => absurd state hr) (by simp only [state]; decide)
  | @executed _ id info himg _ _ state =>
    exact h.restated himg rfl (fun j hj _ => Or.inl hj)
      (fun _ => h.size_le id info himg (by rw [state]; decide)) ImageState.noConfusion
  | @interrupted _ info himg state =>
    exact h.restated himg rfl (fun j hj _ => Or.inl hj)
      (fun _ => h.size_le _ info himg (by rw [state]; decide)) ImageState.noConfusion
  | @resumed _ info himg _ _ state =>
    exact h.restated himg rfl (fun j hj _ => Or.inl hj)
      (fun _ => h.size_le _ info himg (by rw [state]; decide)) ImageState.noConfusion
  | done himg _ hids =>
    exact h.restated himg rfl
      (fun j hj hne => Or.inl (((remove_some (image_ne himg) hids hl.distinct).2 j hne).mp hj).1)
      (fun hr => absurd rfl hr) ImageState.noConfusion
  | reset _ himg _ hids _ =>
    exact h.restated himg rfl
      (fun j hj hne => Or.inl (((remove_some (image_ne himg) hids hl.distinct).2 j hne).mp hj).1)
      (fun hr => absurd rfl hr) ImageState.noConfusion
  | outside => exact ⟨h.known, h.size_le, h.copying⟩

theorem sizesInv {cond : Cpu → Call → Prop} (hs : Started P s₀)
    (hrun : Traced (Performs (cpuCall P) cond) ⟨s₀, false⟩ t x) :
    LoadedInv P t x.fwu ∧ SizesInv P x.fwu :=
  hrun.invariant (I := fun t x => LoadedInv P t x.fwu ∧ SizesInv P x.fwu)
    ⟨LoadedInv.start hs, SizesInv.start hs⟩ fun _ _ _ _ h hstep =>
      have hchange := fwuSmcHandler_change (cpuCall_some hstep.2).1
      ⟨h.1.step hchange, h.2.step h.1 hchange⟩

/-! ## The scan for overlaps -/

/-- The last byte of the image is not after its first one, in the arithmetic of `uintptr_t`. -/
def Degenerate (base size : ℕ) : Prop := size = 1 ∨ 2 ^ 64 < base + size

theorem imageEnd_le_iff {base size : ℕ} (hbase : base ≤ 2 ^ 64) (hpos : 0 < size)
    (hle : size ≤ 2 ^ 64) : imageEnd base size ≤ base ↔ Degenerate base size := by
  rw [imageEnd, Degenerate]
  by_cases hwrap : 2 ^ 64 < base + size
  · have hmod : (base + size - 1) % 2 ^ 64 = base + size - 1 - 2 ^ 64 := by
      rw [Nat.mod_eq_sub_mod (by omega), Nat.mod_eq_of_lt (by omega)]
    rw [hmod]
    omega
  · rw [Nat.mod_eq_of_lt (by omega)]
    omega

theorem imageEnd_eq {base size : ℕ} (h : ¬ Degenerate base size) :
    imageEnd base size = base + size - 1 := by
  rw [Degenerate, not_or] at h
  exact Nat.mod_eq_of_lt (by omega)

/-- The recorded image `k` lies apart from an image of `size` bytes at `base`. -/
def Avoids (P : Platform) (s : Fwu) (id base size k : ℕ) : Prop :=
  k ≠ id → ∀ other, P.image k = some other → (s.desc k).imageSize = 0 ∨
    other.imageBase + (s.desc k).imageSize ≤ base ∨ base + size ≤ other.imageBase

def MeetsDegenerate (P : Platform) (s : Fwu) (id base size : ℕ) (ids : List ℕ) : Prop :=
  ∃ pre j post other, ids = pre ++ j :: post ∧ j ≠ id ∧ P.image j = some other ∧
    Degenerate other.imageBase (s.desc j).imageSize ∧ ∀ k ∈ pre, Avoids P s id base size k

def Recorded (P : Platform) (s : Fwu) (ids : List ℕ) : Prop :=
  ∀ j ∈ ids, j ≠ INVALID_IMAGE_ID → ∃ other, P.image j = some other ∧
    (s.desc j).state ≠ .reset ∧ (s.desc j).imageSize ≤ 2 ^ 64

section Scan
variable {base size k : ℕ} {ks : List ℕ}

theorem meetsDegenerate_cons (havoids : Avoids P s id base size k)
    (hgood : k ≠ id → ∀ other, P.image k = some other →
      ¬ Degenerate other.imageBase (s.desc k).imageSize) :
    MeetsDegenerate P s id base size (k :: ks) ↔ MeetsDegenerate P s id base size ks := by
  constructor
  · rintro ⟨pre, j, post, other, hsplit, hid, himg, hdeg, hpre⟩
    cases pre with
    | nil =>
      obtain ⟨rfl, -⟩ := List.cons.inj hsplit
      exact absurd hdeg (hgood hid other himg)
    | cons y pre =>
      obtain ⟨-, rfl⟩ := List.cons.inj hsplit
      exact ⟨pre, j, post, other, rfl, hid, himg, hdeg,
        fun k' hk' => hpre k' (List.mem_cons_of_mem _ hk')⟩
  · rintro ⟨pre, j, post, other, rfl, hid, himg, hdeg, hpre⟩
    refine ⟨k :: pre, j, post, other, rfl, hid, himg, hdeg, ?_⟩
    intro k' hk'
    rcases List.mem_cons.mp hk' with rfl | hk'
    · exact havoids
    · exact hpre k' hk'

theorem not_meetsDegenerate_cons (hover : ¬ Avoids P s id base size k)
    (hgood : ∀ other, P.image k = some other → ¬ Degenerate other.imageBase (s.desc k).imageSize) :
    ¬ MeetsDegenerate P s id base size (k :: ks) := by
  rintro ⟨pre, j, post, other, hsplit, -, himg, hdeg, hpre⟩
  cases pre with
  | nil =>
    obtain ⟨rfl, -⟩ := List.cons.inj hsplit
    exact hgood other himg hdeg
  | cons y pre =>
    obtain ⟨rfl, -⟩ := List.cons.inj hsplit
    exact hover (hpre k List.mem_cons_self)

theorem overlapsLoaded_eq_none_iff {last : ℕ} (hlast : last = base + size - 1) (hsize : 0 < size)
    (h : Recorded P s ks) :
    overlapsLoaded P s id base last ks = none ↔ MeetsDegenerate P s id base size ks := by
  induction ks with
  | nil =>
    refine ⟨fun hn => absurd hn (by simp [overlapsLoaded]), ?_⟩
    rintro ⟨pre, j, post, other, hsplit, -⟩
    exact absurd hsplit (by simp)
  | cons k ks ih =>
    have ih := ih fun j hj => h j (List.mem_cons_of_mem _ hj)
    rw [overlapsLoaded]
    split
    · rename_i hskip
      have hvacuous : ∀ other, k ≠ id → P.image k ≠ some other := by
        intro other hid himg
        exact hskip.elim (image_ne himg) hid
      rw [ih, meetsDegenerate_cons]
      · exact fun hid other himg => absurd himg (hvacuous other hid)
      · exact fun hid other himg => absurd himg (hvacuous other hid)
    rename_i hvalid
    obtain ⟨hne, hid⟩ := not_or.mp hvalid
    obtain ⟨other, himg, hstate, hle⟩ := h k List.mem_cons_self hne
    have hbase := P.window_le other (image_some himg).1
    have hother : ∀ o, P.image k = some o → o = other := by
      intro o ho
      rw [himg, Option.some.injEq] at ho
      exact ho.symm
    rw [himg]
    simp only [hstate, if_false]
    split
    · rename_i h0
      rw [ih, meetsDegenerate_cons (fun _ _ _ => Or.inl h0)]
      intro _ o ho
      rw [hother o ho, h0, Degenerate]
      omega
    rename_i h0
    split
    · rename_i hend
      rw [imageEnd_le_iff (by omega) (by omega) hle] at hend
      exact ⟨fun _ => ⟨[], k, ks, other, rfl, hid, himg, hend, by simp⟩, fun _ => rfl⟩
    rename_i hend
    rw [imageEnd_le_iff (by omega) (by omega) hle] at hend
    have hgood : ∀ o, P.image k = some o → ¬ Degenerate o.imageBase (s.desc k).imageSize := by
      intro o ho
      rw [hother o ho]
      exact hend
    rw [imageEnd_eq hend]
    split
    · rename_i hapart
      refine ih.trans (meetsDegenerate_cons ?_ fun _ => hgood).symm
      intro _ o ho
      rw [hother o ho]
      omega
    · rename_i hover
      refine ⟨fun hn => absurd hn (by simp), fun hm => absurd hm ?_⟩
      refine not_meetsDegenerate_cons (fun havoids => ?_) hgood
      have := havoids hid other himg
      omega

end Scan

theorem overlapsLoaded_setDesc {base last : ℕ} {d : ImageDesc} (ids : List ℕ) :
    overlapsLoaded P (s.setDesc id d) id base last ids = overlapsLoaded P s id base last ids := by
  induction ids with
  | nil => rfl
  | cons j js ih =>
    rw [overlapsLoaded, overlapsLoaded, ih]
    by_cases hj : j = id
    · rw [if_pos (Or.inr hj), if_pos (Or.inr hj)]
    · rw [setDesc_other hj]

/-! ## The calls -/

theorem LoadedInv.recorded (hl : LoadedInv P t s) (hz : SizesInv P s) :
    Recorded P s s.loadedIds := by
  intro j hj hne
  obtain ⟨other, himg⟩ := hz.known j hj hne
  have hid := (image_some himg).2
  have hstate : (s.desc j).state ≠ .reset := by
    intro hr
    have hunloaded := (hl.image j other himg).unloaded
    rw [hid] at hunloaded
    exact hunloaded hr hj
  exact ⟨other, himg, hstate, hz.size_le j other himg hstate⟩

theorem copyStart_eq_none_iff {size : ℕ} (hl : LoadedInv P t s) (hz : SizesInv P s)
    (himg : P.image info.imageId = some info) :
    copyStart P s info size = none ↔
      (s.desc info.imageId).state ≠ .copying ∧ 0 < size ∧ size ≤ info.imageMaxSize ∧
        MeetsDegenerate P s info.imageId info.imageBase size s.loadedIds := by
  have hwindow := P.window_le info (image_some himg).1
  rw [copyStart]
  split
  · rename_i hc
    obtain ⟨hpos, hlt⟩ := hz.copying _ info himg hc
    rw [if_neg (by omega)]
    simp [hc]
  rename_i hc
  split
  · rename_i h0
    simp [h0]
  rename_i h0
  split
  · rename_i hmax
    refine ⟨fun h => absurd h (by simp), fun h => ?_⟩
    omega
  rename_i hmax
  have hlast : imageEnd info.imageBase size = info.imageBase + size - 1 :=
    Nat.mod_eq_of_lt (by omega)
  rw [fwuImageCheckOverlaps, setDesc_self, if_neg h0, setDesc_loadedIds, overlapsLoaded_setDesc]
  have hscan := @overlapsLoaded_eq_none_iff P s info.imageId info.imageBase size s.loadedIds _ hlast
    (by omega) (hl.recorded hz)
  have hrest : (s.desc info.imageId).state ≠ .copying ∧ 0 < size ∧ size ≤ info.imageMaxSize :=
    ⟨hc, by omega, by omega⟩
  rw [← hscan]
  split
  · rename_i hnone
    exact ⟨fun _ => ⟨hrest.1, hrest.2.1, hrest.2.2, hnone⟩, fun _ => rfl⟩
  · rename_i hsome
    exact ⟨fun h => absurd h (by simp), fun h => absurd (hsome.symm.trans h.2.2.2) (by simp)⟩
  · rename_i hsome
    exact ⟨fun h => absurd h (by simp), fun h => absurd (hsome.symm.trans h.2.2.2) (by simp)⟩

/-- The calls of which the assertions are looked at here, made by the normal world. -/
def Call.updates : Call → Bool
  | .imageCopy sec _ _ _ _ _ => !sec
  | .imageAuth sec _ _ _ _ _ => !sec
  | .imageExecute sec _ => !sec
  | .imageReset sec _ => !sec
  | _ => false

/-- The platform refuses an image that was authenticated: `plat_error_handler()` is called. -/
def Call.platformError : Call → Prop
  | .imageAuth _ _ _ _ verify post => verify = 0 ∧ post ≠ 0
  | _ => False

/-- An assertion fails: the call does not return, and not for an error of the platform. -/
def FailsAssertion (P : Platform) (s : Fwu) (c : Call) : Prop :=
  fwuSmcHandler P s c = none ∧ ¬ c.platformError

/-- The copy of an image begins when the scan meets a degenerate image, or an image of the normal
world in the EXECUTED state is reset. -/
def Trips (P : Platform) (s : Fwu) : Call → Prop
  | .imageCopy _ i src block size _ =>
    (s.desc i.toNat).state = .reset ∧ ∃ info, P.image i.toNat = some info ∧ info.secure = true ∧
      src ≠ 0 ∧ block ≠ 0 ∧ src.toNat + block.toNat < 2 ^ 64 ∧
      0 < size.toNat ∧ size.toNat ≤ info.imageMaxSize ∧
      MeetsDegenerate P s i.toNat info.imageBase size.toNat s.loadedIds
  | .imageReset _ i =>
    (∃ info, P.image i.toNat = some info ∧ info.secure = false) ∧
      (s.desc i.toNat).state = .executed
  | _ => False

theorem copyChecks_ok_iff {i block : UInt32} {src : UInt64} :
    copyChecks P s false i.toNat src.toNat block.toNat = .ok info ↔
      P.image i.toNat = some info ∧ info.secure = true ∧
      ((s.desc i.toNat).state = .reset ∨ (s.desc i.toNat).state = .copying) ∧
      src ≠ 0 ∧ block ≠ 0 ∧ src.toNat + block.toNat < 2 ^ 64 := by
  have hsrc : src = 0 ↔ src.toNat = 0 := by rw [← UInt64.toNat_inj]; rfl
  have hblock : block = 0 ↔ block.toNat = 0 := by rw [← UInt32.toNat_inj]; rfl
  have hlt := block.toNat_lt
  rw [copyChecks]
  cases himg : P.image i.toNat with
  | none => simp
  | some other =>
    simp only [Bool.false_eq_true, if_false, Option.some.injEq, checkUptrOverflow,
      decide_eq_true_eq]
    by_cases hsec : other.secure = false
    · rw [if_pos hsec]
      refine ⟨fun h => absurd h (by simp), ?_⟩
      rintro ⟨rfl, htrue, -⟩
      exact absurd htrue (by simp [hsec])
    rw [if_neg hsec]
    by_cases hstate : (s.desc i.toNat).state ≠ .reset ∧ (s.desc i.toNat).state ≠ .copying
    · rw [if_pos hstate]
      refine ⟨fun h => absurd h (by simp), ?_⟩
      rintro ⟨-, -, hr | hc, -⟩
      · exact absurd hr hstate.1
      · exact absurd hc hstate.2
    rw [if_neg hstate, ne_eq, ne_eq, hsrc, hblock]
    split
    · rename_i hbad
      refine ⟨fun h => absurd h (by simp), ?_⟩
      rintro ⟨-, -, -, h0, h1, h2⟩
      omega
    · rename_i hgood
      rw [Except.ok.injEq]
      constructor
      · rintro rfl
        exact ⟨rfl, by simpa using hsec, by tauto, by omega, by omega, by omega⟩
      · exact fun h => h.1

theorem fwuImageCopy_eq_none_iff {i block size : UInt32} {src : UInt64} {pre : Int}
    (hl : LoadedInv P t s) (hz : SizesInv P s) :
    fwuSmcHandler P s (.imageCopy false i src block size pre) = none ↔
      Trips P s (.imageCopy false i src block size pre) := by
  have hhandler : fwuSmcHandler P s (.imageCopy false i src block size pre) = none ↔
      ∃ info, copyChecks P s false i.toNat src.toNat block.toNat = .ok info ∧
        copyStart P s info size.toNat = none := by
    simp only [fwuSmcHandler, fwuImageCopy]
    cases hchecks : copyChecks P s false i.toNat src.toNat block.toNat with
    | error ret => simp
    | ok info => simp
  rw [hhandler, Trips]
  constructor
  · rintro ⟨info, hchecks, hstart⟩
    obtain ⟨himg, hsec, hstate, hsrc, hblock, hover⟩ := copyChecks_ok_iff.mp hchecks
    have hid := (image_some himg).2
    rw [copyStart_eq_none_iff hl hz (hid ▸ himg), hid] at hstart
    obtain ⟨hc, hpos, hmax, hmeets⟩ := hstart
    exact ⟨hstate.resolve_right hc, info, himg, hsec, hsrc, hblock, hover, hpos, hmax, hmeets⟩
  · rintro ⟨hr, info, himg, hsec, hsrc, hblock, hover, hpos, hmax, hmeets⟩
    have hid := (image_some himg).2
    refine ⟨info, copyChecks_ok_iff.mpr ⟨himg, hsec, Or.inl hr, hsrc, hblock, hover⟩, ?_⟩
    rw [copyStart_eq_none_iff hl hz (hid ▸ himg), hid]
    exact ⟨by rw [hr]; decide, hpos, hmax, hmeets⟩

theorem fwuImageAuth_eq_none {sec : Bool} {src size : ℕ} {verify post : Int}
    (h : fwuImageAuth P s sec id src size verify post = none) : verify = 0 ∧ post ≠ 0 := by
  have hverify : ∀ (s : Fwu) info base, authVerify s info base verify post = none →
      verify = 0 ∧ post ≠ 0 := by
    intro s info base hnone
    rw [authVerify] at hnone
    split at hnone
    · split at hnone <;> cases hnone
    rename_i hv
    split at hnone
    · rename_i hp
      exact ⟨not_not.mp hv, hp⟩
    · cases hnone
  rw [fwuImageAuth] at h
  split at h
  · cases h
  split at h
  · cases h
  split at h
  · exact hverify _ _ _ h
  split at h
  · cases h
  · exact hverify _ _ _ h

theorem fwuImageReset_eq_none_iff {i : UInt32} (hl : LoadedInv P t s)
    (hidle : ∀ info, P.image i.toNat = some info → info.secure = true →
      (s.desc i.toNat).state ≠ .executed) :
    fwuSmcHandler P s (.imageReset false i) = none ↔ Trips P s (.imageReset false i) := by
  simp only [fwuSmcHandler, fwuImageReset, Trips]
  cases himg : P.image i.toNat with
  | none => simp
  | some info =>
    have hns := (hl.image _ info himg).nonSecure
    rw [(image_some himg).2] at hns
    -- A non-secure image has no copied bytes to clear, so only the state matters.
    have hclear : ¬ ((s.desc i.toNat).copiedSize ≠ 0 ∧ info.secure = false) :=
      fun h => h.1 (hns h.2)
    have hidle := hidle info himg
    cases hstate : (s.desc i.toNat).state with
    | executed =>
      rw [hstate] at hidle
      have hsec : info.secure = false := by simpa using hidle
      simp [hsec]
    | _ =>
      cases hids : fwuRemoveLoadedId s.loadedIds i.toNat <;>
        simp only [Bool.false_eq_true, if_false, if_neg hclear, reduceCtorEq, and_false]

/-- **Assertions of the firmware update.** In every run, a call of the normal world to copy, to
authenticate, to execute or to reset an image fails an assertion exactly if it trips over a
degenerate image or over the image of the normal world. -/
theorem assertion_fails_iff (hs : Started P s₀)
    (hrun : Traced (Performs (cpuCall P) AnyCpuCall) ⟨s₀, false⟩ t x) (hns : x.secureRuns = false)
    (hc : c.updates = true) : FailsAssertion P x.fwu c ↔ Trips P x.fwu c := by
  obtain ⟨hl, hz⟩ := sizesInv hs hrun
  have hctl := controlInv hs hrun
  cases c with
  | imageCopy sec i src block size pre =>
    cases sec with
    | true => cases hc
    | false =>
      rw [FailsAssertion, fwuImageCopy_eq_none_iff hl hz]
      exact and_iff_left (fun h => h)
  | imageAuth sec i src size verify post =>
    refine ⟨fun h => absurd (fwuImageAuth_eq_none h.1) h.2, fun h => h.elim⟩
  | imageExecute sec i => exact ⟨fun h => absurd h.1 (by simp [fwuSmcHandler]), fun h => h.elim⟩
  | imageReset sec i =>
    cases sec with
    | true => cases hc
    | false =>
      rw [FailsAssertion, fwuImageReset_eq_none_iff hl
        fun info himg hsec => hctl.idle hns himg hsec]
      exact and_iff_left (fun h => h)
  | imageResume sec => cases hc
  | secImageDone sec => cases hc
  | write a v => cases hc

theorem assertion_fails_iff_two_bytes : ∃ t x,
    Traced (Performs (cpuCall fiveImages) AnyCpuCall) booted t x ∧
    (x.fwu.desc 1).imageSize = 2 ∧
    ¬ Trips fiveImages x.fwu (.imageCopy false 2 0x100 8 8 0) := by
  obtain ⟨t, x, hrun, hq⟩ := @execute_traced _ _ _ (cpuCall fiveImages) AnyCpuCall _
    (fun _ x => decide (x.secureRuns = false ∧ (x.fwu.desc 1).imageSize = 2 ∧
      (fwuSmcHandler fiveImages x.fwu (.imageCopy false 2 0x100 8 8 0)).isSome = true))
    booted [.imageCopy false 1 0x100 2 2 0] (by decide +kernel)
  obtain ⟨hns, hsize, hsome⟩ := of_decide_eq_true hq
  refine ⟨t, x, hrun, hsize, fun htrips => ?_⟩
  have hfails := (assertion_fails_iff (untouched_started _) hrun hns rfl).mpr htrips
  rw [hfails.1] at hsome
  cases hsome

/-- After one byte of image 1 was copied as the whole image, the copy of image 2 fails an assertion.
So does the reset of the normal world's own image. -/
theorem one_byte_fails_assertion :
    (∃ t x, Traced (Performs (cpuCall fiveImages) AnyCpuCall) booted t x ∧
      x.secureRuns = false ∧ FailsAssertion fiveImages x.fwu (.imageCopy false 2 0x100 8 8 0)) ∧
    FailsAssertion fiveImages booted.fwu (.imageReset false 3) := by
  constructor
  · obtain ⟨t, x, hrun, hq⟩ := @execute_traced _ _ _ (cpuCall fiveImages) AnyCpuCall _
      (fun _ x => decide (x.secureRuns = false ∧
        (fwuSmcHandler fiveImages x.fwu (.imageCopy false 2 0x100 8 8 0)).isNone = true))
      booted [.imageCopy false 1 0x100 1 1 0] (by decide +kernel)
    obtain ⟨hns, hnone⟩ := of_decide_eq_true hq
    exact ⟨t, x, hrun, hns, Option.isNone_iff_eq_none.mp hnone, fun h => h⟩
  · exact ⟨rfl, fun h => h⟩

end TrustedFirmware.Bl1
