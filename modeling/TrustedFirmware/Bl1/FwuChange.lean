import TrustedFirmware.Bl1.Fwu

/-! # What a firmware update call does

One statement that says everything a call can do to the descriptors, the record of loaded
images and the memory. -/
namespace TrustedFirmware.Bl1
open Libc ByteMemory
set_option autoImplicit false

variable {P : Platform} {s s' : Fwu} {info : Image} {id : ℕ} {ids ids' : List ℕ} {e : Event}

theorem image_some (h : P.image id = some info) : info ∈ P.images ∧ info.imageId = id := by
  rw [Platform.image] at h
  exact ⟨List.mem_of_find?_eq_some h, by simpa using List.find?_some h⟩

theorem image_ne (h : P.image id = some info) : id ≠ INVALID_IMAGE_ID := by
  obtain ⟨hmem, rfl⟩ := image_some h
  exact P.id_ne info hmem

variable {c : Call} {sec : Bool} {size src : ℕ}

/-! ## The record of loaded images -/

theorem replaceFirst_some {old new : ℕ} (h : replaceFirst old new ids = some ids') :
    ∃ pre post, ids = pre ++ old :: post ∧ old ∉ pre ∧ ids' = pre ++ new :: post := by
  induction ids generalizing ids' with
  | nil => cases h
  | cons x xs ih =>
    rw [replaceFirst] at h
    split at h
    · rename_i hx
      rw [Option.some.injEq] at h
      exact ⟨[], xs, by rw [hx]; rfl, by simp, h.symm⟩
    · rename_i hx
      obtain ⟨ys, hys, rfl⟩ := Option.map_eq_some_iff.mp h
      obtain ⟨pre, post, rfl, hpre, rfl⟩ := ih hys
      refine ⟨x :: pre, post, rfl, ?_, rfl⟩
      rw [List.mem_cons, not_or]
      exact ⟨fun h => hx h.symm, hpre⟩

theorem replaceFirst_none {old new : ℕ} (h : replaceFirst old new ids = none) : old ∉ ids := by
  induction ids with
  | nil => simp
  | cons x xs ih =>
    rw [replaceFirst] at h
    split at h
    · cases h
    · rename_i hx
      rw [Option.map_eq_none_iff] at h
      rw [List.mem_cons, not_or]
      exact ⟨fun h => hx h.symm, ih h⟩

def Distinct (ids : List ℕ) : Prop := (ids.filter fun x => x ≠ INVALID_IMAGE_ID).Nodup

theorem distinct_replicate (n : ℕ) : Distinct (List.replicate n INVALID_IMAGE_ID) := by
  have hnil : (List.replicate n INVALID_IMAGE_ID).filter (fun x => x ≠ INVALID_IMAGE_ID) = [] := by
    rw [List.filter_eq_nil_iff]
    intro x hx
    simp [List.eq_of_mem_replicate hx]
  rw [Distinct, hnil]
  exact List.nodup_nil

theorem add_some (hid : id ≠ INVALID_IMAGE_ID) (h : fwuAddLoadedId ids id = some ids')
    (hd : Distinct ids) :
    Distinct ids' ∧ ∀ x, x ≠ INVALID_IMAGE_ID → (x ∈ ids' ↔ x ∈ ids ∨ x = id) := by
  rw [fwuAddLoadedId] at h
  split at h
  · rename_i hmem
    cases h
    refine ⟨hd, fun x _ => ⟨Or.inl, fun h => h.elim (fun h => h) fun h => h ▸ hmem⟩⟩
  · rename_i hmem
    obtain ⟨pre, post, rfl, -, rfl⟩ := replaceFirst_some h
    constructor
    · rw [Distinct, List.filter_append, List.filter_cons_of_neg (by simp), ← List.filter_append] at hd
      rw [Distinct, List.filter_append, List.filter_cons_of_pos (by simpa using hid),
        List.nodup_middle, ← List.filter_append]
      refine List.nodup_cons.mpr ⟨fun hx => hmem ?_, hd⟩
      have hx' := List.mem_of_mem_filter hx
      rw [List.mem_append] at hx' ⊢
      exact hx'.imp_right (List.mem_cons_of_mem _)
    · intro x hx
      simp only [List.mem_append, List.mem_cons, hx, false_or]
      tauto

theorem remove_some (hid : id ≠ INVALID_IMAGE_ID) (h : fwuRemoveLoadedId ids id = some ids')
    (hd : Distinct ids) :
    Distinct ids' ∧ ∀ x, x ≠ INVALID_IMAGE_ID → (x ∈ ids' ↔ x ∈ ids ∧ x ≠ id) := by
  obtain ⟨pre, post, rfl, -, rfl⟩ := replaceFirst_some h
  rw [Distinct, List.filter_append, List.filter_cons_of_pos (by simpa using hid), List.nodup_middle,
    ← List.filter_append] at hd
  obtain ⟨hnot, hd⟩ := List.nodup_cons.mp hd
  constructor
  · rw [Distinct, List.filter_append, List.filter_cons_of_neg (by simp), ← List.filter_append]
    exact hd
  · intro x hx
    simp only [List.mem_append, List.mem_cons, hx, false_or]
    constructor
    · intro hmem
      refine ⟨hmem.imp_right Or.inr, fun heq => hnot ?_⟩
      subst heq
      exact List.mem_filter.mpr ⟨List.mem_append.mpr hmem, by simpa using hx⟩
    · rintro ⟨h | h | h, hne⟩
      · exact Or.inl h
      · exact absurd h hne
      · exact Or.inr h

/-- The record without the image `id`, as `bl1_fwu_remove_loaded_id()` leaves it when its result is
ignored. -/
def without (ids : List ℕ) (id : ℕ) : List ℕ := (fwuRemoveLoadedId ids id).getD ids

theorem without_mem (hid : id ≠ INVALID_IMAGE_ID) (hd : Distinct ids) :
    Distinct (without ids id) ∧
    ∀ x, x ≠ INVALID_IMAGE_ID → (x ∈ without ids id ↔ x ∈ ids ∧ x ≠ id) := by
  rw [without]
  cases h : fwuRemoveLoadedId ids id with
  | some ids' => exact remove_some hid h hd
  | none =>
    refine ⟨hd, fun x _ => ⟨fun hx => ⟨hx, fun heq => ?_⟩, And.left⟩⟩
    exact replaceFirst_none h (heq ▸ hx)

/-- No recorded image with a size overlaps the image `info` of size `size`. -/
def Clear (P : Platform) (s : Fwu) (info : Image) (size : ℕ) : Prop :=
  ∀ j ∈ s.loadedIds, j ≠ INVALID_IMAGE_ID → j ≠ info.imageId → ∀ other, P.image j = some other →
    (s.desc j).imageSize = 0 ∨
    imageEnd other.imageBase (s.desc j).imageSize < info.imageBase ∨
    imageEnd info.imageBase size < other.imageBase

theorem overlapsLoaded_false {base last : ℕ} (h : overlapsLoaded P s id base last ids = some false) :
    ∀ j ∈ ids, j ≠ INVALID_IMAGE_ID → j ≠ id → ∀ other, P.image j = some other →
      (s.desc j).imageSize = 0 ∨ imageEnd other.imageBase (s.desc j).imageSize < base ∨
      last < other.imageBase := by
  induction ids with
  | nil => exact fun j hj => absurd hj (by simp)
  | cons x xs ih =>
    intro j hj hne hid other ho
    rw [overlapsLoaded] at h
    split at h
    · rename_i hx
      rcases List.mem_cons.mp hj with rfl | hj
      · exact absurd hx (not_or.mpr ⟨hne, hid⟩)
      · exact ih h j hj hne hid other ho
    split at h
    · cases h
    rename_i info hinfo
    split at h
    · cases h
    split at h
    · rename_i h0
      rcases List.mem_cons.mp hj with rfl | hj
      · exact Or.inl h0
      · exact ih h j hj hne hid other ho
    split at h
    · cases h
    split at h
    · rename_i hapart
      rcases List.mem_cons.mp hj with rfl | hj
      · rw [hinfo, Option.some.injEq] at ho
        exact Or.inr (ho ▸ hapart)
      · exact ih h j hj hne hid other ho
    · cases h

@[simp] theorem setDesc_memory (s : Fwu) (id : ℕ) (d : ImageDesc) :
    (s.setDesc id d).memory = s.memory := rfl

@[simp] theorem setDesc_loadedIds (s : Fwu) (id : ℕ) (d : ImageDesc) :
    (s.setDesc id d).loadedIds = s.loadedIds := rfl

@[simp] theorem setDesc_secExecImageId (s : Fwu) (id : ℕ) (d : ImageDesc) :
    (s.setDesc id d).secExecImageId = s.secExecImageId := rfl

@[simp] theorem setDesc_self (s : Fwu) (id : ℕ) (d : ImageDesc) : (s.setDesc id d).desc id = d :=
  Function.update_self ..

theorem setDesc_other {j : ℕ} (h : j ≠ id) (s : Fwu) (d : ImageDesc) :
    (s.setDesc id d).desc j = s.desc j := Function.update_of_ne h ..

/-! ## What a call can do -/

/-- `n` bytes can be copied to the image after the first `c` of `size`: the copy begins at an image
in the RESET state, or goes on. -/
structure Block (P : Platform) (s : Fwu) (info : Image) (size c n : ℕ) : Prop where
  secure : info.secure = true
  start : ((s.desc info.imageId).state = .reset ∧ c = 0 ∧ 0 < size ∧ size ≤ info.imageMaxSize ∧
      Clear P s info size) ∨
    ((s.desc info.imageId).state = .copying ∧ c = (s.desc info.imageId).copiedSize ∧
      size = (s.desc info.imageId).imageSize ∧ c < size)
  pos : 0 < n
  le : c + n ≤ size

def blockCopied (s : Fwu) (info : Image) (size c n src : ℕ) (ids : List ℕ) : Fwu :=
  { s with
    memory := blit s.memory (info.imageBase + c) (shift s.memory src) n
    desc := Function.update s.desc info.imageId
      ⟨if n = size - c then .copied else .copying, c + n, size⟩
    loadedIds := ids }

def Call.target : Call → Option ℕ
  | .imageCopy _ id _ _ _ _ => some id.toNat
  | .imageReset _ id => some id.toNat
  | _ => none

/-- What a call does to the state, and the event that tells it. -/
inductive Change (P : Platform) (s : Fwu) : Call → Fwu → Event → Prop
  | unchanged {c : Call} {e : Event} (he : e = .idle ∨ ∃ ret, e = .refused ret) : Change P s c s e
  | sized {c : Call} {id : ℕ} {info : Image} {d : ImageDesc} {ids : List ℕ} {ret : Int}
      (image : P.image id = some info) (state : (s.desc id).state = .reset)
      (hd : d.state = .reset ∧ d.copiedSize ≤ (s.desc id).copiedSize)
      (hids : ids = s.loadedIds ∨
        ∃ mid, fwuAddLoadedId s.loadedIds id = some mid ∧ ids = without mid id) :
      Change P s c ({ s with loadedIds := ids }.setDesc id d) (.refused ret)
  | copied {c : Call} {info : Image} {size k n src : ℕ} {ids : List ℕ}
      (target : c.target = some info.imageId) (image : P.image info.imageId = some info) (block : Block P s info size k n)
      (hids : fwuAddLoadedId s.loadedIds info.imageId = some ids) :
      Change P s c (blockCopied s info size k n src ids)
        (.copied info.imageId (info.imageBase + k) n)
  | acceptedCopy {c : Call} {id : ℕ} {info : Image} (image : P.image id = some info)
      (secure : info.secure = true) (state : (s.desc id).state = .copied) :
      Change P s c (s.setDesc id { s.desc id with state := .authenticated })
        (.accepted id (readBytes s.memory info.imageBase (s.desc id).imageSize))
  | acceptedInPlace {sec : Bool} {i size : UInt32} {src : UInt64} {v p : Int} {info : Image}
      {ids : List ℕ} (image : P.image i.toNat = some info)
      (state : (s.desc i.toNat).state = .reset) (allowed : sec = true ∨ info.secure = false)
      (hids : fwuAddLoadedId s.loadedIds i.toNat = some ids) :
      Change P s (.imageAuth sec i src size v p)
        ({ s with loadedIds := ids }.setDesc i.toNat
          ⟨.authenticated, (s.desc i.toNat).copiedSize, size.toNat⟩)
        (.accepted i.toNat (readBytes s.memory src.toNat size.toNat))
  | rejectedCopy {c : Call} {id : ℕ} {info : Image} (target : c.target = none)
      (image : P.image id = some info)
      (secure : info.secure = true) (state : (s.desc id).state = .copied) :
      Change P s c
        ({ s with
            memory := blit s.memory info.imageBase (fun _ => 0) (s.desc id).imageSize
            loadedIds := without s.loadedIds id }.setDesc id { s.desc id with state := .reset })
        (.rejected id)
  | rejectedInPlace {c : Call} {id size : ℕ} {info : Image} {ids : List ℕ}
      (image : P.image id = some info) (state : (s.desc id).state = .reset)
      (hids : fwuAddLoadedId s.loadedIds id = some ids) :
      Change P s c
        ({ s with loadedIds := without ids id }.setDesc id { s.desc id with imageSize := size })
        (.rejected id)
  | executed {c : Call} {id : ℕ} {info : Image} (image : P.image id = some info)
      (secure : info.secure = true) (executable : info.executable = true)
      (state : (s.desc id).state = .authenticated) :
      Change P s c
        ({ s with secExecImageId := id }.setDesc id { s.desc id with state := .executed })
        (.entered id)
  | interrupted {c : Call} {info : Image} (image : P.image s.secExecImageId = some info)
      (state : (s.desc s.secExecImageId).state = .executed) :
      Change P s c
        (s.setDesc s.secExecImageId { s.desc s.secExecImageId with state := .interrupted })
        (.left s.secExecImageId)
  | resumed {c : Call} {info : Image} (image : P.image s.secExecImageId = some info)
      (secure : info.secure = true) (executable : info.executable = true)
      (state : (s.desc s.secExecImageId).state = .interrupted) :
      Change P s c (s.setDesc s.secExecImageId { s.desc s.secExecImageId with state := .executed })
        (.entered s.secExecImageId)
  | done {c : Call} {info : Image} {ids : List ℕ} (image : P.image s.secExecImageId = some info)
      (state : (s.desc s.secExecImageId).state = .executed)
      (hids : fwuRemoveLoadedId s.loadedIds s.secExecImageId = some ids) :
      Change P s c
        ({ s with loadedIds := ids, secExecImageId := INVALID_IMAGE_ID }.setDesc s.secExecImageId
          { s.desc s.secExecImageId with state := .reset })
        (.done s.secExecImageId)
  | reset {c : Call} {id : ℕ} {info : Image} {ids : List ℕ} (target : c.target = some id)
      (image : P.image id = some info)
      (state : (s.desc id).state ≠ .reset ∧ (s.desc id).state ≠ .executed)
      (hids : fwuRemoveLoadedId s.loadedIds id = some ids)
      (secure : (s.desc id).copiedSize ≠ 0 → info.secure = true) :
      Change P s c
        ({ s with
            memory := blit s.memory info.imageBase (fun _ => 0) (s.desc id).copiedSize
            loadedIds := ids }.setDesc id ⟨.reset, 0, 0⟩)
        (.reset id info.imageBase (s.desc id).copiedSize)
  | outside {a : ℕ} {v : UInt8} :
      Change P s (.write a v) { s with memory := Function.update s.memory a v } .outside

theorem Change.of_refused {ret : Int} (h : some (s, Event.refused ret) = some (s', e)) :
    Change P s c s' e := by
  cases h
  exact .unchanged (Or.inr ⟨ret, rfl⟩)

/-! ### IMAGE_COPY -/

theorem copyChecks_ok {block : ℕ} (h : copyChecks P s sec id src block = .ok info) :
    P.image id = some info ∧ info.secure = true ∧
    ((s.desc id).state = .reset ∨ (s.desc id).state = .copying) ∧ 0 < block := by
  rw [copyChecks] at h
  split at h
  · cases h
  rename_i i hi
  split at h
  · cases h
  split at h
  · cases h
  rename_i hsec
  split at h
  · cases h
  rename_i hstate
  split at h
  · cases h
  rename_i hargs
  cases h
  refine ⟨hi, by simpa using hsec, by tauto, ?_⟩
  simp only [not_or] at hargs
  omega

theorem copyStart_none {s₁ : Fwu}
    (hstate : (s.desc info.imageId).state = .reset ∨ (s.desc info.imageId).state = .copying)
    (h : copyStart P s info size = some (s₁, none)) :
    (s₁ = s ∧ (s.desc info.imageId).state = .copying ∧
      (s.desc info.imageId).copiedSize < (s.desc info.imageId).imageSize) ∨
    (s₁ = s.setDesc info.imageId ⟨.reset, 0, size⟩ ∧ (s.desc info.imageId).state = .reset ∧
      0 < size ∧ size ≤ info.imageMaxSize ∧ Clear P s info size) := by
  rw [copyStart] at h
  split at h
  · rename_i hc
    split at h
    · cases h
    rename_i hsizes
    simp only [Option.some.injEq, Prod.mk.injEq, and_true] at h
    exact Or.inl ⟨h.symm, hc, by omega⟩
  rename_i hc
  have hr := hstate.resolve_right hc
  split at h
  · cases h
  rename_i h0
  split at h
  · cases h
  rename_i hmax
  split at h
  · cases h
  · cases h
  rename_i hover
  simp only [Option.some.injEq, Prod.mk.injEq, and_true] at h
  refine Or.inr ⟨?_, hr, by omega, by omega, ?_⟩
  · rw [← h, hr]
  rw [fwuImageCheckOverlaps] at hover
  split at hover
  · cases hover
  rw [setDesc_loadedIds, setDesc_self] at hover
  intro j hj hne hid other ho
  have hclear := overlapsLoaded_false hover j hj hne hid other ho
  rwa [setDesc_other hid] at hclear

theorem copyStart_refused {s₁ : Fwu} {ret : Int} (image : P.image info.imageId = some info)
    (hstate : (s.desc info.imageId).state = .reset ∨ (s.desc info.imageId).state = .copying)
    (h : copyStart P s info size = some (s₁, some ret)) : Change P s c s₁ (.refused ret) := by
  rw [copyStart] at h
  split at h
  · split at h <;> cases h
  rename_i hc
  have hr := hstate.resolve_right hc
  split at h
  · simp only [Option.some.injEq, Prod.mk.injEq] at h
    exact h.1 ▸ .unchanged (Or.inr ⟨_, rfl⟩)
  split at h
  · simp only [Option.some.injEq, Prod.mk.injEq] at h
    exact h.1 ▸ .unchanged (Or.inr ⟨_, rfl⟩)
  split at h
  · cases h
  · simp only [Option.some.injEq, Prod.mk.injEq] at h
    exact h.1 ▸ .sized image hr ⟨hr, le_rfl⟩ (Or.inl rfl)
  · cases h

theorem copyLoad_change {s₁ : Fwu} {block : ℕ} {pre : Int} (target : c.target = some info.imageId)
    (image : P.image info.imageId = some info) (secure : info.secure = true) (hblock : 0 < block)
    (hs₁ : (s₁ = s ∧ (s.desc info.imageId).state = .copying ∧
      (s.desc info.imageId).copiedSize < (s.desc info.imageId).imageSize) ∨
      (s₁ = s.setDesc info.imageId ⟨.reset, 0, size⟩ ∧ (s.desc info.imageId).state = .reset ∧
      0 < size ∧ size ≤ info.imageMaxSize ∧ Clear P s info size))
    (h : copyLoad P s₁ info src block pre = (s', e)) : Change P s c s' e := by
  have hrefused : ∀ ids ret, (s₁.desc info.imageId).state = .reset ∨ ids = s.loadedIds →
      (ids = s.loadedIds ∨ ∃ mid, fwuAddLoadedId s.loadedIds info.imageId = some mid ∧
        ids = without mid info.imageId) →
      Change P s c { s₁ with loadedIds := ids } (.refused ret) := by
    intro ids ret hcase hids
    rcases hs₁ with ⟨rfl, hc, -⟩ | ⟨rfl, hr, -⟩
    · have hsame := hcase.resolve_left (by rw [hc]; decide)
      subst hsame
      exact .unchanged (Or.inr ⟨_, rfl⟩)
    · exact .sized image hr ⟨rfl, Nat.zero_le _⟩ hids
  have hloaded : s₁.loadedIds = s.loadedIds := by
    rcases hs₁ with ⟨rfl, -⟩ | ⟨rfl, -⟩ <;> rfl
  rw [copyLoad] at h
  split at h
  · obtain ⟨rfl, rfl⟩ := Prod.mk.inj h
    exact hrefused s₁.loadedIds _ (Or.inr hloaded) (Or.inl hloaded)
  rw [hloaded] at h
  split at h
  · obtain ⟨rfl, rfl⟩ := Prod.mk.inj h
    exact hrefused s₁.loadedIds _ (Or.inr hloaded) (Or.inl hloaded)
  rename_i ids hids
  split at h
  · rename_i hpre
    cases h
    exact hrefused _ _ (Or.inl hpre.1) (Or.inr ⟨ids, hids, rfl⟩)
  rw [copyBlock] at h
  cases h
  rcases hs₁ with ⟨rfl, hc, hlt⟩ | ⟨rfl, hr, hpos, hmax, hclear⟩
  · refine .copied target image ⟨secure, Or.inr ⟨hc, rfl, rfl, hlt⟩, ?_, ?_⟩ hids
    · simp only [blockLength]
      omega
    · simp only [blockLength]
      omega
  · simp only [setDesc_self, setDesc_memory]
    have hcopied := @Change.copied P s c info size 0 (blockLength ⟨.reset, 0, size⟩ block) src ids
      target image
      ⟨secure, Or.inl ⟨hr, rfl, hpos, hmax, hclear⟩, by simp only [blockLength]; omega,
        by simp only [blockLength]; omega⟩ hids
    rw [blockCopied] at hcopied
    simp only [Fwu.setDesc, Function.update_idem]
    exact hcopied

theorem fwuImageCopy_change {block : ℕ} {pre : Int} (target : c.target = some id)
    (h : fwuImageCopy P s sec id src block size pre = some (s', e)) : Change P s c s' e := by
  rw [fwuImageCopy] at h
  split at h
  · exact .of_refused h
  rename_i info hchecks
  obtain ⟨himg, hsec, hstate, hblock⟩ := copyChecks_ok hchecks
  obtain ⟨-, rfl⟩ := image_some himg
  obtain ⟨⟨s₁, r⟩, hstart, heq⟩ := Option.map_eq_some_iff.mp h
  cases r with
  | some ret =>
    cases heq
    exact copyStart_refused himg hstate hstart
  | none => exact copyLoad_change target himg hsec hblock (copyStart_none hstate hstart) heq

/-! ### IMAGE_AUTH -/

theorem authInPlace_ok {s₁ : Fwu} (h : authInPlace P s info src size = .ok s₁) :
    ∃ ids, fwuAddLoadedId s.loadedIds info.imageId = some ids ∧
      s₁ = { s with loadedIds := ids }.setDesc info.imageId
        { s.desc info.imageId with imageSize := size } := by
  rw [authInPlace] at h
  split at h
  · cases h
  split at h
  · cases h
  split at h
  · cases h
  rename_i ids hids
  rw [Except.ok.injEq] at h
  exact ⟨ids, hids, h.symm⟩

theorem fwuImageAuth_change {i size : UInt32} {src : UInt64} {v p : Int}
    (h : fwuImageAuth P s sec i.toNat src.toNat size.toNat v p = some (s', e)) :
    Change P s (.imageAuth sec i src size v p) s' e := by
  rw [fwuImageAuth] at h
  split at h
  · exact .of_refused h
  rename_i info himg
  have hid := (image_some himg).2
  split at h
  · exact .of_refused h
  rename_i hallowed
  rw [authAllowed] at hallowed
  split at h
  · -- A copied image is authenticated at its base.
    rename_i hstate
    have hsecure : info.secure = true := by
      cases hs : info.secure with
      | true => rfl
      | false => cases sec <;> simp [hstate, hs] at hallowed
    rw [authVerify, hid] at h
    split at h
    · cases h
      exact .rejectedCopy rfl himg hsecure hstate
    split at h
    · cases h
    · cases h
      exact .acceptedCopy himg hsecure hstate
  · -- Another one is in the RESET state and is authenticated in place.
    rename_i hcopied
    have hreset : (s.desc i.toNat).state = .reset := by
      cases sec <;> cases hs : info.secure <;> simp_all
    have hinPlace : sec = true ∨ info.secure = false := by
      cases sec <;> cases hs : info.secure <;> simp_all
    split at h
    · exact .of_refused h
    rename_i s₁ hok
    obtain ⟨ids, hids, rfl⟩ := authInPlace_ok hok
    rw [hid] at hids
    rw [authVerify, hid] at h
    simp only [setDesc_self, setDesc_memory, setDesc_loadedIds] at h
    split at h
    · cases h
      exact .rejectedInPlace himg hreset hids
    split at h
    · cases h
    · simp only [Option.some.injEq, Prod.mk.injEq, Fwu.setDesc, Function.update_idem] at h
      obtain ⟨rfl, rfl⟩ := h
      exact .acceptedInPlace himg hreset hinPlace hids

/-! ### Execution and IMAGE_RESET -/

theorem fwuImageExecute_change (h : fwuImageExecute P s sec id = (s', e)) : Change P s c s' e := by
  rw [fwuImageExecute] at h
  split at h
  · exact .of_refused (congrArg some h)
  rename_i info himg
  split at h
  · exact .of_refused (congrArg some h)
  rename_i hchecks
  simp only [not_or, Bool.not_eq_false, not_not] at hchecks
  cases h
  exact .executed himg hchecks.2.1 hchecks.2.2.1 hchecks.2.2.2

theorem fwuImageResume_change (h : fwuImageResume P s sec = some (s', e)) : Change P s c s' e := by
  rw [fwuImageResume] at h
  split at h
  · split at h
    · cases h
    · exact .of_refused h
  rename_i info himg
  split at h
  · cases h
  rename_i hattr
  simp only [not_or, Bool.not_eq_false] at hattr
  split at h
  · split at h
    · cases h
    rename_i hstate
    cases h
    exact .interrupted himg (not_not.mp hstate)
  · split at h
    · cases h
    rename_i hstate
    cases h
    exact .resumed himg hattr.1 hattr.2 (not_not.mp hstate)

theorem fwuSecImageDone_change (h : fwuSecImageDone P s sec = some (s', e)) : Change P s c s' e := by
  rw [fwuSecImageDone] at h
  split at h
  · exact .of_refused h
  dsimp only at h
  split at h
  · cases h
  rename_i info himg
  split at h
  · cases h
  rename_i hchecks
  simp only [not_or, not_not] at hchecks
  obtain ⟨ids, hids, heq⟩ := Option.map_eq_some_iff.mp h
  cases heq
  exact .done himg hchecks.2.2 hids

theorem fwuImageReset_change (target : c.target = some id)
    (h : fwuImageReset P s sec id = some (s', e)) : Change P s c s' e := by
  rw [fwuImageReset] at h
  split at h
  · exact .of_refused h
  rename_i info himg
  split at h
  · exact .of_refused h
  split at h
  · cases h
    exact .unchanged (Or.inl rfl)
  · cases h
  rename_i hr hx
  split at h
  · exact .of_refused h
  rename_i ids hids
  split at h
  · cases h
  rename_i hsecure
  cases h
  refine .reset target himg ⟨hr, hx⟩ hids fun h0 => ?_
  simpa [h0] using hsecure

theorem fwuSmcHandler_change (h : fwuSmcHandler P s c = some (s', e)) : Change P s c s' e := by
  cases c with
  | imageCopy sec i src block size pre => exact fwuImageCopy_change rfl h
  | imageAuth sec i src size v p => exact fwuImageAuth_change h
  | imageExecute sec i => exact fwuImageExecute_change (Option.some.inj h)
  | imageResume sec => exact fwuImageResume_change h
  | secImageDone sec => exact fwuSecImageDone_change h
  | imageReset sec i => exact fwuImageReset_change rfl h
  | write a v =>
    cases h
    exact .outside

end TrustedFirmware.Bl1
