import TrustedFirmware.Foundations.Runs
import TrustedFirmware.Bl1.FwuChange

/-! # Where firmware update images lie

IMAGE_COPY and IMAGE_RESET write only to the memory of the image they are for. Images that were
copied lie apart from each other. An image that is authenticated where it is has no place of its
own: its `image_base` says nothing about it, and no overlap is checked. -/
namespace TrustedFirmware.Bl1
open Libc ByteMemory Runs
set_option autoImplicit false

variable {P : Platform} {s s' s₀ : Fwu} {info : Image} {id j : ℕ} {c : Call} {e : Event}
  {t : List (Call × Event)}

/-! ## History -/

def lastEvent (kind : Event → Bool) (t : List (Call × Event)) : Option Event :=
  (t.map Prod.snd).reverse.find? kind

theorem lastEvent_snoc (kind : Event → Bool) (t : List (Call × Event)) (x : Call × Event) :
    lastEvent kind (t ++ [x]) = if kind x.2 then some x.2 else lastEvent kind t := by
  rw [lastEvent, List.map_append, List.reverse_append, List.map_singleton, List.reverse_singleton,
    List.singleton_append, List.find?_cons, lastEvent]
  cases kind x.2 <;> rfl

def Event.places (id : ℕ) : Event → Bool
  | .copied j _ _ => decide (j = id)
  | .rejected j => decide (j = id)
  | .done j => decide (j = id)
  | .reset j _ _ => decide (j = id)
  | _ => false

def Event.isCopied : Event → Bool
  | .copied _ _ _ => true
  | _ => false

/-- IMAGE_COPY has put the image in its place, and nothing has taken it away since. -/
def copiedIn (id : ℕ) (t : List (Call × Event)) : Bool :=
  (lastEvent (Event.places id) t).any Event.isCopied

theorem copiedIn_snoc (id : ℕ) (t : List (Call × Event)) (c : Call) (e : Event) :
    copiedIn id (t ++ [(c, e)]) = if e.places id then e.isCopied else copiedIn id t := by
  rw [copiedIn, lastEvent_snoc]
  cases e.places id <;> simp [copiedIn]

/-! ## The invariant -/

structure ImageInv (t : List (Call × Event)) (s : Fwu) (info : Image) : Prop where
  unloaded : (s.desc info.imageId).state = .reset → info.imageId ∉ s.loadedIds
  within : (s.desc info.imageId).copiedSize ≤ info.imageMaxSize
  nonSecure : info.secure = false → (s.desc info.imageId).copiedSize = 0
  part : (s.desc info.imageId).state = .copying ∨ (s.desc info.imageId).state = .copied →
    copiedIn info.imageId t = true
  whole : copiedIn info.imageId t = true → info.secure = true ∧ info.imageId ∈ s.loadedIds ∧
    (s.desc info.imageId).state ≠ .reset ∧ 0 < (s.desc info.imageId).imageSize ∧
    (s.desc info.imageId).imageSize ≤ info.imageMaxSize ∧
    (s.desc info.imageId).copiedSize ≤ (s.desc info.imageId).imageSize

def Apart (s : Fwu) (a b : Image) : Prop :=
  a.imageBase + (s.desc a.imageId).imageSize ≤ b.imageBase ∨
  b.imageBase + (s.desc b.imageId).imageSize ≤ a.imageBase

theorem Apart.symm {a b : Image} (h : Apart s a b) : Apart s b a := Or.symm h

structure LoadedInv (P : Platform) (t : List (Call × Event)) (s : Fwu) : Prop where
  distinct : Distinct s.loadedIds
  image : ∀ id info, P.image id = some info → ImageInv t s info
  apart : ∀ i j a b, P.image i = some a → P.image j = some b → i ≠ j →
    copiedIn i t = true → copiedIn j t = true → Apart s a b

theorem LoadedInv.about (h : LoadedInv P t s) {x : Call × Event} {i : ℕ}
    (hdesc : ∀ j, j ≠ i → s'.desc j = s.desc j)
    (hplaces : ∀ j, j ≠ i → x.2.places j = false)
    (hmem : ∀ j, j ≠ INVALID_IMAGE_ID → j ≠ i → (j ∈ s'.loadedIds ↔ j ∈ s.loadedIds))
    (hdistinct : Distinct s'.loadedIds)
    (himage : ∀ info, P.image i = some info → ImageInv (t ++ [x]) s' info)
    (hapart : ∀ j a b, P.image i = some a → P.image j = some b → j ≠ i →
      copiedIn i (t ++ [x]) = true → copiedIn j t = true → Apart s' a b) :
    LoadedInv P (t ++ [x]) s' := by
  obtain ⟨c, e⟩ := x
  have hcopied : ∀ j, j ≠ i → copiedIn j (t ++ [(c, e)]) = copiedIn j t := by
    intro j hj
    rw [copiedIn_snoc, hplaces j hj]
    rfl
  refine ⟨hdistinct, ?_, ?_⟩
  · intro j info hinfo
    obtain ⟨-, hid⟩ := image_some hinfo
    by_cases hj : j = i
    · exact himage info (hj ▸ hinfo)
    · have hj' : info.imageId ≠ i := by rw [hid]; exact hj
      have hold := h.image j info hinfo
      have hm := hmem info.imageId (by rw [hid]; exact image_ne hinfo) hj'
      constructor
      · rw [hdesc _ hj', hm]
        exact hold.unloaded
      · rw [hdesc _ hj']
        exact hold.within
      · rw [hdesc _ hj']
        exact hold.nonSecure
      · rw [hdesc _ hj', hcopied _ hj']
        exact hold.part
      · rw [hdesc _ hj', hcopied _ hj', hm]
        exact hold.whole
  · intro j k a b ha hb hjk hj hk
    obtain ⟨-, haj⟩ := image_some ha
    obtain ⟨-, hbk⟩ := image_some hb
    by_cases hji : j = i
    · subst hji
      exact hapart k a b ha hb (Ne.symm hjk) hj (hcopied k (Ne.symm hjk) ▸ hk)
    by_cases hki : k = i
    · subst hki
      exact (hapart j b a hb ha hjk hk (hcopied j hjk ▸ hj)).symm
    · rw [hcopied _ hji] at hj
      rw [hcopied _ hki] at hk
      have hold := h.apart j k a b ha hb hjk hj hk
      rw [Apart, hdesc _ (by rw [haj]; exact hji), hdesc _ (by rw [hbk]; exact hki)]
      exact hold

theorem LoadedInv.silent (h : LoadedInv P t s) {x : Call × Event}
    (hplaces : ∀ j, x.2.places j = false) (hdesc : s'.desc = s.desc)
    (hids : s'.loadedIds = s.loadedIds) : LoadedInv P (t ++ [x]) s' := by
  refine h.about (i := INVALID_IMAGE_ID) (fun j _ => by rw [hdesc]) (fun j _ => hplaces j)
    (fun j _ _ => by rw [hids]) (hids ▸ h.distinct) ?_ ?_
  · intro info hinfo
    exact absurd rfl (image_ne hinfo)
  · intro j a b ha
    exact absurd rfl (image_ne ha)

theorem ImageInv.not_copied (h : ImageInv t s info) (hr : (s.desc info.imageId).state = .reset) :
    copiedIn info.imageId t = false := by
  cases hc : copiedIn info.imageId t with
  | false => rfl
  | true => exact absurd hr (h.whole hc).2.2.1

theorem LoadedInv.apart_kept (h : LoadedInv P t s) {x : Call × Event}
    (hdesc : ∀ j, j ≠ id → s'.desc j = s.desc j)
    (hkept : copiedIn id (t ++ [x]) = true →
      copiedIn id t = true ∧ (s'.desc id).imageSize = (s.desc id).imageSize)
    (j : ℕ) (a b : Image) (ha : P.image id = some a) (hb : P.image j = some b) (hj : j ≠ id)
    (hid : copiedIn id (t ++ [x]) = true) (hcj : copiedIn j t = true) : Apart s' a b := by
  obtain ⟨hold, hsize⟩ := hkept hid
  have hapart := h.apart id j a b ha hb (Ne.symm hj) hold hcj
  rw [Apart, (image_some ha).2, (image_some hb).2] at hapart ⊢
  rwa [hsize, hdesc j hj]

theorem Clear.apart {size : ℕ} {other : Image} (hclear : Clear P s info size)
    (hinfo : P.image info.imageId = some info) (hsize : 0 < size) (hmax : size ≤ info.imageMaxSize)
    (ho : P.image j = some other) (hne : j ≠ info.imageId) (hinv : ImageInv t s other)
    (hcopied : copiedIn j t = true) :
    info.imageBase + size ≤ other.imageBase ∨
    other.imageBase + (s.desc j).imageSize ≤ info.imageBase := by
  obtain ⟨hmem, rfl⟩ := image_some ho
  obtain ⟨-, hloaded, -, hpos, hle, -⟩ := hinv.whole hcopied
  have hwi := P.window_le info (image_some hinfo).1
  have hwo := P.window_le other hmem
  have hendo : imageEnd other.imageBase (s.desc other.imageId).imageSize =
      other.imageBase + (s.desc other.imageId).imageSize - 1 := Nat.mod_eq_of_lt (by omega)
  have hendi : imageEnd info.imageBase size = info.imageBase + size - 1 :=
    Nat.mod_eq_of_lt (by omega)
  have h := hclear other.imageId hloaded (image_ne ho) hne other ho
  omega

/-! ## One call -/

section Step
variable {size k n src : ℕ} {ids : List ℕ}

theorem LoadedInv.copied (h : LoadedInv P t s) (himg : P.image info.imageId = some info)
    (block : Block P s info size k n) (hids : fwuAddLoadedId s.loadedIds info.imageId = some ids) :
    LoadedInv P (t ++ [(c, .copied info.imageId (info.imageBase + k) n)])
      (blockCopied s info size k n src ids) := by
  have hold := h.image _ _ himg
  obtain ⟨hdistinct, hmem⟩ := add_some (image_ne himg) hids h.distinct
  have hdesc : ∀ j, j ≠ info.imageId →
      (blockCopied s info size k n src ids).desc j = s.desc j :=
    fun j hj => Function.update_of_ne hj ..
  have hself : (blockCopied s info size k n src ids).desc info.imageId =
      ⟨if n = size - k then .copied else .copying, k + n, size⟩ := Function.update_self ..
  have hsize : 0 < size ∧ size ≤ info.imageMaxSize := by
    rcases block.start with ⟨-, -, hpos, hmax, -⟩ | ⟨hstate, -, rfl, -⟩
    · exact ⟨hpos, hmax⟩
    · obtain ⟨-, -, -, hpos, hmax, -⟩ := hold.whole (hold.part (Or.inl hstate))
      exact ⟨hpos, hmax⟩
  have hle := block.le
  refine h.about hdesc ?_ ?_ hdistinct ?_ ?_
  · intro j hj
    exact decide_eq_false (Ne.symm hj)
  · intro j hne hj
    rw [show (blockCopied s info size k n src ids).loadedIds = ids from rfl, hmem j hne]
    exact ⟨fun hm => hm.resolve_right hj, Or.inl⟩
  · intro info' himg'
    rw [himg, Option.some.injEq] at himg'
    subst himg'
    have hnot : (if n = size - k then ImageState.copied else .copying) ≠ .reset := by
      split <;> decide
    constructor
    · rw [hself]
      exact fun hr => absurd hr hnot
    · rw [hself]
      exact hle.trans hsize.2
    · intro hns
      exact absurd block.secure (by simp [hns])
    · intro _
      simp [copiedIn_snoc, Event.places, Event.isCopied]
    · intro _
      rw [hself]
      exact ⟨block.secure, (hmem _ (image_ne himg)).mpr (Or.inr rfl), hnot, hsize.1, hsize.2, hle⟩
  · intro j a b ha hb hj _ hcj
    rw [himg, Option.some.injEq] at ha
    subst ha
    have hbj := (image_some hb).2
    rw [Apart, hself, hbj, hdesc j hj]
    rcases block.start with ⟨-, -, hpos, hmax, hclear⟩ | ⟨hstate, -, rfl, -⟩
    · exact hclear.apart himg hpos hmax hb hj (h.image j b hb) hcj
    · have hapart := h.apart _ j info b himg hb (Ne.symm hj) (hold.part (Or.inl hstate)) hcj
      rwa [Apart, hbj] at hapart

theorem LoadedInv.restated (h : LoadedInv P t s) {x : Call × Event} {state : ImageState}
    (himg : P.image id = some info) (hplaces : ∀ j, x.2.places j = false)
    (hdesc : s'.desc = Function.update s.desc id { s.desc id with state := state })
    (hids : s'.loadedIds = s.loadedIds)
    (hstate : state ≠ .reset ∧ state ≠ .copying ∧ state ≠ .copied) : LoadedInv P (t ++ [x]) s' := by
  obtain ⟨-, rfl⟩ := image_some himg
  obtain ⟨c, e⟩ := x
  have hold := h.image _ _ himg
  have hother : ∀ j, j ≠ info.imageId → s'.desc j = s.desc j := by
    intro j hj
    rw [hdesc, Function.update_of_ne hj]
  have hself : s'.desc info.imageId = { s.desc info.imageId with state := state } := by
    rw [hdesc, Function.update_self]
  have hcopied : copiedIn info.imageId (t ++ [(c, e)]) = copiedIn info.imageId t := by
    rw [copiedIn_snoc, hplaces]
    rfl
  refine h.about hother (fun j _ => hplaces j) (fun j _ _ => by rw [hids]) (hids ▸ h.distinct) ?_
    (h.apart_kept hother fun hc => ⟨hcopied ▸ hc, by rw [hself]⟩)
  intro info' himg'
  rw [himg, Option.some.injEq] at himg'
  subst himg'
  constructor
  · rw [hself]
    exact fun hr => absurd hr hstate.1
  · rw [hself]
    exact hold.within
  · rw [hself]
    exact hold.nonSecure
  · rw [hself]
    exact fun hp => absurd hp (not_or.mpr hstate.2)
  · rw [hcopied, hself, hids]
    intro hc
    obtain ⟨h1, h2, -, h4⟩ := hold.whole hc
    exact ⟨h1, h2, hstate.1, h4⟩

theorem LoadedInv.removed (h : LoadedInv P t s) {d : ImageDesc}
    (himg : P.image id = some info) (hplaces : ∀ j, j ≠ id → e.places j = false)
    (hdesc : s'.desc = Function.update s.desc id d)
    (hids : Distinct s'.loadedIds ∧
      ∀ j, j ≠ INVALID_IMAGE_ID → (j ∈ s'.loadedIds ↔ j ∈ s.loadedIds ∧ j ≠ id))
    (hd : d.state = .reset ∧ d.copiedSize ≤ (s.desc id).copiedSize)
    (hcopied : copiedIn id (t ++ [(c, e)]) = false) : LoadedInv P (t ++ [(c, e)]) s' := by
  obtain ⟨-, rfl⟩ := image_some himg
  have hold := h.image _ _ himg
  have hother : ∀ j, j ≠ info.imageId → s'.desc j = s.desc j := by
    intro j hj
    rw [hdesc, Function.update_of_ne hj]
  have hself : s'.desc info.imageId = d := by rw [hdesc, Function.update_self]
  refine h.about hother hplaces ?_ hids.1 ?_
    (h.apart_kept hother fun hc => absurd hc (by simp [hcopied]))
  · intro j hne hj
    rw [hids.2 j hne]
    exact ⟨And.left, fun hm => ⟨hm, hj⟩⟩
  · intro info' himg'
    rw [himg, Option.some.injEq] at himg'
    subst himg'
    constructor
    · intro _ hm
      exact ((hids.2 _ (image_ne himg)).mp hm).2 rfl
    · rw [hself]
      exact hd.2.trans hold.within
    · intro hns
      have h0 := hold.nonSecure hns
      rw [hself]
      omega
    · rw [hself, hd.1]
      exact fun hp => absurd hp (by simp)
    · exact fun hc => absurd hc (by simp [hcopied])

theorem LoadedInv.acceptedInPlace (h : LoadedInv P t s) {bytes : List UInt8}
    (himg : P.image id = some info) (state : (s.desc id).state = .reset)
    (hids : fwuAddLoadedId s.loadedIds id = some ids) :
    LoadedInv P (t ++ [(c, .accepted id bytes)])
      ({ s with loadedIds := ids }.setDesc id ⟨.authenticated, (s.desc id).copiedSize, size⟩) := by
  obtain ⟨-, rfl⟩ := image_some himg
  have hold := h.image _ _ himg
  obtain ⟨hdistinct, hmem⟩ := add_some (image_ne himg) hids h.distinct
  have hcopied : copiedIn info.imageId (t ++ [(c, .accepted info.imageId bytes)]) = false := by
    rw [copiedIn_snoc]
    exact hold.not_copied state
  have hother := fun (j : ℕ) (hj : j ≠ info.imageId) => setDesc_other hj { s with loadedIds := ids }
    ⟨.authenticated, (s.desc info.imageId).copiedSize, size⟩
  refine h.about hother (fun j _ => rfl) ?_ hdistinct ?_
    (h.apart_kept hother fun hc => absurd hc (by simp [hcopied]))
  · intro j hne hj
    rw [setDesc_loadedIds, hmem j hne]
    exact ⟨fun hm => hm.resolve_right hj, Or.inl⟩
  · intro info' himg'
    rw [himg, Option.some.injEq] at himg'
    subst himg'
    constructor
    · rw [setDesc_self]
      exact fun hr => absurd hr (by simp)
    · rw [setDesc_self]
      exact hold.within
    · rw [setDesc_self]
      exact hold.nonSecure
    · rw [setDesc_self]
      exact fun hp => absurd hp (by simp)
    · exact fun hc => absurd hc (by simp [hcopied])

end Step

theorem add_without {ids mid : List ℕ} (hid : id ≠ INVALID_IMAGE_ID)
    (h : fwuAddLoadedId ids id = some mid) (hd : Distinct ids) :
    Distinct (without mid id) ∧
    ∀ j, j ≠ INVALID_IMAGE_ID → (j ∈ without mid id ↔ j ∈ ids ∧ j ≠ id) := by
  obtain ⟨hdm, hmem⟩ := add_some hid h hd
  obtain ⟨hdw, hw⟩ := without_mem hid hdm
  refine ⟨hdw, fun j hj => ?_⟩
  rw [hw j hj, hmem j hj]
  tauto

theorem LoadedInv.step (h : LoadedInv P t s) (hs : Change P s c s' e) :
    LoadedInv P (t ++ [(c, e)]) s' := by
  cases hs with
  | unchanged he =>
    refine h.silent ?_ rfl rfl
    rcases he with rfl | ⟨ret, rfl⟩ <;> exact fun j => rfl
  | @sized _ id info d ids ret himg hstate hd hids =>
    have hold := h.image _ _ himg
    rw [← (image_some himg).2] at hstate
    have hnot := hold.unloaded hstate
    have hcopied := hold.not_copied hstate
    rw [(image_some himg).2] at hnot hcopied
    refine h.removed himg (fun j _ => rfl) rfl ?_ hd (by rw [copiedIn_snoc]; exact hcopied)
    rcases hids with rfl | ⟨mid, hmid, rfl⟩
    · exact ⟨h.distinct, fun j _ => ⟨fun hm => ⟨hm, fun heq => hnot (heq ▸ hm)⟩, And.left⟩⟩
    · exact add_without (image_ne himg) hmid h.distinct
  | copied _ himg block hids => exact h.copied himg block hids
  | acceptedCopy himg => exact h.restated himg (fun j => rfl) rfl rfl (by decide)
  | acceptedInPlace himg hstate _ hids => exact h.acceptedInPlace himg hstate hids
  | @rejectedCopy _ id info _ himg _ _ =>
    exact h.removed himg (fun j hj => decide_eq_false (Ne.symm hj)) rfl
      (without_mem (image_ne himg) h.distinct) ⟨rfl, le_rfl⟩
      (by simp [copiedIn_snoc, Event.places, Event.isCopied])
  | @rejectedInPlace _ id size info ids himg hstate hids =>
    exact h.removed himg (fun j hj => decide_eq_false (Ne.symm hj)) rfl
      (add_without (image_ne himg) hids h.distinct) ⟨hstate, le_rfl⟩
      (by simp [copiedIn_snoc, Event.places, Event.isCopied])
  | executed himg => exact h.restated himg (fun j => rfl) rfl rfl (by decide)
  | interrupted himg => exact h.restated himg (fun j => rfl) rfl rfl (by decide)
  | resumed himg => exact h.restated himg (fun j => rfl) rfl rfl (by decide)
  | done himg _ hids =>
    exact h.removed himg (fun j hj => decide_eq_false (Ne.symm hj)) rfl
      (remove_some (image_ne himg) hids h.distinct) ⟨rfl, le_rfl⟩
      (by simp [copiedIn_snoc, Event.places, Event.isCopied])
  | reset _ himg _ hids _ =>
    exact h.removed himg (fun j hj => decide_eq_false (Ne.symm hj)) rfl
      (remove_some (image_ne himg) hids h.distinct) ⟨rfl, Nat.zero_le _⟩
      (by simp [copiedIn_snoc, Event.places, Event.isCopied])
  | outside => exact h.silent (fun j => rfl) rfl rfl

theorem LoadedInv.start (hs : Started P s₀) : LoadedInv P [] s₀ := by
  refine ⟨hs.loadedIds ▸ distinct_replicate _, ?_, fun i j a b _ _ _ hi => absurd hi (by simp [copiedIn, lastEvent])⟩
  intro id info himg
  obtain ⟨hmem, rfl⟩ := image_some himg
  obtain ⟨hcopied, -, hstate⟩ := hs.desc info hmem
  constructor
  · intro _ hin
    rw [hs.loadedIds] at hin
    exact image_ne himg (List.eq_of_mem_replicate hin)
  · rw [hcopied]
    exact Nat.zero_le _
  · exact fun _ => hcopied
  · rcases hstate with hr | ⟨-, hx⟩
    · rw [hr]
      exact fun hp => absurd hp (by decide)
    · rw [hx]
      exact fun hp => absurd hp (by decide)
  · exact fun hc => absurd hc (by simp [copiedIn, lastEvent])

/-! ## All calls -/

def AnyCall (_ : Fwu) (_ : Call) : Prop := True

theorem loadedInv {cond : Fwu → Call → Prop} (hs : Started P s₀)
    (hrun : Traced (Performs (fwuSmcHandler P) cond) s₀ t s) : LoadedInv P t s :=
  hrun.invariant (LoadedInv.start hs) fun _ _ _ _ h hstep => h.step (fwuSmcHandler_change hstep.2)

def Event.Writes : Event → ℕ → Prop
  | .copied _ dest n, a => dest ≤ a ∧ a < dest + n
  | .reset _ base n, a => base ≤ a ∧ a < base + n
  | _, _ => False

theorem LoadedInv.writes {a : ℕ} (h : LoadedInv P t s) (hs : Change P s c s' e)
    (hc : c.target = some id) (ha : e.Writes a ∨ s'.memory a ≠ s.memory a) :
    ∃ info, P.image id = some info ∧ info.imageBase ≤ a ∧
      a < info.imageBase + info.imageMaxSize := by
  cases hs with
  | unchanged he => rcases he with rfl | ⟨ret, rfl⟩ <;> simp [Event.Writes] at ha
  | @copied _ info size k n src ids htarget himg block hids =>
    rw [hc, Option.some.injEq] at htarget
    subst htarget
    have hold := h.image _ _ himg
    have hmax : k + n ≤ info.imageMaxSize := by
      rcases block.start with ⟨-, -, -, hmax, -⟩ | ⟨hstate, -, hsize, -⟩
      · exact block.le.trans hmax
      · have hwhole := hold.whole (hold.part (Or.inl hstate))
        exact block.le.trans (hsize ▸ hwhole.2.2.2.2.1)
    have hin : info.imageBase + k ≤ a ∧ a < info.imageBase + k + n := by
      rcases ha with ha | ha
      · exact ha
      · by_contra hout
        refine ha (blit_outside ?_)
        omega
    exact ⟨info, himg, by omega, by omega⟩
  | @reset _ _ info ids htarget himg _ _ _ =>
    rw [hc, Option.some.injEq] at htarget
    subst htarget
    have hwithin := (h.image _ _ himg).within
    rw [(image_some himg).2] at hwithin
    simp only [setDesc_memory] at ha
    have hin : info.imageBase ≤ a ∧ a < info.imageBase + (s.desc id).copiedSize := by
      rcases ha with ha | ha
      · exact ha
      · by_contra hout
        refine ha (blit_outside ?_)
        omega
    exact ⟨info, himg, by omega, by omega⟩
  | rejectedCopy htarget => exact absurd hc (by simp [htarget])
  | outside => cases hc
  | _ => simp [Event.Writes] at ha

/-- **Firmware update images keep to their memory.** In every sequence of calls, what IMAGE_COPY and
IMAGE_RESET write for an image is in the image's memory, and two recorded images that were copied
occupy disjoint ranges. -/
theorem loaded_apart (hs : Started P s₀)
    (hrun : Traced (Performs (fwuSmcHandler P) AnyCall) s₀ t s) :
    (∀ c e s' id a, fwuSmcHandler P s c = some (s', e) → c.target = some id →
      e.Writes a ∨ s'.memory a ≠ s.memory a →
      ∃ info, P.image id = some info ∧ info.imageBase ≤ a ∧
        a < info.imageBase + info.imageMaxSize) ∧
    (∀ i ∈ s.loadedIds, ∀ j ∈ s.loadedIds, ∀ a b, P.image i = some a → P.image j = some b → i ≠ j →
      copiedIn i t = true → copiedIn j t = true → Apart s a b) := by
  have hinv := loadedInv hs hrun
  refine ⟨fun c e s' id a hstep hc ha => hinv.writes (fwuSmcHandler_change hstep) hc ha, ?_⟩
  intro i _ j _ a b ha hb hij hi hj
  exact hinv.apart i j a b ha hb hij hi hj

/-- Two images for the secure world and three for the normal world. The descriptors of the latter
have no address. -/
def fiveImages : Platform where
  images := [⟨1, 0x1000, 16, true, true⟩, ⟨2, 0x2000, 16, true, true⟩, ⟨3, 0, 0, false, true⟩,
    ⟨4, 0, 0, false, true⟩, ⟨5, 0, 0, false, true⟩]
  memCheck _ _ _ := true
  maxSimultaneousImages := 10
  id_ne := by decide
  window_le := by decide

/-- The normal world's image 3 runs, before its first call. -/
def untouched (memory : Bytes) : Fwu :=
  ⟨memory, fun id => ⟨if id = 3 then .executed else .reset, 0, 0⟩, List.replicate 10 INVALID_IMAGE_ID, INVALID_IMAGE_ID⟩

theorem untouched_started (memory : Bytes) : Started fiveImages (untouched memory) := by
  refine ⟨rfl, rfl, ?_⟩
  intro i hi
  fin_cases hi
  · exact ⟨rfl, rfl, Or.inl rfl⟩
  · exact ⟨rfl, rfl, Or.inl rfl⟩
  · exact ⟨rfl, rfl, Or.inr ⟨rfl, rfl⟩⟩
  · exact ⟨rfl, rfl, Or.inl rfl⟩
  · exact ⟨rfl, rfl, Or.inl rfl⟩

instance (s : Fwu) (c : Call) : Decidable (AnyCall s c) := .isTrue trivial

theorem loaded_apart_secure : ∃ t s,
    Traced (Performs (fwuSmcHandler fiveImages) AnyCall) (untouched fun _ => 7) t s ∧
    (s.desc 1).imageSize = 3 ∧ (s.desc 2).imageSize = 5 ∧
    Apart s ⟨1, 0x1000, 16, true, true⟩ ⟨2, 0x2000, 16, true, true⟩ := by
  obtain ⟨t, s, hrun, hq⟩ := @execute_traced _ _ _ (fwuSmcHandler fiveImages) AnyCall _
    (fun t s => decide (1 ∈ s.loadedIds ∧ 2 ∈ s.loadedIds ∧ copiedIn 1 t = true ∧
      copiedIn 2 t = true ∧ (s.desc 1).imageSize = 3 ∧ (s.desc 2).imageSize = 5))
    (untouched fun _ => 7)
    [.imageCopy false 1 0x100 2 3 0, .imageCopy false 2 0x100 9 5 0, .imageCopy false 1 0x100 2 3 0]
    (by decide +kernel)
  obtain ⟨h1, h2, hc1, hc2, hs1, hs2⟩ := of_decide_eq_true hq
  exact ⟨t, s, hrun, hs1, hs2, (loaded_apart (untouched_started _) hrun).2 1 h1 2 h2 _ _ rfl rfl
    (by decide) hc1 hc2⟩

/-- Two images of the normal world are authenticated where they are, and recorded with the same
address. -/
theorem in_place_overlap : ∃ t s,
    Traced (Performs (fwuSmcHandler fiveImages) AnyCall) (untouched fun _ => 7) t s ∧
    4 ∈ s.loadedIds ∧ 5 ∈ s.loadedIds ∧ 0 < (s.desc 4).imageSize ∧ 0 < (s.desc 5).imageSize ∧
    ¬ Apart s ⟨4, 0, 0, false, true⟩ ⟨5, 0, 0, false, true⟩ := by
  obtain ⟨t, s, hrun, hq⟩ := @execute_traced _ _ _ (fwuSmcHandler fiveImages) AnyCall _
    (fun _ s => decide (4 ∈ s.loadedIds ∧ 5 ∈ s.loadedIds ∧ (s.desc 4).imageSize = 8 ∧
      (s.desc 5).imageSize = 8))
    (untouched fun _ => 7) [.imageAuth false 4 0x100 8 0 0, .imageAuth false 5 0x200 8 0 0]
    (by decide +kernel)
  obtain ⟨h4, h5, hs4, hs5⟩ := of_decide_eq_true hq
  exact ⟨t, s, hrun, h4, h5, by omega, by omega, by simp only [Apart, hs4, hs5]; omega⟩

end TrustedFirmware.Bl1
