import TrustedFirmware.Spmc.Validation
import TrustedFirmware.Spmc.DatastoreSpec

/-! # What the checks establish

Each check is put next to the property of the descriptor that it decides: the header of
a first fragment, the layout of a complete object, and the ranges of two objects. -/
namespace TrustedFirmware.Spmc
open ByteMemory RecordTiling
set_option autoImplicit false

theorem invalid_ne_zero : FFA_ERROR_INVALID_PARAMETER ≠ 0 := by decide

theorem ite_invalid_eq_zero {p : Prop} [Decidable p] {x : Int} :
    (if p then FFA_ERROR_INVALID_PARAMETER else x) = 0 ↔ ¬ p ∧ x = 0 := by
  by_cases hp : p
  · rw [if_pos hp]
    exact iff_of_false invalid_ne_zero fun h => h.1 hp
  · rw [if_neg hp]
    exact ⟨fun h => ⟨hp, h⟩, fun h => h.2⟩

variable {P : Platform} {d : Bytes} {v c : ℕ}

/-! ## The header -/

def firstEmad (d : Bytes) (v : ℕ) : ℕ := if v = makeFfaVersion 1 0 then 32 else Mtd.emadOffset d

def emadStride (d : Bytes) (v : ℕ) : ℕ := if v = makeFfaVersion 1 0 then 16 else Mtd.emadSize d

/-- A header that passes `spmc_validate_mtd_start()`. -/
structure StartOk (d : Bytes) (v fragmentLength totalLength : ℕ) : Prop where
  known : v = makeFfaVersion 1 0 ∨ spmcCompatibleVersion v 1 1 = true
  header : (if v = makeFfaVersion 1 0 then 32 else 48) ≤ fragmentLength
  emads : Mtd.emadCount d ≠ 0
  first_aligned : firstEmad d v % 16 = 0
  first_le : (if v = makeFfaVersion 1 0 then 32 else 48) ≤ firstEmad d v
  stride_ge : 16 ≤ emadStride d v
  stride_aligned : emadStride d v % 16 = 0
  /-- In version 1.0 the check leaves no room for the composite descriptor. -/
  inside : firstEmad d v + Mtd.emadCount d * emadStride d v +
    (if v = makeFfaVersion 1 0 then 0 else 16) ≤ totalLength

theorem validateMtdStart_eq_zero {frag total : ℕ} :
    spmcValidateMtdStart d v frag total = 0 ↔ StartOk d v frag total := by
  by_cases hv : v = makeFfaVersion 1 0
  · simp only [spmcValidateMtdStart, hv, if_true, ite_invalid_eq_zero, not_true_eq_false, false_and,
      not_false_eq_true, true_and, and_true]
    constructor
    · rintro ⟨h1, h2, h3⟩
      refine ⟨Or.inl rfl, by simpa using h1, h2, by simp [firstEmad], by simp [firstEmad],
        by simp [emadStride], by simp [emadStride], ?_⟩
      simp only [firstEmad, emadStride, if_true]
      omega
    · rintro ⟨_, h2, h3, _, _, _, _, h8⟩
      simp only [firstEmad, emadStride, if_true] at h2 h8
      exact ⟨by omega, h3, by omega⟩
  · simp only [spmcValidateMtdStart, hv, if_false, ite_invalid_eq_zero, not_false_eq_true, true_and,
      and_true, isAligned, beq_eq_false_iff_ne, ne_eq, not_not, Bool.not_eq_false]
    constructor
    · rintro ⟨h1, h2, h3, h4, h5, h6, h7, h8⟩
      refine ⟨Or.inr h1, by rw [if_neg hv]; omega, h3, by rw [firstEmad, if_neg hv]; exact h4,
        by rw [firstEmad, if_neg hv, if_neg hv]; omega, by rw [emadStride, if_neg hv]; omega,
        by rw [emadStride, if_neg hv]; exact h7, ?_⟩
      rw [firstEmad, emadStride, if_neg hv, if_neg hv, if_neg hv]
      omega
    · rintro ⟨h1, h2, h3, h4, h5, h6, h7, h8⟩
      rw [if_neg hv] at h2 h5 h8
      rw [firstEmad, if_neg hv] at h4 h5 h8
      rw [emadStride, if_neg hv] at h6 h7 h8
      exact ⟨h1.resolve_left hv, by omega, h3, h4, by omega, by omega, h7, by omega⟩

theorem StartOk.congr {d' : Bytes} {f f' t : ℕ} (h : StartOk d v f t) (hf : f ≤ f')
    (hc : Mtd.emadCount d' = Mtd.emadCount d) (h1 : firstEmad d' v = firstEmad d v)
    (h2 : emadStride d' v = emadStride d v) : StartOk d' v f' t := by
  refine ⟨h.known, Nat.le_trans h.header hf, ?_, ?_, ?_, ?_, ?_, ?_⟩
  · rw [hc]; exact h.emads
  · rw [h1]; exact h.first_aligned
  · rw [h1]; exact h.first_le
  · rw [h2]; exact h.stride_ge
  · rw [h2]; exact h.stride_aligned
  · rw [h1, h2, hc]; exact h.inside

/-! ## Endpoint descriptors -/

theorem getEmad_of_aligned {d : Bytes} {v i : ℕ} (hi : i < Mtd.emadCount d)
    (ha : v = makeFfaVersion 1 0 ∨ Mtd.emadOffset d % 16 = 0)
    (hb : i * emadStride d v ≤ UINT32_MAX) :
    spmcShmemObjGetEmad d i v = some (firstEmad d v + emadStride d v * i, emadStride d v) := by
  simp only [spmcShmemObjGetEmad, emadAt, firstEmad, emadStride] at hb ⊢
  rw [if_pos hi]
  by_cases hv : v = makeFfaVersion 1 0
  · rw [if_pos hv] at hb
    rw [if_pos hv, if_pos hb, if_pos hv, if_pos hv]
  · rw [if_neg hv] at hb
    have ha' := ha.resolve_left hv
    rw [if_neg hv, if_pos (by simp [isAligned, ha']), if_pos hb, if_neg hv, if_neg hv]

theorem StartOk.aligned {f t : ℕ} (h : StartOk d v f t) :
    v = makeFfaVersion 1 0 ∨ Mtd.emadOffset d % 16 = 0 := by
  by_cases hv : v = makeFfaVersion 1 0
  · exact Or.inl hv
  · have ha := h.first_aligned
    rw [firstEmad, if_neg hv] at ha
    exact Or.inr ha

theorem StartOk.getEmad_zero {f t : ℕ} (h : StartOk d v f t) :
    spmcShmemObjGetEmad d 0 v = some (firstEmad d v, emadStride d v) := by
  have he := @getEmad_of_aligned d v 0 (Nat.pos_of_ne_zero h.emads) h.aligned (by simp)
  rw [Nat.mul_zero, Nat.add_zero] at he
  exact he

/-! ## Complete objects -/

def compOffset (d : Bytes) (v : ℕ) : ℕ := Emad.compMrdOffset d (firstEmad d v)

def emads (d : Bytes) (v : ℕ) : List ℕ :=
  emadOffsets (firstEmad d v) (emadStride d v) (Mtd.emadCount d)

def endpoints (d : Bytes) (v : ℕ) : List ℕ := (emads d v).map (Emad.endpointId d)

def regionRanges (d : Bytes) (v : ℕ) : List (ℕ × ℕ) := CompMrd.ranges d (compOffset d v)

/-- A descriptor that passes `spmc_shmem_check_obj()`. -/
structure Layout (P : Platform) (v : ℕ) (d : Bytes) (descSize : ℕ) : Prop where
  start : StartOk d v descSize descSize
  known : ∀ id ∈ endpoints d v, ffaIsSecureWorldId id = true → id ∈ P.spIds
  distinct : (endpoints d v).Nodup
  offsets : ∀ e ∈ emads d v, Emad.compMrdOffset d e = compOffset d v
  behind : firstEmad d v + Mtd.emadCount d * emadStride d v ≤ compOffset d v
  comp_aligned : compOffset d v % 16 = 0
  size_eq : compOffset d v + 16 + CompMrd.addressRangeCount d (compOffset d v) * 16 = descSize
  pages : CompMrd.totalPageCount d (compOffset d v) = ((regionRanges d v).map Prod.snd).sum

theorem checkEmads_eq_zero {es : List ℕ} :
    checkEmads P d c es = 0 ↔
      (∀ id ∈ es.map (Emad.endpointId d), ffaIsSecureWorldId id = true → id ∈ P.spIds) ∧
      (es.map (Emad.endpointId d)).Nodup ∧ ∀ e ∈ es, Emad.compMrdOffset d e = c := by
  induction es with
  | nil => simp [checkEmads]
  | cons e rest ih =>
    have hany : (rest.any fun other => Emad.endpointId d e == Emad.endpointId d other) = true ↔
        Emad.endpointId d e ∈ rest.map (Emad.endpointId d) := by
      rw [List.any_eq_true, List.mem_map]
      constructor
      · rintro ⟨x, hx, he⟩
        exact ⟨x, hx, (beq_iff_eq.mp he).symm⟩
      · rintro ⟨x, hx, he⟩
        exact ⟨x, hx, beq_iff_eq.mpr he.symm⟩
    have hctx : (ffaIsSecureWorldId (Emad.endpointId d e) = true ∧
        spmcGetSpCtx P (Emad.endpointId d e) = false) ↔
        ¬ (ffaIsSecureWorldId (Emad.endpointId d e) = true → Emad.endpointId d e ∈ P.spIds) := by
      rw [spmcGetSpCtx, ← Bool.not_eq_true, List.contains_iff_mem, Classical.not_imp]
    simp only [checkEmads, ite_invalid_eq_zero, hctx, hany, ih, List.map_cons, List.nodup_cons,
      List.forall_mem_cons, not_not]
    constructor
    · rintro ⟨h1, h2, h3, h4, h5, h6⟩
      exact ⟨⟨h1, h4⟩, ⟨h3, h5⟩, h2.symm, h6⟩
    · rintro ⟨⟨h1, h4⟩, ⟨h3, h5⟩, h2, h6⟩
      exact ⟨h1, h2.symm, h3, h4, h5, h6⟩

theorem sum_pages (d : Bytes) (c : ℕ) :
    ((CompMrd.ranges d c).map Prod.snd).sum =
      ((List.range (CompMrd.addressRangeCount d c)).map (CompMrd.pageCount d c)).sum := by
  rw [CompMrd.ranges, List.map_map]
  rfl

theorem checkCompMrd_eq_zero {size header : ℕ} :
    checkCompMrd d size c header = 0 ↔
      header ≤ c ∧ c % 16 = 0 ∧ c + 16 + CompMrd.addressRangeCount d c * 16 = size ∧
        CompMrd.totalPageCount d c = ((CompMrd.ranges d c).map Prod.snd).sum := by
  simp only [checkCompMrd, ite_invalid_eq_zero, isAligned, beq_eq_false_iff_ne, ne_eq, not_not,
    and_true]
  rw [sum_pages]
  constructor
  · rintro ⟨h1, h2, h3, h4, h5, h6, h7⟩
    rw [← h5] at h6 h7
    exact ⟨by omega, h2, h6, h7⟩
  · rintro ⟨h1, h2, h3, h4⟩
    have hc : (size - c - 16) / 16 = CompMrd.addressRangeCount d c := by omega
    rw [hc]
    exact ⟨by omega, h2, by omega, by omega, rfl, h3, h4⟩

theorem checkObj_eq_zero {o : Obj} :
    spmcShmemCheckObj P o v = some 0 ↔
      o.descFilled = o.descSize ∧ Layout P v o.desc o.descSize := by
  rw [spmcShmemCheckObj]
  by_cases hf : o.descFilled = o.descSize
  · rw [if_neg (not_not.mpr hf), hf]
    by_cases hs : StartOk o.desc v o.descSize o.descSize
    · rw [if_neg (not_not.mpr (validateMtdStart_eq_zero.mpr hs)), hs.getEmad_zero]
      have hret : ∀ x y : Int, (if x ≠ 0 then some x else some y) = some 0 ↔ x = 0 ∧ y = 0 := by
        intro x y
        by_cases hx : x = 0
        · simp [hx]
        · simp [hx]
      simp only [hret, checkEmads_eq_zero, checkCompMrd_eq_zero]
      constructor
      · rintro ⟨⟨h1, h2, h3⟩, h4, h5, h6, h7⟩
        exact ⟨trivial, hs, h1, h2, h3, h4, h5, h6, h7⟩
      · rintro ⟨_, _, h1, h2, h3, h4, h5, h6, h7⟩
        exact ⟨⟨h1, h2, h3⟩, h4, h5, h6, h7⟩
    · rw [if_pos fun h => hs (validateMtdStart_eq_zero.mp h)]
      exact iff_of_false (by simp) fun h => hs h.2.start
  · rw [if_pos hf]
    exact iff_of_false (by simp) fun h => hf h.1

theorem Layout.getCompMrd {o : Obj} (h : Layout P v o.desc o.descSize)
    (hf : o.descFilled = o.descSize) :
    spmcShmemObjGetCompMrd o v = some (some (compOffset o.desc v)) := by
  have ha := h.comp_aligned
  have hs := h.size_eq
  rw [spmcShmemObjGetCompMrd, h.start.getEmad_zero]
  change (if isAligned (compOffset o.desc v) 8 = false then _ else _) = _
  rw [if_neg (by simp only [isAligned, beq_eq_false_iff_ne, ne_eq, not_not]; omega),
    if_neg (by rw [hf]; change ¬ (_ ∨ compOffset o.desc v > _); omega)]
  rfl

/-! ## One layout for the versions from 1.1 on -/

theorem v11_ne : makeFfaVersion 1 1 ≠ makeFfaVersion 1 0 := by decide

theorem compiled_ne : FFA_VERSION_COMPILED ≠ makeFfaVersion 1 0 := by decide

theorem firstEmad_of_ne (d : Bytes) (h : v ≠ makeFfaVersion 1 0) :
    firstEmad d v = Mtd.emadOffset d := if_neg h

theorem emadStride_of_ne (d : Bytes) (h : v ≠ makeFfaVersion 1 0) :
    emadStride d v = Mtd.emadSize d := if_neg h

theorem Layout.other_version {v' : ℕ} {n : ℕ} (h : Layout P v d n) (hv : v ≠ makeFfaVersion 1 0)
    (hv' : v' ≠ makeFfaVersion 1 0) (hk : spmcCompatibleVersion v' 1 1 = true) : Layout P v' d n := by
  have h1 : firstEmad d v' = firstEmad d v := by rw [firstEmad_of_ne d hv, firstEmad_of_ne d hv']
  have h2 : emadStride d v' = emadStride d v := by
    rw [emadStride_of_ne d hv, emadStride_of_ne d hv']
  have hc : compOffset d v' = compOffset d v := by rw [compOffset, h1]; rfl
  have he : emads d v' = emads d v := by rw [emads, h1, h2]; rfl
  have hp : endpoints d v' = endpoints d v := by rw [endpoints, he]; rfl
  have hr : regionRanges d v' = regionRanges d v := by rw [regionRanges, hc]; rfl
  have hs := h.start
  refine ⟨⟨Or.inr hk, ?_, hs.emads, ?_, ?_, ?_, ?_, ?_⟩, ?_, ?_, ?_, ?_, ?_, ?_, ?_⟩
  · rw [if_neg hv']
    have hh := hs.header
    rw [if_neg hv] at hh
    exact hh
  · rw [h1]; exact hs.first_aligned
  · rw [h1, if_neg hv']
    have hh := hs.first_le
    rw [if_neg hv] at hh
    exact hh
  · rw [h2]; exact hs.stride_ge
  · rw [h2]; exact hs.stride_aligned
  · rw [h1, h2, if_neg hv']
    have hh := hs.inside
    rw [if_neg hv] at hh
    exact hh
  · rw [hp]; exact h.known
  · rw [hp]; exact h.distinct
  · rw [he, hc]; exact h.offsets
  · rw [h1, h2, hc]; exact h.behind
  · rw [hc]; exact h.comp_aligned
  · rw [hc]; exact h.size_eq
  · rw [hc, hr]; exact h.pages

/-! ## Regions of two objects -/

/-- The ranges neither wrap nor meet. -/
def Apart (r1 r2 : ℕ × ℕ) : Prop :=
  r1.1 + r1.2 * 4096 ≤ UINT64_MAX ∧ r2.1 + r2.2 * 4096 ≤ UINT64_MAX ∧
    (r2.1 + r2.2 * 4096 ≤ r1.1 ∨ r1.1 + r1.2 * 4096 ≤ r2.1)

theorem Apart.symm {r1 r2 : ℕ × ℕ} (h : Apart r1 r2) : Apart r2 r1 := ⟨h.2.1, h.1, h.2.2.symm⟩

theorem checkU64Overflow_eq_false {a n : ℕ} (hn : n ≤ UINT64_MAX) :
    checkU64Overflow a n = false ↔ a + n ≤ UINT64_MAX := by
  rw [checkU64Overflow, decide_eq_false_iff_not]
  omega

theorem overlapping_eq_false {same : Bool} {R1 R2 : List (ℕ × ℕ)}
    (hp1 : ∀ r ∈ R1, r.2 < 2 ^ 32) (hp2 : ∀ r ∈ R2, r.2 < 2 ^ 32)
    (h : overlappingMemoryRegions same R1 R2 = false) : ∀ r1 ∈ R1, ∀ r2 ∈ R2, Apart r1 r2 := by
  have hmax : ∀ k, k < 2 ^ 32 → k * 4096 ≤ UINT64_MAX := by
    intro k hk
    rw [UINT64_MAX]
    omega
  intro r1 h1 r2 h2
  rw [overlappingMemoryRegions, Bool.or_eq_false_iff] at h
  have hr := List.any_eq_false.mp h.2 r1 h1
  rw [Bool.not_eq_true, Bool.or_eq_false_iff] at hr
  have hc := List.any_eq_false.mp hr.2 r2 h2
  rw [rangesClash, Bool.not_eq_true, Bool.or_eq_false_iff] at hc
  refine ⟨(checkU64Overflow_eq_false (hmax _ (hp1 r1 h1))).mp hr.1,
    (checkU64Overflow_eq_false (hmax _ (hp2 r2 h2))).mp hc.1, ?_⟩
  have hd := hc.2
  rw [Bool.not_eq_false', Bool.or_eq_true, decide_eq_true_iff, decide_eq_true_iff] at hd
  exact hd

theorem pages_lt : ∀ r ∈ CompMrd.ranges d c, r.2 < 2 ^ 32 := by
  intro r hr
  obtain ⟨i, _, rfl⟩ := List.mem_map.mp hr
  have hl := load_lt d (c + 16 + 16 * i + 8) 4
  norm_num at hl
  exact hl

theorem checkInflight_eq_zero {p : ℕ} {o : Obj} {xs : List (ℕ × Obj)}
    (h : checkInflight p o c xs = some 0) :
    ∀ x ∈ xs, Mtd.handle o.desc ≠ Mtd.handle x.2.desc → x.2.descSize = x.2.descFilled →
      ∃ c', spmcShmemObjGetCompMrd x.2 FFA_VERSION_COMPILED = some (some c') ∧
        overlappingMemoryRegions (p + c == x.1 + c') (CompMrd.ranges o.desc c)
          (CompMrd.ranges x.2.desc c') = false := by
  induction xs with
  | nil => exact fun x hx => absurd hx List.not_mem_nil
  | cons y ys ih =>
    obtain ⟨q, o'⟩ := y
    rw [checkInflight] at h
    by_cases hc : Mtd.handle o.desc ≠ Mtd.handle o'.desc ∧ o'.descSize = o'.descFilled
    · rw [if_pos hc] at h
      cases hm : spmcShmemObjGetCompMrd o' FFA_VERSION_COMPILED with
      | none => rw [hm] at h; cases h
      | some m =>
        rw [hm] at h
        cases m with
        | none => exact absurd (Option.some.inj h) invalid_ne_zero
        | some c' =>
          simp only at h
          split at h
          · exact absurd (Option.some.inj h) invalid_ne_zero
          rename_i hov
          refine List.forall_mem_cons.mpr ⟨fun _ _ => ⟨c', hm, by simpa using hov⟩, ih h⟩
    · rw [if_neg hc] at h
      exact List.forall_mem_cons.mpr ⟨fun h1 h2 => absurd ⟨h1, h2⟩ hc, ih h⟩

end TrustedFirmware.Spmc
