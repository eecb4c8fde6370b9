import TrustedFirmware.Spmc.Retrieval
import TrustedFirmware.Spmc.ConversionSpec

/-! # What a response is filled with

A version 1.0 receiver gets a conversion made in a temporary object, which is gone again
when the receive buffer is filled. The hypervisor gets a header made for it, followed by the
composite descriptor of the stored object. Neither changes a stored descriptor. -/
namespace TrustedFirmware.Spmc
open ByteMemory RecordTiling
set_option autoImplicit false

variable {W : Write → Prop} {s s' : Datastore} {pre post L : List Obj} {o x : Obj} {rx : Bytes}
  {bufSize offset : ℕ}

/-! ## To version 1.0 -/

/-- Where entry `i` of the stored endpoint descriptors is. -/
def v11Emad (d : Bytes) (i : ℕ) : ℕ := Mtd.emadOffset d + Mtd.emadSize d * i

/-- The conversion to version 1.0 goes through. -/
def V10Fits (d : Bytes) (descSize outSize : ℕ) : Prop :=
  ArraysFit d (fun i => decide (v11Emad d i + 16 ≤ descSize)) 32 (v11Emad d (Mtd.emadCount d))
    descSize outSize

/-- The version 1.0 form of `d` as the conversion makes it in an object that held `x`. -/
def V10Made (d x y : Bytes) : Prop :=
  Arrays d (v11Emad d) 32 (v11Emad d (Mtd.emadCount d))
    (headerDesc x d 1 (Mtd.memoryRegionAttributes d)) y

theorem convertToV10_spec {p : ℕ} (h : Stored W s (L ++ [x])) (ho : s.obj p = o)
    (hroom : 32 + 16 * Mtd.emadCount o.desc ≤ x.descSize) :
    ∃ y s' b, spmcShmConvertMtdToV10 s (offsetOf L) p = (s', b) ∧ s.Kept s' ∧
      Stored W s' (L ++ [{ x with desc := y }]) ∧
      (b = true ↔ V10Fits o.desc o.descSize x.descSize) ∧
      (b = true → V10Made o.desc x.desc y) := by
  have hxobj : s.obj (offsetOf L) = x := h.obj_eq
  have h1 := @copyMtdHeader_spec W s L x o.desc 1 (Mtd.memoryRegionAttributes o.desc) h
    (by omega) (by omega)
  obtain ⟨y, s', b, he, hk, hs, hb, hc⟩ := @convertArrays_spec W _ L _ o.desc (v11Emad o.desc)
    (fun i => decide (v11Emad o.desc i + 16 ≤ o.descSize)) 32
    (v11Emad o.desc (Mtd.emadCount o.desc)) o.descSize h1 hroom
  refine ⟨y, s', b, ?_, (kept_copyMtdHeader s _ _ _ _).trans hk, hs, hb, hc⟩
  rw [← he, spmcShmConvertMtdToV10, ho, hxobj]
  rfl

theorem v10DescriptorSize_eq {d : Bytes} {n : ℕ} (h : spmcShmGetV10DescriptorSize d n ≠ 0) :
    spmcShmGetV10DescriptorSize d n = 32 + Mtd.emadCount d * 16 + 16 +
      CompMrd.addressRangeCount d (Emad.compMrdOffset d (Mtd.emadOffset d)) * 16 := by
  rw [spmcShmGetV10DescriptorSize] at h ⊢
  split at h
  · exact absurd rfl h
  · rename_i hin
    rw [if_neg hin]

theorem v10DescriptorSize_lt (d : Bytes) (n : ℕ) : spmcShmGetV10DescriptorSize d n < 2 ^ 64 := by
  by_cases h : spmcShmGetV10DescriptorSize d n = 0
  · rw [h]
    omega
  · have h1 : Mtd.emadCount d < 256 ^ 4 := load_lt d _ 4
    have h2 : CompMrd.addressRangeCount d (Emad.compMrdOffset d (Mtd.emadOffset d)) < 256 ^ 4 :=
      load_lt d _ 4
    rw [v10DescriptorSize_eq h]
    omega

/-- What `spmc_populate_ffa_v1_0_descriptor()` returns for the object `o`, whose
conversion is `y`. -/
inductive V10Response (s : Datastore) (o : Obj) (y rx : Bytes) (bufSize offset : ℕ) :
    Except Int Populated → Prop
  | outside (h : spmcShmGetV10DescriptorSize o.desc o.descSize = 0) :
      V10Response s o y rx bufSize offset (.error FFA_ERROR_INVALID_PARAMETER)
  | noMemory (h : ¬ Fits s (spmcShmGetV10DescriptorSize o.desc o.descSize)) :
      V10Response s o y rx bufSize offset (.error FFA_ERROR_NO_MEMORY)
  | unfit (h : ¬ V10Fits o.desc o.descSize (spmcShmGetV10DescriptorSize o.desc o.descSize)) :
      V10Response s o y rx bufSize offset (.error FFA_ERROR_INVALID_PARAMETER)
  | past (h : spmcShmGetV10DescriptorSize o.desc o.descSize ≤ offset) :
      V10Response s o y rx bufSize offset (.error FFA_ERROR_INVALID_PARAMETER)
  | made {n k : ℕ} (hn : n = spmcShmGetV10DescriptorSize o.desc o.descSize)
      (room : Fits s n) (fits : V10Fits o.desc o.descSize n)
      (conversion : V10Made o.desc (freshObj s n).desc y) (inside : offset < n)
      (hk : k = min (n - offset) bufSize) :
      V10Response s o y rx bufSize offset (.ok ⟨blit rx 0 (shift y offset) k, k, n⟩)

theorem populateV10_spec (h : Stored W s (pre ++ o :: post)) :
    ∃ y, ∀ rx bufSize offset, ∃ s' res,
      spmcPopulateFfaV10Descriptor s rx (offsetOf pre) bufSize offset = (s', res) ∧
      s.Kept s' ∧ Stored W s' (pre ++ o :: post) ∧ V10Response s o y rx bufSize offset res := by
  obtain ⟨n, hn⟩ : ∃ n, n = spmcShmGetV10DescriptorSize o.desc o.descSize := ⟨_, rfl⟩
  simp only [spmcPopulateFfaV10Descriptor, h.obj_eq, ← hn]
  by_cases hz : n = 0
  · simp only [if_pos hz]
    exact ⟨o.desc, fun _ _ _ =>
      ⟨s, _, rfl, Datastore.Kept.refl s, h, .outside (hn.symm.trans hz)⟩⟩
  simp only [if_neg hz]
  have hlt : n < 2 ^ 64 := by
    rw [hn]
    exact v10DescriptorSize_lt _ _
  have hsize : n = 32 + Mtd.emadCount o.desc * 16 + 16 +
      CompMrd.addressRangeCount o.desc (Emad.compMrdOffset o.desc (Mtd.emadOffset o.desc)) * 16 := by
    rw [hn] at hz ⊢
    exact v10DescriptorSize_eq hz
  cases ha : spmcShmemObjAlloc s n with
  | none =>
    refine ⟨o.desc, fun _ _ _ => ⟨s, _, rfl, Datastore.Kept.refl s, h, .noMemory ?_⟩⟩
    intro hf
    rw [← hn] at hf
    rw [alloc_of_fits h hf] at ha
    cases ha
  | some a =>
    obtain ⟨q, s1⟩ := a
    obtain ⟨hfits, rfl, rfl⟩ := alloc_some h hlt ha
    have h1 := h.alloc hfits fun hshort => absurd hshort (by omega)
    have ho : (allocated s n).obj (offsetOf pre) = o := by
      rw [List.append_assoc, List.cons_append] at h1
      exact h1.obj_eq
    obtain ⟨y, s2, b, he, hk, h2, hb, hm⟩ := convertToV10_spec h1 ho (by simp only [freshObj]; omega)
    rw [← h.allocated_eq] at he
    have hk2 : s.Kept (spmcShmemObjFree s2 s.allocated) :=
      ((kept_allocated s n).trans hk).trans (kept_free s2 _)
    have h3 : Stored W (spmcShmemObjFree s2 s.allocated) (pre ++ o :: post) := by
      have hf := @Stored.free W s2 (pre ++ o :: post) [] _ h2
      rw [← h.allocated_eq, List.append_nil] at hf
      exact hf
    have hobj : s2.obj s.allocated = { freshObj s n with desc := y } := by
      rw [h.allocated_eq]
      exact h2.obj_eq
    simp only [he]
    refine ⟨y, fun rx bufSize offset => ?_⟩
    cases b with
    | false =>
      refine ⟨_, _, rfl, hk2, h3, .unfit fun hf => ?_⟩
      rw [← hn] at hf
      exact absurd (hb.mpr hf) (by simp)
    | true =>
      simp only [hobj]
      split
      · rename_i hoff
        refine ⟨_, _, rfl, hk2, h3, .past ?_⟩
        rw [← hn]
        exact hoff
      · rename_i hoff
        exact ⟨_, _, rfl, hk2, h3, .made hn hfits (hb.mp rfl) (hm rfl) (Nat.lt_of_not_le hoff) rfl⟩

/-! ## For the hypervisor -/

def hypMrdOffset (v : ℕ) : ℕ := (if v = makeFfaVersion 1 0 then 32 else 48) + 16

def hypPopulated (d : Bytes) (v : ℕ) (rx : Bytes) (bufSize : ℕ) : Populated :=
  let c := compOffset d (makeFfaVersion 1 1)
  let k := min (mrdLength d c) (bufSize - hypMrdOffset v)
  ⟨blit (blit rx 0 (hypHeader d v (hypMrdOffset v)) (hypMrdOffset v)) (hypMrdOffset v) (shift d c) k,
    hypMrdOffset v + k, hypMrdOffset v + mrdLength d c⟩

def hypShiftOf (d : Bytes) (v : ℕ) : ℕ :=
  compOffset d (makeFfaVersion 1 1) + 2 ^ 64 - hypMrdOffset v

theorem populateHyp_eq {P : Platform} {v : ℕ} (h : Stored W s (pre ++ o :: post))
    (hl : Layout P (makeFfaVersion 1 1) o.desc o.descSize) (hf : o.descFilled = o.descSize) :
    spmcPopulateFfaHypDescriptor s rx (offsetOf pre) bufSize v =
      if hypMrdOffset v > bufSize then some (s, .error FFA_ERROR_INVALID_PARAMETER)
      else some (s.setHypShift (offsetOf pre) (hypShiftOf o.desc v),
        .ok (hypPopulated o.desc v rx bufSize)) := by
  have hlx := hl.other_version v11_ne compiled_ne (by decide)
  have hc : compOffset o.desc FFA_VERSION_COMPILED = compOffset o.desc (makeFfaVersion 1 1) := by
    rw [compOffset, compOffset, firstEmad_of_ne _ v11_ne, firstEmad_of_ne _ compiled_ne]
  rw [spmcPopulateFfaHypDescriptor, h.obj_eq, hlx.getCompMrd hf, hc]
  rfl

end TrustedFirmware.Spmc
