import TrustedFirmware.Spmc.Conversion
import TrustedFirmware.Spmc.ValidationSpec

/-! # What the conversions produce

A conversion writes the last object of the datastore and nothing else. Its result is
described by `Arrays`: the endpoint descriptors of the original with new offsets, and
behind them the bytes of its composite descriptor. -/
namespace TrustedFirmware.Spmc
open ByteMemory RecordTiling
set_option autoImplicit false

/-- The fields beside the objects. -/
structure Datastore.Kept (s s' : Datastore) : Prop where
  nextHandle : s'.nextHandle = s.nextHandle
  dataSize : s'.dataSize = s.dataSize
  present : s'.present = s.present

theorem Datastore.Kept.refl (s : Datastore) : s.Kept s := ⟨rfl, rfl, rfl⟩

theorem Datastore.Kept.trans {s t u : Datastore} (h1 : s.Kept t) (h2 : t.Kept u) : s.Kept u :=
  ⟨h2.nextHandle.trans h1.nextHandle, h2.dataSize.trans h1.dataSize, h2.present.trans h1.present⟩

theorem kept_copyIn (s : Datastore) (p a n : ℕ) (src : Bytes) : s.Kept (s.copyIn p a src n) :=
  ⟨rfl, rfl, rfl⟩

theorem kept_put (s : Datastore) (p a n v : ℕ) : s.Kept (s.put p a n v) := ⟨rfl, rfl, rfl⟩

theorem kept_free (s : Datastore) (p : ℕ) : s.Kept (spmcShmemObjFree s p) :=
  ⟨free_nextHandle s p, free_dataSize s p, free_present s p⟩

theorem kept_allocated (s : Datastore) (n : ℕ) : s.Kept (allocated s n) := ⟨rfl, rfl, rfl⟩

variable {W : Write → Prop} {s : Datastore} {L : List Obj} {x : Obj} {orig : Bytes}
  {src : ℕ → ℕ} {fits : ℕ → Bool} {dst : ℕ}

/-! ## The endpoint descriptors -/

/-- From entry `i` on, `n` entries have been copied. -/
structure EmadsCopied (orig : Bytes) (src : ℕ → ℕ) (dst i n : ℕ) (x y : Bytes) : Prop where
  entry : ∀ k, i ≤ k → k < i + n → ∀ j < 16, y (dst + 16 * k + j) = orig (src k + j)
  other : ∀ a, a < dst + 16 * i ∨ dst + 16 * (i + n) ≤ a → y a = x a

theorem copyEmads_spec (n i : ℕ) (h : Stored W s (L ++ [x]))
    (hroom : dst + 16 * (i + n) ≤ x.descSize) :
    ∃ y s' b, copyEmads s (offsetOf L) dst orig src fits n i = (s', b) ∧ s.Kept s' ∧
      Stored W s' (L ++ [{ x with desc := y }]) ∧
      (b = true ↔ ∀ k, i ≤ k → k < i + n → fits k = true) ∧
      (b = true → EmadsCopied orig src dst i n x.desc y) := by
  induction n generalizing s x i with
  | zero =>
    refine ⟨x.desc, s, true, rfl, Datastore.Kept.refl s, h, ?_, ?_⟩
    · exact ⟨fun _ k h1 h2 => absurd h2 (by omega), fun _ => rfl⟩
    · exact fun _ => ⟨fun k h1 h2 => absurd h2 (by omega), fun _ _ => rfl⟩
  | succ n ih =>
    rw [copyEmads]
    cases hf : fits i with
    | false =>
      rw [if_pos rfl]
      refine ⟨x.desc, s, false, rfl, Datastore.Kept.refl s, h, ?_, fun hb => absurd hb (by simp)⟩
      refine ⟨fun hb => absurd hb (by simp), fun hall => ?_⟩
      rw [hall i (Nat.le_refl i) (by omega)] at hf
      cases hf
    | true =>
      rw [if_neg (by simp)]
      have hput := @Stored.copyIn W s L [] x (dst + 16 * i) 16 (shift orig (src i)) h (by omega)
      obtain ⟨y, s', b, he, hk, hs, hb, hc⟩ := ih (i + 1) hput (by simp only; omega)
      rw [← Nat.add_assoc] at he
      refine ⟨y, s', b, he, (kept_copyIn s _ _ _ _).trans hk, hs, ?_, ?_⟩
      · rw [hb]
        constructor
        · intro hall k h1 h2
          rcases Nat.eq_or_lt_of_le h1 with rfl | h1
          · exact hf
          · exact hall k h1 (by omega)
        · exact fun hall k h1 h2 => hall k (by omega) (by omega)
      · intro hbt
        obtain ⟨hentry, hother⟩ := hc hbt
        refine ⟨?_, ?_⟩
        · intro k h1 h2 j hj
          rcases Nat.eq_or_lt_of_le h1 with rfl | h1
          · rw [hother _ (by omega)]
            change blit x.desc (dst + 16 * i) (shift orig (src i)) 16 _ = _
            rw [blit_inside (by omega) (by omega), shift_apply]
            congr 1
            omega
          · exact hentry k h1 (by omega) j hj
        · intro a ha
          rw [hother a (by omega)]
          exact blit_outside (by omega)

/-- From entry `i` on, `n` entries have their offsets set. -/
structure OffsetsSet (orig : Bytes) (src : ℕ → ℕ) (dst i n delta : ℕ) (x y : Bytes) : Prop where
  offset : ∀ k, i ≤ k → k < i + n →
    Emad.compMrdOffset y (dst + 16 * k) = (Emad.compMrdOffset orig (src k) + delta) % 2 ^ 32
  entry : ∀ k j, j < 4 ∨ 8 ≤ j → j < 16 → y (dst + 16 * k + j) = x (dst + 16 * k + j)
  other : ∀ a, a < dst + 16 * i ∨ dst + 16 * (i + n) ≤ a → y a = x a

theorem shiftCompMrdOffsets_spec {mrdOut mrdIn : ℕ} (n i : ℕ) (h : Stored W s (L ++ [x]))
    (hroom : dst + 16 * (i + n) ≤ x.descSize) :
    ∃ y, s.Kept (shiftCompMrdOffsets s (offsetOf L) dst orig src mrdOut mrdIn n i) ∧
      Stored W (shiftCompMrdOffsets s (offsetOf L) dst orig src mrdOut mrdIn n i)
        (L ++ [{ x with desc := y }]) ∧
      OffsetsSet orig src dst i n (mrdOut + 2 ^ 64 - mrdIn) x.desc y := by
  induction n generalizing s x i with
  | zero =>
    exact ⟨x.desc, Datastore.Kept.refl s, h, fun k h1 h2 => absurd h2 (by omega), fun _ _ _ _ => rfl,
      fun _ _ => rfl⟩
  | succ n ih =>
    have hput := @Stored.put W s L [] x (dst + 16 * i + 4) 4
      (Emad.compMrdOffset orig (src i) + (mrdOut + 2 ^ 64 - mrdIn)) h (by omega)
    obtain ⟨y, hk, hs, hoff, hent, hoth⟩ := ih (i + 1) hput (by simp only; omega)
    have he : 32 + (dst + 16 * i + 4) = 32 + dst + 16 * i + 4 := by omega
    rw [he] at hk hs
    refine ⟨y, (kept_put s _ _ _ _).trans hk, hs, ?_, ?_, ?_⟩
    · intro k h1 h2
      rcases Nat.eq_or_lt_of_le h1 with rfl | h1
      · have hc : Emad.compMrdOffset y (dst + 16 * i) =
            load (store x.desc (dst + 16 * i + 4) 4
              (Emad.compMrdOffset orig (src i) + (mrdOut + 2 ^ 64 - mrdIn))) (dst + 16 * i + 4) 4 :=
          load_congr fun a h1 h2 => hoth a (by omega)
        rw [hc, load_store_self]
        norm_num
      · exact hoff k h1 (by omega)
    · intro k j hj h16
      rw [hent k j hj h16]
      exact blit_outside (by omega)
    · intro a ha
      rw [hoth a (by omega)]
      exact blit_outside (by omega)

/-! ## The arrays -/

def mrdLength (d : Bytes) (c : ℕ) : ℕ := 16 + CompMrd.addressRangeCount d c * 16

/-- What the shared part of the conversions makes of `x`. -/
structure Arrays (orig : Bytes) (src : ℕ → ℕ) (dst mrdIn : ℕ) (x y : Bytes) : Prop where
  below : ∀ a < dst, y a = x a
  entry : ∀ k < Mtd.emadCount orig, ∀ j, j < 4 ∨ 8 ≤ j → j < 16 →
    y (dst + 16 * k + j) = orig (src k + j)
  offset : ∀ k < Mtd.emadCount orig, Emad.compMrdOffset y (dst + 16 * k) =
    (Emad.compMrdOffset orig (src k) + (dst + 16 * Mtd.emadCount orig + 2 ^ 64 - mrdIn)) % 2 ^ 32
  body : ∀ j < mrdLength orig mrdIn, y (dst + 16 * Mtd.emadCount orig + j) = orig (mrdIn + j)
  above : ∀ a, dst + 16 * Mtd.emadCount orig + mrdLength orig mrdIn ≤ a → y a = x a

def ArraysFit (orig : Bytes) (fits : ℕ → Bool) (dst mrdIn origSize outSize : ℕ) : Prop :=
  (∀ k < Mtd.emadCount orig, fits k = true) ∧ mrdIn + mrdLength orig mrdIn ≤ origSize ∧
    dst + 16 * Mtd.emadCount orig + mrdLength orig mrdIn ≤ outSize

theorem convertArrays_spec {mrdIn origSize : ℕ} (h : Stored W s (L ++ [x]))
    (hroom : dst + 16 * Mtd.emadCount orig ≤ x.descSize) :
    ∃ y s' b, convertArrays s (offsetOf L) dst orig src fits mrdIn origSize x.descSize = (s', b) ∧
      s.Kept s' ∧ Stored W s' (L ++ [{ x with desc := y }]) ∧
      (b = true ↔ ArraysFit orig fits dst mrdIn origSize x.descSize) ∧
      (b = true → Arrays orig src dst mrdIn x.desc y) := by
  obtain ⟨y1, s1, b1, he1, hk1, hs1, hb1, hc1⟩ :=
    @copyEmads_spec W s L x orig src fits dst (Mtd.emadCount orig) 0 h (by omega)
  have hfits : (∀ k, 0 ≤ k → k < 0 + Mtd.emadCount orig → fits k = true) ↔
      ∀ k < Mtd.emadCount orig, fits k = true :=
    ⟨fun hall k hk => hall k (Nat.zero_le k) (by omega), fun hall k _ hk => hall k (by omega)⟩
  rw [hfits] at hb1
  simp only [convertArrays, he1]
  cases b1 with
  | false =>
    refine ⟨y1, s1, false, rfl, hk1, hs1, ?_, fun hb => absurd hb (by simp)⟩
    exact iff_of_false (by simp) fun hf => absurd (hb1.mpr hf.1) (by simp)
  | true =>
    have hall := hb1.mp rfl
    obtain ⟨hentry, hother⟩ := hc1 rfl
    obtain ⟨y2, hk2, hs2, hoff2, hent2, hoth2⟩ :=
      @shiftCompMrdOffsets_spec W s1 L { x with desc := y1 } orig src dst
        (dst + 16 * Mtd.emadCount orig) mrdIn (Mtd.emadCount orig) 0 hs1 (by simp only; omega)
    simp only
    by_cases hbound : mrdIn + mrdLength orig mrdIn ≤ origSize ∧
        dst + 16 * Mtd.emadCount orig + mrdLength orig mrdIn ≤ x.descSize
    · have hneg : ¬ (mrdIn + (16 + CompMrd.addressRangeCount orig mrdIn * 16) > origSize ∨
          dst + 16 * Mtd.emadCount orig + (16 + CompMrd.addressRangeCount orig mrdIn * 16) >
            x.descSize) := by
        rw [mrdLength] at hbound
        omega
      rw [if_neg hneg]
      have hput := @Stored.copyIn W _ L [] { x with desc := y2 } (dst + 16 * Mtd.emadCount orig)
        (mrdLength orig mrdIn) (shift orig mrdIn) hs2 hbound.2
      refine ⟨blit y2 (dst + 16 * Mtd.emadCount orig) (shift orig mrdIn) (mrdLength orig mrdIn), _,
        true, rfl, (hk1.trans hk2).trans (kept_copyIn _ _ _ _ _), hput, iff_of_true rfl ⟨hall, hbound.1, hbound.2⟩, fun _ => ?_⟩
      refine ⟨?_, ?_, ?_, ?_, ?_⟩
      · intro a ha
        rw [blit_outside (Or.inl (by omega)), hoth2 a (by omega)]
        exact hother a (by omega)
      · intro k hk j hj h16
        rw [blit_outside (Or.inl (by omega)), hent2 k j hj h16]
        exact hentry k (Nat.zero_le k) (by omega) j h16
      · intro k hk
        rw [← hoff2 k (Nat.zero_le k) (by omega)]
        exact load_blit_outside (Or.inl (by omega))
      · intro j hj
        rw [blit_inside (by omega) (by omega), shift_apply, Nat.add_sub_cancel_left]
      · intro a ha
        rw [blit_outside (Or.inr ha), hoth2 a (by omega)]
        exact hother a (by omega)
    · have hpos : mrdIn + (16 + CompMrd.addressRangeCount orig mrdIn * 16) > origSize ∨
          dst + 16 * Mtd.emadCount orig + (16 + CompMrd.addressRangeCount orig mrdIn * 16) >
            x.descSize := by
        rw [mrdLength] at hbound
        omega
      rw [if_pos hpos]
      refine ⟨y2, _, false, rfl, hk1.trans hk2, hs2, ?_, fun hb => absurd hb (by simp)⟩
      exact iff_of_false (by simp) fun hf => hbound ⟨hf.2.1, hf.2.2⟩

/-! ## The header -/

def headerDesc (x orig : Bytes) (attributesLen attributes : ℕ) : Bytes :=
  store (store (store (store (store (store x 0 2 (Mtd.senderId orig)) 2 attributesLen attributes)
    4 4 (Mtd.flags orig)) 8 8 (Mtd.handle orig)) 16 8 (Mtd.tag orig)) 28 4 (Mtd.emadCount orig)

theorem kept_copyMtdHeader (s : Datastore) (p : ℕ) (orig : Bytes) (n a : ℕ) :
    s.Kept (copyMtdHeader s p orig n a) := ⟨rfl, rfl, rfl⟩

theorem copyMtdHeader_spec {n a : ℕ} (h : Stored W s (L ++ [x])) (hn : n ≤ 2)
    (hsize : 32 ≤ x.descSize) :
    Stored W (copyMtdHeader s (offsetOf L) orig n a)
      (L ++ [{ x with desc := headerDesc x.desc orig n a }]) := by
  have h1 := @Stored.put W s L [] x 0 2 (Mtd.senderId orig) h (by omega)
  have h2 := @Stored.put W _ L [] _ 2 n a h1 (by simp only; omega)
  have h3 := @Stored.put W _ L [] _ 4 4 (Mtd.flags orig) h2 (by simp only; omega)
  have h4 := @Stored.put W _ L [] _ 8 8 (Mtd.handle orig) h3 (by simp only; omega)
  have h5 := @Stored.put W _ L [] _ 16 8 (Mtd.tag orig) h4 (by simp only; omega)
  exact @Stored.put W _ L [] _ 28 4 (Mtd.emadCount orig) h5 (by simp only; omega)

structure SameHeader (d y : Bytes) : Prop where
  senderId : Mtd.senderId y = Mtd.senderId d
  flags : Mtd.flags y = Mtd.flags d
  handle : Mtd.handle y = Mtd.handle d
  tag : Mtd.tag y = Mtd.tag d
  emadCount : Mtd.emadCount y = Mtd.emadCount d

theorem load_mod (d : Bytes) (a n : ℕ) : load d a n % 256 ^ n = load d a n :=
  Nat.mod_eq_of_lt (load_lt d a n)

theorem headerDesc_same (x d : Bytes) (n a : ℕ) : SameHeader d (headerDesc x d n a) := by
  refine ⟨?_, ?_, ?_, ?_, ?_⟩
  · rw [headerDesc, Mtd.senderId, load_store_outside (by omega), load_store_outside (by omega),
      load_store_outside (by omega), load_store_outside (by omega), load_store_outside (by omega),
      load_store_self]
    exact load_mod d 0 2
  · rw [headerDesc, Mtd.flags, load_store_outside (by omega), load_store_outside (by omega),
      load_store_outside (by omega), load_store_self]
    exact load_mod d 4 4
  · rw [headerDesc, Mtd.handle, load_store_outside (by omega), load_store_outside (by omega),
      load_store_self]
    exact load_mod d 8 8
  · rw [headerDesc, Mtd.tag, load_store_outside (by omega), load_store_self]
    exact load_mod d 16 8
  · rw [headerDesc, Mtd.emadCount, load_store_self]
    exact load_mod d 28 4

theorem headerDesc_attributes (x d : Bytes) {n : ℕ} (a : ℕ) (hn : n ≤ 2) :
    load (headerDesc x d n a) 2 n = a % 256 ^ n := by
  rw [headerDesc, load_store_outside (by omega), load_store_outside (by omega),
    load_store_outside (by omega), load_store_outside (by omega), load_store_self]

theorem SameHeader.congr {d y y' : Bytes} (h : SameHeader d y) (hy : ∀ a < 32, y' a = y a) :
    SameHeader d y' := by
  have hl : ∀ a n, a + n ≤ 32 → load y' a n = load y a n := fun a n ha =>
    load_congr fun i _ hi => hy i (by omega)
  exact ⟨(hl 0 2 (by omega)).trans h.senderId, (hl 4 4 (by omega)).trans h.flags,
    (hl 8 8 (by omega)).trans h.handle, (hl 16 8 (by omega)).trans h.tag,
    (hl 28 4 (by omega)).trans h.emadCount⟩

/-! ## Reading the result -/

theorem comp_moved {d y : Bytes} {a b : ℕ} (h : ∀ j < mrdLength d b, y (a + j) = d (b + j)) :
    CompMrd.totalPageCount y a = CompMrd.totalPageCount d b ∧
      CompMrd.addressRangeCount y a = CompMrd.addressRangeCount d b ∧
      CompMrd.ranges y a = CompMrd.ranges d b := by
  have hcount : CompMrd.addressRangeCount y a = CompMrd.addressRangeCount d b := by
    refine load_moved fun j hj => ?_
    rw [Nat.add_assoc, Nat.add_assoc]
    exact h _ (by rw [mrdLength]; omega)
  refine ⟨load_moved fun j hj => h j (by rw [mrdLength]; omega), hcount, ?_⟩
  rw [CompMrd.ranges, CompMrd.ranges, hcount]
  refine List.map_congr_left fun i hi => ?_
  have hi' : i < CompMrd.addressRangeCount d b := List.mem_range.mp hi
  have hfield : ∀ c n, c + n ≤ 16 →
      load y (a + 16 + 16 * i + c) n = load d (b + 16 + 16 * i + c) n := by
    intro c n hc
    refine load_moved fun j hj => ?_
    have hb := h (16 + 16 * i + c + j) (by rw [mrdLength]; omega)
    have e1 : a + 16 + 16 * i + c + j = a + (16 + 16 * i + c + j) := by omega
    have e2 : b + 16 + 16 * i + c + j = b + (16 + 16 * i + c + j) := by omega
    rw [e1, e2]
    exact hb
  have h0 := hfield 0 8 (by omega)
  have h8 := hfield 8 4 (by omega)
  exact Prod.ext h0 h8

structure SameEmad (d : Bytes) (e : ℕ) (y : Bytes) (e' : ℕ) : Prop where
  endpointId : Emad.endpointId y e' = Emad.endpointId d e
  permissions : Emad.memoryAccessPermissions y e' = Emad.memoryAccessPermissions d e
  flags : Emad.flags y e' = Emad.flags d e

theorem Arrays.sameEmad {d x y : Bytes} {mrdIn k : ℕ} (h : Arrays d src dst mrdIn x y)
    (hk : k < Mtd.emadCount d) : SameEmad d (src k) y (dst + 16 * k) := by
  have hfield : ∀ c n, c + n ≤ 4 → load y (dst + 16 * k + c) n = load d (src k + c) n := by
    intro c n hc
    refine load_moved fun j hj => ?_
    rw [Nat.add_assoc, Nat.add_assoc (src k)]
    exact h.entry k hk (c + j) (by omega) (by omega)
  exact ⟨hfield 0 2 (by omega), hfield 2 1 (by omega), hfield 3 1 (by omega)⟩

theorem Arrays.comp {d x y : Bytes} {mrdIn : ℕ} (h : Arrays d src dst mrdIn x y) :
    CompMrd.totalPageCount y (dst + 16 * Mtd.emadCount d) = CompMrd.totalPageCount d mrdIn ∧
      CompMrd.addressRangeCount y (dst + 16 * Mtd.emadCount d) =
        CompMrd.addressRangeCount d mrdIn ∧
      CompMrd.ranges y (dst + 16 * Mtd.emadCount d) = CompMrd.ranges d mrdIn := comp_moved h.body

/-! ## From version 1.0 -/

/-- The version 1.1 form of the version 1.0 descriptor `d`. -/
structure V11Of (d y : Bytes) : Prop where
  same : SameHeader d y
  attributes : Mtd.memoryRegionAttributes y = Mtd.memoryRegionAttributesV10 d
  emadSize : Mtd.emadSize y = 16
  emadOffset : Mtd.emadOffset y = 48
  emad : ∀ k < Mtd.emadCount d, SameEmad d (32 + 16 * k) y (48 + 16 * k)
  offset : ∀ k < Mtd.emadCount d, Emad.compMrdOffset y (48 + 16 * k) = 48 + 16 * Mtd.emadCount d
  total : CompMrd.totalPageCount y (48 + 16 * Mtd.emadCount d) =
    CompMrd.totalPageCount d (compOffset d (makeFfaVersion 1 0))
  count : CompMrd.addressRangeCount y (48 + 16 * Mtd.emadCount d) =
    CompMrd.addressRangeCount d (compOffset d (makeFfaVersion 1 0))
  ranges : CompMrd.ranges y (48 + 16 * Mtd.emadCount d) =
    regionRanges d (makeFfaVersion 1 0)

theorem emads_v10 (d : Bytes) :
    emads d (makeFfaVersion 1 0) = (List.range (Mtd.emadCount d)).map fun k => 32 + 16 * k := rfl

theorem Layout.offset_v10 {P : Platform} {d : Bytes} {n k : ℕ}
    (h : Layout P (makeFfaVersion 1 0) d n) (hk : k < Mtd.emadCount d) :
    Emad.compMrdOffset d (32 + 16 * k) = compOffset d (makeFfaVersion 1 0) := by
  apply h.offsets
  rw [emads_v10]
  exact List.mem_map.mpr ⟨k, List.mem_range.mpr hk, rfl⟩

def v11Header (x d : Bytes) : Bytes :=
  store (store (headerDesc x d 2 (Mtd.memoryRegionAttributesV10 d)) 24 4 16) 32 4 48

theorem v11Header_same (x d : Bytes) : SameHeader d (v11Header x d) := by
  have h := headerDesc_same x d 2 (Mtd.memoryRegionAttributesV10 d)
  have hl : ∀ a n, a + n ≤ 24 ∨ (28 ≤ a ∧ a + n ≤ 32) → load (v11Header x d) a n =
      load (headerDesc x d 2 (Mtd.memoryRegionAttributesV10 d)) a n := by
    intro a n ha
    rw [v11Header, load_store_outside (by omega), load_store_outside (by omega)]
  exact ⟨(hl 0 2 (by omega)).trans h.senderId, (hl 4 4 (by omega)).trans h.flags,
    (hl 8 8 (by omega)).trans h.handle, (hl 16 8 (by omega)).trans h.tag,
    (hl 28 4 (by omega)).trans h.emadCount⟩

theorem v11Of_of_arrays {P : Platform} {d x y : Bytes} {n : ℕ}
    (hl : Layout P (makeFfaVersion 1 0) d n) (hle : 48 + 16 * Mtd.emadCount d ≤ UINT32_MAX)
    (h : Arrays d (fun i => 32 + 16 * i) 48 (compOffset d (makeFfaVersion 1 0))
      (v11Header x d) y) : V11Of d y := by
  have hlow : ∀ a n, a + n ≤ 48 → load y a n = load (v11Header x d) a n := fun a n ha =>
    load_congr fun i _ hi => h.below i (by omega)
  obtain ⟨htot, hcnt, hrng⟩ := h.comp
  refine ⟨(v11Header_same x d).congr fun a ha => h.below a (by omega), ?_, ?_, ?_,
    fun k hk => h.sameEmad hk, ?_, htot, hcnt, hrng⟩
  · have hlt := load_lt d 2 1
    rw [Mtd.memoryRegionAttributes, hlow 2 2 (by omega), v11Header, load_store_outside (by omega),
      load_store_outside (by omega), headerDesc_attributes _ _ _ (Nat.le_refl 2)]
    refine Nat.mod_eq_of_lt ?_
    change load d 2 1 < _
    omega
  · rw [Mtd.emadSize, hlow 24 4 (by omega), v11Header, load_store_outside (by omega),
      load_store_self]
    norm_num
  · rw [Mtd.emadOffset, hlow 32 4 (by omega), v11Header, load_store_self]
    norm_num
  · intro k hk
    have hlen : compOffset d (makeFfaVersion 1 0) < 256 ^ 4 := load_lt d _ 4
    have hoff := h.offset k hk
    rw [hl.offset_v10 hk] at hoff
    rw [hoff]
    rw [UINT32_MAX] at hle
    omega

theorem convertFromV10_arrays {P : Platform} {o : Obj} {p : ℕ} (h : Stored W s (L ++ [x]))
    (ho : s.obj p = o) (hl : Layout P (makeFfaVersion 1 0) o.desc o.descSize)
    (hx : x.descSize = spmcShmGetV11DescriptorSize o.desc) :
    ∃ y s', spmcShmConvertShmemObjFromV10 s (offsetOf L) p = (s', true) ∧ s.Kept s' ∧
      Stored W s' (L ++ [{ x with desc := y }]) ∧
      Arrays o.desc (fun i => 32 + 16 * i) 48 (compOffset o.desc (makeFfaVersion 1 0))
        (v11Header x.desc o.desc) y ∧
      x.descSize = 48 + 16 * Mtd.emadCount o.desc +
        mrdLength o.desc (compOffset o.desc (makeFfaVersion 1 0)) := by
  have hin := hl.start.inside
  have hbehind := hl.behind
  have hsize := hl.size_eq
  simp only [firstEmad, emadStride, if_true] at hin hbehind
  have hxs : x.descSize = 48 + 16 * Mtd.emadCount o.desc +
      mrdLength o.desc (compOffset o.desc (makeFfaVersion 1 0)) := by
    rw [hx, spmcShmGetV11DescriptorSize, mrdLength]
    change 48 + Mtd.emadCount o.desc * 16 + 16 +
      CompMrd.addressRangeCount o.desc (compOffset o.desc (makeFfaVersion 1 0)) * 16 = _
    omega
  have hmrd : 16 ≤ mrdLength o.desc (compOffset o.desc (makeFfaVersion 1 0)) :=
    Nat.le_add_right _ _
  have hxobj : s.obj (offsetOf L) = x := h.obj_eq
  have h1 := @copyMtdHeader_spec W s L x o.desc 2 (Mtd.memoryRegionAttributesV10 o.desc) h
    (Nat.le_refl 2) (by omega)
  have h2 := @Stored.put W _ L [] _ 24 4 16 h1 (by simp only; omega)
  have h3 := @Stored.put W _ L [] _ 32 4 48 h2 (by simp only; omega)
  obtain ⟨y, s', b, he, hk, hs, hb, hc⟩ := @convertArrays_spec W _ L _ o.desc
    (fun i => 32 + 16 * i) (fun _ => decide (32 + 16 ≤ o.descSize)) 48
    (compOffset o.desc (makeFfaVersion 1 0)) o.descSize h3 (by simp only; omega)
  have hbt : b = true := by
    have hcount := Nat.pos_of_ne_zero hl.start.emads
    refine hb.mpr ⟨fun _ _ => decide_eq_true (by omega), ?_, ?_⟩
    · rw [mrdLength]
      omega
    · simp only
      omega
  refine ⟨y, s', ?_, ((kept_copyMtdHeader s _ _ _ _).trans (kept_put _ _ _ _ _)).trans
    ((kept_put _ _ _ _ _).trans hk), hs, hc hbt, hxs⟩
  rw [← hbt, ← he, spmcShmConvertShmemObjFromV10, ho, hxobj]
  rfl

theorem convertFromV10_spec {P : Platform} {o : Obj} {p : ℕ} (h : Stored W s (L ++ [x]))
    (ho : s.obj p = o) (hl : Layout P (makeFfaVersion 1 0) o.desc o.descSize)
    (hx : x.descSize = spmcShmGetV11DescriptorSize o.desc) (hle : x.descSize ≤ UINT32_MAX) :
    ∃ y s', spmcShmConvertShmemObjFromV10 s (offsetOf L) p = (s', true) ∧ s.Kept s' ∧
      Stored W s' (L ++ [{ x with desc := y }]) ∧ V11Of o.desc y := by
  obtain ⟨y, s', he, hk, hs, harr, hxs⟩ := convertFromV10_arrays h ho hl hx
  exact ⟨y, s', he, hk, hs, v11Of_of_arrays hl (by omega) harr⟩

/-! ## The converted descriptor is a valid one -/

variable {P : Platform} {d y : Bytes} {n : ℕ}

theorem V11Of.firstEmad (h : V11Of d y) : firstEmad y (makeFfaVersion 1 1) = 48 := by
  rw [firstEmad_of_ne y v11_ne, h.emadOffset]

theorem V11Of.emadStride (h : V11Of d y) : emadStride y (makeFfaVersion 1 1) = 16 := by
  rw [emadStride_of_ne y v11_ne, h.emadSize]

theorem V11Of.emads (h : V11Of d y) :
    emads y (makeFfaVersion 1 1) = (List.range (Mtd.emadCount d)).map fun k => 48 + 16 * k := by
  rw [Spmc.emads, h.firstEmad, h.emadStride, h.same.emadCount]
  rfl

theorem V11Of.compOffset (h : V11Of d y) (hc : Mtd.emadCount d ≠ 0) :
    compOffset y (makeFfaVersion 1 1) = 48 + 16 * Mtd.emadCount d := by
  rw [Spmc.compOffset, h.firstEmad, ← h.offset 0 (Nat.pos_of_ne_zero hc)]

theorem V11Of.endpoints (h : V11Of d y) :
    endpoints y (makeFfaVersion 1 1) = endpoints d (makeFfaVersion 1 0) := by
  rw [Spmc.endpoints, Spmc.endpoints, h.emads, emads_v10, List.map_map, List.map_map]
  exact List.map_congr_left fun k hk => (h.emad k (List.mem_range.mp hk)).endpointId

theorem V11Of.regionRanges (h : V11Of d y) (hc : Mtd.emadCount d ≠ 0) :
    regionRanges y (makeFfaVersion 1 1) = regionRanges d (makeFfaVersion 1 0) := by
  rw [Spmc.regionRanges, h.compOffset hc, h.ranges]

theorem V11Of.layout (h : V11Of d y) (hl : Layout P (makeFfaVersion 1 0) d n) :
    Layout P (makeFfaVersion 1 1) y (spmcShmGetV11DescriptorSize d) := by
  have hc := hl.start.emads
  have hcomp := h.compOffset hc
  have hsz : spmcShmGetV11DescriptorSize d = 48 + Mtd.emadCount d * 16 + 16 +
      CompMrd.addressRangeCount d (Spmc.compOffset d (makeFfaVersion 1 0)) * 16 := rfl
  refine ⟨⟨Or.inr (by decide), ?_, ?_, ?_, ?_, ?_, ?_, ?_⟩, ?_, ?_, ?_, ?_, ?_, ?_, ?_⟩
  · rw [if_neg v11_ne, hsz]
    omega
  · rw [h.same.emadCount]
    exact hc
  · rw [h.firstEmad]
  · rw [h.firstEmad, if_neg v11_ne]
  · rw [h.emadStride]
  · rw [h.emadStride]
  · rw [h.firstEmad, h.emadStride, h.same.emadCount, if_neg v11_ne, hsz]
    omega
  · rw [h.endpoints]
    exact hl.known
  · rw [h.endpoints]
    exact hl.distinct
  · intro e he
    rw [h.emads] at he
    obtain ⟨k, hk, rfl⟩ := List.mem_map.mp he
    rw [hcomp]
    exact h.offset k (List.mem_range.mp hk)
  · rw [h.firstEmad, h.emadStride, h.same.emadCount, hcomp]
    omega
  · rw [hcomp]
    omega
  · rw [hcomp, h.count, hsz]
    omega
  · rw [hcomp, h.total, h.regionRanges hc]
    exact hl.pages

end TrustedFirmware.Spmc
