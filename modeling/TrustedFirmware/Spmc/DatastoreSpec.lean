import TrustedFirmware.Spmc.Datastore

/-! # What the datastore operations do

`Stored W s objs` says that the objects `objs` fill the allocated part of the datastore,
and that every write so far satisfies `W`, a property of writes that holds at least of
those that stay inside their object. The operations are then operations on the list of
objects: an allocation appends one, a write through a pointer changes one, and freeing
takes one out. -/
namespace TrustedFirmware.Spmc
open ByteMemory RecordTiling
set_option autoImplicit false

/-- The bytes written lie below `dataSize`, and inside the object written to. -/
def Write.Inside (dataSize : ℕ) : Write → Prop
  | .into obj cap off len => off + len ≤ cap ∧ obj + off + len ≤ dataSize
  | .compact dest len => dest + len ≤ dataSize

structure Stored (W : Write → Prop) (s : Datastore) (objs : List Obj) : Prop where
  tiles : Tiles objFormat s.data 0 s.allocated objs
  fits : s.allocated ≤ s.dataSize
  small : s.dataSize < 2 ^ 64
  logged : ∀ w ∈ s.written, W w
  covers : ∀ w, w.Inside s.dataSize → W w

/-- The pointer to an object, from those before it. -/
def offsetOf (pre : List Obj) : ℕ := extent objFormat pre

variable {W : Write → Prop} {s : Datastore} {objs pre post : List Obj} {o : Obj}

/-! ## Header fields -/

def Obj.withInUse (o : Obj) (k : ℕ) : Obj := { o with inUse := k }
def Obj.withHypShift (o : Obj) (k : ℕ) : Obj := { o with hypShift := k }

section
variable (o : Obj) (k : ℕ)

@[simp] theorem Obj.withInUse_desc : (o.withInUse k).desc = o.desc := rfl
@[simp] theorem Obj.withInUse_descSize : (o.withInUse k).descSize = o.descSize := rfl
@[simp] theorem Obj.withInUse_inUse : (o.withInUse k).inUse = k := rfl
@[simp] theorem Obj.withHypShift_desc : (o.withHypShift k).desc = o.desc := rfl
@[simp] theorem Obj.withHypShift_descSize : (o.withHypShift k).descSize = o.descSize := rfl
@[simp] theorem Obj.withHypShift_inUse : (o.withHypShift k).inUse = o.inUse := rfl

end

/-! ## What stays -/

section
variable (s : Datastore) (p : ℕ)

@[simp] theorem free_nextHandle : (spmcShmemObjFree s p).nextHandle = s.nextHandle := by
  simp only [spmcShmemObjFree]
  split <;> rfl

@[simp] theorem free_dataSize : (spmcShmemObjFree s p).dataSize = s.dataSize := by
  simp only [spmcShmemObjFree]
  split <;> rfl

@[simp] theorem free_present : (spmcShmemObjFree s p).present = s.present := by
  simp only [spmcShmemObjFree]
  split <;> rfl

end

/-! ## Reading -/

theorem Stored.allocated_eq (h : Stored W s objs) : s.allocated = offsetOf objs := by
  have he := h.tiles.extent
  rw [Nat.zero_add] at he
  exact he

theorem offsetOf_snoc (objs : List Obj) (o : Obj) :
    offsetOf (objs ++ [o]) = offsetOf objs + (32 + o.descSize) := by
  simp only [offsetOf, extent_append, extent_cons, extent_nil]
  rfl

theorem Stored.obj_eq (h : Stored W s (pre ++ o :: post)) : s.obj (offsetOf pre) = o :=
  h.tiles.view_at

theorem Stored.end_le (h : Stored W s (pre ++ o :: post)) :
    offsetOf pre + (32 + o.descSize) ≤ s.allocated := h.tiles.end_le

theorem Stored.view_eq (h : Stored W s (pre ++ o :: post)) :
    Obj.view (shift s.data (offsetOf pre)) = o := h.tiles.view_at

theorem Stored.descSize_lt (h : Stored W s (pre ++ o :: post)) :
    offsetOf pre + (32 + o.descSize) < 2 ^ 64 :=
  Nat.lt_of_le_of_lt (Nat.le_trans h.end_le h.fits) h.small

theorem Stored.objects_eq (h : Stored W s objs) :
    s.objects = withOffsets objFormat 0 objs := walk_eq h.tiles (by omega)

theorem Stored.lookup (h : Stored W s objs) (handle : ℕ) :
    (spmcShmemObjLookup s handle = none ∧ ∀ o ∈ objs, Mtd.handle o.desc ≠ handle) ∨
      ∃ pre o post, objs = pre ++ o :: post ∧ Mtd.handle o.desc = handle ∧
        (∀ x ∈ pre, Mtd.handle x.desc ≠ handle) ∧
        spmcShmemObjLookup s handle = some (offsetOf pre) := by
  rw [spmcShmemObjLookup, h.objects_eq]
  rcases @find_withOffsets Obj objFormat (fun x => Mtd.handle x.desc == handle) 0 objs with
    ⟨hn, hall⟩ | ⟨pre, o, post, ho, ht, hpre, hf⟩
  · left
    rw [hn]
    exact ⟨rfl, fun o ho => by simpa using hall o ho⟩
  · right
    refine ⟨pre, o, post, ho, by simpa using ht, fun x hx => by simpa using hpre x hx, ?_⟩
    rw [hf, Nat.zero_add]
    rfl

theorem Stored.lookup_some {handle p : ℕ} (h : Stored W s objs)
    (hl : spmcShmemObjLookup s handle = some p) :
    ∃ pre o post, objs = pre ++ o :: post ∧ Mtd.handle o.desc = handle ∧
      (∀ x ∈ pre, Mtd.handle x.desc ≠ handle) ∧ p = offsetOf pre := by
  rcases h.lookup handle with ⟨hn, _⟩ | ⟨pre, o, post, ho, hh, hpre, hf⟩
  · rw [hn] at hl
    cases hl
  · rw [hf] at hl
    exact ⟨pre, o, post, ho, hh, hpre, (Option.some.inj hl).symm⟩

theorem Stored.lookup_none {handle : ℕ} (h : Stored W s objs)
    (hl : spmcShmemObjLookup s handle = none) : ∀ o ∈ objs, Mtd.handle o.desc ≠ handle := by
  rcases h.lookup handle with ⟨_, hn⟩ | ⟨_, _, _, _, _, _, hf⟩
  · exact hn
  · rw [hf] at hl
    cases hl

/-! ## Writing into an object -/

theorem Stored.write {off len cap : ℕ} {src : Bytes} {o' : Obj}
    (h : Stored W s (pre ++ o :: post)) (hcap : cap = 32 + o.descSize)
    (hoff : off + len ≤ 32 + o.descSize) (hs : o'.descSize = o.descSize)
    (hv : Obj.view (blit (shift s.data (offsetOf pre)) off src len) = o') :
    Stored W (s.write (offsetOf pre) cap off src len) (pre ++ o' :: post) := by
  have hend := h.end_le
  have hfits := h.fits
  refine ⟨?_, h.fits, h.small, ?_, h.covers⟩
  · refine h.tiles.update (by simp only [objFormat, hs]) ?_ ?_
    · intro i hi
      have hi' : i < offsetOf pre ∨ offsetOf pre + (32 + o.descSize) ≤ i := hi
      exact (blit_outside (by omega)).symm
    · have hsh : shift (blit s.data (offsetOf pre + off) src len) (offsetOf pre) =
          blit (shift s.data (offsetOf pre)) off src len := by
        rw [shift_blit (Nat.le_add_right _ _), Nat.add_sub_cancel_left]
      change Obj.view (shift (blit s.data (offsetOf pre + off) src len) (offsetOf pre)) = o'
      rw [hsh]
      exact hv
  · intro w hw
    rcases List.mem_cons.mp hw with rfl | hw
    · exact h.covers _ ⟨by omega, by omega⟩
    · exact h.logged w hw

theorem Stored.copyIn {off len : ℕ} {src : Bytes} (h : Stored W s (pre ++ o :: post))
    (hoff : off + len ≤ o.descSize) :
    Stored W (s.copyIn (offsetOf pre) (32 + off) src len)
      (pre ++ { o with desc := blit o.desc off src len } :: post) := by
  have hv := h.view_eq
  have hsz : load (shift s.data (offsetOf pre)) 0 8 = o.descSize := by rw [← hv]; rfl
  refine Stored.write h (by rw [h.obj_eq]) (by omega) rfl ?_
  rw [← hv] at hoff ⊢
  simp only [Obj.view] at hoff ⊢
  have hl : ∀ a, a + 8 ≤ 32 → load (blit (shift s.data (offsetOf pre)) (32 + off) src len) a 8 =
      load (shift s.data (offsetOf pre)) a 8 := fun a ha => load_blit_outside (by omega)
  rw [hl 0 (by omega), hl 8 (by omega), hl 16 (by omega), hl 24 (by omega),
    shift_blit (Nat.le_add_right _ _), Nat.add_sub_cancel_left, clip_blit hoff]

theorem Stored.put {off n v : ℕ} (h : Stored W s (pre ++ o :: post)) (hoff : off + n ≤ o.descSize) :
    Stored W (s.put (offsetOf pre) (32 + off) n v)
      (pre ++ { o with desc := store o.desc off n v } :: post) := h.copyIn hoff

theorem Stored.putHeader {off v : ℕ} {o' : Obj} (h : Stored W s (pre ++ o :: post))
    (hoff : off + 8 ≤ 32) (hs : o'.descSize = o.descSize)
    (hv : Obj.view (store (shift s.data (offsetOf pre)) off 8 v) = o') :
    Stored W (s.put (offsetOf pre) off 8 v) (pre ++ o' :: post) :=
  Stored.write h (by rw [h.obj_eq]) (by omega) hs hv

theorem size_t_bytes : 256 ^ 8 = 2 ^ 64 := by norm_num

theorem Stored.setDescFilled {v : ℕ} (h : Stored W s (pre ++ o :: post)) (hv : v < 2 ^ 64) :
    Stored W (s.setDescFilled (offsetOf pre) v) (pre ++ { o with descFilled := v } :: post) := by
  have hview := h.view_eq
  refine h.putHeader (by omega) rfl ?_
  rw [← hview]
  simp only [Obj.view]
  rw [load_store_self, load_store_outside (by omega), load_store_outside (by omega),
    load_store_outside (by omega), shift_store_below (by omega), size_t_bytes, Nat.mod_eq_of_lt hv]

theorem Stored.setInUse {v : ℕ} (h : Stored W s (pre ++ o :: post)) :
    Stored W (s.setInUse (offsetOf pre) v) (pre ++ o.withInUse (v % 2 ^ 64) :: post) := by
  have hview := h.view_eq
  refine h.putHeader (by omega) (Obj.withInUse_descSize o _) ?_
  rw [← hview]
  simp only [Obj.view, Obj.withInUse]
  rw [load_store_self, load_store_outside (by omega), load_store_outside (by omega),
    load_store_outside (by omega), shift_store_below (by omega), size_t_bytes]

theorem Stored.setHypShift {v : ℕ} (h : Stored W s (pre ++ o :: post)) :
    Stored W (s.setHypShift (offsetOf pre) v)
      (pre ++ o.withHypShift (v % 2 ^ 64) :: post) := by
  have hview := h.view_eq
  refine h.putHeader (by omega) (Obj.withHypShift_descSize o _) ?_
  rw [← hview]
  simp only [Obj.view, Obj.withHypShift]
  rw [load_store_self, load_store_outside (by omega), load_store_outside (by omega),
    load_store_outside (by omega), shift_store_below (by omega), size_t_bytes]

theorem Stored.putSize (h : Stored W s (pre ++ o :: post)) :
    Stored W (s.put (offsetOf pre) 0 8 o.descSize) (pre ++ o :: post) := by
  have hview := h.view_eq
  have hsz : load (shift s.data (offsetOf pre)) 0 8 = o.descSize := by rw [← hview]; rfl
  refine h.putHeader (by omega) rfl ?_
  rw [← hsz, store_load]
  exact hview

/-! ## Allocation -/

/-- The object an allocation leaves at the end: 48 zeroed bytes of descriptor, as far as it
reaches, and what the memory held behind them. -/
def freshObj (s : Datastore) (descSize : ℕ) : Obj where
  descSize := descSize
  descFilled := 0
  inUse := 0
  hypShift := 0
  desc := clip (blit (shift s.data (s.allocated + 32)) 0 (fun _ => 0) 48) descSize

structure Fits (s : Datastore) (descSize : ℕ) : Prop where
  present : s.present = true
  aligned : descSize % 16 = 0
  room : s.allocated + (32 + descSize) ≤ s.dataSize

theorem fits_iff {s : Datastore} {n : ℕ} :
    Fits s n ↔ s.present = true ∧ n % 16 = 0 ∧ s.allocated + (32 + n) ≤ s.dataSize :=
  ⟨fun h => ⟨h.present, h.aligned, h.room⟩, fun h => ⟨h.1, h.2.1, h.2.2⟩⟩

instance (s : Datastore) (n : ℕ) : Decidable (Fits s n) := decidable_of_iff _ fits_iff.symm

theorem freshObj_view (s : Datastore) {n : ℕ} (hn : n < 2 ^ 64) :
    Obj.view (store (store (store (store
      (blit (shift s.data s.allocated) 32 (fun _ => 0) 48) 0 8 n) 8 8 0) 16 8 0) 24 8 0) =
      freshObj s n := by
  simp only [Obj.view]
  rw [shift_store_below (by omega), shift_store_below (by omega), shift_store_below (by omega),
    shift_store_below (by omega), load_store_self, load_store_outside (by omega),
    load_store_outside (by omega), load_store_outside (by omega), load_store_self,
    load_store_outside (by omega), load_store_outside (by omega), load_store_self,
    load_store_outside (by omega), load_store_self, size_t_bytes, Nat.mod_eq_of_lt hn,
    shift_blit (Nat.le_refl 32), Nat.sub_self, shift_shift]
  rfl

theorem spmcShmemObjSize_of_lt {n : ℕ} (h : n + 32 < 2 ^ 64) : spmcShmemObjSize n = 32 + n := by
  rw [spmcShmemObjSize, Nat.mod_eq_of_lt h, Nat.add_comm]

def allocated (s : Datastore) (n : ℕ) : Datastore :=
  { initObj s s.allocated (32 + n) n with allocated := s.allocated + (32 + n) }

theorem alloc_some {n p : ℕ} {s' : Datastore} (h : Stored W s objs) (hn : n < 2 ^ 64)
    (ha : spmcShmemObjAlloc s n = some (p, s')) :
    Fits s n ∧ p = s.allocated ∧ s' = allocated s n := by
  have hfits := h.fits
  have hsmall := h.small
  rw [spmcShmemObjAlloc] at ha
  split at ha
  · cases ha
  rename_i hp
  split at ha
  · cases ha
  rename_i hal
  split at ha
  · cases ha
  rename_i hov
  split at ha
  · cases ha
  rename_i hroom
  -- without the overflow the size did not wrap
  have hlt : n + 32 < 2 ^ 64 := by
    rw [spmcShmemObjSize] at hov
    omega
  rw [spmcShmemObjSize_of_lt hlt] at ha hroom
  simp only [isAligned, beq_eq_false_iff_ne, ne_eq, not_not] at hal
  simp only [Bool.not_eq_false] at hp
  injection ha with ha
  injection ha with h1 h2
  exact ⟨⟨hp, hal, by omega⟩, h1.symm, h2.symm⟩

theorem alloc_of_fits {n : ℕ} (h : Stored W s objs) (hf : Fits s n) :
    spmcShmemObjAlloc s n = some (s.allocated, allocated s n) := by
  have hroom := hf.room
  have hsmall := h.small
  have hlt : n + 32 < 2 ^ 64 := by omega
  rw [spmcShmemObjAlloc, spmcShmemObjSize_of_lt hlt, if_neg (by simp [hf.present]),
    if_neg (by simp [isAligned, hf.aligned]), if_neg (by omega), if_neg (by omega)]
  rfl

theorem Stored.alloc {n : ℕ} (h : Stored W s objs) (hf : Fits s n)
    (hshort : n < 48 → W (.into s.allocated (32 + n) 32 48)) :
    Stored W (allocated s n) (objs ++ [freshObj s n]) := by
  have hroom := hf.room
  have hsmall := h.small
  refine ⟨?_, hroom, h.small, ?_, h.covers⟩
  · refine @Tiles.snoc _ objFormat _ (Spmc.allocated s n).data _ _ (freshObj s n) h.tiles ?_ ?_
    · intro i hi
      simp only [Spmc.allocated, initObj, Datastore.write]
      rw [blit_outside (by omega), blit_outside (by omega), blit_outside (by omega),
        blit_outside (by omega), blit_outside (by omega)]
    · have hn : n < 2 ^ 64 := by omega
      rw [← freshObj_view s hn]
      simp only [Spmc.allocated, initObj, Datastore.write]
      rw [shift_blit (by omega), shift_blit (by omega), shift_blit (by omega),
        shift_blit (by omega), shift_blit (by omega)]
      simp only [Nat.add_sub_cancel_left]
      rfl
  · intro w hw
    simp only [Spmc.allocated, initObj, Datastore.write, List.mem_cons] at hw
    rcases hw with rfl | rfl | rfl | rfl | rfl | hw
    · exact h.covers _ ⟨by omega, by omega⟩
    · exact h.covers _ ⟨by omega, by omega⟩
    · exact h.covers _ ⟨by omega, by omega⟩
    · exact h.covers _ ⟨by omega, by omega⟩
    · by_cases hlong : n < 48
      · exact hshort hlong
      · exact h.covers _ ⟨by omega, by omega⟩
    · exact h.logged w hw

/-! ## Freeing -/

theorem Stored.free (h : Stored W s (pre ++ o :: post)) :
    Stored W (spmcShmemObjFree s (offsetOf pre)) (pre ++ post) := by
  have hend := h.end_le
  have hfits := h.fits
  have hlt := h.descSize_lt
  have hsz : spmcShmemObjSize (s.obj (offsetOf pre)).descSize = 32 + o.descSize := by
    rw [h.obj_eq]
    exact spmcShmemObjSize_of_lt (by omega)
  rw [spmcShmemObjFree, hsz]
  by_cases hz : s.allocated - (offsetOf pre + (32 + o.descSize)) = 0
  · -- the last object: nothing moves
    simp only [hz, ne_eq, not_true_eq_false, if_false]
    refine ⟨?_, by simp only; omega, h.small, h.logged, h.covers⟩
    refine h.tiles.remove (fun _ _ => rfl) ?_
    intro i hi
    have hi' : offsetOf pre + (32 + o.descSize) + i < s.allocated := hi
    omega
  · simp only [hz, ne_eq, not_false_eq_true, if_true]
    refine ⟨?_, by simp only; omega, h.small, ?_, h.covers⟩
    · refine h.tiles.remove ?_ ?_
      · intro i hi
        exact (blit_outside (Or.inl hi)).symm
      · intro i hi
        have hi' : offsetOf pre + (32 + o.descSize) + i < s.allocated := hi
        change _ = blit s.data (offsetOf pre) _ _ (offsetOf pre + i)
        rw [blit_inside (by omega) (by omega), Nat.add_sub_cancel_left]
        rfl
    · intro w hw
      rcases List.mem_cons.mp hw with rfl | hw
      · refine h.covers _ ?_
        change _ + _ ≤ _
        omega
      · exact h.logged w hw

end TrustedFirmware.Spmc
