import TrustedFirmware.Spmc.Handlers
import TrustedFirmware.Spmc.ConversionSpec

/-! # What receiving a fragment does

`spmc_ffa_fill_desc()` either gives the object up, or keeps it with the fragment added.
When the fragment was the last one the object has passed the checks, and it stays where it
is or, for a version 1.0 sender, moves to the end in the version 1.1 form. -/
namespace TrustedFirmware.Spmc
open ByteMemory RecordTiling
set_option autoImplicit false

variable {W : Write → Prop} {P : Platform} {s s' : Datastore} {r : Reply} {pre post : List Obj}
  {o : Obj} {v handle : ℕ}

/-- Complete objects are laid out in version 1.1. -/
def FullLayout (P : Platform) (objs : List Obj) : Prop :=
  ∀ x ∈ objs, x.descFilled = x.descSize → Layout P (makeFfaVersion 1 1) x.desc x.descSize

/-- The ranges of `o`, read in version `v`, are apart from those of the complete objects with
another handle. -/
def Clear (v : ℕ) (o : Obj) (objs : List Obj) : Prop :=
  ∀ x ∈ objs, Mtd.handle o.desc ≠ Mtd.handle x.desc → x.descFilled = x.descSize →
    ∀ r1 ∈ regionRanges o.desc v, ∀ r2 ∈ regionRanges x.desc (makeFfaVersion 1 1), Apart r1 r2

def convertedObj (o : Obj) (y : Bytes) : Obj where
  descSize := spmcShmGetV11DescriptorSize o.desc
  descFilled := spmcShmGetV11DescriptorSize o.desc
  inUse := 0
  hypShift := 0
  desc := y

/-! ## The last steps -/

theorem fillFail_eq {p : ℕ} {code : Int} (h : fillFail s p code = some (s', r)) :
    s' = spmcShmemObjFree s p ∧ r = .error code := by
  simp only [fillFail, Option.some.injEq, Prod.mk.injEq] at h
  exact ⟨h.1.symm, h.2.symm⟩

theorem fillBegin_cases (h : Stored W s (pre ++ o :: post))
    (hres : fillBegin P s (offsetOf pre) handle = some (s', r)) :
    (∃ code, r = .error code ∧ s.Kept s' ∧ Stored W s' (pre ++ post)) ∨
      (s' = s ∧ r = .successHandle (handle % 2 ^ 32) (handle / 2 ^ 32)) := by
  simp only [fillBegin] at hres
  split at hres
  · obtain ⟨rfl, rfl⟩ := fillFail_eq hres
    exact Or.inl ⟨_, rfl, kept_free s _, h.free⟩
  · simp only [Option.some.injEq, Prod.mk.injEq] at hres
    exact Or.inr ⟨hres.1.symm, hres.2.symm⟩

/-- What becomes of the object `o` that a fragment was added to. -/
inductive Outcome (P : Platform) (W : Write → Prop) (v : ℕ) (pre post : List Obj) (o : Obj)
    (s s' : Datastore) : Reply → Prop
  | rejected {r : Reply} {code : Int} (hr : r = .error code) (kept : s.Kept s')
      (stored : Stored W s' (pre ++ post)) : Outcome P W v pre post o s s' r
  | more {r : Reply} (partly : o.descFilled ≠ o.descSize)
      (hr : r = .memFragRx (Mtd.handle o.desc % 2 ^ 32) (Mtd.handle o.desc / 2 ^ 32) o.descFilled
        (Mtd.senderId o.desc * 2 ^ 16))
      (kept : s.Kept s') (stored : Stored W s' (pre ++ o :: post)) : Outcome P W v pre post o s s' r
  | accepted {r : Reply} (hv : v ≠ makeFfaVersion 1 0)
      (hr : r = .successHandle (Mtd.handle o.desc % 2 ^ 32) (Mtd.handle o.desc / 2 ^ 32))
      (full : o.descFilled = o.descSize) (layout : Layout P v o.desc o.descSize)
      (clear : Clear v o (pre ++ post)) (kept : s.Kept s')
      (stored : Stored W s' (pre ++ o :: post)) : Outcome P W v pre post o s s' r
  | converted {r : Reply} {y : Bytes} (hv : v = makeFfaVersion 1 0)
      (hr : r = .successHandle (Mtd.handle o.desc % 2 ^ 32) (Mtd.handle o.desc / 2 ^ 32))
      (full : o.descFilled = o.descSize) (layout : Layout P v o.desc o.descSize)
      (clear : Clear v o (pre ++ post)) (v11 : V11Of o.desc y) (kept : s.Kept s')
      (stored : Stored W s' (pre ++ post ++ [convertedObj o y])) : Outcome P W v pre post o s s' r
  /-- The platform rejects a converted object: the one that the handle is found at is freed. -/
  | dropped {r : Reply} {code : Int} {y : Bytes} {pre' post' : List Obj} {x : Obj}
      (hv : v = makeFfaVersion 1 0) (hr : r = .error code)
      (full : o.descFilled = o.descSize) (layout : Layout P v o.desc o.descSize)
      (clear : Clear v o (pre ++ post)) (v11 : V11Of o.desc y)
      (split : pre ++ post ++ [convertedObj o y] = pre' ++ x :: post')
      (found : Mtd.handle x.desc = Mtd.handle o.desc)
      (first : ∀ z ∈ pre', Mtd.handle z.desc ≠ Mtd.handle o.desc) (kept : s.Kept s')
      (stored : Stored W s' (pre' ++ post')) : Outcome P W v pre post o s s' r

theorem Outcome.of_kept {t : Datastore} (h : Outcome P W v pre post o t s' r) (hk : s.Kept t) :
    Outcome P W v pre post o s s' r := by
  cases h with
  | rejected hr k hs => exact .rejected hr (hk.trans k) hs
  | more hp hr k hs => exact .more hp hr (hk.trans k) hs
  | accepted hv hr hf hl hc k hs => exact .accepted hv hr hf hl hc (hk.trans k) hs
  | converted hv hr hf hl hc hy k hs => exact .converted hv hr hf hl hc hy (hk.trans k) hs
  | dropped hv hr hf hl hc hy hsp hx h1 k hs =>
    exact .dropped hv hr hf hl hc hy hsp hx h1 (hk.trans k) hs

/-- The object for the version 1.1 form: allocated, given its size a second time, and marked as
received. -/
def convertTarget (s : Datastore) (n : ℕ) : Datastore :=
  ((allocated s n).put s.allocated 0 8 n).setDescFilled s.allocated n

theorem convertTarget_stored {objs : List Obj} {n : ℕ} (h : Stored W s objs) (hf : Fits s n)
    (h48 : 48 ≤ n) :
    Stored W (convertTarget s n) (objs ++ [{ freshObj s n with descFilled := n }]) := by
  have hroom := hf.room
  have hsmall := h.small
  have h1 := h.alloc hf fun hshort => absurd hshort (by omega)
  have h2 := @Stored.putSize W _ objs [] (freshObj s n) h1
  have h3 := @Stored.setDescFilled W _ objs [] (freshObj s n) n h2 (by omega)
  rw [← h.allocated_eq] at h3
  exact h3

theorem fillConverted_cases {s₀ : Datastore} {n : ℕ}
    (h : Stored W s (pre ++ o :: (post ++ [{ freshObj s₀ n with descFilled := n }])))
    (hfull : o.descFilled = o.descSize) (hl : Layout P (makeFfaVersion 1 0) o.desc o.descSize)
    (hc : Clear (makeFfaVersion 1 0) o (pre ++ post))
    (hn : n = spmcShmGetV11DescriptorSize o.desc) (hsize : n ≤ UINT32_MAX)
    (hres : fillConverted P s (offsetOf pre) (offsetOf (pre ++ o :: post)) (Mtd.handle o.desc) =
      some (s', r)) : Outcome P W (makeFfaVersion 1 0) pre post o s s' r := by
  have h3 := h
  rw [← List.cons_append, ← List.append_assoc] at h3
  obtain ⟨y, s4, he, hk, h4, hy⟩ := convertFromV10_spec h3 h.obj_eq hl hn hsize
  rw [fillConverted, he] at hres
  have h4' : Stored W s4 (pre ++ o :: (post ++ [convertedObj o y])) := by
    rw [List.append_assoc, List.cons_append] at h4
    rw [convertedObj, ← hn]
    exact h4
  have hkept : s.Kept (spmcShmemObjFree s4 (offsetOf pre)) := hk.trans (kept_free s4 _)
  have h5 := h4'.free
  simp only [h4'.obj_eq] at hres
  cases hlook : spmcShmemObjLookup (spmcShmemObjFree s4 (offsetOf pre)) (Mtd.handle o.desc) with
  | none =>
    -- the converted object carries the handle
    have hmem : convertedObj o y ∈ pre ++ (post ++ [convertedObj o y]) := by simp
    exact absurd hy.same.handle (h5.lookup_none hlook _ hmem)
  | some q =>
    rw [hlook] at hres
    obtain ⟨pre', x, post', hsplit, hx, hfirst, rfl⟩ := h5.lookup_some hlook
    rw [hsplit] at h5
    rw [← List.append_assoc] at hsplit
    rcases fillBegin_cases h5 hres with ⟨code, hr, hk', h6⟩ | ⟨rfl, hr⟩
    · exact .dropped rfl hr hfull hl hc hy hsplit hx hfirst (hkept.trans hk') h6
    · rw [← hsplit] at h5
      exact .converted rfl hr hfull hl hc hy hkept h5

theorem fillConvert_cases (h : Stored W s (pre ++ o :: post)) (hfull : o.descFilled = o.descSize)
    (hl : Layout P (makeFfaVersion 1 0) o.desc o.descSize)
    (hc : Clear (makeFfaVersion 1 0) o (pre ++ post))
    (hres : fillConvert P s (offsetOf pre) (Mtd.handle o.desc) = some (s', r)) :
    Outcome P W (makeFfaVersion 1 0) pre post o s s' r := by
  rw [fillConvert, h.obj_eq] at hres
  obtain ⟨n, hn⟩ : ∃ n, n = spmcShmGetV11DescriptorSize o.desc := ⟨_, rfl⟩
  rw [← hn] at hres
  split at hres
  · obtain ⟨rfl, rfl⟩ := fillFail_eq hres
    exact .rejected rfl (kept_free s _) h.free
  rename_i hsize
  cases ha : spmcShmemObjAlloc s n with
  | none =>
    rw [ha] at hres
    obtain ⟨rfl, rfl⟩ := fillFail_eq hres
    exact .rejected rfl (kept_free s _) h.free
  | some a =>
    obtain ⟨q, s1⟩ := a
    rw [ha] at hres
    have hlt : n < 2 ^ 64 := by
      rw [UINT32_MAX] at hsize
      omega
    obtain ⟨hfits, rfl, rfl⟩ := alloc_some h hlt ha
    have h48 : 48 ≤ n := by
      rw [hn, spmcShmGetV11DescriptorSize]
      omega
    have h3 := convertTarget_stored h hfits h48
    rw [List.append_assoc, List.cons_append] at h3
    have hres' : fillConverted P (convertTarget s n) (offsetOf pre) (offsetOf (pre ++ o :: post))
        (Mtd.handle o.desc) = some (s', r) := by
      rw [← h.allocated_eq]
      exact hres
    exact (fillConverted_cases h3 hfull hl hc hn (Nat.le_of_not_lt hsize) hres').of_kept
      ⟨rfl, rfl, rfl⟩

/-! ## The checks -/

theorem checkState_eq_zero (h : Stored W s (pre ++ o :: post)) (hl : Layout P v o.desc o.descSize)
    (hf : o.descFilled = o.descSize) (hall : FullLayout P (pre ++ post))
    (hres : spmcShmemCheckStateObj s (offsetOf pre) v = some 0) : Clear v o (pre ++ post) := by
  rw [spmcShmemCheckStateObj, h.obj_eq, hl.getCompMrd hf, h.objects_eq] at hres
  intro x hx hne hfull
  have hx' : x ∈ pre ++ o :: post := by
    rcases List.mem_append.mp hx with h1 | h1
    · exact List.mem_append_left _ h1
    · exact List.mem_append_right _ (List.mem_cons_of_mem _ h1)
  obtain ⟨pre', post', hsplit⟩ := List.append_of_mem hx'
  have hmem : (0 + extent objFormat pre', x) ∈ withOffsets objFormat 0 (pre ++ o :: post) :=
    mem_withOffsets.mpr ⟨pre', post', hsplit, rfl⟩
  obtain ⟨c', hc', hov⟩ := checkInflight_eq_zero hres _ hmem hne hfull.symm
  -- the other object's composite descriptor is where its first endpoint descriptor says
  have hlx := (hall x hx hfull).other_version v11_ne compiled_ne (by decide)
  rw [hlx.getCompMrd hfull] at hc'
  have hce : c' = compOffset x.desc (makeFfaVersion 1 1) := by
    have h1 := (Option.some.inj (Option.some.inj hc')).symm
    rw [h1, compOffset, compOffset, firstEmad_of_ne _ v11_ne, firstEmad_of_ne _ compiled_ne]
  rw [hce] at hov
  exact overlapping_eq_false pages_lt pages_lt hov

theorem fillAccept_cases (h : Stored W s (pre ++ o :: post)) (hall : FullLayout P (pre ++ post))
    (hres : fillAccept P s (offsetOf pre) v = some (s', r)) :
    Outcome P W v pre post o s s' r := by
  rw [fillAccept, h.obj_eq] at hres
  cases hc : spmcShmemCheckObj P o v with
  | none =>
    rw [hc] at hres
    cases hres
  | some ret =>
    rw [hc] at hres
    simp only at hres
    split at hres
    · obtain ⟨rfl, rfl⟩ := fillFail_eq hres
      exact .rejected rfl (kept_free s _) h.free
    rename_i hret
    rw [not_not] at hret
    rw [hret] at hc
    obtain ⟨hf, hl⟩ := checkObj_eq_zero.mp hc
    cases hs : spmcShmemCheckStateObj s (offsetOf pre) v with
    | none =>
      rw [hs] at hres
      cases hres
    | some ret2 =>
      rw [hs] at hres
      simp only at hres
      split at hres
      · obtain ⟨rfl, rfl⟩ := fillFail_eq hres
        exact .rejected rfl (kept_free s _) h.free
      rename_i hret2
      rw [not_not] at hret2
      rw [hret2] at hs
      have hclear := checkState_eq_zero h hl hf hall hs
      split at hres
      · rename_i hv
        subst hv
        exact fillConvert_cases h hf hl hclear hres
      · rename_i hv
        rcases fillBegin_cases h hres with ⟨code, hr, hk, hst⟩ | ⟨rfl, hr⟩
        · exact .rejected hr hk hst
        · exact .accepted hv hr hf hl hclear (Datastore.Kept.refl _) h

/-! ## A fragment -/

def receivedObj (o : Obj) (tx : Bytes) (fragmentLength : ℕ) : Obj :=
  let d := blit o.desc o.descFilled tx fragmentLength
  { o with desc := store d 2 2 (Mtd.memoryRegionAttributes d ||| FFA_MEM_ATTR_NS_BIT) }

def namedObj (o : Obj) (handle mtdFlag : ℕ) : Obj :=
  { o with desc := store (store o.desc 8 8 handle) 4 4 (Mtd.flags o.desc ||| mtdFlag) }

def grownObj (o : Obj) (fragmentLength : ℕ) : Obj :=
  { o with descFilled := o.descFilled + fragmentLength }

def handleTaken (s : Datastore) : Datastore :=
  { s with nextHandle := (s.nextHandle + 1) % 2 ^ 64 }

theorem fillMore_cases {n : ℕ} (h : Stored W s (pre ++ o :: post))
    (hall : FullLayout P (pre ++ post)) (hn : o.descFilled + n ≤ o.descSize)
    (hres : fillMore P s (offsetOf pre) n v = some (s', r)) :
    Outcome P W v pre post (grownObj o n) s s' r := by
  have hlt := h.descSize_lt
  have h1 : Stored W (s.setDescFilled (offsetOf pre) (o.descFilled + n))
      (pre ++ grownObj o n :: post) := h.setDescFilled (by omega)
  rw [fillMore, h.obj_eq] at hres
  simp only [h1.obj_eq] at hres
  have hk : s.Kept (s.setDescFilled (offsetOf pre) (o.descFilled + n)) := ⟨rfl, rfl, rfl⟩
  split at hres
  · rename_i hp
    cases hres
    exact .more hp rfl hk h1
  · exact (fillAccept_cases h1 hall hres).of_kept hk

theorem fillFirst_eq {n flag : ℕ} (h : Stored W s (pre ++ o :: post))
    (hs : StartOk o.desc v n o.descSize) (hsize : 16 ≤ o.descSize) :
    ∃ t, fillFirst P s (offsetOf pre) n flag v = fillMore P t (offsetOf pre) n v ∧
      (handleTaken s).Kept t ∧ Stored W t (pre ++ namedObj o s.nextHandle flag :: post) := by
  have h1 : Stored W (s.put (offsetOf pre) (32 + 8) 8 s.nextHandle)
      (pre ++ { o with desc := store o.desc 8 8 s.nextHandle } :: post) := h.put (by omega)
  have h2 : Stored W (handleTaken (s.put (offsetOf pre) (32 + 8) 8 s.nextHandle))
      (pre ++ { o with desc := store o.desc 8 8 s.nextHandle } :: post) :=
    ⟨h1.tiles, h1.fits, h1.small, h1.logged, h1.covers⟩
  have h3 := @Stored.put W _ pre post _ 4 4 (Mtd.flags o.desc ||| flag) h2 (by simp only; omega)
  refine ⟨(handleTaken (s.put (offsetOf pre) (32 + 8) 8 s.nextHandle)).put (offsetOf pre) (32 + 4) 4
    (Mtd.flags o.desc ||| flag), ?_, ⟨rfl, rfl, rfl⟩, h3⟩
  rw [fillFirst, h.obj_eq, if_neg (not_not.mpr (validateMtdStart_eq_zero.mpr hs))]
  rfl

theorem fillFirst_cases {n flag : ℕ} (h : Stored W s (pre ++ o :: post))
    (hall : FullLayout P (pre ++ post)) (hn : o.descFilled + n ≤ o.descSize)
    (hres : fillFirst P s (offsetOf pre) n flag v = some (s', r)) :
    (¬ StartOk o.desc v n o.descSize ∧ ∃ code, r = .error code ∧ s.Kept s' ∧
      Stored W s' (pre ++ post)) ∨
    (StartOk o.desc v n o.descSize ∧ Outcome P W v pre post
      (grownObj (namedObj o s.nextHandle flag) n) (handleTaken s) s' r) := by
  by_cases hs : StartOk o.desc v n o.descSize
  · have hsize : 16 ≤ o.descSize := by
      have h1 := hs.header
      split at h1 <;> omega
    obtain ⟨t, he, hk, ht⟩ := fillFirst_eq h hs hsize
    rw [he] at hres
    exact Or.inr ⟨hs, (fillMore_cases ht hall hn hres).of_kept hk⟩
  · rw [fillFirst, h.obj_eq, if_pos (fun hz => hs (validateMtdStart_eq_zero.mp hz))] at hres
    obtain ⟨rfl, rfl⟩ := fillFail_eq hres
    exact Or.inl ⟨hs, _, rfl, kept_free s _, h.free⟩

/-- `spmc_ffa_fill_desc()` for the object `o` and its first or a further fragment. -/
inductive Received (P : Platform) (W : Write → Prop) (v pages flag : ℕ) (tx : Bytes) (n : ℕ)
    (pre post : List Obj) (o : Obj) (s s' : Datastore) (r : Reply) : Prop
  | refused {code : Int} (hr : r = .error code) (kept : s.Kept s')
      (stored : Stored W s' (pre ++ post)) : Received P W v pages flag tx n pre post o s s' r
  | first (room : n ≤ o.descSize - o.descFilled) (empty : o.descFilled = 0)
      (start : StartOk (receivedObj o tx n).desc v n o.descSize)
      (outcome : Outcome P W v pre post (grownObj (namedObj (receivedObj o tx n) s.nextHandle flag) n)
        (handleTaken s) s' r) : Received P W v pages flag tx n pre post o s s' r
  | next (room : n ≤ o.descSize - o.descFilled) (begun : o.descFilled ≠ 0)
      (outcome : Outcome P W v pre post (grownObj (receivedObj o tx n) n) s s' r) :
      Received P W v pages flag tx n pre post o s s' r

theorem fillDesc_cases {pages flag n : ℕ} {tx : Bytes} (h : Stored W s (pre ++ o :: post))
    (hall : FullLayout P (pre ++ post)) (hfill : o.descFilled ≤ o.descSize)
    (hsize : n ≤ o.descSize → 4 ≤ o.descSize)
    (hres : spmcFfaFillDesc P s pages tx (offsetOf pre) n flag v = some (s', r)) :
    Received P W v pages flag tx n pre post o s s' r := by
  rw [spmcFfaFillDesc, h.obj_eq] at hres
  have hfree : ∀ {t : Datastore} {x : Obj} {code : Int}, s.Kept t →
      Stored W t (pre ++ x :: post) → fillFail t (offsetOf pre) code = some (s', r) →
      Received P W v pages flag tx n pre post o s s' r := by
    intro t x code hk ht hf
    obtain ⟨rfl, rfl⟩ := fillFail_eq hf
    exact .refused rfl (hk.trans (kept_free t _)) ht.free
  have hk0 := Datastore.Kept.refl s
  split at hres
  · exact hfree hk0 h hres
  split at hres
  · exact hfree hk0 h hres
  split at hres
  · exact hfree hk0 h hres
  rename_i hroom
  have hn : o.descFilled + n ≤ o.descSize := by omega
  have h4 := hsize (by omega)
  have h1 := @Stored.copyIn W s pre post o o.descFilled n tx h hn
  have hk1 := kept_copyIn s (offsetOf pre) (32 + o.descFilled) n tx
  simp only [h1.obj_eq] at hres
  split at hres
  · exact hfree hk1 h1 hres
  split at hres
  · exact hfree hk1 h1 hres
  have h2 : Stored W _ (pre ++ receivedObj o tx n :: post) := h1.put (by simp only; omega)
  have hk2 := hk1.trans (kept_put _ (offsetOf pre) (32 + 2) 2
    (Mtd.memoryRegionAttributes (blit o.desc o.descFilled tx n) ||| FFA_MEM_ATTR_NS_BIT))
  split at hres
  · exact hfree hk2 h2 hres
  split at hres
  · rename_i hz
    rcases fillFirst_cases h2 hall hn hres with ⟨_, code, hr, hk, hst⟩ | ⟨hs, hout⟩
    · exact .refused hr (hk2.trans hk) hst
    · exact .first (by omega) hz hs (hout.of_kept ⟨rfl, rfl, rfl⟩)
  · rename_i hz
    exact .next (by omega) hz ((fillMore_cases h2 hall hn hres).of_kept hk2)

end TrustedFirmware.Spmc
