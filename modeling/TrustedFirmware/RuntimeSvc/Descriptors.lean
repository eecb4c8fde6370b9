import TrustedFirmware.Common

/-! # Runtime service descriptors and the index table built at boot

Function identifiers of the SMC calling convention (`include/lib/smccc.h`), the
descriptors that services export through the `rt_svc_descs` linker section, and
`runtime_svc_init` (`common/runtime_svc.c`), which fills `rt_svc_descs_indices`.

The table is filled in descriptor order, so an entry ends up with the index of
the last initialised descriptor whose range holds it: `init_owner`. -/
namespace TrustedFirmware.RuntimeSvc
open Libc Smccc
set_option autoImplicit false

/-! ## Function identifiers -/

def OEN_LIMIT : ℕ := 64
def MAX_RT_SVCS : ℕ := 128
def SMC_TYPE_FAST : ℕ := 1
def SMC_TYPE_YIELD : ℕ := 0

def getSmcType (id : BitVec 32) : BitVec 32 := (id >>> FUNCID_TYPE_SHIFT) &&& FUNCID_TYPE_MASK

def getSmcOen (id : BitVec 32) : BitVec 32 := (id >>> FUNCID_OEN_SHIFT) &&& FUNCID_OEN_MASK

def getUniqueOen (oen callType : BitVec 32) : BitVec 32 :=
  ((callType &&& FUNCID_TYPE_MASK) <<< FUNCID_OEN_WIDTH) ||| (oen &&& FUNCID_OEN_MASK)

def getUniqueOenFromSmcFid (fid : BitVec 32) : BitVec 32 :=
  getUniqueOen (getSmcOen fid) (getSmcType fid)

theorem getSmcType_lt (fid : BitVec 32) : (getSmcType fid).toNat < 2 := by
  simp only [getSmcType, FUNCID_TYPE_MASK, BitVec.toNat_and]
  exact Nat.lt_of_le_of_lt Nat.and_le_right (by decide)

theorem getSmcOen_lt (fid : BitVec 32) : (getSmcOen fid).toNat < 64 := by
  simp only [getSmcOen, FUNCID_OEN_MASK, BitVec.toNat_and]
  exact Nat.lt_of_le_of_lt Nat.and_le_right (by decide)

theorem getUniqueOen_toNat (oen callType : BitVec 32) (ho : oen.toNat < 64)
    (hc : callType.toNat < 2) :
    (getUniqueOen oen callType).toNat = callType.toNat * 64 + oen.toNat := by
  have ho' : oen.toNat &&& 63 = oen.toNat := by
    rw [Nat.and_two_pow_sub_one_eq_mod oen.toNat 6, Nat.mod_eq_of_lt ho]
  have hc' : callType.toNat &&& 1 = callType.toNat := by
    rw [Nat.and_two_pow_sub_one_eq_mod callType.toNat 1, Nat.mod_eq_of_lt hc]
  have hs : callType.toNat <<< 6 % 2 ^ 32 = callType.toNat <<< 6 := by
    apply Nat.mod_eq_of_lt
    rw [Nat.shiftLeft_eq]; omega
  have hor : callType.toNat <<< 6 ||| oen.toNat = callType.toNat <<< 6 + oen.toNat :=
    (Nat.shiftLeft_add_eq_or_of_lt (b := oen.toNat) (i := 6) ho callType.toNat).symm
  have hOen : FUNCID_OEN_MASK.toNat = 63 := by decide
  have hType : FUNCID_TYPE_MASK.toNat = 1 := by decide
  rw [getUniqueOen, FUNCID_OEN_WIDTH, BitVec.toNat_or, BitVec.toNat_shiftLeft, BitVec.toNat_and,
    BitVec.toNat_and, hOen, hType, ho', hc', hs, hor, Nat.shiftLeft_eq]

/-! ## Descriptors -/

/-- `rt_svc_desc_t`, without the name that only the error message prints. `handle` is `none` for a
NULL handler. -/
structure RtSvcDesc (H : Type) where
  startOen : BitVec 8
  endOen : BitVec 8
  callType : BitVec 8
  hasInit : Bool
  handle : Option H

variable {H : Type}

/-- The address of an array element is never NULL, so the check on `desc` itself has no case. -/
def validateRtSvcDesc (d : RtSvcDesc H) : Int :=
  if d.startOen > d.endOen then -EINVAL
  else if d.endOen.toNat ≥ OEN_LIMIT then -EINVAL
  else if d.callType.toNat ≠ SMC_TYPE_FAST ∧ d.callType.toNat ≠ SMC_TYPE_YIELD then -EINVAL
  else if d.hasInit = false ∧ d.handle = none then -EINVAL
  else 0

theorem validateRtSvcDesc_eq_zero {d : RtSvcDesc H} (h : validateRtSvcDesc d = 0) :
    d.startOen.toNat ≤ d.endOen.toNat ∧ d.endOen.toNat < 64 ∧ d.callType.toNat < 2 := by
  have hE : (-EINVAL : Int) ≠ 0 := by decide
  unfold validateRtSvcDesc at h
  split_ifs at h with h1 h2 h3 h4
  · exact absurd h hE
  · exact absurd h hE
  · exact absurd h hE
  · exact absurd h hE
  · simp only [OEN_LIMIT, SMC_TYPE_FAST, SMC_TYPE_YIELD, gt_iff_lt, BitVec.lt_def] at h1 h2 h3
    omega

/-- `get_unique_oen` of a descriptor's bounds, as the code calls it. -/
def startIdx (d : RtSvcDesc H) : ℕ :=
  (getUniqueOen (d.startOen.setWidth 32) (d.callType.setWidth 32)).toNat % 2 ^ 8

def endIdx (d : RtSvcDesc H) : ℕ :=
  (getUniqueOen (d.endOen.setWidth 32) (d.callType.setWidth 32)).toNat % 2 ^ 8

theorem idx_toNat (o c : BitVec 8) (ho : o.toNat < 64) (hc : c.toNat < 2) :
    (getUniqueOen (o.setWidth 32) (c.setWidth 32)).toNat % 2 ^ 8 = c.toNat * 64 + o.toNat := by
  have e : ∀ b : BitVec 8, (b.setWidth 32).toNat = b.toNat := by
    intro b
    rw [BitVec.toNat_setWidth, Nat.mod_eq_of_lt (by have := b.isLt; omega)]
  rw [getUniqueOen_toNat _ _ (by rw [e]; exact ho) (by rw [e]; exact hc), e, e,
    Nat.mod_eq_of_lt (by omega)]

/-! ## Filling the index table -/

/-- `rt_svc_descs_indices`. -/
abbrev Indices := ℕ → BitVec 8

/-- The loop `for (; start_idx <= end_idx; start_idx++)`, with the number of rounds left. -/
def fillIndices (index : BitVec 8) : ℕ → ℕ → Indices → Indices
  | _, 0, ind => ind
  | s, n + 1, ind => fillIndices index (s + 1) n (Function.update ind s index)

theorem fillIndices_get (index : BitVec 8) (s n : ℕ) (ind : Indices) (u : ℕ) :
    fillIndices index s n ind u = if s ≤ u ∧ u < s + n then index else ind u := by
  induction n generalizing s ind with
  | zero =>
    rw [if_neg (by omega)]; rfl
  | succ n ih =>
    rw [fillIndices, ih]
    by_cases hu : u = s
    · subst hu
      simp
    · rw [Function.update_of_ne hu]
      split_ifs <;> first | rfl | omega

/-- One round of the loop of `runtime_svc_init`. `rc` is what the service's `init` returned; `none`
is a panic or a failed assertion. -/
def initOne (d : RtSvcDesc H) (index : ℕ) (rc : Int) (ind : Indices) : Option Indices :=
  if validateRtSvcDesc d ≠ 0 then none
  else if d.hasInit = true ∧ rc ≠ 0 then some ind
  else if startIdx d ≤ endIdx d ∧ endIdx d < MAX_RT_SVCS then
    some (fillIndices (BitVec.ofNat 8 index) (startIdx d) (endIdx d + 1 - startIdx d) ind)
  else none

def initLoop (rcs : ℕ → Int) : List (RtSvcDesc H) → ℕ → Indices → Option Indices
  | [], _, ind => some ind
  | d :: ds, index, ind => (initOne d index (rcs index) ind).bind (initLoop rcs ds (index + 1))

def runtimeSvcInit (descs : List (RtSvcDesc H)) (rcs : ℕ → Int) (ind : Indices) : Option Indices :=
  if descs.length < MAX_RT_SVCS then
    if descs.length = 0 then some ind
    else initLoop rcs descs 0 (fun _ => BitVec.ofInt 8 (-1))
  else none

/-! ## Who owns an entry of the table -/

/-- The descriptor at index `i` was initialised successfully, or has nothing to initialise. -/
def Active (rcs : ℕ → Int) (i : ℕ) (d : RtSvcDesc H) : Prop := d.hasInit = false ∨ rcs i = 0

def InRange (d : RtSvcDesc H) (u : ℕ) : Prop := startIdx d ≤ u ∧ u ≤ endIdx d

/-- After the first `k` descriptors, entry `u` holds the index of the last active one among them
whose range holds `u`, or the initial 0xFF. -/
def Owner (descs : List (RtSvcDesc H)) (rcs : ℕ → Int) (k u : ℕ) (v : BitVec 8) : Prop :=
  (∃ i d, i < k ∧ descs[i]? = some d ∧ Active rcs i d ∧ InRange d u ∧ v = BitVec.ofNat 8 i ∧
    ∀ j e, i < j → j < k → descs[j]? = some e → Active rcs j e → ¬ InRange e u) ∨
  ((∀ j e, j < k → descs[j]? = some e → Active rcs j e → ¬ InRange e u) ∧ v = 255)

theorem initOne_cases {d : RtSvcDesc H} {index : ℕ} {rc : Int} {ind ind' : Indices}
    (h : initOne d index rc ind = some ind') :
    validateRtSvcDesc d = 0 ∧
      ((d.hasInit = true ∧ rc ≠ 0 ∧ ind' = ind) ∨
       ((d.hasInit = false ∨ rc = 0) ∧
        ∀ u, ind' u = if startIdx d ≤ u ∧ u ≤ endIdx d then BitVec.ofNat 8 index else ind u)) := by
  unfold initOne at h
  split_ifs at h with hv hi hr
  · refine ⟨not_not.mp hv, Or.inl ⟨hi.1, hi.2, ?_⟩⟩
    exact (Option.some.inj h).symm
  · refine ⟨not_not.mp hv, Or.inr ⟨?_, ?_⟩⟩
    · by_cases hb : d.hasInit = true
      · exact Or.inr (by by_contra hrc; exact hi ⟨hb, hrc⟩)
      · exact Or.inl (by simpa using hb)
    · intro u
      rw [← Option.some.inj h, fillIndices_get]
      split_ifs <;> first | rfl | omega

theorem owner_step {descs : List (RtSvcDesc H)} {rcs : ℕ → Int} {k u : ℕ} {d : RtSvcDesc H}
    {ind ind' : Indices} (hd : descs[k]? = some d) (h : initOne d k (rcs k) ind = some ind')
    (ho : Owner descs rcs k u (ind u)) : Owner descs rcs (k + 1) u (ind' u) := by
  obtain ⟨hinit, hrc, rfl⟩ | ⟨hact, hfill⟩ := (initOne_cases h).2
  · -- the service failed to initialise: nothing is written and descriptor `k` owns nothing
    have hna : ∀ e, descs[k]? = some e → ¬ Active rcs k e := by
      intro e he ha
      rw [hd] at he
      cases he
      rcases ha with ha | ha
      · rw [hinit] at ha; exact Bool.noConfusion ha
      · exact hrc ha
    rcases ho with ⟨i, e, hik, he, ha, hin, hv, hlast⟩ | ⟨hno, hv⟩
    · refine Or.inl ⟨i, e, by omega, he, ha, hin, hv, ?_⟩
      intro j f hij hj hf haf
      by_cases hjk : j = k
      · subst hjk; exact absurd haf (hna f hf)
      · exact hlast j f hij (by omega) hf haf
    · refine Or.inr ⟨?_, hv⟩
      intro j f hj hf haf
      by_cases hjk : j = k
      · subst hjk; exact absurd haf (hna f hf)
      · exact hno j f (by omega) hf haf
  · by_cases hin : startIdx d ≤ u ∧ u ≤ endIdx d
    · refine Or.inl ⟨k, d, by omega, hd, hact, hin, ?_, ?_⟩
      · rw [hfill u, if_pos hin]
      · intro j f hkj hj; omega
    · rw [hfill u, if_neg hin]
      have hnr : ∀ e, descs[k]? = some e → ¬ InRange e u := by
        intro e he hr
        rw [hd] at he
        cases he
        exact hin hr
      rcases ho with ⟨i, e, hik, he, ha, hir, hv, hlast⟩ | ⟨hno, hv⟩
      · refine Or.inl ⟨i, e, by omega, he, ha, hir, hv, ?_⟩
        intro j f hij hj hf haf
        by_cases hjk : j = k
        · subst hjk; exact hnr f hf
        · exact hlast j f hij (by omega) hf haf
      · refine Or.inr ⟨?_, hv⟩
        intro j f hj hf haf
        by_cases hjk : j = k
        · subst hjk; exact hnr f hf
        · exact hno j f (by omega) hf haf

theorem initLoop_owner (descs : List (RtSvcDesc H)) (rcs : ℕ → Int) (u : ℕ) :
    ∀ (ds : List (RtSvcDesc H)) (k : ℕ) (ind ind' : Indices), descs.drop k = ds →
      initLoop rcs ds k ind = some ind' → Owner descs rcs k u (ind u) →
      Owner descs rcs descs.length u (ind' u) ∧ ∀ d ∈ ds, validateRtSvcDesc d = 0 := by
  intro ds
  induction ds with
  | nil =>
    intro k ind ind' hk h ho
    have hlen : descs.length ≤ k := List.drop_eq_nil_iff.mp hk
    have hi : ind' = ind := (Option.some.inj h).symm
    subst hi
    refine ⟨?_, by simp⟩
    -- no descriptor sits between the end of the list and `k`
    rcases ho with ⟨i, d, hik, hd, ha, hr, hv, hlast⟩ | ⟨hno, hv⟩
    · have hil : i < descs.length := (List.getElem?_eq_some_iff.mp hd).1
      exact Or.inl ⟨i, d, hil, hd, ha, hr, hv, fun j e hij hj => hlast j e hij (by omega)⟩
    · exact Or.inr ⟨fun j e hj => hno j e (by omega), hv⟩
  | cons d ds ih =>
    intro k ind ind' hk h ho
    obtain ⟨mid, h1, h2⟩ := Option.bind_eq_some_iff.mp h
    have hd : descs[k]? = some d := by
      have hz : (descs.drop k)[0]? = some d := by rw [hk]; rfl
      simpa using hz
    have hk' : descs.drop (k + 1) = ds := by
      rw [← List.drop_drop, hk]; rfl
    obtain ⟨hown, hval⟩ := ih (k + 1) mid ind' hk' h2 (owner_step hd h1 ho)
    refine ⟨hown, ?_⟩
    intro e he
    rcases List.mem_cons.mp he with rfl | he
    · exact (initOne_cases h1).1
    · exact hval e he

/-- **The index table after boot.** -/
theorem init_owner {descs : List (RtSvcDesc H)} {rcs : ℕ → Int} {ind ind' : Indices}
    (h : runtimeSvcInit descs rcs ind = some ind') (hne : descs ≠ []) (u : ℕ) :
    Owner descs rcs descs.length u (ind' u) ∧ (∀ d ∈ descs, validateRtSvcDesc d = 0) ∧
      descs.length < 128 := by
  unfold runtimeSvcInit at h
  split_ifs at h with hlen hz
  · exact absurd (List.length_eq_zero_iff.mp hz) hne
  · have h0 : Owner descs rcs 0 u ((fun _ => BitVec.ofInt 8 (-1)) u) :=
      Or.inr ⟨fun j e hj => absurd hj (Nat.not_lt_zero j), rfl⟩
    obtain ⟨ho, hv⟩ := initLoop_owner descs rcs u descs 0 _ ind' rfl h h0
    exact ⟨ho, hv, hlen⟩

end TrustedFirmware.RuntimeSvc
