import Mathlib.Data.List.TakeWhile
import TrustedFirmware.Foundations.Words
import TrustedFirmware.Qti.Assignments
import TrustedFirmware.Qti.SipMemAssign

/-! # What a memory assignment call hands on, maps and leaves mapped

A region that a call asks the tables to map is rounded to whole pages, so it stays clear of secure memory
whose bounds are those of pages; what is added is taken out again before the call goes on; and the lists
are validated after they were copied. -/
namespace TrustedFirmware.Qti
open Libc
set_option autoImplicit false
set_option maxRecDepth 100000

/-! ## Rounding to pages -/

theorem roundDown_toNat (addr : UInt64) : (roundDown addr).toNat = addr.toNat / 4096 * 4096 :=
  Alignment.toNat_high (x := addr.toBitVec) (b := 4096#64) ⟨12, rfl⟩

theorem roundUp_toNat (size : UInt64) :
    (roundUp size).toNat = (size.toNat + 4095) / 4096 * 4096 % 2 ^ 64 := by
  have h : (roundUp size).toNat = ((size - 1).toNat / 4096 * 4096 + 4095 + 1) % 2 ^ 64 := by
    rw [roundUp, UInt64.toNat_add]
    exact congrArg (fun n => (n + 1) % 2 ^ 64)
      (Alignment.toNat_or_low (x := (size - 1).toBitVec) (b := 4096#64) ⟨12, rfl⟩)
  have hsub : (size - 1).toNat = (2 ^ 64 - 1 + size.toNat) % 2 ^ 64 := by
    rw [UInt64.toNat_sub]
    rfl
  have hlt := size.toNat_lt
  rw [h, hsub]
  omega

variable {ctx : XlatCtx} {addr size x5 x6 x7 : UInt64}

/-! ## Adding a region and taking it out again -/

theorem mmapCursor_split (mm : MmapRegion) (mmap : List MmapRegion) :
    ∃ pre post, mmap = pre ++ post ∧ mmapCursor mm mmap = pre.length ∧ ∀ m ∈ pre, m.size ≠ 0 := by
  refine ⟨(mmap.takeWhile fun c => c.endVa < mm.endVa && c.size != 0) ++
    (mmap.drop (mmap.takeWhile fun c => c.endVa < mm.endVa && c.size != 0).length).takeWhile fun c =>
      c.endVa == mm.endVa && c.size != 0 && c.size < mm.size,
    (mmap.drop (mmap.takeWhile fun c => c.endVa < mm.endVa && c.size != 0).length).dropWhile fun c =>
      c.endVa == mm.endVa && c.size != 0 && c.size < mm.size, ?_, ?_, ?_⟩
  · rw [List.append_assoc, List.takeWhile_append_dropWhile]
    nth_rewrite 1 [← List.takeWhile_append_dropWhile
      (p := fun c : MmapRegion => c.endVa < mm.endVa && c.size != 0) (l := mmap)]
    congr 1
    nth_rewrite 3 [← List.takeWhile_append_dropWhile
      (p := fun c : MmapRegion => c.endVa < mm.endVa && c.size != 0) (l := mmap)]
    rw [List.drop_left]
  · rw [List.length_append]
    rfl
  · intro m hm
    rcases List.mem_append.mp hm with hm | hm
    · have h := List.mem_takeWhile_imp hm
      simp only [Bool.and_eq_true, bne_iff_ne] at h
      exact h.2
    · have h := List.mem_takeWhile_imp hm
      simp only [Bool.and_eq_true, bne_iff_ne] at h
      exact h.1.2

theorem insertIdx_split {α : Type} (pre post : List α) (a : α) :
    (pre ++ post).insertIdx pre.length a = pre ++ a :: post := by
  induction pre with
  | nil => rfl
  | cons b pre ih => rw [List.cons_append, List.length_cons, List.insertIdx_succ_cons, ih]; rfl

theorem eraseIdx_split {α : Type} (pre post : List α) (a : α) :
    (pre ++ a :: post).eraseIdx pre.length = pre ++ post := by
  rw [List.eraseIdx_append_of_length_le (Nat.le_refl _), Nat.sub_self]
  rfl

theorem mmapAddRegionCheck_conflict {mm : MmapRegion}
    (h : (ctx.mmap.takeWhile fun c => c.size != 0).any (mmapConflict mm) = true) :
    mmapAddRegionCheck ctx mm ≠ 0 := by
  simp only [mmapAddRegionCheck, h, if_true]
  repeat' split
  all_goals decide

theorem mmapAddDynamicRegion_ok {room : Bool} {basePa baseVa : UInt64} (hsize : size ≠ 0)
    (h : (mmapAddDynamicRegion ctx room basePa baseVa size).1 = 0) :
    ∃ pre post, ctx.mmap = pre ++ post ∧
      (mmapAddDynamicRegion ctx room basePa baseVa size).2 =
        { ctx with mmap := pre ++ ⟨basePa, baseVa, size, true⟩ :: post } ∧
      ∀ m ∈ pre, m.size ≠ 0 ∧ ¬ (m.baseVa = baseVa ∧ m.size = size) := by
  obtain ⟨pre, post, hsplit, hcursor, hused⟩ :=
    mmapCursor_split ⟨basePa, baseVa, size, true⟩ ctx.mmap
  unfold mmapAddDynamicRegion at h ⊢
  rw [if_neg (by simpa using hsize)] at h ⊢
  dsimp only at h ⊢
  split at h
  · rename_i hret
    exact absurd h (by simpa using hret)
  rename_i hret
  rw [if_neg hret]
  cases room with
  | false => cases h
  | true =>
    rw [if_pos rfl]
    refine ⟨pre, post, hsplit, ?_, fun m hm => ⟨hused m hm, ?_⟩⟩
    · rw [hcursor, hsplit, insertIdx_split]
    · -- a region with the same address and size would have been a conflict
      rintro ⟨hbase, hsz⟩
      have hcheck : mmapAddRegionCheck ctx ⟨basePa, baseVa, size, true⟩ = 0 := by
        simpa using hret
      have hmem : m ∈ ctx.mmap.takeWhile fun c => c.size != 0 := by
        rw [hsplit, List.takeWhile_append_of_pos (by simpa using hused)]
        exact List.mem_append_left _ hm
      have hconf : mmapConflict ⟨basePa, baseVa, size, true⟩ m = true := by
        simp [mmapConflict, MmapRegion.endVa, hbase, hsz]
      have hany : (ctx.mmap.takeWhile fun c => c.size != 0).any
          (mmapConflict ⟨basePa, baseVa, size, true⟩) = true :=
        List.any_eq_true.mpr ⟨m, hmem, hconf⟩
      exact mmapAddRegionCheck_conflict hany hcheck

theorem mmapAddDynamicRegion_fail {room : Bool} {basePa baseVa : UInt64}
    (h : (mmapAddDynamicRegion ctx room basePa baseVa size).1 ≠ 0) :
    (mmapAddDynamicRegion ctx room basePa baseVa size).2 = ctx := by
  obtain ⟨pre, post, hsplit, hcursor, _⟩ := mmapCursor_split ⟨basePa, baseVa, size, true⟩ ctx.mmap
  unfold mmapAddDynamicRegion at h ⊢
  dsimp only at h ⊢
  by_cases hsize : (size == 0) = true
  · rw [if_pos hsize]
  rw [if_neg hsize] at h ⊢
  by_cases hret : (mmapAddRegionCheck ctx ⟨basePa, baseVa, size, true⟩ != 0) = true
  · rw [if_pos hret]
  rw [if_neg hret] at h ⊢
  cases room with
  | true => exact absurd rfl h
  | false =>
    rw [if_neg Bool.false_ne_true, hcursor, hsplit, insertIdx_split, eraseIdx_split, ← hsplit]

theorem findIdx_split {α : Type} {f : α → Bool} {pre post : List α} {a : α}
    (hpre : ∀ x ∈ pre, f x = false) (ha : f a = true) :
    (pre ++ a :: post).findIdx f = pre.length := by
  induction pre with
  | nil => simp [List.findIdx_cons, ha]
  | cons b pre ih =>
    obtain ⟨hb, hrest⟩ := List.forall_mem_cons.mp hpre
    rw [List.cons_append, List.findIdx_cons, hb, ih hrest]
    rfl

theorem mmapRemove_added {ctx' : XlatCtx} {basePa baseVa : UInt64} {pre post : List MmapRegion}
    (hsize : size ≠ 0) (hsplit : ctx.mmap = pre ++ post)
    (hctx : ctx' = { ctx with mmap := pre ++ ⟨basePa, baseVa, size, true⟩ :: post })
    (hpre : ∀ m ∈ pre, m.size ≠ 0 ∧ ¬ (m.baseVa = baseVa ∧ m.size = size)) :
    mmapRemoveDynamicRegion ctx' baseVa size = (0, ctx) := by
  have hidx : ctx'.mmap.findIdx (fun m => m.size == 0 || (m.baseVa == baseVa && m.size == size)) =
      pre.length := by
    rw [hctx]
    refine findIdx_split (fun m hm => ?_) (by simp)
    obtain ⟨hused, hne⟩ := hpre m hm
    simpa [hused] using hne
  rw [mmapRemoveDynamicRegion, hidx, hctx]
  dsimp only
  rw [List.getElem?_append_right (Nat.le_refl _), Nat.sub_self, List.getElem?_cons_zero]
  dsimp only
  rw [if_neg (by simpa using hsize), eraseIdx_split, ← hsplit]
  rfl

theorem mmapRemove_zero (ctx : XlatCtx) (baseVa : UInt64) :
    mmapRemoveDynamicRegion ctx baseVa 0 = (-EINVAL, ctx) := by
  rw [mmapRemoveDynamicRegion]
  split
  · rfl
  · rename_i m hm
    obtain ⟨hlt, hget⟩ := List.getElem?_eq_some_iff.mp hm
    have hfound := List.findIdx_getElem (w := hlt)
    rw [hget] at hfound
    simp only [Bool.or_eq_true, Bool.and_eq_true, beq_iff_eq] at hfound
    rw [if_pos (beq_iff_eq.mpr (hfound.elim id And.right))]

/-! ## Regions named by the caller -/

def Platform.Clear (p : Platform) (m : MmapRegion) : Prop :=
  ∀ r ∈ p.secRegions, m.baseVa.toNat + m.size.toNat ≤ r.1.toNat ∨ r.2.toNat ≤ m.baseVa.toNat

theorem not_overlap {p : Platform} (h : qtiIsOverlapSecureRg p addr size = false) :
    addr.toNat + size.toNat < 2 ^ 64 ∧
      ∀ r ∈ p.secRegions, r.2.toNat ≤ addr.toNat ∨ addr.toNat + size.toNat ≤ r.1.toNat := by
  rw [qtiIsOverlapSecureRg, Bool.or_eq_false_iff, decide_eq_false_iff_not, UInt64.lt_iff_toNat_lt,
    UInt64.toNat_add, List.any_eq_false] at h
  have ha := addr.toNat_lt
  have hz := size.toNat_lt
  have hwrap : addr.toNat + size.toNat < 2 ^ 64 := by omega
  refine ⟨hwrap, fun r hr => ?_⟩
  have hr' := h.2 r hr
  rw [Bool.and_eq_true, decide_eq_true_iff, decide_eq_true_iff, UInt64.lt_iff_toNat_lt,
    UInt64.lt_iff_toNat_lt, UInt64.toNat_add, Nat.mod_eq_of_lt hwrap] at hr'
  omega

theorem align_fst (addr size : UInt64) :
    (qtiAlignMemRegion addr size).1.toNat = addr.toNat / 4096 * 4096 := roundDown_toNat addr

theorem align_snd (h : addr.toNat + size.toNat < 2 ^ 64) :
    (qtiAlignMemRegion addr size).2.toNat =
      (addr.toNat % 4096 + size.toNat + 4095) / 4096 * 4096 % 2 ^ 64 := by
  have hoff : (addr - roundDown addr + size).toNat = addr.toNat % 4096 + size.toNat := by
    rw [UInt64.toNat_add, UInt64.toNat_sub, roundDown_toNat]
    have ha := addr.toNat_lt
    omega
  rw [qtiAlignMemRegion, roundUp_toNat, hoff]

theorem aligned_clear {p : Platform} (h : qtiIsOverlapSecureRg p addr size = false) :
    p.Clear ⟨(qtiAlignMemRegion addr size).1, (qtiAlignMemRegion addr size).1,
      (qtiAlignMemRegion addr size).2, true⟩ := by
  obtain ⟨hwrap, hsec⟩ := not_overlap h
  intro r hr
  obtain ⟨hlo, hhi⟩ := p.sec_aligned r hr
  have hr' := hsec r hr
  have hr2 := r.1.toNat_lt
  rw [align_fst, align_snd hwrap]
  omega

variable {p : Platform} {s : Mapping} {room : Bool} {addr size : UInt64}

theorem qtiAdd_tried (h : ∀ m ∈ s.tried, p.Clear m) :
    ∀ m ∈ (qtiMmapAddDynamicRegion p room addr size s).2.tried, p.Clear m := by
  unfold qtiMmapAddDynamicRegion
  cases hover : qtiIsOverlapSecureRg p addr size with
  | true => exact h
  | false =>
    intro m hm
    rcases List.mem_append.mp hm with hm | hm
    · exact h m hm
    · rw [List.mem_singleton.mp hm]
      exact aligned_clear hover

theorem qtiAdd_fail (h : (qtiMmapAddDynamicRegion p room addr size s).1 ≠ 0) :
    (qtiMmapAddDynamicRegion p room addr size s).2.ctx = s.ctx := by
  unfold qtiMmapAddDynamicRegion at h ⊢
  cases hover : qtiIsOverlapSecureRg p addr size with
  | true => rfl
  | false =>
    rw [hover] at h
    exact mmapAddDynamicRegion_fail h

theorem qtiAdd_ok (h : (qtiMmapAddDynamicRegion p room addr size s).1 = 0) :
    (qtiMmapRemoveDynamicRegion addr size (qtiMmapAddDynamicRegion p room addr size s).2).2.ctx =
      s.ctx := by
  unfold qtiMmapAddDynamicRegion at h ⊢
  cases hover : qtiIsOverlapSecureRg p addr size with
  | true =>
    rw [hover] at h
    cases h
  | false =>
    rw [hover] at h
    rw [qtiMmapRemoveDynamicRegion]
    dsimp only at h ⊢
    by_cases hsize : (qtiAlignMemRegion addr size).2 = 0
    · rw [hsize]
      exact congrArg Prod.snd (mmapRemove_zero s.ctx _)
    · obtain ⟨pre, post, hsplit, hctx, hpre⟩ := mmapAddDynamicRegion_ok hsize h
      exact congrArg Prod.snd (mmapRemove_added hsize hsplit hctx hpre)

theorem qtiRemove_tried : (qtiMmapRemoveDynamicRegion addr size s).2.tried = s.tried := rfl

/-! ## The two steps of a call that map memory -/

variable {c : Smc} {m m' : Mapping}

theorem getIndirectArgs_error (hs : ∀ r ∈ s.tried, p.Clear r) (h : getIndirectArgs p c s = .error m) :
    ∀ r ∈ m.tried, p.Clear r := by
  unfold getIndirectArgs at h
  dsimp only at h
  split at h
  · cases h
  · split at h
    · cases h
    · cases h
      exact qtiAdd_tried hs

theorem loadWord_some {w : World} {time n : ℕ} {v : UInt64}
    (h : loadWord w ctx time addr n = some v) : v = wordAt w time addr n := by
  rw [loadWord] at h
  split at h
  · exact (Option.some.inj h).symm
  · cases h

def Smc.args (c : Smc) : UInt64 × UInt64 × UInt64 :=
  (wordAt c.world 0 (c.argAddr 0) c.word, wordAt c.world 1 (c.argAddr 1) c.word,
    wordAt c.world 2 (c.argAddr 2) c.word)

theorem getIndirectArgs_ok {ret : Int} {args : UInt64 × UInt64 × UInt64}
    (hs : ∀ r ∈ s.tried, p.Clear r) (h : getIndirectArgs p c s = .ok (ret, args, m)) :
    (∀ r ∈ m.tried, p.Clear r) ∧ m.ctx = s.ctx ∧ (ret = 0 → args = c.args) := by
  unfold getIndirectArgs at h
  dsimp only at h
  split at h
  · rename_i hret
    cases h
    exact ⟨qtiAdd_tried hs, qtiAdd_fail (by simpa using hret), fun hzero => absurd hzero (by simpa using hret)⟩
  · rename_i hret
    split at h
    · rename_i x5 x6 x7 h5 h6 h7
      cases h
      rw [qtiRemove_tried]
      refine ⟨qtiAdd_tried hs, qtiAdd_ok (by simpa using hret), fun _ => ?_⟩
      rw [loadWord_some h5, loadWord_some h6, loadWord_some h7, Smc.args]
    · cases h

theorem getMemParams_error (hs : ∀ r ∈ s.tried, p.Clear r)
    (h : getMemParams p c x5 x6 x7 s = .error m) : ∀ r ∈ m.tried, p.Clear r := by
  unfold getMemParams at h
  split at h
  · cases h
  split at h
  · cases h
  dsimp only at h
  split at h
  · cases h
  split at h
  · cases h
    exact qtiAdd_tried hs
  · cases h

theorem getMemParams_ok {ret : Int} {r : Request} (hs : ∀ r ∈ s.tried, p.Clear r)
    (h : getMemParams p c x5 x6 x7 s = .ok (ret, r, m)) :
    (∀ r ∈ m.tried, p.Clear r) ∧ m.ctx = s.ctx := by
  unfold getMemParams at h
  split at h
  · cases h
    exact ⟨hs, rfl⟩
  split at h
  · cases h
    exact ⟨hs, rfl⟩
  dsimp only at h
  split at h
  · rename_i hret
    cases h
    exact ⟨qtiAdd_tried hs, qtiAdd_fail (by simpa using hret)⟩
  rename_i hret
  split at h
  · cases h
  · cases h
    rw [qtiRemove_tried]
    exact ⟨qtiAdd_tried hs, qtiAdd_ok (by simpa using hret)⟩

theorem copyBytes_some {w : World} {time len : ℕ} {b : ByteMemory.Bytes}
    (h : copyBytes w ctx time addr len = some b) : b = bytesAt w time addr := by
  rw [copyBytes] at h
  split at h
  · exact (Option.some.inj h).symm
  · cases h

theorem copyParams_zero {w : World} {x2 x3 x4 : UInt64} {r : Request}
    (h : copyParams p w ctx x2 x3 x4 x5 x6 x7 = some (0, r)) :
    r = shownLists w x2 x3 x4 x5 x6 x7 ∧ qtiMemAssignValidateParam p.memTypeOk r = true := by
  have hne : (-EINVAL : Int) ≠ 0 := by decide
  unfold copyParams at h
  dsimp only at h
  split at h
  · exact absurd (Prod.mk.inj (Option.some.inj h)).1 hne
  split at h
  · exact absurd (Prod.mk.inj (Option.some.inj h)).1 hne
  split at h
  · cases h
  rename_i mem hmem
  split at h
  · exact absurd (Prod.mk.inj (Option.some.inj h)).1 hne
  split at h
  · cases h
  rename_i src hsrc
  split at h
  · exact absurd (Prod.mk.inj (Option.some.inj h)).1 hne
  split at h
  · cases h
  rename_i dst hdst
  rw [copyBytes_some hmem, copyBytes_some hsrc, copyBytes_some hdst] at h
  obtain ⟨hret, rfl⟩ := Prod.mk.inj (Option.some.inj h)
  refine ⟨rfl, ?_⟩
  by_contra hfalse
  rw [if_neg hfalse] at hret
  exact hne hret

theorem getMemParams_zero {r : Request} (h : getMemParams p c x5 x6 x7 s = .ok (0, r, m)) :
    r = shownLists c.world c.x2 c.x3 c.x4 x5 x6 x7 ∧ qtiMemAssignValidateParam p.memTypeOk r = true := by
  have hne : (-EINVAL : Int) ≠ 0 := by decide
  unfold getMemParams at h
  split at h
  · exact absurd (Prod.mk.inj (Except.ok.inj h)).1 hne
  split at h
  · exact absurd (Prod.mk.inj (Except.ok.inj h)).1 hne
  dsimp only at h
  split at h
  · rename_i hret
    exact absurd (Prod.mk.inj (Except.ok.inj h)).1 (by simpa using hret)
  split at h
  · cases h
  rename_i ret params hcopy
  obtain ⟨hret, hrest⟩ := Prod.mk.inj (Except.ok.inj h)
  obtain ⟨rfl, _⟩ := Prod.mk.inj hrest
  have hzero : ret = 0 := by
    by_contra hne'
    rw [if_pos (by simpa using hne')] at hret
    exact hne' hret
  subst hzero
  exact copyParams_zero hcopy

/-! ## The whole call -/

/-- What a call can come to: it is refused before the driver is asked, a read is an exception, or the
lists are handed to the driver, in the state from before the call. -/
inductive Exits (p : Platform) (s : State) (c : Smc) : Outcome → Prop
  | refused {ret : Int} {tried : List MmapRegion} (hret : ret ≠ 0) (hclear : ∀ m ∈ tried, p.Clear m) :
      Exits p s c ⟨statusOf ret, s, tried, none⟩
  | faults {m : Mapping} (hclear : ∀ r ∈ m.tried, p.Clear r)
      (hread : (c.x1 = QTI_SIP_SVC_MEM_ASSIGN_PARAM_ID ∧ c.x5 ≠ 0 ∧
          getIndirectArgs p c ⟨s.ctx, []⟩ = .error m) ∨
        ∃ m₁, m₁.ctx = s.ctx ∧ getMemParams p c c.args.1 c.args.2.1 c.args.2.2 m₁ = .error m) :
      Exits p s c ⟨.fault, { s with ctx := m.ctx }, m.tried, none⟩
  | hands {tried : List MmapRegion} (hclear : ∀ m ∈ tried, p.Clear m)
      (hvalidate : qtiMemAssignValidateParam p.memTypeOk c.shown = true) :
      Exits p s c ⟨(lockedMemAssign s c.shown).1, (lockedMemAssign s c.shown).2, tried, some c.shown⟩

theorem qtiSipMemAssign_exits (p : Platform) (s : State) (c : Smc) :
    Exits p s c (qtiSipMemAssign p s c) := by
  have hnone : ∀ m ∈ (⟨s.ctx, []⟩ : Mapping).tried, p.Clear m := by simp
  unfold qtiSipMemAssign
  split
  · exact .refused (by decide) (by simp)
  rename_i hid
  split
  · exact .refused (by decide) (by simp)
  rename_i hx5
  split
  · rename_i m hargs
    exact .faults (getIndirectArgs_error hnone hargs)
      (.inl ⟨by simpa using hid, by simpa using hx5, hargs⟩)
  · rename_i ret x5 x6 x7 m hargs
    obtain ⟨hclear, hctx, hread⟩ := getIndirectArgs_ok hnone hargs
    split
    · rename_i hret
      rw [hctx]
      exact .refused (by simpa using hret) hclear
    rename_i hret
    have heq : (x5, x6, x7) = c.args := hread (by simpa using hret)
    obtain ⟨h5, h6, h7⟩ := Prod.mk.inj heq |>.imp_right Prod.mk.inj
    split
    · rename_i m' hparams
      refine .faults (getMemParams_error hclear hparams) (.inr ⟨m, hctx, ?_⟩)
      rw [← heq]
      exact hparams
    · rename_i ret' params m' hparams
      obtain ⟨hclear', hctx'⟩ := getMemParams_ok hclear hparams
      split
      · rename_i hret'
        rw [hctx', hctx]
        exact .refused (by simpa using hret') hclear'
      · rename_i hret'
        obtain rfl : ret' = 0 := by simpa using hret'
        obtain ⟨hshown, hvalidate⟩ := getMemParams_zero hparams
        rw [h5, h6, h7] at hshown
        obtain rfl : params = c.shown := hshown
        rw [hctx', hctx]
        exact .hands hclear' hvalidate

theorem lockedMemAssign_ctx (s : State) (r : Request) : (lockedMemAssign s r).2.ctx = s.ctx := by
  unfold lockedMemAssign
  split
  · rfl
  · split <;> rfl

/-- **Safety of the call.** Whatever its registers are and the caller's memory shows, at whatever time,
the lists that a call hands to the driver are those that it copied, are within their bounds and hold
regions of whole pages that are not empty and do not wrap; no region that it asks the tables to map touches secure memory; and when
it leaves, in any way but an exception, the mapped regions are those from before. -/
theorem mem_assign_smc_safe (p : Platform) (s : State) (c : Smc) :
    (∀ r, (qtiSipMemAssign p s c).handed = some r → r = c.shown ∧ r.Valid) ∧
      (∀ m ∈ (qtiSipMemAssign p s c).tried, p.Clear m) ∧
      ((qtiSipMemAssign p s c).reply ≠ .fault → (qtiSipMemAssign p s c).state.ctx = s.ctx) := by
  have hexits := qtiSipMemAssign_exits p s c
  generalize qtiSipMemAssign p s c = o at hexits
  cases hexits with
  | refused hret hclear => exact ⟨by simp, hclear, fun _ => rfl⟩
  | faults hclear _ => exact ⟨by simp, hclear, fun h => absurd rfl h⟩
  | hands hclear hvalidate =>
    refine ⟨fun r hr => ?_, hclear, fun _ => lockedMemAssign_ctx s c.shown⟩
    cases hr
    exact ⟨rfl, valid_of_validate hvalidate⟩

def State.initial (board : List MpuRanges) (ctx : XlatCtx) : State :=
  ⟨xpuMasterMpuInit board, false, ctx⟩

def rb3gen2 : Platform where
  bl31 := (0x1c200000, 0x1c300000)
  otherSecRegions := [(0x1c300000, 0x1c500000), (0x1c000000, 0x20000000), (0x1c00e000, 0x1c10e000)]
  memTypeOk := fun _ => true
  bl31_lt := by decide
  sec_aligned := by simp

def emptyCtx : XlatCtx := ⟨[], 32, 0xfffffffff, 0xfffffffff⟩

/-- The words in the memory of a caller who gives pages to the modem: the arguments, the list of
regions and the two lists of VMs. -/
def callerWord (addr : UInt64) : UInt64 :=
  if addr = 0x90000000 then 4
  else if addr = 0x90000008 then 0x90003000
  else if addr = 0x90000010 then 24
  else if addr = 0x90002000 then 3
  else if addr = 0x90003000 then 0x60000000f
  else if addr &&& 8 = 0 then 0x80000000 + (addr &&& 0xff0) * 0x100
  else 0x1000

def callerWorld : World := fun _ addr =>
  UInt8.ofNat ((callerWord (addr &&& ~~~7)).toNat / 256 ^ (addr &&& 7).toNat)

/-- The call that gives the first `cnt` of the pages. -/
def givePages (cnt : UInt64) : Smc :=
  ⟨false, QTI_SIP_SVC_MEM_ASSIGN_PARAM_ID, 0x90001000, cnt * 16, 0x90002000, 0x90000000, callerWorld,
    (true, true)⟩

theorem mem_assign_smc_safe_page :
    (givePages 1).shown.Valid ∧
      (qtiSipMemAssign rb3gen2 (.initial msmMpuRanges emptyCtx) (givePages 1)).state.ctx = emptyCtx := by
  obtain ⟨hhanded, _, hctx⟩ :=
    mem_assign_smc_safe rb3gen2 (.initial msmMpuRanges emptyCtx) (givePages 1)
  exact ⟨(hhanded _ (by decide +kernel)).2, hctx (by decide +kernel)⟩

end TrustedFirmware.Qti
