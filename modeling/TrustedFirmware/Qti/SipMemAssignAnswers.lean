import TrustedFirmware.Qti.SipMemAssignSafety

/-! # Sequences of memory assignment calls

A call is answered when its arguments in memory are aligned, so that EL3 can load them, and when every
MPU that it programs has RGs enough for the regions that are new to it. The reads of the lists need no
condition: the region that EL3 maps covers them. -/
namespace TrustedFirmware.Qti
open Libc Runs SlotTable
set_option autoImplicit false
set_option maxRecDepth 100000

/-! ## RGs enough for a request -/

def newRanges (mem : List Mem) (mpu : List Rg) : Finset Range :=
  (mem.map Mem.range).toFinset.filter fun range => range ∉ heldRanges mpu

theorem free_add_held (mpu : List Rg) :
    (mpu.filter Rg.free).length + (heldRanges mpu).card = mpu.length := by
  rw [card_heldRanges, ← List.countP_eq_length_filter, ← List.countP_eq_length_filter]
  have hsplit := List.length_eq_countP_add_countP Rg.free (l := mpu)
  simpa using hsplit.symm

theorem Update.length {domain : DomainType} {range : Range} {permR permW : UInt32}
    {mpu mpu' : List Rg} (h : Update domain range permR permW mpu mpu') : mpu'.length = mpu.length := by
  cases h with
  | freed hsplit _ _ => simp [hsplit]
  | rewritten hsplit _ _ => simp [hsplit]
  | taken hsplit _ _ => simp [hsplit]

theorem Update.room {domain : DomainType} {permR permW : UInt32} {m : Mem} {mem : List Mem}
    {mpu mid : List Rg} (h : Update domain m.range permR permW mpu mid) (hproper : Proper m.range)
    (hroom : (newRanges (m :: mem) mpu).card ≤ (mpu.filter Rg.free).length) :
    (newRanges mem mid).card ≤ (mid.filter Rg.free).length := by
  have hlen := h.length
  have hmpu := free_add_held mpu
  have hmid := free_add_held mid
  obtain ⟨_, heq⟩ | ⟨_, _, heq⟩ | ⟨hnew, heq⟩ := h.heldRanges_cases hproper
  · -- the range that was given back can be new again
    have hsub : newRanges mem mid ⊆ insert m.range (newRanges (m :: mem) mpu) := by
      intro x hx
      obtain ⟨hmem, hnot⟩ := Finset.mem_filter.mp hx
      by_cases hxm : x = m.range
      · exact Finset.mem_insert.mpr (.inl hxm)
      · refine Finset.mem_insert.mpr (.inr (Finset.mem_filter.mpr ⟨?_, ?_⟩))
        · exact List.mem_toFinset.mpr (List.mem_cons_of_mem _ (List.mem_toFinset.mp hmem))
        · rw [heq, Multiset.mem_cons]
          exact fun hor => hor.elim hxm hnot
    have hcard := (Finset.card_le_card hsub).trans (Finset.card_insert_le _ _)
    have hheld : (heldRanges mpu).card = (heldRanges mid).card + 1 := by
      rw [heq, Multiset.card_cons]
    omega
  · have hsub : newRanges mem mid ⊆ newRanges (m :: mem) mpu := by
      intro x hx
      obtain ⟨hmem, hnot⟩ := Finset.mem_filter.mp hx
      refine Finset.mem_filter.mpr ⟨?_, heq ▸ hnot⟩
      exact List.mem_toFinset.mpr (List.mem_cons_of_mem _ (List.mem_toFinset.mp hmem))
    have hcard := Finset.card_le_card hsub
    rw [heq] at hmid
    omega
  · -- the range that was taken is not new any more
    have hin : m.range ∈ newRanges (m :: mem) mpu :=
      Finset.mem_filter.mpr ⟨List.mem_toFinset.mpr (List.mem_cons_self ..), hnew⟩
    have hsub : newRanges mem mid ⊆ (newRanges (m :: mem) mpu).erase m.range := by
      intro x hx
      obtain ⟨hmem, hnot⟩ := Finset.mem_filter.mp hx
      rw [heq, Multiset.mem_cons, not_or] at hnot
      refine Finset.mem_erase.mpr ⟨hnot.1, Finset.mem_filter.mpr ⟨?_, hnot.2⟩⟩
      exact List.mem_toFinset.mpr (List.mem_cons_of_mem _ (List.mem_toFinset.mp hmem))
    have hcard := Finset.card_le_card hsub
    rw [Finset.card_erase_of_mem hin] at hcard
    have hheld : (heldRanges mid).card = (heldRanges mpu).card + 1 := by
      rw [heq, Multiset.card_cons]
    have hpos := Finset.card_pos.mpr ⟨_, hin⟩
    omega

theorem updateAll_room {t : Target} {mem : List Mem} {mpu : List Rg}
    (hproper : ∀ m ∈ mem, Proper m.range)
    (hroom : (newRanges mem mpu).card ≤ (mpu.filter Rg.free).length) : updateAll t mem mpu ≠ none := by
  induction mem generalizing mpu with
  | nil => simp [updateAll]
  | cons m mem ih =>
    obtain ⟨hm, hmem⟩ := List.forall_mem_cons.mp hproper
    rw [updateAll]
    cases hupd : updateMasterSideMpu t.domain m.range t.readPermDomain.bits t.writePermDomain.bits
        mpu with
    | some mid => exact ih hmem ((updateMasterSideMpu_some hupd).room hm hroom)
    | none =>
      -- the first region is new, so there is a free RG
      obtain ⟨hmiss, hfull⟩ := updateMasterSideMpu_none hupd
      have hin : m.range ∈ newRanges (m :: mem) mpu := by
        refine Finset.mem_filter.mpr ⟨List.mem_toFinset.mpr (List.mem_cons_self ..), fun hheld => ?_⟩
        obtain ⟨rg, hrg, heq⟩ := (mem_heldRanges hm).mp hheld
        exact hmiss rg hrg heq
      have hpos := Finset.card_pos.mpr ⟨_, hin⟩
      have hnone : mpu.filter Rg.free = [] := by
        refine List.filter_eq_nil_iff.mpr fun rg hrg => ?_
        rw [hfull rg hrg]
        exact Bool.false_ne_true
      rw [hnone, List.length_nil] at hroom
      omega

def Request.HasRoom (s : List MpuRanges) (r : Request) : Prop :=
  ∀ v, r.Gains v ∨ r.Loses v → ∀ mpu ∈ mpusOf v.device s,
    (newRanges r.mem mpu).card ≤ (mpu.filter Rg.free).length

def Target.Changes (r : Request) (t : Target) : Prop :=
  t.device = .none ∨ ∃ v, (r.Gains v ∨ r.Loses v) ∧ t.device = v.device

theorem processSources_changes {r : Request} (hlen : r.dst.length ≤ AC_VM_LAST) {src : List UInt32}
    (hsrc : ∀ vm ∈ src, vm ∈ r.src) {t t' : Target} (ht : t.Changes r)
    (h : processSources r.dst src t = .ok t') : t'.Changes r := by
  induction src generalizing t with
  | nil => exact Except.ok.inj h ▸ ht
  | cons vm src ih =>
    obtain ⟨hvm, hrest⟩ := List.forall_mem_cons.mp hsrc
    rw [processSources] at h
    split at h
    · exact ih hrest ht h
    split at h
    · exact ih hrest ht h
    rename_i hnot hany
    obtain ⟨v, rfl, _, hdev⟩ | ⟨hmodem, _⟩ := modem_cases vm
    · rw [hdev] at h
      refine ih hrest (.inr ⟨v, .inr ⟨hvm, fun hmem => hany ?_⟩, rfl⟩) h
      obtain ⟨d, hd, hid⟩ := hmem
      rw [List.take_of_length_le hlen]
      exact List.any_eq_true.mpr ⟨d, hd, beq_iff_eq.mpr hid⟩
    · exact absurd hmodem hnot

theorem processDestinations_changes {r : Request} {dst : List Perm} (hdst : ∀ d ∈ dst, d ∈ r.dst)
    {t t' : Target} (ht : t.Changes r) (h : processDestinations r.src dst t = .ok t') :
    t'.Changes r := by
  induction dst generalizing t with
  | nil => exact Except.ok.inj h ▸ ht
  | cons d dst ih =>
    obtain ⟨hd, hrest⟩ := List.forall_mem_cons.mp hdst
    rw [processDestinations] at h
    split at h
    · exact ih hrest ht h
    split at h
    · exact ih hrest ht h
    rename_i hnot hany
    obtain ⟨v, hid, _, hdev⟩ | ⟨hmodem, _⟩ := modem_cases d.dstVm
    · rw [hdev] at h
      refine ih hrest (.inr ⟨v, .inl ⟨⟨d, hd, hid⟩, fun hsrc => hany ?_⟩, rfl⟩) h
      exact List.any_eq_true.mpr ⟨v.id, hsrc, beq_iff_eq.mpr hid⟩
    · exact absurd hmodem hnot

theorem target_changes {r : Request} (hlen : r.dst.length ≤ AC_VM_LAST) {t : Target}
    (h : r.target = .ok t) : t.Changes r := by
  rw [Request.target] at h
  split at h
  · cases h
  · rename_i t' ht'
    refine processDestinations_changes (fun d hd => hd) ?_ h
    exact processSources_changes hlen (fun vm hvm => hvm) (.inl rfl) ht'

theorem memAssign_returns {s : List MpuRanges} {r : Request} (hvalid : r.Valid) (hroom : r.HasRoom s) :
    ∃ ret s', memAssign s r = .ok (ret, s') ∧ (ret ≠ 0 → s' = s) := by
  unfold memAssign
  cases ht : r.target with
  | error e => exact ⟨-1, s, rfl, fun _ => rfl⟩
  | ok t =>
    cases ha : assignRegions t r.mem s with
    | ok s' => exact ⟨0, s', by simp only [ha], fun h => absurd rfl h⟩
    | error e =>
      obtain ⟨mpu, hmpu, hnone⟩ := assignRegions_error ha
      rcases target_changes (Nat.le_of_lt hvalid.dst_length.2) ht with hdev | ⟨v, hv, hdev⟩
      · rw [hdev, mpusOf_none] at hmpu
        exact absurd hmpu List.not_mem_nil
      · rw [hdev] at hmpu
        exact absurd hnone (updateAll_room hvalid.proper (hroom v hv mpu hmpu))

/-! ## Reads of what is mapped -/

variable {p : Platform} {s : Mapping} {room : Bool} {addr size : UInt64}

theorem qtiAdd_not_overlap (h : (qtiMmapAddDynamicRegion p room addr size s).1 = 0) :
    qtiIsOverlapSecureRg p addr size = false := by
  cases hover : qtiIsOverlapSecureRg p addr size with
  | false => rfl
  | true =>
    unfold qtiMmapAddDynamicRegion at h
    dsimp only at h
    rw [if_pos hover] at h
    cases h

theorem align_snd_ge (h : qtiIsOverlapSecureRg p addr size = false) (hsize : 0 < size.toNat) :
    (qtiAlignMemRegion addr size).1.toNat + (qtiAlignMemRegion addr size).2.toNat ≥
      addr.toNat + size.toNat := by
  obtain ⟨hwrap, hsec⟩ := not_overlap h
  have hbl31 := hsec p.bl31 (List.mem_cons_self ..)
  obtain ⟨hlo, hhi⟩ := p.sec_aligned p.bl31 (List.mem_cons_self ..)
  have hlt := UInt64.lt_iff_toNat_lt.mp p.bl31_lt
  have hmax := p.bl31.2.toNat_lt
  rw [align_fst, align_snd hwrap]
  omega

theorem qtiAdd_maps (h : (qtiMmapAddDynamicRegion p room addr size s).1 = 0) {x : UInt64}
    (hlo : addr.toNat ≤ x.toNat) (hhi : x.toNat < addr.toNat + size.toNat) :
    (qtiMmapAddDynamicRegion p room addr size s).2.ctx.maps x = true := by
  have hover := qtiAdd_not_overlap h
  have hge := align_snd_ge hover (by omega)
  have hfst := align_fst addr size
  have hsize : (qtiAlignMemRegion addr size).2 ≠ 0 := by
    intro hzero
    rw [hzero, show (0 : UInt64).toNat = 0 from rfl] at hge
    omega
  unfold qtiMmapAddDynamicRegion at h ⊢
  dsimp only at h ⊢
  rw [if_neg (by simp [hover])] at h ⊢
  obtain ⟨pre, post, _, hctx, _⟩ := mmapAddDynamicRegion_ok hsize h
  rw [hctx]
  refine List.any_eq_true.mpr ⟨_, List.mem_append_right _ (List.mem_cons_self ..), ?_⟩
  rw [Bool.and_eq_true, decide_eq_true_iff, decide_eq_true_iff]
  dsimp only
  omega

theorem word_cases (c : Smc) : c.word = 4 ∨ c.word = 8 := by
  rw [Smc.word]
  cases c.smc32
  · exact .inr rfl
  · exact .inl rfl

theorem argAddr_toNat {c : Smc} (h : c.argsAddr.toNat + c.word * 4 < 2 ^ 64) {i : ℕ} (hi : i < 4) :
    (c.argAddr i).toNat = c.argsAddr.toNat + i * c.word := by
  have hword : c.word ≤ 8 := by rcases word_cases c with h | h <;> omega
  have hoff : i * c.word ≤ 3 * c.word := Nat.mul_le_mul_right _ (by omega)
  rw [Smc.argAddr, UInt64.toNat_add, UInt64.toNat_ofNat', Nat.mod_eq_of_lt (by omega : i * c.word < _),
    Nat.mod_eq_of_lt (by omega)]

theorem getIndirectArgs_reads {c : Smc} {m : Mapping} (haligned :
      (qtiMmapAddDynamicRegion p c.room.1 c.argsAddr (UInt64.ofNat (c.word * 4)) s).1 = 0 →
        c.argsAddr.toNat % c.word = 0) :
    getIndirectArgs p c s ≠ .error m := by
  intro h
  unfold getIndirectArgs at h
  dsimp only at h
  split at h
  · cases h
  rename_i hret
  have hadd : (qtiMmapAddDynamicRegion p c.room.1 c.argsAddr (UInt64.ofNat (c.word * 4)) s).1 = 0 := by
    simpa using hret
  have hlen : (UInt64.ofNat (c.word * 4)).toNat = c.word * 4 := by
    rcases word_cases c with hw | hw <;> rw [hw] <;> rfl
  have hwrap := (not_overlap (qtiAdd_not_overlap hadd)).1
  rw [hlen] at hwrap
  have hload : ∀ i < 3, ∃ v, loadWord c.world
      (qtiMmapAddDynamicRegion p c.room.1 c.argsAddr (UInt64.ofNat (c.word * 4)) s).2.ctx i
      (c.argAddr i) c.word = some v := by
    intro i hi
    have haddr := argAddr_toNat hwrap (show i < 4 by omega)
    have hoff : i * c.word ≤ 2 * c.word := Nat.mul_le_mul_right _ (by omega)
    have hpos : 0 < c.word := by rcases word_cases c with hw | hw <;> omega
    refine ⟨_, if_pos ⟨?_, qtiAdd_maps hadd ?_ ?_⟩⟩
    · rw [haddr, Nat.add_mul_mod_self_right, haligned hadd]
    · omega
    · rw [hlen]
      omega
  obtain ⟨x5, h5⟩ := hload 0 (by decide)
  obtain ⟨x6, h6⟩ := hload 1 (by decide)
  obtain ⟨x7, h7⟩ := hload 2 (by decide)
  rw [h5, h6, h7] at h
  cases h

theorem copyBytes_added (h : (qtiMmapAddDynamicRegion p room addr size s).1 = 0) {w : World} {time : ℕ}
    {x : UInt64} {len : ℕ} (hlo : addr.toNat ≤ x.toNat)
    (hhi : x.toNat + len ≤ addr.toNat + size.toNat) :
    copyBytes w (qtiMmapAddDynamicRegion p room addr size s).2.ctx time x len =
      some (bytesAt w time x) := by
  refine if_pos fun i hi => ?_
  have hwrap := (not_overlap (qtiAdd_not_overlap h)).1
  have haddr : (x + UInt64.ofNat i).toNat = x.toNat + i := by
    rw [UInt64.toNat_add, UInt64.toNat_ofNat', Nat.mod_eq_of_lt (by omega : i < _),
      Nat.mod_eq_of_lt (by omega)]
  exact qtiAdd_maps h (by omega) (by omega)

theorem copyParams_reads {w : World} {ctx : XlatCtx} {x2 x3 x4 x5 x6 x7 : UInt64}
    (h2 : ∀ time, copyBytes w ctx time x2 (x3.toNat / 16 * 16) = some (bytesAt w time x2))
    (h4 : ∀ time, copyBytes w ctx time x4 (x5.toNat / 4 * 4) = some (bytesAt w time x4))
    (h6 : ∀ time, copyBytes w ctx time x6 (x7.toNat / 24 * 24) = some (bytesAt w time x6)) :
    copyParams p w ctx x2 x3 x4 x5 x6 x7 ≠ none := by
  rw [copyParams, h2, h4, h6]
  dsimp only
  repeat' split
  all_goals exact Option.some_ne_none _

theorem toNat_min (a b : UInt64) : (min a b).toNat = min a.toNat b.toNat := by
  rw [show min a b = if a ≤ b then a else b from rfl]
  split
  · rename_i h
    exact (Nat.min_eq_left (UInt64.le_iff_toNat_le.mp h)).symm
  · rename_i h
    rw [UInt64.le_iff_toNat_le] at h
    exact (Nat.min_eq_right (by omega)).symm

theorem toNat_max (a b : UInt64) : (max a b).toNat = max a.toNat b.toNat := by
  rw [show max a b = if a ≤ b then b else a from rfl]
  split
  · rename_i h
    exact (Nat.max_eq_right (UInt64.le_iff_toNat_le.mp h)).symm
  · rename_i h
    rw [UInt64.le_iff_toNat_le] at h
    exact (Nat.max_eq_left (by omega)).symm

theorem getMemParams_reads {c : Smc} {x5 x6 x7 : UInt64} {m : Mapping} :
    getMemParams p c x5 x6 x7 s ≠ .error m := by
  intro h
  unfold getMemParams at h
  split at h
  · cases h
  split at h
  · cases h
  rename_i hsum
  simp only [Bool.or_eq_true, decide_eq_true_iff, not_or, Nat.not_le] at hsum
  obtain ⟨⟨hsum2, hsum4⟩, hsum6⟩ := hsum
  dsimp only at h
  split at h
  · cases h
  rename_i hret
  generalize hstart : min (min c.x2 c.x4) x6 = start at h hret
  generalize hstop : max (max (c.x2 + c.x3) (c.x4 + x5)) (x6 + x7) = stop at h hret
  have hadd : (qtiMmapAddDynamicRegion p c.room.2 start (stop - start) s).1 = 0 := by simpa using hret
  have hstart' := congrArg UInt64.toNat hstart
  have hstop' := congrArg UInt64.toNat hstop
  simp only [toNat_min, toNat_max, UInt64.toNat_add] at hstart' hstop'
  rw [Nat.mod_eq_of_lt hsum2, Nat.mod_eq_of_lt hsum4, Nat.mod_eq_of_lt hsum6] at hstop'
  have hlen : (stop - start).toNat = stop.toNat - start.toNat := by
    refine UInt64.toNat_sub_of_le _ _ (UInt64.le_iff_toNat_le.mpr ?_)
    omega
  have hcopy : copyParams p c.world
      (qtiMmapAddDynamicRegion p c.room.2 start (stop - start) s).2.ctx c.x2 c.x3 c.x4 x5 x6 x7 ≠ none :=
    copyParams_reads (fun time => copyBytes_added hadd (by omega) (by omega))
      (fun time => copyBytes_added hadd (by omega) (by omega))
      fun time => copyBytes_added hadd (by omega) (by omega)
  split at h
  · rename_i hnone
    exact hcopy hnone
  · cases h

/-! ## Sequences of calls -/

/-- A call as a step: what it leaves, and its reply. -/
def serve (p : Platform) (s : State) (c : Smc) : Option (State × Reply) :=
  some ((qtiSipMemAssign p s c).state, (qtiSipMemAssign p s c).reply)

/-- The call gets to load its arguments in memory. -/
def Smc.Loads (p : Platform) (s : State) (c : Smc) : Prop :=
  c.x1 = QTI_SIP_SVC_MEM_ASSIGN_PARAM_ID ∧ c.x5 ≠ 0 ∧
    (qtiMmapAddDynamicRegion p c.room.1 c.argsAddr (UInt64.ofNat (c.word * 4)) ⟨s.ctx, []⟩).1 = 0

/-- The arguments that are loaded are aligned, and the MPUs have RGs enough for the lists that are
handed on. -/
def Smc.Answerable (p : Platform) (s : State) (c : Smc) : Prop :=
  (c.Loads p s → c.argsAddr.toNat % c.word = 0) ∧
    ∀ r ∈ (qtiSipMemAssign p s c).handed, r.HasRoom s.ranges

/-- A call that gets a status, with the lock released, and that leaves the MPUs where it fails. -/
def Answered (s : State) (o : Outcome) : Prop :=
  ∃ ret operationRet, o.reply = .status ret operationRet ∧ o.state.lock = false ∧
    (ret ≠ QTI_SIP_SUCCESS → o.state.ranges = s.ranges)

theorem answered_of_answerable {p : Platform} {s : State} {c : Smc} (hlock : s.lock = false)
    (h : c.Answerable p s) : Answered s (qtiSipMemAssign p s c) := by
  have hexits := qtiSipMemAssign_exits p s c
  obtain ⟨haligned, hroom⟩ := h
  generalize qtiSipMemAssign p s c = o at hexits hroom ⊢
  cases hexits with
  | refused hret _ => exact ⟨_, _, rfl, hlock, fun _ => rfl⟩
  | faults _ hread =>
    rcases hread with ⟨hid, hx5, hread⟩ | ⟨m, _, hread⟩
    · exact absurd hread (getIndirectArgs_reads fun hadd => haligned ⟨hid, hx5, hadd⟩)
    · exact absurd hread getMemParams_reads
  | hands _ hvalidate =>
    obtain ⟨ret, ranges, hmem, hfail⟩ :=
      memAssign_returns (valid_of_validate hvalidate) (hroom _ rfl)
    rw [lockedMemAssign, hlock, if_neg Bool.false_ne_true, hmem]
    refine ⟨_, _, rfl, rfl, fun hne => hfail fun hzero => hne ?_⟩
    rw [if_pos hzero]

instance (s : List MpuRanges) (r : Request) : Decidable (r.HasRoom s) :=
  inferInstanceAs (Decidable (∀ _, _ → _))

instance (p : Platform) (s : State) (c : Smc) : Decidable (c.Loads p s) :=
  inferInstanceAs (Decidable (_ ∧ _))

instance (p : Platform) (s : State) (c : Smc) : Decidable (c.Answerable p s) :=
  inferInstanceAs (Decidable ((_ → _) ∧ ∀ _ ∈ _, _))

end TrustedFirmware.Qti
