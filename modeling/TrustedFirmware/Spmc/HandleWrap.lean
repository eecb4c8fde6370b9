import TrustedFirmware.Spmc.Handles
import TrustedFirmware.Spmc.Execution

/-! # The handle counter wraps

A send takes its handle before the descriptor is checked, so that a caller can use up
handles without leaving an object. After 2^64 sends the counter is where it was, and the
next object gets the handle of one that is still there. -/
namespace TrustedFirmware.Spmc
open ByteMemory RecordTiling
set_option autoImplicit false

variable {W : Write → Prop} {P : Platform} {objs pre post : List Obj} {o : Obj} {tx : Bytes}
  {v n flag pages : ℕ}

/-! ## A first fragment that is taken -/

/-- The checks on a first fragment, against the bytes `d` it leaves in the object. -/
structure FirstOk (d : Bytes) (flag : ℕ) : Prop where
  sender : ffaIsSecureWorldId (Mtd.senderId d) = false
  attributes : Mtd.memoryRegionAttributes d &&& FFA_MEM_ATTR_NS_BIT = 0
  flags : Mtd.flags d = 0 ∨ Mtd.flags d = flag

theorem fillDesc_first {s : Datastore} (h : Stored W s (pre ++ o :: post)) (h0 : o.descFilled = 0)
    (hp : pages ≠ 0) (hbuf : n ≤ pages * 4096) (hn : n ≤ o.descSize)
    (hok : FirstOk (blit o.desc 0 tx n) flag)
    (hstart : StartOk (receivedObj o tx n).desc v n o.descSize) :
    ∃ t, spmcFfaFillDesc P s pages tx (offsetOf pre) n flag v = fillMore P t (offsetOf pre) n v ∧
      (handleTaken s).Kept t ∧
      Stored W t (pre ++ namedObj (receivedObj o tx n) s.nextHandle flag :: post) := by
  have h32 := hstart.header_ge
  have h1 := @Stored.copyIn W s pre post o o.descFilled n tx h (by omega)
  have h2 : Stored W _ (pre ++ receivedObj o tx n :: post) := h1.put (by simp only; omega)
  obtain ⟨t, he, hk, ht⟩ := @fillFirst_eq W P _ pre post _ v n flag h2 hstart
    (by change 16 ≤ o.descSize; omega)
  refine ⟨t, ?_, ⟨hk.nextHandle, hk.dataSize, hk.present⟩, ht⟩
  have hflag : ¬ (Mtd.flags (blit o.desc o.descFilled tx n) ≠ 0 ∧ flag ≠ 0 ∧
      Mtd.flags (blit o.desc o.descFilled tx n) ≠ flag) := by
    rw [h0]
    rintro ⟨ha, _, hb⟩
    rcases hok.flags with hf | hf
    · exact ha hf
    · exact hb hf
  have hsec : ¬ ffaIsSecureWorldId (Mtd.senderId (blit o.desc o.descFilled tx n)) = true := by
    rw [h0, hok.sender]
    simp
  have hns : ¬ (o.descFilled = 0 ∧ Mtd.memoryRegionAttributes (blit o.desc o.descFilled tx n) &&&
      FFA_MEM_ATTR_NS_BIT ≠ 0) := by
    rw [h0, hok.attributes]
    simp
  rw [← he, spmcFfaFillDesc, h.obj_eq, if_neg hp, if_neg (by omega), if_neg (by omega)]
  simp only [h1.obj_eq]
  rw [if_neg hsec, if_neg hns, if_neg hflag, if_pos h0]

theorem fillMore_pending {t : Datastore} (h : Stored W t (pre ++ o :: post))
    (hn : o.descFilled + n < o.descSize) :
    ∃ t', fillMore P t (offsetOf pre) n v = some (t', .memFragRx (Mtd.handle o.desc % 2 ^ 32)
        (Mtd.handle o.desc / 2 ^ 32) (o.descFilled + n) (Mtd.senderId o.desc * 2 ^ 16)) ∧
      t.Kept t' ∧ Stored W t' (pre ++ grownObj o n :: post) := by
  have hlt := h.descSize_lt
  have h1 : Stored W (t.setDescFilled (offsetOf pre) (o.descFilled + n))
      (pre ++ grownObj o n :: post) := h.setDescFilled (by omega)
  have hk : t.Kept (t.setDescFilled (offsetOf pre) (o.descFilled + n)) := ⟨rfl, rfl, rfl⟩
  have hpart : (grownObj o n).descFilled ≠ (grownObj o n).descSize := Nat.ne_of_lt hn
  rw [fillMore, h.obj_eq]
  simp only [h1.obj_eq]
  rw [if_pos hpart]
  exact ⟨_, rfl, hk, h1⟩

theorem fillMore_last {t : Datastore} (h : Stored W t (pre ++ o :: post))
    (hn : o.descFilled + n = o.descSize) :
    ∃ t', fillMore P t (offsetOf pre) n v = fillAccept P t' (offsetOf pre) v ∧ t.Kept t' ∧
      Stored W t' (pre ++ grownObj o n :: post) := by
  have hlt := h.descSize_lt
  have h1 : Stored W (t.setDescFilled (offsetOf pre) (o.descFilled + n))
      (pre ++ grownObj o n :: post) := h.setDescFilled (by omega)
  have hk : t.Kept (t.setDescFilled (offsetOf pre) (o.descFilled + n)) := ⟨rfl, rfl, rfl⟩
  have hfull : (grownObj o n).descFilled = (grownObj o n).descSize := hn
  refine ⟨_, ?_, hk, h1⟩
  rw [fillMore, h.obj_eq]
  simp only [h1.obj_eq]
  rw [if_neg (not_not.mpr hfull)]

theorem fillMore_rejected {t : Datastore} {ret : Int} (h : Stored W t (pre ++ o :: post))
    (hn : o.descFilled + n = o.descSize)
    (hc : spmcShmemCheckObj P (grownObj o n) v = some ret) (hret : ret ≠ 0) :
    ∃ t', fillMore P t (offsetOf pre) n v = some (t', .error ret) ∧ t.Kept t' ∧
      Stored W t' (pre ++ post) := by
  obtain ⟨t₁, he, hk, h1⟩ := @fillMore_last W P pre post o v n t h hn
  refine ⟨_, ?_, hk.trans (kept_free _ (offsetOf pre)), h1.free⟩
  rw [he, fillAccept, h1.obj_eq, hc]
  simp only [hret, ne_eq, not_false_eq_true, if_true]
  rfl

/-! ## Using up handles -/

section
variable {s : State}

structure SendReady (P : Platform) (W : Write → Prop) (s : State) (objs : List Obj) : Prop where
  inv : Inv P W s objs
  version : s.ns.ffaVersion = makeFfaVersion 1 1
  mapped : s.ns.mailbox.rxtxPageCount = 1
  room : Fits s.store 96

def unknownEndpoint : Bytes := descriptorV11 0 [0x8002] [(0x1000, 1)]

def unknownSend (n : UInt32) : Call := .memSend false false 96 n 0 0 unknownEndpoint

theorem unknown_start (h0 : o.descFilled = 0) (hn : 48 ≤ n) :
    StartOk (receivedObj o unknownEndpoint n).desc (makeFfaVersion 1 1) n 96 := by
  have hcount : Mtd.emadCount (receivedObj o unknownEndpoint n).desc = 1 := by
    rw [Mtd.emadCount, received_load h0 (by omega) (by omega)]
    decide +kernel
  have hfirst : firstEmad (receivedObj o unknownEndpoint n).desc (makeFfaVersion 1 1) = 48 := by
    rw [firstEmad_of_ne _ v11_ne, Mtd.emadOffset, received_load h0 (by omega) (by omega)]
    decide +kernel
  have hstride : emadStride (receivedObj o unknownEndpoint n).desc (makeFfaVersion 1 1) = 16 := by
    rw [emadStride_of_ne _ v11_ne, Mtd.emadSize, received_load h0 (by omega) (by omega)]
    decide +kernel
  refine ⟨Or.inr (by decide), ?_, ?_, ?_, ?_, ?_, ?_, ?_⟩
  · rw [if_neg v11_ne]
    exact hn
  · rw [hcount]
    decide
  · rw [hfirst]
  · rw [hfirst, if_neg v11_ne]
  · rw [hstride]
  · rw [hstride]
  · rw [hfirst, hstride, hcount, if_neg v11_ne]
    omega

theorem unknown_first (hn : 48 ≤ n) :
    FirstOk (blit o.desc 0 unknownEndpoint n) FFA_MTD_FLAG_TYPE_SHARE_MEMORY := by
  have hload : ∀ a k, a + k ≤ n →
      load (blit o.desc 0 unknownEndpoint n) a k = load unknownEndpoint a k := by
    intro a k hk
    rw [load_blit_inside (Nat.zero_le a) (by omega)]
    rfl
  refine ⟨?_, ?_, Or.inl ?_⟩
  · rw [Mtd.senderId, hload 0 2 (by omega)]
    decide +kernel
  · rw [Mtd.memoryRegionAttributes, hload 2 2 (by omega)]
    decide +kernel
  · rw [Mtd.flags, hload 4 4 (by omega)]
    decide +kernel

theorem memSend_eq {s : State} {pages n total m : ℕ} {lend : Bool} (hver : s.ns.ffaVersion = v)
    (hmap : s.ns.mailbox.rxtxPageCount.val = pages) (hs : Stored W s.store objs)
    (hf : Fits s.store total) (hmin : minDescSize v = some m) (hn : m ≤ n) :
    spmcFfaMemSend P s false lend total n 0 0 tx =
      (spmcFfaFillDesc P (allocated s.store total) pages tx s.store.allocated n
        (if lend then FFA_MTD_FLAG_TYPE_LEND_MEMORY else FFA_MTD_FLAG_TYPE_SHARE_MEMORY) v).map
        fun r => ({ s with store := r.1 }, r.2) := by
  have he : s.endpoint false = s.ns := rfl
  rw [spmcFfaMemSend, he, hver, hmap, hmin, if_neg (by simp), if_neg (by simp)]
  simp only
  rw [if_neg (Nat.not_lt.mpr hn), alloc_of_fits hs hf]

theorem unknownSend_eq {n : UInt32} (h : SendReady P W s objs) (h48 : 48 ≤ n.toNat)
    (h96 : n.toNat ≤ 96) :
    ∃ t, spmcSmcHandler P s (unknownSend n) =
        (fillMore P t s.store.allocated n.toNat (makeFfaVersion 1 1)).map
          (fun r => ({ spmcCompleteFfaVersionNegotiation s false with store := r.1 }, r.2)) ∧
      (handleTaken s.store).Kept t ∧
      Stored W t (objs ++ [namedObj (receivedObj (freshObj s.store 96) unknownEndpoint n.toNat)
        s.store.nextHandle FFA_MTD_FLAG_TYPE_SHARE_MEMORY]) := by
  have h1 := h.inv.stored.alloc h.room fun hlt => absurd hlt (by omega)
  obtain ⟨t, he, hk, ht⟩ := @fillDesc_first W P objs [] (freshObj s.store 96) unknownEndpoint
    (makeFfaVersion 1 1) n.toNat FFA_MTD_FLAG_TYPE_SHARE_MEMORY 1 (allocated s.store 96) h1 rfl
    (by decide) (by omega) h96 (unknown_first h48) (unknown_start rfl h48)
  rw [← h.inv.stored.allocated_eq] at he
  refine ⟨t, ?_, ⟨hk.nextHandle, hk.dataSize, hk.present⟩, ht⟩
  have hver : (spmcCompleteFfaVersionNegotiation s false).ns.ffaVersion = makeFfaVersion 1 1 :=
    h.version
  have hmap : (spmcCompleteFfaVersionNegotiation s false).ns.mailbox.rxtxPageCount.val = 1 := by
    change s.ns.mailbox.rxtxPageCount.val = 1
    rw [h.mapped]
    rfl
  have hknown : s.ns.ffaVersion ≠ FFA_VERSION_NULL := by
    rw [h.version]
    decide
  have heq := @smcHandler_eq P s (unknownSend n) rfl hknown
  rw [← he, heq]
  exact memSend_eq hver hmap h.inv.stored h.room (by decide) h48

theorem SendReady.next {t : Datastore} {objs' : List Obj} (h : SendReady P W s objs)
    (hinv : Inv P W { spmcCompleteFfaVersionNegotiation s false with store := t } objs')
    (hroom : Fits t 96) :
    SendReady P W { spmcCompleteFfaVersionNegotiation s false with store := t } objs' :=
  ⟨hinv, h.version, h.mapped, hroom⟩

theorem unknown_check {k f : ℕ} (h0 : o.descFilled = 0) (hsize : o.descSize = 96) :
    spmcShmemCheckObj onePartition (grownObj (namedObj (receivedObj o unknownEndpoint 96) k f) 96)
      (makeFfaVersion 1 1) = some FFA_ERROR_INVALID_PARAMETER := by
  have hload : ∀ a j, 16 ≤ a → a + j ≤ 96 →
      load (grownObj (namedObj (receivedObj o unknownEndpoint 96) k f) 96).desc a j =
        load unknownEndpoint a j := by
    intro a j ha hj
    change load (namedObj (receivedObj o unknownEndpoint 96) k f).desc a j = _
    rw [namedObj_load ha, received_load h0 (by omega) hj]
  have hstart : StartOk (receivedObj o unknownEndpoint 96).desc (makeFfaVersion 1 1) 96
      o.descSize := by
    rw [hsize]
    exact unknown_start h0 (by omega)
  have hs := @start_first o (makeFfaVersion 1 1) unknownEndpoint 96 k f h0 hstart
  obtain ⟨x, hx⟩ : ∃ x, x = grownObj (namedObj (receivedObj o unknownEndpoint 96) k f) 96 := ⟨_, rfl⟩
  have hfull : x.descFilled = x.descSize := by
    rw [hx]
    change o.descFilled + 96 = o.descSize
    omega
  have hsz : x.descSize = o.descSize := by
    rw [hx]
    rfl
  rw [← hx] at hload hs ⊢
  have hcount : Mtd.emadCount x.desc = 1 := by
    rw [Mtd.emadCount, hload 28 4 (by omega) (by omega)]
    decide +kernel
  have hid : Emad.endpointId x.desc 48 = 0x8002 := by
    rw [Emad.endpointId, hload 48 2 (by omega) (by omega)]
    decide +kernel
  have hfirst : firstEmad x.desc (makeFfaVersion 1 1) = 48 := by
    rw [firstEmad_of_ne _ v11_ne, Mtd.emadOffset, hload 32 4 (by omega) (by omega)]
    decide +kernel
  rw [spmcShmemCheckObj, if_neg (not_not.mpr hfull), hsz,
    if_neg (not_not.mpr (validateMtdStart_eq_zero.mpr hs)), hs.getEmad_zero, hcount, hfirst]
  have hemads : checkEmads onePartition x.desc (Emad.compMrdOffset x.desc 48)
      (emadOffsets 48 (emadStride x.desc (makeFfaVersion 1 1)) 1) = FFA_ERROR_INVALID_PARAMETER := by
    change checkEmads onePartition x.desc (Emad.compMrdOffset x.desc 48) [48] = _
    rw [checkEmads, hid, if_pos (by decide)]
  simp only [hemads]
  rw [if_pos invalid_ne_zero]

theorem unknownSend_rejected (h : SendReady onePartition W s objs) :
    ∃ s' r, spmcSmcHandler onePartition s (unknownSend 96) = some (s', r) ∧
      SendReady onePartition W s' objs ∧
      s'.store.nextHandle = (s.store.nextHandle + 1) % 2 ^ 64 := by
  obtain ⟨t, he, hk, ht⟩ := unknownSend_eq h (n := 96) (by decide) (by decide)
  have hcheck := @unknown_check (freshObj s.store 96) s.store.nextHandle
    FFA_MTD_FLAG_TYPE_SHARE_MEMORY rfl rfl
  obtain ⟨t', he', hk', ht'⟩ := @fillMore_rejected W onePartition objs [] _ (makeFfaVersion 1 1) 96 t
    FFA_ERROR_INVALID_PARAMETER ht rfl hcheck invalid_ne_zero
  rw [List.append_nil] at ht'
  rw [← h.inv.stored.allocated_eq] at he'
  have hkept := hk.trans hk'
  have h96 : (96 : UInt32).toNat = 96 := rfl
  rw [he, h96, he']
  refine ⟨_, _, rfl, h.next ⟨ht', h.inv.live, ?_, fun _ => rfl⟩ ?_, hkept.nextHandle⟩
  · change t'.nextHandle < 2 ^ 64
    rw [hkept.nextHandle]
    exact Nat.mod_lt _ (by omega)
  · have hroom := h.room.room
    refine ⟨hkept.present.trans h.room.present, h.room.aligned, ?_⟩
    rw [ht'.allocated_eq, ← h.inv.stored.allocated_eq, hkept.dataSize]
    exact hroom

theorem unknownSend_pending (h : SendReady P W s objs) :
    ∃ s' r o, spmcSmcHandler P s (unknownSend 48) = some (s', r) ∧
      Inv P W s' (objs ++ [o]) ∧ Mtd.handle o.desc = s.store.nextHandle ∧ o.descSize = 96 ∧
      s'.ns.ffaVersion = s.ns.ffaVersion ∧ s'.ns.mailbox = s.ns.mailbox ∧
      (handleTaken s.store).Kept s'.store := by
  obtain ⟨t, he, hk, ht⟩ := unknownSend_eq h (n := 48) (by decide) (by decide)
  obtain ⟨t', he', hk', ht'⟩ := @fillMore_pending W P objs [] _ (makeFfaVersion 1 1) 48 t ht
    (by change 0 + 48 < 96; omega)
  obtain ⟨r, hr⟩ : ∃ r, fillMore P t (offsetOf objs) 48 (makeFfaVersion 1 1) = some (t', r) := ⟨_, he'⟩
  rw [← h.inv.stored.allocated_eq] at hr
  have hkept := hk.trans hk'
  have hres : spmcSmcHandler P s (unknownSend 48) =
      some ({ spmcCompleteFfaVersionNegotiation s false with store := t' }, r) := by
    have h48 : (48 : UInt32).toNat = 48 := rfl
    rw [he, h48, hr]
    rfl
  have hlong : ShortOk W s (unknownSend 48) := by
    intro n hn _ hlt
    have hn' : n = 96 := hn.2.2
    omega
  obtain ⟨objs', hinv, -⟩ := smcHandler_step h.inv hlong hres
  have hobjs := hinv.stored.liveObjects_eq.symm.trans ht'.liveObjects_eq
  rw [hobjs] at hinv
  exact ⟨_, r, _, hres, hinv, namedObj_handle h.inv.next_lt, rfl, rfl, rfl, hkept⟩

theorem unknownSends (b : Boot) {t : List (Call × Reply)} (n : ℕ)
    (hrun : Run onePartition b.state t s) (h : SendReady onePartition W s objs) :
    ∃ t' s', Run onePartition b.state t' s' ∧ SendReady onePartition W s' objs ∧
      s'.store.nextHandle = (s.store.nextHandle + n) % 2 ^ 64 := by
  induction n with
  | zero =>
    refine ⟨t, s, hrun, h, ?_⟩
    rw [Nat.add_zero, Nat.mod_eq_of_lt h.inv.next_lt]
  | succ n ih =>
    obtain ⟨t₁, s₁, hrun₁, h₁, hn₁⟩ := ih
    obtain ⟨s₂, r, hres, h₂, hn₂⟩ := unknownSend_rejected h₁
    refine ⟨_, s₂, .snoc hrun₁ trivial hres, h₂, ?_⟩
    rw [hn₂, hn₁, Nat.mod_add_mod, Nat.add_assoc]

end

theorem handles_repeat : ∃ t s, Run onePartition (bootV11 256 (by decide)).state t s ∧
    ¬ (handles (liveObjects s.store)).Nodup := by
  obtain ⟨t₀, s₀, hrun₀, hq⟩ := @execute_run onePartition
    (fun _ s => decide (s.ns.ffaVersion = makeFfaVersion 1 1 ∧ s.ns.mailbox.rxtxPageCount = 1 ∧
      s.store.present = true ∧ s.store.allocated = 0 ∧ s.store.dataSize = 256 ∧
      s.store.nextHandle = handleAt 0)) (bootV11 256 (by decide)).state (setUp 0x10001)
    (by decide +kernel)
  obtain ⟨hver, hmap, hpres, halloc, hsize, hnext⟩ := of_decide_eq_true hq
  obtain ⟨objs, hinv, -⟩ := hrun₀.issued
  have hroom : Fits s₀.store 96 := ⟨hpres, by decide, by omega⟩
  obtain ⟨s₁, r₁, o₁, hres₁, hinv₁, hh₁, hs₁, hv₁, hm₁, hk₁⟩ :=
    unknownSend_pending ⟨hinv, hver, hmap, hroom⟩
  have halloc₁ : s₁.store.allocated = 128 := by
    rw [hinv₁.stored.allocated_eq, offsetOf_snoc, hs₁, ← hinv.stored.allocated_eq, halloc]
  have hroom₁ : Fits s₁.store 96 := by
    refine ⟨hk₁.present.trans hpres, by decide, ?_⟩
    rw [halloc₁, hk₁.dataSize]
    change 128 + (32 + 96) ≤ s₀.store.dataSize
    omega
  have hready₁ : SendReady onePartition (fun _ => True) s₁ (objs ++ [o₁]) :=
    ⟨hinv₁, hv₁.trans hver, by rw [hm₁]; exact hmap, hroom₁⟩
  have hrun₁ : Run onePartition (bootV11 256 (by decide)).state _ s₁ := .snoc hrun₀ trivial hres₁
  -- all but one of the handles
  obtain ⟨t₂, s₂, hrun₂, hready₂, hn₂⟩ := unknownSends _ (2 ^ 64 - 1) hrun₁ hready₁
  obtain ⟨s₃, r₃, o₃, hres₃, hinv₃, hh₃, -⟩ := unknownSend_pending hready₂
  refine ⟨_, s₃, .snoc hrun₂ trivial hres₃, ?_⟩
  have hsame : Mtd.handle o₃.desc = Mtd.handle o₁.desc := by
    have hn₁ : s₁.store.nextHandle = (s₀.store.nextHandle + 1) % 2 ^ 64 := hk₁.nextHandle
    rw [hh₃, hh₁, hn₂, hn₁, hnext]
    decide +kernel
  rw [hinv₃.stored.liveObjects_eq, handles_append, handles_append, handles_cons, handles_cons, hsame]
  intro hnd
  exact (List.nodup_append.mp hnd).2.2 _ (List.mem_append_right _ List.mem_cons_self) _
    List.mem_cons_self rfl

end TrustedFirmware.Spmc
