import TrustedFirmware.Spmc.Accepted

/-! # Equivalent descriptors of the two versions

A transaction is what a descriptor says, whatever its layout. A version 1.0 descriptor
that is converted when it is sent says the same in the version 1.1 layout. The conversion
back takes the composite descriptor to follow the endpoint descriptors and keeps one byte
of attributes: what it makes says the same if and only if that is so. -/
namespace TrustedFirmware.Spmc
open ByteMemory RecordTiling
set_option autoImplicit false

variable {W : Write → Prop} {P : Platform} {s s' : State} {r : Reply} {c : Call}
  {objs objs' pre post : List Obj} {o : Obj} {v u n next next' low high : ℕ} {d x y m : Bytes}

/-! ## Transactions -/

structure Transaction where
  senderId : ℕ
  attributes : ℕ
  flags : ℕ
  handle : ℕ
  tag : ℕ
  /-- Identity, permissions and flags. -/
  endpoints : List (ℕ × ℕ × ℕ)
  ranges : List (ℕ × ℕ)
  deriving DecidableEq

def endpointEntry (d : Bytes) (e : ℕ) : ℕ × ℕ × ℕ :=
  (Emad.endpointId d e, Emad.memoryAccessPermissions d e, Emad.flags d e)

/-- What a stored descriptor says. -/
def storedTransaction (d : Bytes) : Transaction where
  senderId := Mtd.senderId d
  attributes := Mtd.memoryRegionAttributes d
  flags := Mtd.flags d
  handle := Mtd.handle d
  tag := Mtd.tag d
  endpoints := (List.range (Mtd.emadCount d)).map fun i => endpointEntry d (v11Emad d i)
  ranges := CompMrd.ranges d (compAddr d)

/-- What a version 1.0 descriptor says. -/
def transactionV10 (d : Bytes) : Transaction where
  senderId := Mtd.senderId d
  attributes := Mtd.memoryRegionAttributesV10 d
  flags := Mtd.flags d
  handle := Mtd.handle d
  tag := Mtd.tag d
  endpoints := (List.range (Mtd.emadCount d)).map fun i => endpointEntry d (32 + 16 * i)
  ranges := CompMrd.ranges d (Emad.compMrdOffset d 32)

/-- A version 1.0 descriptor whose parts are inside its `n` bytes. -/
structure V10Inside (d : Bytes) (n : ℕ) : Prop where
  endpoints : Mtd.emadCount d ≠ 0
  emads : 32 + 16 * Mtd.emadCount d ≤ n
  offsets : ∀ i < Mtd.emadCount d,
    Emad.compMrdOffset d (32 + 16 * i) = Emad.compMrdOffset d 32
  ranges : Emad.compMrdOffset d 32 + 16 +
    16 * CompMrd.addressRangeCount d (Emad.compMrdOffset d 32) ≤ n

theorem v10Inside_iff : V10Inside d n ↔ Mtd.emadCount d ≠ 0 ∧ 32 + 16 * Mtd.emadCount d ≤ n ∧
    (∀ i < Mtd.emadCount d, Emad.compMrdOffset d (32 + 16 * i) = Emad.compMrdOffset d 32) ∧
    Emad.compMrdOffset d 32 + 16 +
      16 * CompMrd.addressRangeCount d (Emad.compMrdOffset d 32) ≤ n :=
  ⟨fun h => ⟨h.endpoints, h.emads, h.offsets, h.ranges⟩, fun h => ⟨h.1, h.2.1, h.2.2.1, h.2.2.2⟩⟩

instance (d : Bytes) (n : ℕ) : Decidable (V10Inside d n) := decidable_of_iff _ v10Inside_iff.symm

/-- What a receiver of the `n` bytes reads as a version 1.0 descriptor. -/
def readV10 (m : Bytes) (n : ℕ) : Option Transaction :=
  if V10Inside (clip m n) n then some (transactionV10 (clip m n)) else none

theorem V10Inside.congr (h : V10Inside d n)
    (hl : ∀ a k, a + k ≤ n → load y a k = load d a k) :
    V10Inside y n ∧ transactionV10 y = transactionV10 d := by
  have hcount : Mtd.emadCount y = Mtd.emadCount d := by
    have hin := h.emads
    exact hl 28 4 (by omega)
  have hpos := Nat.pos_of_ne_zero h.endpoints
  have hin := h.emads
  have hranges := h.ranges
  have hcomp : Emad.compMrdOffset y 32 = Emad.compMrdOffset d 32 := hl 36 4 (by omega)
  have hrange : CompMrd.addressRangeCount y (Emad.compMrdOffset d 32) =
      CompMrd.addressRangeCount d (Emad.compMrdOffset d 32) := hl _ 4 (by omega)
  refine ⟨⟨?_, ?_, ?_, ?_⟩, ?_⟩
  · rw [hcount]
    exact h.endpoints
  · rw [hcount]
    exact h.emads
  · intro i hi
    rw [hcount] at hi
    rw [hcomp, ← h.offsets i hi]
    exact hl _ 4 (by omega)
  · rw [hcomp, hrange]
    exact h.ranges
  · simp only [transactionV10, Transaction.mk.injEq]
    refine ⟨hl 0 2 (by omega), hl 2 1 (by omega), hl 4 4 (by omega), hl 8 8 (by omega),
      hl 16 8 (by omega), ?_, ?_⟩
    · rw [hcount]
      refine List.map_congr_left fun i hi => ?_
      have hi' := List.mem_range.mp hi
      exact Prod.ext (hl _ 2 (by omega)) (Prod.ext (hl _ 1 (by omega)) (hl _ 1 (by omega)))
    · rw [hcomp, CompMrd.ranges, CompMrd.ranges, hrange]
      refine List.map_congr_left fun i hi => ?_
      have hi' := List.mem_range.mp hi
      exact Prod.ext (hl _ 8 (by omega)) (hl _ 4 (by omega))

theorem readV10_eq_some {T : Transaction} :
    readV10 m n = some T ↔ V10Inside m n ∧ transactionV10 m = T := by
  have hclip : ∀ a k, a + k ≤ n → load (clip m n) a k = load m a k := fun a k h => load_clip h
  rw [readV10]
  constructor
  · intro h
    split at h
    · rename_i hin
      obtain ⟨hm, ht⟩ := hin.congr fun a k hk => (hclip a k hk).symm
      exact ⟨hm, ht.trans (Option.some.inj h)⟩
    · cases h
  · rintro ⟨hm, ht⟩
    obtain ⟨hin, hc⟩ := hm.congr hclip
    rw [if_pos hin, hc, ht]

theorem readV10_congr (h : ∀ i < n, y i = m i) : readV10 y n = readV10 m n := by
  rw [readV10, readV10, clip_congr h]

/-! ## To version 1.0 -/

/-- The composite descriptor follows the endpoint descriptors, and the attributes fit the byte
that version 1.0 has for them. -/
def V10Convertible (d : Bytes) : Prop :=
  compAddr d = v11Emad d (Mtd.emadCount d) ∧ Mtd.memoryRegionAttributes d < 256

instance (d : Bytes) : Decidable (V10Convertible d) := by
  unfold V10Convertible
  infer_instance

theorem V10Made.sameHeader (h : V10Made d x y) : SameHeader d y :=
  (headerDesc_same x d _ (Mtd.memoryRegionAttributes d)).congr fun a ha => h.below a ha

theorem V10Made.attributes (h : V10Made d x y) :
    Mtd.memoryRegionAttributesV10 y = Mtd.memoryRegionAttributes d % 256 := by
  have hl : load y 2 1 = load (headerDesc x d 1 (Mtd.memoryRegionAttributes d)) 2 1 :=
    load_congr fun i _ hi => h.below i (by omega)
  rw [Mtd.memoryRegionAttributesV10, hl, headerDesc_attributes _ _ _ (by omega), Nat.pow_one]

theorem V10Made.offset_eq {k : ℕ} (h : V10Made d x y) (ha : AcceptedDescriptor P d n)
    (hk : k < Mtd.emadCount d) : Emad.compMrdOffset y (32 + 16 * k) =
      32 + 16 * Mtd.emadCount d + (compAddr d - v11Emad d (Mtd.emadCount d)) := by
  have hlt : compAddr d < 256 ^ 4 := load_lt d _ 4
  have hcomp := ha.comp
  have hheader := ha.header
  have hoff := h.offset k hk
  rw [ha.offsets k hk] at hoff
  have hend : 48 + 16 * Mtd.emadCount d ≤ v11Emad d (Mtd.emadCount d) := ha.end_ge
  rw [hoff]
  omega

theorem V10Made.endpoints (h : V10Made d x y) :
    (List.range (Mtd.emadCount y)).map (fun i => endpointEntry y (32 + 16 * i)) =
      (List.range (Mtd.emadCount d)).map fun i => endpointEntry d (v11Emad d i) := by
  rw [h.sameHeader.emadCount]
  refine List.map_congr_left fun i hi => ?_
  have he := h.sameEmad (List.mem_range.mp hi)
  exact Prod.ext he.endpointId (Prod.ext he.permissions he.flags)

theorem V10Made.read_iff (h : V10Made d x y) (ha : AcceptedDescriptor P d v)
    (hc : Mtd.emadCount d ≠ 0)
    (hn : n = 32 + Mtd.emadCount d * 16 + 16 + CompMrd.addressRangeCount d (compAddr d) * 16) :
    readV10 y n = some (storedTransaction d) ↔ V10Convertible d := by
  have hsame := h.sameHeader
  have hoff : Emad.compMrdOffset y 32 =
      32 + 16 * Mtd.emadCount d + (compAddr d - v11Emad d (Mtd.emadCount d)) :=
    h.offset_eq ha (Nat.pos_of_ne_zero hc)
  have hcomp := ha.comp
  rw [readV10_eq_some]
  constructor
  · rintro ⟨hin, ht⟩
    simp only [transactionV10, storedTransaction, Transaction.mk.injEq] at ht
    obtain ⟨_, hattr, _, _, _, _, hranges⟩ := ht
    have hlen := congrArg List.length hranges
    simp only [CompMrd.ranges, List.length_map, List.length_range] at hlen
    have hinside := hin.ranges
    rw [hlen, hoff] at hinside
    rw [h.attributes] at hattr
    refine ⟨by omega, ?_⟩
    have hlt := Nat.mod_lt (Mtd.memoryRegionAttributes d) (by omega : 256 > 0)
    omega
  · rintro ⟨hend, hattr⟩
    have hzero : Emad.compMrdOffset y 32 = 32 + 16 * Mtd.emadCount d := by
      rw [hoff, hend, Nat.sub_self, Nat.add_zero]
    obtain ⟨_, hcount, hranges⟩ := h.comp
    rw [← hend] at hcount hranges
    refine ⟨⟨?_, ?_, ?_, ?_⟩, ?_⟩
    · rw [hsame.emadCount]
      exact hc
    · rw [hsame.emadCount]
      omega
    · intro i hi
      rw [hsame.emadCount] at hi
      rw [hoff, h.offset_eq ha hi]
    · rw [hzero, hcount]
      omega
    · simp only [transactionV10, storedTransaction, Transaction.mk.injEq]
      refine ⟨hsame.senderId, ?_, hsame.flags, hsame.handle, hsame.tag, h.endpoints, ?_⟩
      · rw [h.attributes, Nat.mod_eq_of_lt hattr]
      · rw [hzero, hranges]

/-! ## From version 1.0 -/

theorem V11Of.transaction (h : V11Of d y) (hl : Layout P (makeFfaVersion 1 0) d n) :
    readV10 d n = some (storedTransaction y) ∧ V10Convertible y := by
  have hc := hl.start.emads
  have hbehind := hl.behind
  have hsize := hl.size_eq
  simp only [Spmc.firstEmad, Spmc.emadStride, if_true] at hbehind
  have hcomp : Spmc.compOffset d (makeFfaVersion 1 0) = Emad.compMrdOffset d 32 := rfl
  rw [hcomp] at hbehind hsize
  have haddr : compAddr y = 48 + 16 * Mtd.emadCount d := by
    rw [← compOffset_v11, h.compOffset hc]
  have hemad : ∀ k, v11Emad y k = 48 + 16 * k := fun k => by
    rw [v11Emad, h.emadOffset, h.emadSize]
  refine ⟨readV10_eq_some.mpr ⟨⟨hc, by omega, ?_, by omega⟩, ?_⟩, ?_, ?_⟩
  · intro i hi
    exact hl.offset_v10 hi
  · simp only [transactionV10, storedTransaction, Transaction.mk.injEq]
    refine ⟨h.same.senderId.symm, h.attributes.symm, h.same.flags.symm, h.same.handle.symm,
      h.same.tag.symm, ?_, ?_⟩
    · rw [h.same.emadCount]
      refine List.map_congr_left fun i hi => ?_
      have he := h.emad i (List.mem_range.mp hi)
      rw [hemad]
      exact Prod.ext he.endpointId.symm (Prod.ext he.permissions.symm he.flags.symm)
    · rw [haddr, h.ranges]
      rfl
  · rw [haddr, hemad, h.same.emadCount]
  · rw [h.attributes]
    exact load_lt d 2 1

/-! ## The descriptor that a call completes -/

/-- What the SPMC makes of a descriptor sent at once: it sets the NS bit, the handle and the kind
of transaction. -/
def sentDesc (tx : Bytes) (handle flag : ℕ) : Bytes :=
  store (store (store tx 2 2 (Mtd.memoryRegionAttributes tx ||| FFA_MEM_ATTR_NS_BIT)) 8 8 handle)
    4 4 (Mtd.flags tx ||| flag)

theorem sent_bytes {tx : Bytes} {handle flag : ℕ} (h0 : o.descFilled = 0) (hn : 8 ≤ n) :
    ∀ i < n, (namedObj (receivedObj o tx n) handle flag).desc i = sentDesc tx handle flag i := by
  have hblit : ∀ i < n, blit o.desc o.descFilled tx n i = tx i := by
    intro i hi
    rw [h0, blit_inside (Nat.zero_le i) (by omega), Nat.sub_zero]
  have hattr : Mtd.memoryRegionAttributes (blit o.desc o.descFilled tx n) =
      Mtd.memoryRegionAttributes tx := load_congr fun i _ hi => hblit i (by omega)
  have hflags : Mtd.flags (receivedObj o tx n).desc = Mtd.flags tx := received_load h0 (by omega) hn
  change ∀ i < n, store (store (store (blit o.desc o.descFilled tx n) 2 2
    (Mtd.memoryRegionAttributes (blit o.desc o.descFilled tx n) ||| FFA_MEM_ATTR_NS_BIT)) 8 8 handle)
    4 4 (Mtd.flags (receivedObj o tx n).desc ||| flag) i = _
  rw [hattr, hflags]
  exact store_congr (store_congr (store_congr hblit))

def completedDesc (s : State) : Call → Option (Bytes × ℕ)
  | .memSend _ lend total _ _ _ tx =>
    some (sentDesc tx s.store.nextHandle (mtdFlag lend), total.toNat)
  | .memFragTx _ low high n _ tx =>
    ((liveObjects s.store).find? fun o =>
      Mtd.handle o.desc == memHandle low.toNat high.toNat).map fun o =>
        ((receivedObj o tx n.toNat).desc, o.descSize)
  | _ => none

theorem Settled.converted (h : Settled P v (makeFfaVersion 1 0) pre post o r objs')
    (hr : r = .successHandle low high) :
    o.descFilled = o.descSize ∧ ∃ x ∈ objs', Mtd.handle x.desc = low + high * 2 ^ 32 ∧
      x.descFilled = x.descSize ∧ readV10 o.desc o.descSize = some (storedTransaction x.desc) ∧
      V10Convertible x.desc ∧ 48 ≤ o.descSize := by
  cases h with
  | gone he => exact absurd (he.symm.trans hr) (by simp)
  | pending he live partly => exact absurd (he.symm.trans hr) (by simp)
  | accepted he hu live full clear => exact absurd rfl hu
  | @moved o' he hu layout whole live full unused handle ranges clear v11 =>
    have heq := he.symm.trans hr
    simp only [Reply.successHandle.injEq] at heq
    obtain ⟨hread, hconv⟩ := v11.transaction layout
    refine ⟨whole, o', List.mem_append_right _ List.mem_cons_self, ?_, full, hread, hconv,
      layout.start.size_ge⟩
    rw [← heq.1, ← heq.2, handle]
    exact split_handle _
  | dropped he h => exact absurd (he.symm.trans hr) (by simp)

theorem Change.converted (h : Change P v (makeFfaVersion 1 0) c r s.store.nextHandle objs next' objs')
    (hlive : liveObjects s.store = objs) (hr : r = .successHandle low high) :
    ∃ d n, completedDesc s c = some (d, n) ∧ ∃ x ∈ objs', Mtd.handle x.desc = low + high * 2 ^ 32 ∧
      x.descFilled = x.descSize ∧ readV10 d n = some (storedTransaction x.desc) ∧
      V10Convertible x.desc := by
  have hother : event c r = .other := by
    rw [hr]
    exact event_handle c low high
  cases h with
  | same hev hne =>
    rw [hr] at hne
    cases hne
  | sent hc handle unused size filledTo content settled empty made =>
    obtain ⟨hwhole, x, hx, hh, hf, hread, hconv, h48⟩ := settled.converted hr
    refine ⟨_, _, by rw [hc]; rfl, x, hx, hh, hf, ?_, hconv⟩
    rw [← hread, made, ← size, ← hwhole, filledTo]
    exact (readV10_congr (sent_bytes empty (by omega))).symm
  | @filled b low' high' n sender tx pre post x o _ hc found partly handle unused size filledTo
      content settled made =>
    obtain ⟨_, y, hy, hh, hf, hread, hconv, _⟩ := settled.converted hr
    refine ⟨(receivedObj x tx n.toNat).desc, x.descSize, ?_, y, hy, hh, hf, ?_, hconv⟩
    · rw [hc, completedDesc, hlive, found.find_eq]
      rfl
    · rw [← hread, made, size]
  | failed hc found partly he => exact absurd (he.symm.trans hr) (by simp)
  | viewed hc hns hev hne found full =>
    rw [hr] at hne
    cases hne
  | retrieved hc hev => exact absurd (hev.symm.trans hother) (by simp)
  | relinquished hc hev => exact absurd (hev.symm.trans hother) (by simp)
  | reclaimed hc hev => exact absurd (hev.symm.trans hother) (by simp)

/-! ## Runs -/

theorem populateV10_read {t : Datastore} (hs : Stored W t (pre ++ o :: post))
    (hl : Layout P (makeFfaVersion 1 1) o.desc o.descSize) :
    ∃ y, ∀ rx bufSize offset t' p,
      spmcPopulateFfaV10Descriptor t rx (offsetOf pre) bufSize offset = (t', .ok p) →
      p.rx = blit rx 0 (shift y offset) p.copySize ∧
      p.copySize = min (p.descSize - offset) bufSize ∧
      (readV10 y p.descSize = some (storedTransaction o.desc) ↔ V10Convertible o.desc) := by
  obtain ⟨y, hspec⟩ := populateV10_spec hs
  refine ⟨y, fun rx bufSize offset t' p hres => ?_⟩
  obtain ⟨t'', res, he, _, _, hresp⟩ := hspec rx bufSize offset
  have hpair := he.symm.trans hres
  simp only [Prod.mk.injEq] at hpair
  rw [hpair.2] at hresp
  cases hresp with
  | @made n k hn room fits conversion inside hk =>
    have hne : spmcShmGetV10DescriptorSize o.desc o.descSize ≠ 0 := by omega
    have hsize := v10DescriptorSize_eq hne
    have haddr : compAddr o.desc = Emad.compMrdOffset o.desc (Mtd.emadOffset o.desc) := by
      rw [compAddr, v11Emad, Nat.mul_zero, Nat.add_zero]
    rw [← haddr, ← hn] at hsize
    exact ⟨rfl, hk, conversion.read_iff hl.accepted hl.start.emads hsize⟩

theorem v10_conversion {b : Boot} {t : List (Call × Reply)} (hrun : Run P b.state t s) :
    (∀ q o, (q, o) ∈ s.store.objects → o.descFilled = o.descSize →
      ∃ y, ∀ rx bufSize offset t' p,
        spmcPopulateFfaV10Descriptor s.store rx q bufSize offset = (t', .ok p) →
        p.rx = blit rx 0 (shift y offset) p.copySize ∧
          p.copySize = min (p.descSize - offset) bufSize ∧
          (readV10 y p.descSize = some (storedTransaction o.desc) ↔ V10Convertible o.desc)) ∧
    ∀ c low high s', (s.endpoint c.secureOrigin).ffaVersion = makeFfaVersion 1 0 →
      spmcSmcHandler P s c = some (s', .successHandle low high) →
      ∃ d n, completedDesc s c = some (d, n) ∧
        ∃ x ∈ liveObjects s'.store, Mtd.handle x.desc = low + high * 2 ^ 32 ∧
          x.descFilled = x.descSize ∧ readV10 d n = some (storedTransaction x.desc) ∧
          V10Convertible x.desc := by
  obtain ⟨objs, hinv, -⟩ := hrun.issued
  refine ⟨?_, ?_⟩
  · intro q o hmem hf
    rw [hinv.stored.objects_eq, mem_withOffsets] at hmem
    obtain ⟨pre, post, hsplit, hq⟩ := hmem
    have hs := hinv.stored
    rw [hsplit] at hs
    have hq' : q = offsetOf pre := hq.trans (Nat.zero_add _)
    rw [hq']
    refine populateV10_read hs ((hinv.live o ?_).full hf)
    rw [hsplit]
    exact List.mem_append_right _ List.mem_cons_self
  · intro c low high s' hver hstep
    obtain ⟨objs', hinv', hchange, -⟩ := smcHandler_step hinv (fun _ _ _ _ => trivial) hstep
    rw [hver] at hchange
    rw [hinv'.stored.liveObjects_eq]
    exact hchange.converted hinv.stored.liveObjects_eq rfl

def anyPopulatedV10 (t : Datastore) (f : Obj → Populated → Bool) : Bool :=
  t.objects.any fun x => decide (x.2.descFilled = x.2.descSize) &&
    (spmcPopulateFfaV10Descriptor t (fun _ => 0) x.1 4096 0).2.toOption.any (f x.2)

theorem anyPopulatedV10_eq_true {t : Datastore} {f : Obj → Populated → Bool}
    (h : anyPopulatedV10 t f = true) : ∃ q o t' p, (q, o) ∈ t.objects ∧
      o.descFilled = o.descSize ∧
      spmcPopulateFfaV10Descriptor t (fun _ => 0) q 4096 0 = (t', .ok p) ∧ f o p = true := by
  obtain ⟨⟨q, o⟩, hmem, hx⟩ := List.any_eq_true.mp h
  rw [Bool.and_eq_true, decide_eq_true_eq] at hx
  obtain ⟨hf, hx⟩ := hx
  rcases hpop : spmcPopulateFfaV10Descriptor t (fun _ => 0) q 4096 0 with ⟨t', res⟩
  rw [hpop] at hx
  cases res with
  | error code => cases hx
  | ok p => exact ⟨q, o, t', p, hmem, hf, hpop, hx⟩

theorem v10_conversion_back : ∃ t s q o t' p,
    Run onePartition (bootV11 512 (by decide)).state t s ∧ (q, o) ∈ s.store.objects ∧
    o.descFilled = o.descSize ∧
    spmcPopulateFfaV10Descriptor s.store (fun _ => 0) q 4096 0 = (t', .ok p) ∧
    V10Convertible o.desc ∧
    ∃ y, p.rx = blit (fun _ => 0) 0 (shift y 0) p.copySize ∧
      p.copySize = min (p.descSize - 0) 4096 ∧
      (readV10 y p.descSize = some (storedTransaction o.desc) ↔ V10Convertible o.desc) := by
  obtain ⟨t, s, hrun, hq⟩ := @execute_run onePartition
    (fun _ s => anyPopulatedV10 s.store fun o _ => decide (V10Convertible o.desc))
    (bootV11 512 (by decide)).state
    (setUp 0x10000 ++
      [.memSend false false 96 96 0 0 (descriptorV10 [0x8001] [(0x1000, 1), (0x8000, 2)])])
    (by decide +kernel)
  obtain ⟨q, o, t', p, hmem, hf, hpop, hconv⟩ := anyPopulatedV10_eq_true hq
  obtain ⟨y, hy⟩ := (v10_conversion hrun).1 q o hmem hf
  exact ⟨t, s, q, o, t', p, hrun, hmem, hf, hpop, of_decide_eq_true hconv, y, hy _ _ _ _ _ hpop⟩

/-- With 16 bytes between the endpoint descriptors and the composite descriptor the receiver is
sent past the end. -/
theorem gap_lost : ∃ t s q o t' p,
    Run onePartition (bootV11 512 (by decide)).state t s ∧ (q, o) ∈ s.store.objects ∧
    o.descFilled = o.descSize ∧
    spmcPopulateFfaV10Descriptor s.store (fun _ => 0) q 4096 0 = (t', .ok p) ∧
    p.copySize = p.descSize ∧ readV10 p.rx p.descSize ≠ some (storedTransaction o.desc) := by
  obtain ⟨t, s, hrun, hq⟩ := @execute_run onePartition
    (fun _ s => anyPopulatedV10 s.store fun o p => decide (p.copySize = p.descSize ∧
      readV10 p.rx p.descSize ≠ some (storedTransaction o.desc))) (bootV11 512 (by decide)).state
    (setUp 0x10001 ++
      [.memSend false false 112 112 0 0 (descriptorV11 16 [0x8001] [(0x1000, 1)])])
    (by decide +kernel)
  obtain ⟨q, o, t', p, hmem, hf, hpop, hbad⟩ := anyPopulatedV10_eq_true hq
  exact ⟨t, s, q, o, t', p, hrun, hmem, hf, hpop, of_decide_eq_true hbad⟩

end TrustedFirmware.Spmc
