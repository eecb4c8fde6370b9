import TrustedFirmware.Spmc.ReleaseSpec
import TrustedFirmware.Spmc.Calls

/-! # What a call does to the objects

A call leaves the list of objects as it is, appends the object it sends, adds to or gives up
one that is being received, or changes the header of or removes one that is complete. The
invariants of the datastore follow from this list of changes. -/
namespace TrustedFirmware.Spmc
open ByteMemory RecordTiling
set_option autoImplicit false

variable {W : Write → Prop} {P : Platform} {objs pre post : List Obj} {o : Obj} {v u : ℕ}

/-! ## Live objects -/

/-- An object as it stays in the datastore between two calls, for a normal world of version `v`. -/
structure LiveObj (P : Platform) (v : ℕ) (o : Obj) : Prop where
  aligned : o.descSize % 16 = 0
  filled_le : o.descFilled ≤ o.descSize
  partly : o.descFilled ≠ o.descSize →
    StartOk o.desc v o.descFilled o.descSize ∧ o.inUse = 0
  full : o.descFilled = o.descSize → Layout P (makeFfaVersion 1 1) o.desc o.descSize

theorem StartOk.size_ge {d : Bytes} {n t : ℕ} (h : StartOk d v n t) : 48 ≤ t := by
  have hin := h.inside
  have hfirst := h.first_le
  have hmul := Nat.mul_le_mul (Nat.pos_of_ne_zero h.emads) h.stride_ge
  split at hfirst <;> omega

theorem StartOk.header_ge {d : Bytes} {n t : ℕ} (h : StartOk d v n t) : 32 ≤ n := by
  have hh := h.header
  split at hh <;> omega

theorem LiveObj.size_ge (h : LiveObj P v o) : 48 ≤ o.descSize := by
  by_cases hf : o.descFilled = o.descSize
  · exact (h.full hf).start.size_ge
  · exact (h.partly hf).1.size_ge

theorem StartOk.grow {d d' : Bytes} {n n' t : ℕ} (h : StartOk d v n t) (hle : n ≤ n')
    (hl : ∀ a k, 24 ≤ a → a + k ≤ n → load d' a k = load d a k) : StartOk d' v n' t := by
  have h32 := h.header_ge
  refine h.congr hle (hl 28 4 (by omega) (by omega)) ?_ ?_
  · by_cases hv : v = makeFfaVersion 1 0
    · rw [firstEmad, firstEmad, if_pos hv, if_pos hv]
    · have hh := h.header
      rw [if_neg hv] at hh
      rw [firstEmad_of_ne _ hv, firstEmad_of_ne _ hv]
      exact hl 32 4 (by omega) (by omega)
  · by_cases hv : v = makeFfaVersion 1 0
    · rw [emadStride, emadStride, if_pos hv, if_pos hv]
    · rw [emadStride_of_ne _ hv, emadStride_of_ne _ hv]
      exact hl 24 4 (by omega) (by omega)

theorem receivedObj_load {tx : Bytes} {n a k : ℕ} (ha : 4 ≤ a) (hk : a + k ≤ o.descFilled) :
    load (receivedObj o tx n).desc a k = load o.desc a k := by
  change load (store (blit o.desc o.descFilled tx n) 2 2 _) a k = _
  rw [load_store_outside (by omega), load_blit_outside (Or.inl hk)]

theorem received_load {tx : Bytes} {n a k : ℕ} (h0 : o.descFilled = 0) (ha : 4 ≤ a)
    (hk : a + k ≤ n) : load (receivedObj o tx n).desc a k = load tx a k := by
  change load (store (blit o.desc o.descFilled tx n) 2 2 _) a k = _
  rw [load_store_outside (by omega), h0, load_blit_inside (by omega) (by omega)]
  rfl

theorem namedObj_load {h f a k : ℕ} (ha : 16 ≤ a) :
    load (namedObj o h f).desc a k = load o.desc a k := by
  change load (store (store o.desc 8 8 h) 4 4 _) a k = _
  rw [load_store_outside (by omega), load_store_outside (by omega)]

theorem namedObj_handle {h f : ℕ} (hh : h < 2 ^ 64) : Mtd.handle (namedObj o h f).desc = h := by
  change load (store (store o.desc 8 8 h) 4 4 _) 8 8 = _
  rw [load_store_outside (by omega), load_store_self, size_t_bytes, Nat.mod_eq_of_lt hh]

theorem start_first {tx : Bytes} {n h f : ℕ} (h0 : o.descFilled = 0)
    (hs : StartOk (receivedObj o tx n).desc v n o.descSize) :
    StartOk (grownObj (namedObj (receivedObj o tx n) h f) n).desc v
      (grownObj (namedObj (receivedObj o tx n) h f) n).descFilled o.descSize := by
  change StartOk (namedObj (receivedObj o tx n) h f).desc v (o.descFilled + n) o.descSize
  rw [h0, Nat.zero_add]
  exact hs.grow (Nat.le_refl n) fun a k ha _ => namedObj_load (by omega)

theorem start_next {tx : Bytes} {n : ℕ} (hs : StartOk o.desc v o.descFilled o.descSize) :
    StartOk (grownObj (receivedObj o tx n) n).desc v (grownObj (receivedObj o tx n) n).descFilled
      o.descSize := by
  change StartOk (receivedObj o tx n).desc v (o.descFilled + n) o.descSize
  exact hs.grow (Nat.le_add_right _ _) fun a k ha hk => receivedObj_load (by omega) hk

/-! ## The end of a fragment -/

/-- The object that a handle is found at is freed, where `y` with that handle was behind `rest`. -/
def Dropped (P : Platform) (v h : ℕ) (rest objs' : List Obj) : Prop :=
  ∃ y pre x post, LiveObj P v y ∧ y.inUse = 0 ∧ Mtd.handle y.desc = h ∧
    Found (rest ++ [y]) h pre x post ∧ objs' = pre ++ post

/-- The objects behind a call, of a caller of version `u`, that added a fragment to `o`. -/
inductive Settled (P : Platform) (v u : ℕ) (pre post : List Obj) (o : Obj) (r : Reply) :
    List Obj → Prop
  | gone {code : Int} (hr : r = .error code) : Settled P v u pre post o r (pre ++ post)
  | pending (hr : r = .memFragRx (Mtd.handle o.desc % 2 ^ 32) (Mtd.handle o.desc / 2 ^ 32)
        o.descFilled (Mtd.senderId o.desc * 2 ^ 16))
      (live : LiveObj P v o) (partly : o.descFilled ≠ o.descSize) :
      Settled P v u pre post o r (pre ++ o :: post)
  | accepted (hr : r = .successHandle (Mtd.handle o.desc % 2 ^ 32) (Mtd.handle o.desc / 2 ^ 32))
      (hu : u ≠ makeFfaVersion 1 0) (live : LiveObj P v o) (full : o.descFilled = o.descSize)
      (clear : Clear (makeFfaVersion 1 1) o (pre ++ post)) :
      Settled P v u pre post o r (pre ++ o :: post)
  | moved {o' : Obj}
      (hr : r = .successHandle (Mtd.handle o.desc % 2 ^ 32) (Mtd.handle o.desc / 2 ^ 32))
      (hu : u = makeFfaVersion 1 0) (layout : Layout P (makeFfaVersion 1 0) o.desc o.descSize)
      (whole : o.descFilled = o.descSize) (live : LiveObj P v o')
      (full : o'.descFilled = o'.descSize) (unused : o'.inUse = 0)
      (handle : Mtd.handle o'.desc = Mtd.handle o.desc)
      (ranges : regionRanges o'.desc (makeFfaVersion 1 1) =
        regionRanges o.desc (makeFfaVersion 1 0))
      (clear : Clear (makeFfaVersion 1 1) o' (pre ++ post)) (v11 : V11Of o.desc o'.desc) :
      Settled P v u pre post o r (pre ++ post ++ [o'])
  | dropped {code : Int} {objs' : List Obj} (hr : r = .error code)
      (h : Dropped P v (Mtd.handle o.desc) (pre ++ post) objs') : Settled P v u pre post o r objs'

theorem liveObj_converted {y : Bytes} (hl : Layout P (makeFfaVersion 1 0) o.desc o.descSize)
    (hy : V11Of o.desc y) : LiveObj P v (convertedObj o y) := by
  refine ⟨?_, Nat.le_refl _, fun h => absurd rfl h, fun _ => hy.layout hl⟩
  simp only [convertedObj, spmcShmGetV11DescriptorSize]
  omega

theorem clear_converted {y : Bytes} (hl : Layout P (makeFfaVersion 1 0) o.desc o.descSize)
    (hy : V11Of o.desc y) (hc : Clear (makeFfaVersion 1 0) o objs) :
    Clear (makeFfaVersion 1 1) (convertedObj o y) objs := by
  intro x hx hne hfull r1 hr1
  have hr1' : r1 ∈ regionRanges y (makeFfaVersion 1 1) := hr1
  rw [hy.regionRanges hl.start.emads] at hr1'
  have hne' : Mtd.handle y ≠ Mtd.handle x.desc := hne
  rw [hy.same.handle] at hne'
  exact hc x hx hne' hfull r1 hr1'

theorem regionRanges_of_ne {d : Bytes} (hv : v ≠ makeFfaVersion 1 0) :
    regionRanges d (makeFfaVersion 1 1) = regionRanges d v := by
  rw [regionRanges, regionRanges, compOffset, compOffset, firstEmad_of_ne _ v11_ne,
    firstEmad_of_ne _ hv]

theorem Outcome.settled {s s' : Datastore} {r : Reply}
    (h : Outcome P W u pre post o s s' r) (ha : o.descSize % 16 = 0) (hfill : o.descFilled ≤ o.descSize)
    (hstart : StartOk o.desc v o.descFilled o.descSize) (hunused : o.inUse = 0) :
    ∃ objs', Stored W s' objs' ∧ s.Kept s' ∧ Settled P v u pre post o r objs' := by
  cases h with
  | rejected hr kept stored => exact ⟨_, stored, kept, .gone hr⟩
  | more partly hr kept stored =>
    exact ⟨_, stored, kept, .pending hr ⟨ha, hfill, fun _ => ⟨hstart, hunused⟩,
      fun h => absurd h partly⟩ partly⟩
  | accepted hv hr full layout clear kept stored =>
    have hl := layout.other_version hv v11_ne (by decide)
    have hc : Clear (makeFfaVersion 1 1) o (pre ++ post) := by
      intro x hx hne hf r1 hr1
      rw [regionRanges_of_ne hv] at hr1
      exact clear x hx hne hf r1 hr1
    exact ⟨_, stored, kept, .accepted hr hv ⟨ha, hfill, fun h => absurd full h, fun _ => hl⟩ full hc⟩
  | converted hv hr full layout clear v11 kept stored =>
    subst hv
    exact ⟨_, stored, kept, .moved hr rfl layout full (liveObj_converted layout v11) rfl rfl
      v11.same.handle (v11.regionRanges layout.start.emads) (clear_converted layout v11 clear) v11⟩
  | dropped hv hr full layout clear v11 split found first kept stored =>
    subst hv
    exact ⟨_, stored, kept, .dropped hr ⟨_, _, _, _, liveObj_converted layout v11, rfl,
      v11.same.handle, ⟨split, found, first⟩, rfl⟩⟩

/-! ## Calls -/

def Call.handle : Call → Option ℕ
  | memFragTx _ low high _ _ _ => some (memHandle low.toNat high.toNat)
  | memRetrieveReq _ _ _ _ _ tx => some (Mtd.handle tx)
  | memFragRx _ low high _ _ => some (memHandle low.toNat high.toNat)
  | memRelinquish _ tx => some (load tx 0 8)
  | memReclaim _ low high _ => some (memHandle low.toNat high.toNat)
  | _ => none

def Call.isSend : Call → Bool
  | memSend b _ _ _ _ _ _ => !b
  | _ => false

/-- The call passes the checks before `spmc_shmem_obj_alloc()`, which it asks for `size` bytes. -/
def Call.Allocates (s : State) (size : ℕ) : Call → Prop
  | memSend false _ total n address pages _ => (address.toNat = 0 ∧ pages.toNat = 0) ∧
      (∃ m, minDescSize s.ns.ffaVersion = some m ∧ m ≤ n.toNat) ∧ size = total.toNat
  | memRetrieveReq b total n address pages _ => size = roundUp16 total.toNat ∧
      RequestArgs (s.endpoint b) total.toNat n.toNat address.toNat pages.toNat
  | _ => False

/-- The calls that count for an object. -/
inductive Event where
  | retrieved (h : ℕ)
  | relinquished (h : ℕ)
  | reclaimed (h : ℕ)
  | other
  deriving DecidableEq

/-- A partition's successful retrieve or relinquish, or a successful reclaim. -/
def event : Call → Reply → Event
  | .memRetrieveReq true _ _ _ _ tx, .memRetrieveResp _ _ => .retrieved (Mtd.handle tx)
  | .memRelinquish _ tx, .success => .relinquished (load tx 0 8)
  | .memReclaim _ low high _, .success => .reclaimed (memHandle low.toNat high.toNat)
  | _, _ => .other

theorem event_error (c : Call) (code : Int) : event c (.error code) = .other := by
  cases c with
  | memRetrieveReq b => cases b <;> rfl
  | _ => rfl

def Reply.isDescriptor : Reply → Bool
  | memRetrieveResp _ _ => true
  | memFragTx _ _ _ _ => true
  | _ => false

def Reply.isHandle : Reply → Bool
  | successHandle _ _ => true
  | _ => false

def mtdFlag (lend : Bool) : ℕ :=
  if lend then FFA_MTD_FLAG_TYPE_LEND_MEMORY else FFA_MTD_FLAG_TYPE_SHARE_MEMORY

/-- What a call of a caller of version `u` does to the objects and to the next handle. -/
inductive Change (P : Platform) (v u : ℕ) (c : Call) (r : Reply) (next : ℕ) (objs : List Obj) :
    ℕ → List Obj → Prop
  | same (hev : event c r = .other) (hr : r.isHandle = false) :
      Change P v u c r next objs next objs
  | sent {lend : Bool} {total address : UInt64} {n pages : UInt32} {tx : Bytes} {o : Obj}
      {objs' : List Obj} {x : Obj} (hc : c = .memSend false lend total n address pages tx)
      (handle : Mtd.handle o.desc = next) (unused : o.inUse = 0) (size : o.descSize = total.toNat)
      (filledTo : o.descFilled = n.toNat)
      (content : ∀ a k, 16 ≤ a → a + k ≤ n.toNat → load o.desc a k = load tx a k)
      (settled : Settled P v u objs [] o r objs') (empty : x.descFilled = 0)
      (made : o.desc = (namedObj (receivedObj x tx n.toNat) next (mtdFlag lend)).desc) :
      Change P v u c r next objs ((next + 1) % 2 ^ 64) objs'
  | filled {b : Bool} {low high : UInt64} {n sender : UInt32} {tx : Bytes} {pre post : List Obj}
      {x o : Obj} {objs' : List Obj} (hc : c = .memFragTx b low high n sender tx)
      (found : Found objs (memHandle low.toNat high.toNat) pre x post)
      (partly : x.descFilled ≠ x.descSize) (handle : Mtd.handle o.desc = Mtd.handle x.desc)
      (unused : o.inUse = 0) (size : o.descSize = x.descSize)
      (filledTo : o.descFilled = x.descFilled + n.toNat)
      (content : ∀ a k, 16 ≤ a →
        load o.desc a k = load (blit x.desc x.descFilled tx n.toNat) a k)
      (settled : Settled P v u pre post o r objs')
      (made : o.desc = (receivedObj x tx n.toNat).desc) :
      Change P v u c r next objs next objs'
  | failed {b : Bool} {low high : UInt64} {n sender : UInt32} {tx : Bytes} {pre post : List Obj}
      {x : Obj} {code : Int} (hc : c = .memFragTx b low high n sender tx)
      (found : Found objs (memHandle low.toNat high.toNat) pre x post)
      (partly : x.descFilled ≠ x.descSize) (hr : r = .error code) :
      Change P v u c r next objs next (pre ++ post)
  | retrieved {h : ℕ} {pre post : List Obj} {o : Obj} (hc : c.handle = some h)
      (hev : event c r = .retrieved h) (found : Found objs h pre o post)
      (full : o.descFilled = o.descSize) :
      Change P v u c r next objs next (pre ++ o.withInUse ((o.inUse + 1) % 2 ^ 64) :: post)
  | viewed {h k : ℕ} {pre post : List Obj} {o : Obj} (hc : c.handle = some h)
      (hns : c.secureOrigin = false) (hev : event c r = .other) (hr : r.isHandle = false)
      (found : Found objs h pre o post) (full : o.descFilled = o.descSize)
      (answered : r.isDescriptor = true) :
      Change P v u c r next objs next (pre ++ o.withHypShift k :: post)
  | relinquished {h : ℕ} {pre post : List Obj} {o : Obj} (hc : c.handle = some h)
      (hev : event c r = .relinquished h) (found : Found objs h pre o post) (used : o.inUse ≠ 0) :
      Change P v u c r next objs next (pre ++ o.withInUse (o.inUse - 1) :: post)
  | reclaimed {h : ℕ} {pre post : List Obj} {o : Obj} (hc : c.handle = some h)
      (hev : event c r = .reclaimed h) (found : Found objs h pre o post)
      (full : o.descFilled = o.descSize) (unused : o.inUse = 0) (hns : c.secureOrigin = false) :
      Change P v u c r next objs next (pre ++ post)

/-! ## The handlers -/

section
variable {s s' : State} {r : Reply} {b : Bool} {tx : Bytes}

structure SameVersions (s s' : State) : Prop where
  ns : s'.ns.ffaVersion = s.ns.ffaVersion
  nsDone : s'.ns.ffaVersionNegotiated = s.ns.ffaVersionNegotiated
  sp : s'.sp.ffaVersion = s.sp.ffaVersion
  spDone : s'.sp.ffaVersionNegotiated = s.sp.ffaVersionNegotiated

theorem sameVersions_setMailbox (s : State) (b : Bool) (m : Mailbox) :
    SameVersions s (s.setMailbox b m) := by
  cases b <;> exact ⟨rfl, rfl, rfl, rfl⟩

/-- What a handler leaves, with the objects `objs'` in the datastore. -/
structure ChangedTo (P : Platform) (W : Write → Prop) (c : Call) (r : Reply) (s s' : State)
    (objs objs' : List Obj) : Prop where
  stored : Stored W s'.store objs'
  change : Change P s.ns.ffaVersion (s.endpoint c.secureOrigin).ffaVersion c r
    s.store.nextHandle objs s'.store.nextHandle objs'
  dataSize : s'.store.dataSize = s.store.dataSize
  versions : SameVersions s s'

def Changes (P : Platform) (W : Write → Prop) (c : Call) (r : Reply) (s s' : State)
    (objs : List Obj) : Prop :=
  ∃ objs', ChangedTo P W c r s s' objs objs'

theorem Changes.same {c : Call} {t : Datastore} (hs : Stored W t objs) (hk : s.store.Kept t)
    (hev : event c r = .other) (hr : r.isHandle = false) (hs' : s'.store = t)
    (hv : SameVersions s s') : Changes P W c r s s' objs := by
  subst hs'
  refine ⟨objs, hs, ?_, hk.dataSize, hv⟩
  rw [hk.nextHandle]
  exact .same hev hr

theorem Changes.refused {c : Call} {code : Int} (hs : Stored W s.store objs)
    (h : some (s, Reply.error code) = some (s', r)) : Changes P W c r s s' objs := by
  cases h
  exact .same hs (Datastore.Kept.refl _) (event_error c code) rfl rfl ⟨rfl, rfl, rfl, rfl⟩

theorem Changes.of_kept {c : Call} {t : Datastore} {objs' : List Obj} (hs : Stored W t objs')
    (hk : s.store.Kept t)
    (hc : Change P s.ns.ffaVersion (s.endpoint c.secureOrigin).ffaVersion c r
      s.store.nextHandle objs s.store.nextHandle objs')
    (hs' : s'.store = t) (hv : SameVersions s s') : Changes P W c r s s' objs := by
  subst hs'
  refine ⟨objs', hs, ?_, hk.dataSize, hv⟩
  rw [hk.nextHandle]
  exact hc

theorem sameVersions_store (s : State) (t : Datastore) : SameVersions s { s with store := t } :=
  ⟨rfl, rfl, rfl, rfl⟩

theorem sameVersions_stored_mailbox (s : State) (t : Datastore) (b : Bool) (m : Mailbox) :
    SameVersions s (({ s with store := t } : State).setMailbox b m) := by
  cases b <;> exact ⟨rfl, rfl, rfl, rfl⟩

theorem setMailbox_store (s : State) (b : Bool) (m : Mailbox) : (s.setMailbox b m).store = s.store := by
  cases b <;> rfl

theorem minDescSize_ge {m : ℕ} (h : minDescSize v = some m) : 32 ≤ m := by
  rw [minDescSize] at h
  split at h
  · rw [← Option.some.inj h]
  split at h
  · rw [← Option.some.inj h]
    omega
  · cases h

theorem memSend_changes {lend : Bool} {total address : UInt64} {n pages : UInt32}
    (hs : Stored W s.store objs) (hall : FullLayout P objs) (hnext : s.store.nextHandle < 2 ^ 64)
    (hshort : (Call.memSend b lend total n address pages tx).Allocates s total.toNat →
      Fits s.store total.toNat → total.toNat < 48 →
      W (.into s.store.allocated (32 + total.toNat) 32 48))
    (hres : spmcFfaMemSend P s b lend total.toNat n.toNat address.toNat pages.toNat tx =
      some (s', r)) : Changes P W (.memSend b lend total n address pages tx) r s s' objs := by
  rw [spmcFfaMemSend] at hres
  split at hres
  · exact .refused hs hres
  rename_i hargs
  split at hres
  · exact .refused hs hres
  rename_i hb
  have hb' : b = false := by simpa using hb
  subst hb'
  cases hmin : minDescSize (s.endpoint false).ffaVersion with
  | none =>
    rw [hmin] at hres
    exact .refused hs hres
  | some m =>
    rw [hmin] at hres
    simp only at hres
    split at hres
    · exact .refused hs hres
    rename_i hm
    cases ha : spmcShmemObjAlloc s.store total.toNat with
    | none =>
      rw [ha] at hres
      exact .refused hs hres
    | some a =>
      obtain ⟨q, t⟩ := a
      rw [ha] at hres
      obtain ⟨hfits, rfl, rfl⟩ := alloc_some hs (UInt64.toNat_lt total) ha
      have h1 := hs.alloc hfits
        (hshort ⟨by omega, ⟨m, hmin, Nat.le_of_not_lt hm⟩, rfl⟩ hfits)
      obtain ⟨⟨t, r'⟩, hfill, heq⟩ := Option.map_eq_some_iff.mp hres
      cases heq
      have h32 := minDescSize_ge hmin
      rw [hs.allocated_eq] at hfill
      have hrec := @fillDesc_cases W P _ t r' objs [] (freshObj s.store total.toNat) _ _ _ _ _ h1
        (by rw [List.append_nil]; exact hall) (Nat.zero_le _)
        (fun hn => by simp only [freshObj] at hn ⊢; omega) hfill
      cases hrec with
      | refused hr kept stored =>
        rw [List.append_nil] at stored
        subst hr
        exact .same stored ((kept_allocated _ _).trans kept) rfl rfl rfl (sameVersions_store s t)
      | next room begun outcome => exact absurd rfl begun
      | first room empty start outcome =>
        have hle : 0 + n.toNat ≤ total.toNat := by
          simp only [freshObj] at room
          omega
        obtain ⟨objs', hst, hk, hsettled⟩ :=
          outcome.settled hfits.aligned hle (start_first empty start) rfl
        refine ⟨objs', hst, ?_, hk.dataSize, sameVersions_store s t⟩
        have hn := hk.nextHandle
        rw [hn]
        refine .sent rfl ?_ rfl rfl (Nat.zero_add _) ?_ hsettled empty rfl
        · exact @namedObj_handle (receivedObj (freshObj s.store total.toNat) tx n.toNat) _ _ hnext
        · intro a k ha hk
          exact (namedObj_load ha).trans (received_load rfl (by omega) hk)

theorem memFragTx_changes {low high : UInt64} {n sender : UInt32} (hs : Stored W s.store objs)
    (hlive : ∀ o ∈ objs, LiveObj P s.ns.ffaVersion o)
    (hres : spmcFfaMemFragTx P s b (memHandle low.toNat high.toNat) n.toNat sender.toNat tx =
      some (s', r)) : Changes P W (.memFragTx b low high n sender tx) r s s' objs := by
  rw [spmcFfaMemFragTx] at hres
  rcases hs.found with ⟨hl, _⟩ | ⟨pre, x, post, hfound, hl⟩
  · rw [hl] at hres
    exact .refused hs hres
  rw [hl] at hres
  have hs1 := hs
  rw [hfound.split] at hs1
  simp only [hs1.obj_eq] at hres
  split at hres
  · exact .refused hs hres
  split at hres
  · exact .refused hs hres
  rename_i hpart
  obtain ⟨⟨t, r'⟩, hfill, heq⟩ := Option.map_eq_some_iff.mp hres
  cases heq
  have hx := hlive x hfound.mem
  have hsize := hx.size_ge
  obtain ⟨hstart, hunused⟩ := hx.partly hpart
  have h32 := hstart.header_ge
  have hall : FullLayout P (pre ++ post) := by
    intro y hy hf
    refine (hlive y ?_).full hf
    rw [hfound.split]
    rcases List.mem_append.mp hy with h | h
    · exact List.mem_append_left _ h
    · exact List.mem_append_right _ (List.mem_cons_of_mem _ h)
  have hrec := fillDesc_cases hs1 hall hx.filled_le (fun _ => by omega) hfill
  cases hrec with
  | refused hr kept stored =>
    exact .of_kept stored kept (.failed rfl hfound hpart hr) rfl (sameVersions_store s t)
  | first room empty start outcome => omega
  | next room begun outcome =>
    have hle : x.descFilled + n.toNat ≤ x.descSize := by
      have hfill := hx.filled_le
      omega
    have hhandle : Mtd.handle (grownObj (receivedObj x tx n.toNat) n.toNat).desc =
        Mtd.handle x.desc := @receivedObj_load x tx n.toNat 8 8 (by omega) (by omega)
    obtain ⟨objs', hst, hk, hsettled⟩ :=
      outcome.settled hx.aligned hle (start_next hstart) hunused
    refine .of_kept hst hk (.filled rfl hfound hpart hhandle hunused rfl rfl ?_ hsettled rfl) rfl
      (sameVersions_store s t)
    intro a k ha
    exact load_store_outside (by omega)

theorem memRetrieveReq_changes {total n pages : UInt32} {address : UInt64}
    (hs : Stored W s.store objs) (hall : FullLayout P objs)
    (hshort : (Call.memRetrieveReq b total n address pages tx).Allocates s (roundUp16 total.toNat) →
      Fits s.store (roundUp16 total.toNat) → roundUp16 total.toNat < 48 →
      W (.into s.store.allocated (32 + roundUp16 total.toNat) 32 48))
    (hres : spmcFfaMemRetrieveReq P s b total.toNat n.toNat address.toNat pages.toNat tx =
      some (s', r)) : Changes P W (.memRetrieveReq b total n address pages tx) r s s' objs := by
  have hret := retrieveReq_cases hs hall (UInt32.toNat_lt total) (fun ha => hshort ⟨rfl, ha⟩) hres
  cases hret with
  | refused hr hs' kept stored =>
    subst hs' hr
    exact .same stored kept (event_error _ _) rfl rfl (sameVersions_store s _)
  | @responded t pre post o p found full request room response hr hs' kept stored =>
    subst hs'
    rw [hr]
    cases b with
    | true =>
      exact .of_kept stored kept (.retrieved rfl rfl found full) (setMailbox_store _ _ _)
        (sameVersions_stored_mailbox s t true _)
    | false =>
      exact .of_kept stored kept (.viewed rfl rfl rfl rfl found full rfl) (setMailbox_store _ _ _)
        (sameVersions_stored_mailbox s t false _)

theorem memFragRx_changes {low high offset sender : UInt32} (hs : Stored W s.store objs)
    (hall : FullLayout P objs)
    (hres : spmcFfaMemFragRx s b low.toNat high.toNat offset.toNat sender.toNat = some (s', r)) :
    Changes P W (.memFragRx b low high offset sender) r s s' objs := by
  have hfrag := fragRx_cases hs hall hres
  cases hfrag with
  | refused hr hs' =>
    subst hs' hr
    exact .same hs (Datastore.Kept.refl _) rfl rfl rfl ⟨rfl, rfl, rfl, rfl⟩
  | @failed t code pre post o found checks hr hs' kept stored =>
    subst hs' hr
    exact .same stored kept rfl rfl (setMailbox_store _ _ _) (sameVersions_stored_mailbox s t b _)
  | @sent t pre post o p found checks fragment hr hs' kept stored =>
    subst hs' hr
    rw [fragmentObj] at stored
    split at stored
    · rename_i hfirst
      exact .of_kept stored kept (.viewed rfl hfirst.1 rfl rfl found checks.full rfl)
        (setMailbox_store _ _ _) (sameVersions_stored_mailbox s t b _)
    · rw [← found.split] at stored
      exact .same stored kept rfl rfl (setMailbox_store _ _ _) (sameVersions_stored_mailbox s t b _)

theorem memRelinquish_changes (hs : Stored W s.store objs)
    (hres : spmcFfaMemRelinquish P s b tx = some (s', r)) :
    Changes P W (.memRelinquish b tx) r s s' objs := by
  have hrel := (relinquish_cases hs hres).1
  cases hrel with
  | refused hr hs' =>
    subst hs' hr
    exact .same hs (Datastore.Kept.refl _) rfl rfl rfl ⟨rfl, rfl, rfl, rfl⟩
  | released found listed used hr hs' kept stored =>
    subst hs'
    rw [hr]
    exact .of_kept stored kept (.relinquished rfl rfl found used) rfl (sameVersions_store s _)

theorem memReclaim_changes {low high flags : UInt32} (hs : Stored W s.store objs)
    (hres : spmcFfaMemReclaim P s b low.toNat high.toNat flags.toNat = some (s', r)) :
    Changes P W (.memReclaim b low high flags) r s s' objs := by
  obtain ⟨hrec, hb⟩ := reclaim_cases hs hres
  cases hrec with
  | refused hr hs' =>
    subst hs' hr
    exact .same hs (Datastore.Kept.refl _) rfl rfl rfl ⟨rfl, rfl, rfl, rfl⟩
  | removed found full unused hr hs' kept stored =>
    subst hs'
    rw [hr]
    exact .of_kept stored kept (.reclaimed rfl rfl found full unused (hb hr)) rfl
      (sameVersions_store s _)

end

end TrustedFirmware.Spmc
