import TrustedFirmware.Spmc.ResponseSpec
import TrustedFirmware.Spmc.FillSpec

/-! # What retrieving, relinquishing and reclaiming do

Each of these handlers looks an object up by its handle. A retrieve request is kept in a
temporary object while it is checked, which the lookup can find too: it then fails, because
that object is never complete. -/
namespace TrustedFirmware.Spmc
open ByteMemory RecordTiling
set_option autoImplicit false

variable {W : Write → Prop} {P : Platform} {s s' : State} {r : Reply} {objs pre post : List Obj}
  {o : Obj} {b : Bool} {v : ℕ} {tx : Bytes}

variable {t : Datastore} {handle total fragment address pages : ℕ}

/-! ## The lookup -/

/-- The first object with the handle `h`. -/
structure Found (objs : List Obj) (h : ℕ) (pre : List Obj) (o : Obj) (post : List Obj) : Prop where
  split : objs = pre ++ o :: post
  handle : Mtd.handle o.desc = h
  first : ∀ x ∈ pre, Mtd.handle x.desc ≠ h

theorem Stored.found (h : Stored W t objs) :
    (spmcShmemObjLookup t handle = none ∧ ∀ x ∈ objs, Mtd.handle x.desc ≠ handle) ∨
      ∃ pre o post, Found objs handle pre o post ∧
        spmcShmemObjLookup t handle = some (offsetOf pre) := by
  rcases h.lookup handle with hn | ⟨pre, o, post, ho, hh, hpre, hf⟩
  · exact Or.inl hn
  · exact Or.inr ⟨pre, o, post, ⟨ho, hh, hpre⟩, hf⟩

theorem Found.mem (h : Found objs handle pre o post) : o ∈ objs := by
  rw [h.split]
  exact List.mem_append_right _ List.mem_cons_self

theorem Found.unique {pre' post' : List Obj} {o' : Obj} (h : Found objs handle pre o post)
    (h' : Found objs handle pre' o' post') : pre = pre' ∧ o = o' ∧ post = post' := by
  induction pre generalizing objs pre' with
  | nil =>
    have hs := h.split.symm.trans h'.split
    cases pre' with
    | nil =>
      rw [List.nil_append, List.nil_append, List.cons.injEq] at hs
      exact ⟨rfl, hs⟩
    | cons y ys =>
      rw [List.nil_append, List.cons_append, List.cons.injEq] at hs
      exact absurd (hs.1 ▸ h.handle) (h'.first y List.mem_cons_self)
  | cons x xs ih =>
    have hs := h.split.symm.trans h'.split
    cases pre' with
    | nil =>
      rw [List.nil_append, List.cons_append, List.cons.injEq] at hs
      exact absurd (hs.1 ▸ h'.handle) (h.first x List.mem_cons_self)
    | cons y ys =>
      rw [List.cons_append, List.cons_append, List.cons.injEq] at hs
      have hrest := @ih (xs ++ o :: post) ys
        ⟨rfl, h.handle, fun z hz => h.first z (List.mem_cons_of_mem _ hz)⟩
        ⟨hs.2, h'.handle, fun z hz => h'.first z (List.mem_cons_of_mem _ hz)⟩
      exact ⟨by rw [hs.1, hrest.1], hrest.2⟩

theorem Found.lookup (h : Found objs handle pre o post) (hs : Stored W t objs) :
    spmcShmemObjLookup t handle = some (offsetOf pre) := by
  rcases hs.found with ⟨_, hn⟩ | ⟨pre', x, post', hx, hf⟩
  · exact absurd h.handle (hn o h.mem)
  · rw [hf, (h.unique hx).1]

theorem Found.update {o' : Obj} (h : Found objs handle pre o post) (hd : o'.desc = o.desc) :
    Found (pre ++ o' :: post) handle pre o' post :=
  ⟨rfl, by rw [hd]; exact h.handle, h.first⟩

theorem Found.snoc {handle : ℕ} {x : Obj} (h : Found (objs ++ [x]) handle pre o post) :
    (pre = objs ∧ o = x ∧ post = []) ∨ ∃ post', post = post' ++ [x] ∧
      Found objs handle pre o post' := by
  rcases List.eq_nil_or_concat post with rfl | ⟨post', y, rfl⟩
  · have hs := List.append_inj' h.split rfl
    exact Or.inl ⟨hs.1.symm, (List.cons.inj hs.2).1.symm, rfl⟩
  · have hs := h.split
    rw [List.concat_eq_append, ← List.cons_append, ← List.append_assoc] at hs
    have hs' := List.append_inj' hs rfl
    refine Or.inr ⟨post', ?_, ⟨hs'.1, h.handle, h.first⟩⟩
    rw [List.concat_eq_append, (List.cons.inj hs'.2).1]

/-! ## The checks on a request -/

/-- A request that passes the checks for the object `o`. -/
structure RequestOk (P : Platform) (b : Bool) (v : ℕ) (req : Bytes) (total : ℕ) (o : Obj) :
    Prop where
  origin : b = true ↔ Mtd.emadCount req ≠ 0
  fields : retrieveCheckFields o req = 0
  caller : retrieveCheckCaller P o req v total = some 0

theorem fields_full {req : Bytes} (h : retrieveCheckFields o req = 0) :
    o.descFilled = o.descSize := by
  rw [retrieveCheckFields, ite_invalid_eq_zero, not_not] at h
  exact h.1

theorem retrieveCheck_eq_zero {t : Datastore} {req : Bytes} {total : ℕ} {x : Obj}
    (hs : Stored W t (objs ++ [x])) (hx : x.descFilled ≠ x.descSize) :
    retrieveCheck P t b v req total = some 0 ↔
      ∃ pre o post, Found objs (Mtd.handle req) pre o post ∧ RequestOk P b v req total o := by
  have horigin : ((b = true ∧ Mtd.emadCount req = 0) ∨ (b = false ∧ Mtd.emadCount req ≠ 0)) ↔
      ¬ (b = true ↔ Mtd.emadCount req ≠ 0) := by
    cases b <;> simp
  rw [retrieveCheck]
  by_cases hor : b = true ↔ Mtd.emadCount req ≠ 0
  · rw [if_neg (fun h => horigin.mp h hor)]
    rcases hs.found with ⟨hl, hn⟩ | ⟨pre, o, post, hf, hl⟩
    · rw [hl]
      refine iff_of_false (by simp [invalid_ne_zero]) ?_
      rintro ⟨pre, o, post, hf, _⟩
      exact hn o (List.mem_append_left _ hf.mem) hf.handle
    · have hobj : t.obj (offsetOf pre) = o := by
        have hs' := hs
        rw [hf.split] at hs'
        exact hs'.obj_eq
      rw [hl]
      simp only [hobj]
      rcases hf.snoc with ⟨_, rfl, _⟩ | ⟨post', _, hf'⟩
      · -- the request's own copy
        have hne : retrieveCheckFields o req ≠ 0 := fun h => hx (fields_full h)
        rw [if_pos hne]
        refine iff_of_false (fun h => hne (Option.some.inj h)) ?_
        rintro ⟨pre', o', post'', hf'', _⟩
        have hin : Found (objs ++ [o]) (Mtd.handle req) pre' o' (post'' ++ [o]) :=
          ⟨by rw [hf''.split, List.append_assoc, List.cons_append], hf''.handle, hf''.first⟩
        have hlast := (hf.unique hin).2.2
        rcases hf.snoc with ⟨_, _, rfl⟩ | ⟨p, hp, hfound⟩
        · exact absurd hlast.symm (by simp)
        · obtain ⟨rfl, rfl, _⟩ := hfound.unique hf''
          rename_i hreq
          exact hne hreq.fields
      · constructor
        · intro h
          by_cases hz : retrieveCheckFields o req = 0
          · rw [if_neg (not_not.mpr hz)] at h
            exact ⟨pre, o, post', hf', hor, hz, h⟩
          · rw [if_pos hz] at h
            exact absurd (Option.some.inj h) hz
        · rintro ⟨pre', o', post'', hf'', hok⟩
          obtain ⟨_, rfl, _⟩ := hf'.unique hf''
          rw [if_neg (not_not.mpr hok.fields)]
          exact hok.caller
  · rw [if_pos (horigin.mpr hor)]
    refine iff_of_false (by simp [invalid_ne_zero]) ?_
    rintro ⟨_, _, _, _, hok⟩
    exact hor hok.origin

/-! ## The response -/

theorem endpoint_store (s : State) (t : Datastore) (b : Bool) :
    ({ s with store := t } : State).endpoint b = s.endpoint b := by
  cases b <;> rfl

/-- The object `o` behind a response: counted for a partition, or with the shift of a
hypervisor's response. -/
def respondedObj (o : Obj) (v : ℕ) : Bool → Obj
  | true => o.withInUse ((o.inUse + 1) % 2 ^ 64)
  | false => o.withHypShift (hypShiftOf o.desc v % 2 ^ 64)

@[simp] theorem respondedObj_desc (o : Obj) (v : ℕ) (b : Bool) :
    (respondedObj o v b).desc = o.desc := by
  cases b
  · exact Obj.withHypShift_desc o _
  · exact Obj.withInUse_desc o _

/-- What the receive buffer is filled with for the object `o`. -/
inductive Response (t : Datastore) (e : Endpoint) (o : Obj) : Bool → Populated → Prop
  | v11 {k : ℕ} (hv : e.ffaVersion ≠ makeFfaVersion 1 0) (hk : k = min o.descSize e.mailbox.bufSize) :
      Response t e o true ⟨blit e.mailbox.rx 0 o.desc k, k, o.descSize⟩
  | v10 {y : Bytes} {p : Populated} (hv : e.ffaVersion = makeFfaVersion 1 0)
      (h : V10Response t o y e.mailbox.rx e.mailbox.bufSize 0 (.ok p)) : Response t e o true p
  | hyp (hfit : hypMrdOffset e.ffaVersion ≤ e.mailbox.bufSize) :
      Response t e o false (hypPopulated o.desc e.ffaVersion e.mailbox.rx e.mailbox.bufSize)

/-- Why the receive buffer is not filled with the fragment at `offset`, which is `actual` in the
stored descriptor. -/
inductive Unanswered (t : Datastore) (e : Endpoint) (o : Obj) (b : Bool) (offset actual : ℕ)
    (code : Int) : Prop
  | hyp (hb : b = false) (hz : offset = 0) (hfit : e.mailbox.bufSize < hypMrdOffset e.ffaVersion) :
      Unanswered t e o b offset actual code
  | v10 {y : Bytes} (hb : ¬ (b = false ∧ offset = 0)) (hv : e.ffaVersion = makeFfaVersion 1 0)
      (h : V10Response t o y e.mailbox.rx e.mailbox.bufSize actual (.error code)) :
      Unanswered t e o b offset actual code

theorem retrievePopulate_spec {t : Datastore} {e : Endpoint} (hs : Stored W t (pre ++ o :: post))
    (hl : Layout P (makeFfaVersion 1 1) o.desc o.descSize) (hf : o.descFilled = o.descSize) :
    ∃ t' res, retrievePopulate t e b (offsetOf pre) b = some (t', res) ∧ t.Kept t' ∧
      ((∃ code, res = .error code ∧ Unanswered t e o b 0 0 code ∧ Stored W t' (pre ++ o :: post)) ∨
        ∃ p, res = .ok p ∧ Response t e o b p ∧
          Stored W t' (pre ++ (if b then o else respondedObj o e.ffaVersion false) :: post)) := by
  rw [retrievePopulate]
  simp only
  cases b with
  | false =>
    simp only [if_true, Bool.false_eq_true, if_false]
    rw [populateHyp_eq hs hl hf]
    by_cases hfit : hypMrdOffset e.ffaVersion > e.mailbox.bufSize
    · rw [if_pos hfit]
      exact ⟨t, _, rfl, Datastore.Kept.refl t, Or.inl ⟨_, rfl, .hyp rfl rfl hfit, hs⟩⟩
    · rw [if_neg hfit]
      refine ⟨_, _, rfl, ⟨rfl, rfl, rfl⟩, Or.inr ⟨_, rfl, .hyp (Nat.le_of_not_lt hfit), ?_⟩⟩
      rw [respondedObj]
      exact hs.setHypShift
  | true =>
    simp only [Bool.true_eq_false, if_false, if_true]
    by_cases hv : e.ffaVersion = makeFfaVersion 1 0
    · rw [if_pos hv]
      obtain ⟨y, hy⟩ := populateV10_spec hs
      obtain ⟨t', res, he, hk, hs', hr⟩ := hy e.mailbox.rx e.mailbox.bufSize 0
      rw [he]
      refine ⟨t', res, rfl, hk, ?_⟩
      cases res with
      | error code => exact Or.inl ⟨code, rfl, .v10 (by simp) hv hr, hs'⟩
      | ok p => exact Or.inr ⟨p, rfl, .v10 hv hr, hs'⟩
    · rw [if_neg hv, hs.obj_eq]
      exact ⟨t, _, rfl, Datastore.Kept.refl t, Or.inr ⟨_, rfl, .v11 hv rfl, hs⟩⟩

/-- The mailbox behind a response. -/
def respondedMailbox (e : Endpoint) (b : Bool) (p : Populated) : Mailbox :=
  { e.mailbox with
    rx := spmcFfaMemRetrieveUpdateNsBit p.rx e b
    lastRxFragmentOffset := 0
    nextRxFragmentOffset := p.copySize
    state := .full }

def respondedStore (t : Datastore) (obj : ℕ) : Bool → Datastore
  | true => t.setInUse obj ((t.obj obj).inUse + 1)
  | false => t

theorem retrieveRespond_eq {p : Populated} (hs : Stored W s.store objs)
    (hfound : Found objs handle pre o post)
    (he : retrievePopulate s.store (s.endpoint b) b (offsetOf pre) b = some (t, .ok p))
    (hst : Stored W t (pre ++ (if b then o else respondedObj o (s.endpoint b).ffaVersion false) :: post)) :
    retrieveRespond s b handle b =
      some (({ s with store := respondedStore t (offsetOf pre) b }).setMailbox b
        (respondedMailbox (s.endpoint b) b p), .memRetrieveResp p.descSize p.copySize) := by
  rw [retrieveRespond, hfound.lookup hs]
  simp only
  rw [he]
  cases b with
  | false =>
    simp only [Bool.false_eq_true, if_false] at hst
    simp only [(hfound.update (respondedObj_desc o _ false)).lookup hst, Bool.false_eq_true, if_false]
    rfl
  | true =>
    simp only [if_true] at hst
    simp only [(hfound.update rfl).lookup hst, if_true]
    rfl

theorem retrieveRespond_spec {handle : ℕ} (hs : Stored W s.store objs)
    (hfound : Found objs handle pre o post)
    (hl : Layout P (makeFfaVersion 1 1) o.desc o.descSize) (hf : o.descFilled = o.descSize) :
    (∃ t code, retrieveRespond s b handle b = some ({ s with store := t }, .error code) ∧
      s.store.Kept t ∧ Unanswered s.store (s.endpoint b) o b 0 0 code ∧ Stored W t objs) ∨
    ∃ t p, retrieveRespond s b handle b =
        some (({ s with store := t }).setMailbox b (respondedMailbox (s.endpoint b) b p),
          .memRetrieveResp p.descSize p.copySize) ∧
      s.store.Kept t ∧ Response s.store (s.endpoint b) o b p ∧
      Stored W t (pre ++ respondedObj o (s.endpoint b).ffaVersion b :: post) := by
  have hs1 := hs
  rw [hfound.split] at hs1
  obtain ⟨t, res, he, hk, hcase⟩ := @retrievePopulate_spec W P pre post o b _ (s.endpoint b) hs1 hl hf
  rcases hcase with ⟨code, rfl, hun, hst⟩ | ⟨p, rfl, hresp, hst⟩
  · rw [← hfound.split] at hst
    rw [retrieveRespond, hfound.lookup hs]
    simp only
    rw [he]
    exact Or.inl ⟨t, code, rfl, hk, hun, hst⟩
  · right
    rw [retrieveRespond_eq hs hfound he hst]
    cases b with
    | false => exact ⟨t, p, rfl, hk, hresp, hst⟩
    | true =>
      simp only [if_true] at hst
      have hcounted : Stored W (t.setInUse (offsetOf pre) (o.inUse + 1))
          (pre ++ respondedObj o (s.endpoint true).ffaVersion true :: post) := by
        rw [respondedObj]
        exact hst.setInUse
      have hkc : t.Kept (t.setInUse (offsetOf pre) (o.inUse + 1)) := ⟨rfl, rfl, rfl⟩
      rw [respondedStore, hst.obj_eq]
      exact ⟨_, p, rfl, hk.trans hkc, hresp, hcounted⟩

/-! ## The request -/

/-- The checks on the registers of FFA_MEM_RETRIEVE_REQ. -/
structure RequestArgs (e : Endpoint) (total fragment address pages : ℕ) : Prop where
  address : address = 0
  pages : pages = 0
  mapped : e.mailbox.rxtxPageCount ≠ 0
  empty : e.mailbox.state = .empty
  whole : fragment = total
  header : requestHeader e.ffaVersion ≤ total
  fits : total ≤ e.mailbox.bufSize

/-- The datastore with the copy of a request at its end. -/
def snapshot (t : Datastore) (tx : Bytes) (total : ℕ) : Datastore :=
  (allocated t (roundUp16 total)).copyIn t.allocated 32 tx total

def requestOf (t : Datastore) (tx : Bytes) (total : ℕ) : Bytes :=
  blit (freshObj t (roundUp16 total)).desc 0 tx total

theorem le_roundUp16 (n : ℕ) : n ≤ roundUp16 n := by
  rw [roundUp16]
  omega

theorem snapshot_stored {t : Datastore} {total : ℕ} (hs : Stored W t objs)
    (hf : Fits t (roundUp16 total))
    (hshort : roundUp16 total < 48 → W (.into t.allocated (32 + roundUp16 total) 32 48)) :
    Stored W (snapshot t tx total)
      (objs ++ [{ freshObj t (roundUp16 total) with desc := requestOf t tx total }]) := by
  have h1 := hs.alloc hf hshort
  have hle := le_roundUp16 total
  have h2 := @Stored.copyIn W _ objs [] (freshObj t (roundUp16 total)) 0 total tx h1
    (by simp only [freshObj]; omega)
  rw [← hs.allocated_eq] at h2
  exact h2

/-- The datastore once the copy is gone. -/
def released (t : Datastore) (tx : Bytes) (total : ℕ) : Datastore :=
  spmcShmemObjFree (snapshot t tx total) t.allocated

theorem released_stored {t : Datastore} {total : ℕ} (hs : Stored W t objs)
    (hf : Fits t (roundUp16 total))
    (hshort : roundUp16 total < 48 → W (.into t.allocated (32 + roundUp16 total) 32 48)) :
    Stored W (released t tx total) objs := by
  have h := @Stored.free W _ objs [] _ (@snapshot_stored W objs tx t total hs hf hshort)
  rw [← hs.allocated_eq, List.append_nil] at h
  exact h

theorem kept_released (t : Datastore) (tx : Bytes) (total : ℕ) : t.Kept (released t tx total) := by
  have h : t.Kept (snapshot t tx total) := ⟨rfl, rfl, rfl⟩
  exact h.trans (kept_free _ _)

theorem requestOf_handle {t : Datastore} {total : ℕ} (h : 32 ≤ total) :
    Mtd.handle (requestOf t tx total) = Mtd.handle tx := by
  rw [Mtd.handle, requestOf, load_blit_inside (by omega) (by omega)]
  rfl

theorem RequestArgs.size {e : Endpoint} (h : RequestArgs e total fragment address pages) :
    32 ≤ total := by
  have hh := h.header
  rw [requestHeader] at hh
  split at hh <;> omega

theorem retrieveReq_eq (hs : Stored W s.store objs)
    (ha : RequestArgs (s.endpoint b) total fragment address pages)
    (hf : Fits s.store (roundUp16 total)) :
    spmcFfaMemRetrieveReq P s b total fragment address pages tx =
      retrieveFromSnapshot P { s with store := snapshot s.store tx total } b s.store.allocated
        total := by
  have hneg1 : ¬ (address ≠ 0 ∨ pages ≠ 0) := by simp [ha.address, ha.pages]
  rw [spmcFfaMemRetrieveReq, if_neg hneg1, if_neg ha.mapped, if_neg (not_not.mpr ha.empty), if_neg (not_not.mpr ha.whole),
    if_neg (Nat.not_lt.mpr ha.header), if_neg (Nat.not_lt.mpr ha.fits), alloc_of_fits hs hf]
  rfl

/-- What FFA_MEM_RETRIEVE_REQ does. -/
inductive Retrieved (P : Platform) (W : Write → Prop) (s s' : State) (b : Bool) (objs : List Obj)
    (tx : Bytes) (total : ℕ) (r : Reply) : Prop
  | refused {t : Datastore} {code : Int} (hr : r = .error code) (hs' : s' = { s with store := t })
      (kept : s.store.Kept t) (stored : Stored W t objs) : Retrieved P W s s' b objs tx total r
  | responded {t : Datastore} {pre post : List Obj} {o : Obj} {p : Populated}
      (found : Found objs (Mtd.handle tx) pre o post) (full : o.descFilled = o.descSize)
      (request : RequestOk P b (s.endpoint b).ffaVersion (requestOf s.store tx total) total o)
      (room : Fits s.store (roundUp16 total))
      (response : Response (released s.store tx total) (s.endpoint b) o b p)
      (hr : r = .memRetrieveResp p.descSize p.copySize)
      (hs' : s' = ({ s with store := t }).setMailbox b (respondedMailbox (s.endpoint b) b p))
      (kept : s.store.Kept t)
      (stored : Stored W t (pre ++ respondedObj o (s.endpoint b).ffaVersion b :: post))
      (mapped : (s.endpoint b).mailbox.rxtxPageCount ≠ 0) : Retrieved P W s s' b objs tx total r

theorem snapshot_obj (hs : Stored W t objs) (hf : Fits t (roundUp16 total))
    (hshort : roundUp16 total < 48 → W (.into t.allocated (32 + roundUp16 total) 32 48)) :
    (snapshot t tx total).obj t.allocated =
      { freshObj t (roundUp16 total) with desc := requestOf t tx total } := by
  rw [hs.allocated_eq]
  exact (@snapshot_stored W objs tx t total hs hf hshort).obj_eq

theorem retrieveFromSnapshot_eq (hs : Stored W t objs) (h32 : 32 ≤ total)
    (hf : Fits t (roundUp16 total))
    (hshort : roundUp16 total < 48 → W (.into t.allocated (32 + roundUp16 total) 32 48))
    (hfound : Found objs (Mtd.handle tx) pre o post)
    (hok : RequestOk P b (s.endpoint b).ffaVersion (requestOf t tx total) total o) :
    retrieveFromSnapshot P { s with store := snapshot t tx total } b t.allocated total =
      retrieveRespond { s with store := released t tx total } b (Mtd.handle tx) b := by
  have hsnap := @snapshot_stored W objs tx t total hs hf hshort
  have hx : (0 : ℕ) ≠ roundUp16 total := by
    have hle := le_roundUp16 total
    omega
  have hb : (Mtd.emadCount (requestOf t tx total) != 0) = b := by
    have ho := hok.origin
    cases b
    · simpa using ho
    · simpa using ho
  rw [← @requestOf_handle tx t total h32] at hfound ⊢
  have hcheck := (@retrieveCheck_eq_zero W P objs b (s.endpoint b).ffaVersion _ _ total _ hsnap hx).mpr
    ⟨pre, o, post, hfound, hok⟩
  rw [retrieveFromSnapshot, snapshot_obj hs hf hshort, endpoint_store]
  simp only [hcheck, hb, ne_eq, not_true_eq_false, if_false]
  rfl

theorem retrieveFromSnapshot_ok {t : Datastore} {total : ℕ} (hs : Stored W t objs)
    (hall : FullLayout P objs) (h32 : 32 ≤ total) (hf : Fits t (roundUp16 total))
    (hshort : roundUp16 total < 48 → W (.into t.allocated (32 + roundUp16 total) 32 48))
    (hfound : Found objs (Mtd.handle tx) pre o post)
    (hok : RequestOk P b (s.endpoint b).ffaVersion (requestOf t tx total) total o) :
    (∃ t' code, retrieveFromSnapshot P { s with store := snapshot t tx total } b t.allocated total =
        some ({ s with store := t' }, .error code) ∧ t.Kept t' ∧
      Unanswered (released t tx total) (s.endpoint b) o b 0 0 code ∧ Stored W t' objs) ∨
    ∃ t' p, retrieveFromSnapshot P { s with store := snapshot t tx total } b t.allocated total =
        some (({ s with store := t' }).setMailbox b (respondedMailbox (s.endpoint b) b p),
          .memRetrieveResp p.descSize p.copySize) ∧ t.Kept t' ∧
      Response (released t tx total) (s.endpoint b) o b p ∧
      Stored W t' (pre ++ respondedObj o (s.endpoint b).ffaVersion b :: post) := by
  have hrel := @released_stored W objs tx t total hs hf hshort
  have hk := kept_released t tx total
  have hfull := fields_full hok.fields
  have hspec := @retrieveRespond_spec W P { s with store := released t tx total } objs pre post
    o b (Mtd.handle tx) hrel hfound (hall o hfound.mem hfull) hfull
  simp only [endpoint_store] at hspec
  rw [retrieveFromSnapshot_eq hs h32 hf hshort hfound hok]
  rcases hspec with ⟨t', code, he, hkt, hun, hst⟩ | ⟨t', p, he, hkt, hresp, hst⟩
  · exact Or.inl ⟨t', code, he, hk.trans hkt, hun, hst⟩
  · exact Or.inr ⟨t', p, he, hk.trans hkt, hresp, hst⟩

theorem retrieveFromSnapshot_cases (hs : Stored W t objs) (hall : FullLayout P objs)
    (h32 : 32 ≤ total) (hf : Fits t (roundUp16 total))
    (hshort : roundUp16 total < 48 → W (.into t.allocated (32 + roundUp16 total) 32 48))
    (ht : t = s.store) (hmap : (s.endpoint b).mailbox.rxtxPageCount ≠ 0)
    (hres : retrieveFromSnapshot P { s with store := snapshot t tx total } b t.allocated total =
      some (s', r)) : Retrieved P W s s' b objs tx total r := by
  have hsnap := @snapshot_stored W objs tx t total hs hf hshort
  have hx : (0 : ℕ) ≠ roundUp16 total := by
    have hle := le_roundUp16 total
    omega
  by_cases hc : retrieveCheck P (snapshot t tx total) b (s.endpoint b).ffaVersion
      (requestOf t tx total) total = some 0
  · obtain ⟨pre, o, post, hfound, hok⟩ := (retrieveCheck_eq_zero hsnap hx).mp hc
    rw [requestOf_handle h32] at hfound
    rcases retrieveFromSnapshot_ok hs hall h32 hf hshort hfound hok with
      ⟨t', code, he, hkt, _, hst⟩ | ⟨t', p, he, hkt, hresp, hst⟩
    · have hpair := Option.some.inj (he.symm.trans hres)
      rw [Prod.mk.injEq] at hpair
      subst ht
      exact .refused hpair.2.symm hpair.1.symm hkt hst
    · have hpair := Option.some.inj (he.symm.trans hres)
      rw [Prod.mk.injEq] at hpair
      subst ht
      exact .responded hfound (fields_full hok.fields) hok hf hresp hpair.2.symm hpair.1.symm hkt hst
        hmap
  · rw [retrieveFromSnapshot, snapshot_obj hs hf hshort, endpoint_store] at hres
    simp only at hres
    cases hcheck : retrieveCheck P (snapshot t tx total) b (s.endpoint b).ffaVersion
        (requestOf t tx total) total with
    | none =>
      rw [hcheck] at hres
      cases hres
    | some ret =>
      rw [hcheck] at hc hres
      have hz : ret ≠ 0 := fun h => hc (congrArg some h)
      simp only [hz, ne_eq, not_false_eq_true, if_true, Option.some.injEq, Prod.mk.injEq] at hres
      subst ht
      exact .refused hres.2.symm hres.1.symm (kept_released _ tx total)
        (@released_stored W objs tx _ total hs hf hshort)

theorem retrieveReq_early (hs : Stored W s.store objs) (htotal : total < 2 ^ 32)
    (hres : spmcFfaMemRetrieveReq P s b total fragment address pages tx = some (s', r)) :
    (∃ code, r = .error code ∧ s' = s ∧
      (code = FFA_ERROR_DENIED → (s.endpoint b).mailbox.state ≠ .empty)) ∨
    RequestArgs (s.endpoint b) total fragment address pages ∧ Fits s.store (roundUp16 total) := by
  have hearly : ∀ code, code ≠ FFA_ERROR_DENIED → some (s, Reply.error code) = some (s', r) →
      ∃ code, r = .error code ∧ s' = s ∧
        (code = FFA_ERROR_DENIED → (s.endpoint b).mailbox.state ≠ .empty) := by
    intro code hne h
    simp only [Option.some.injEq, Prod.mk.injEq] at h
    exact ⟨code, h.2.symm, h.1.symm, fun hd => absurd hd hne⟩
  rw [spmcFfaMemRetrieveReq] at hres
  split at hres
  · exact Or.inl (hearly _ (by decide) hres)
  rename_i h1
  split at hres
  · exact Or.inl (hearly _ (by decide) hres)
  rename_i h2
  split at hres
  · rename_i h3
    simp only [Option.some.injEq, Prod.mk.injEq] at hres
    exact Or.inl ⟨_, hres.2.symm, hres.1.symm, fun _ => h3⟩
  rename_i h3
  split at hres
  · exact Or.inl (hearly _ (by decide) hres)
  rename_i h4
  split at hres
  · exact Or.inl (hearly _ (by decide) hres)
  rename_i h5
  split at hres
  · exact Or.inl (hearly _ (by decide) hres)
  rename_i h6
  have hargs : RequestArgs (s.endpoint b) total fragment address pages := by
    rw [not_or, not_not, not_not] at h1
    exact ⟨h1.1, h1.2, h2, not_not.mp h3, not_not.mp h4, Nat.le_of_not_lt h5, Nat.le_of_not_lt h6⟩
  cases ha : spmcShmemObjAlloc s.store (roundUp16 total) with
  | none =>
    rw [ha] at hres
    exact Or.inl (hearly _ (by decide) hres)
  | some a =>
    obtain ⟨q, t⟩ := a
    have hlt : roundUp16 total < 2 ^ 64 := by
      rw [roundUp16]
      omega
    exact Or.inr ⟨hargs, (alloc_some hs hlt ha).1⟩

theorem retrieveReq_cases (hs : Stored W s.store objs) (hall : FullLayout P objs)
    (htotal : total < 2 ^ 32)
    (hshort : RequestArgs (s.endpoint b) total fragment address pages → Fits s.store (roundUp16 total) →
      roundUp16 total < 48 → W (.into s.store.allocated (32 + roundUp16 total) 32 48))
    (hres : spmcFfaMemRetrieveReq P s b total fragment address pages tx = some (s', r)) :
    Retrieved P W s s' b objs tx total r := by
  rcases retrieveReq_early hs htotal hres with ⟨code, hr, hs', _⟩ | ⟨hargs, hfits⟩
  · exact .refused hr hs' (Datastore.Kept.refl _) hs
  · rw [retrieveReq_eq hs hargs hfits] at hres
    exact retrieveFromSnapshot_cases hs hall hargs.size hfits (hshort hargs hfits) rfl hargs.mapped hres

end TrustedFirmware.Spmc
