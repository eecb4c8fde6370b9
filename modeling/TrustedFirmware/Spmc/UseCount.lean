import TrustedFirmware.Spmc.HandleWrap

/-! # Use counts

The use count of an object is the number of retrieves that partitions made of it less the
number of relinquishes, as long as handles identify the objects and the count has not
wrapped. A reclaim needs a count of zero, so that an object that is gone is balanced. -/
namespace TrustedFirmware.Spmc
open ByteMemory RecordTiling
set_option autoImplicit false

variable {W : Write → Prop} {P : Platform} {s s' : State} {r : Reply} {c : Call}
  {t : List (Call × Reply)} {objs objs' pre post : List Obj} {o : Obj} {v u n k next next' : ℕ}

/-! ## Counts -/

/-- The successful retrieves by partitions of the object with the handle `k`. -/
def retrieves (k : ℕ) (t : List (Call × Reply)) : ℕ :=
  t.countP fun x => event x.1 x.2 = .retrieved k

/-- The successful relinquishes of it. -/
def relinquishes (k : ℕ) (t : List (Call × Reply)) : ℕ :=
  t.countP fun x => event x.1 x.2 = .relinquished k

theorem retrieves_snoc (k : ℕ) (t : List (Call × Reply)) (c : Call) (r : Reply) :
    retrieves k (t ++ [(c, r)]) = retrieves k t + if event c r = .retrieved k then 1 else 0 := by
  rw [retrieves, retrieves, List.countP_append, List.countP_singleton]
  simp only [decide_eq_true_eq]

theorem relinquishes_snoc (k : ℕ) (t : List (Call × Reply)) (c : Call) (r : Reply) :
    relinquishes k (t ++ [(c, r)]) =
      relinquishes k t + if event c r = .relinquished k then 1 else 0 := by
  rw [relinquishes, relinquishes, List.countP_append, List.countP_singleton]
  simp only [decide_eq_true_eq]

/-- The use counts of the objects with the handle `k`, of which there is at most one. -/
def usesOf (k : ℕ) (objs : List Obj) : ℕ :=
  (objs.map fun o => if Mtd.handle o.desc = k then o.inUse else 0).sum

@[simp] theorem usesOf_append (k : ℕ) (xs ys : List Obj) :
    usesOf k (xs ++ ys) = usesOf k xs + usesOf k ys := by
  rw [usesOf, List.map_append, List.sum_append]
  rfl

@[simp] theorem usesOf_cons (k : ℕ) (o : Obj) (xs : List Obj) :
    usesOf k (o :: xs) = (if Mtd.handle o.desc = k then o.inUse else 0) + usesOf k xs := by
  rw [usesOf, List.map_cons, List.sum_cons]
  rfl

theorem usesOf_of_not_mem (h : k ∉ handles objs) : usesOf k objs = 0 := by
  induction objs with
  | nil => rfl
  | cons o objs ih =>
    rw [handles_cons, List.mem_cons, not_or] at h
    rw [usesOf_cons, if_neg (Ne.symm h.1), ih h.2]

theorem usesOf_of_mem (hd : (handles objs).Nodup) (ho : o ∈ objs) :
    usesOf (Mtd.handle o.desc) objs = o.inUse := by
  obtain ⟨pre, post, rfl⟩ := List.append_of_mem ho
  rw [handles_append, handles_cons] at hd
  have hp := List.perm_middle.nodup_iff.mp hd
  rw [List.nodup_cons, List.mem_append, not_or] at hp
  rw [usesOf_append, usesOf_cons, if_pos rfl, usesOf_of_not_mem hp.1.1, usesOf_of_not_mem hp.1.2,
    Nat.zero_add, Nat.add_zero]

/-! ## What a call counts -/

/-- The object that a call asks for. -/
def Call.retrieving : Call → Option ℕ
  | memRetrieveReq _ _ _ _ _ tx => some (Mtd.handle tx)
  | _ => none

theorem event_retrieving (h : event c r = .retrieved k) : c.retrieving = some k := by
  cases c with
  | memRetrieveReq b total n address pages tx =>
    cases b <;> cases r <;> simp only [event, reduceCtorEq, Event.retrieved.injEq] at h
    exact congrArg some h
  | _ => cases r <;> simp [event] at h

def CountRoom (s : State) (c : Call) : Prop :=
  ∀ o ∈ liveObjects s.store, c.retrieving = some (Mtd.handle o.desc) → o.inUse + 1 < 2 ^ 64

theorem Settled.uses (h : Settled P v u pre post o r objs') (hk : Mtd.handle o.desc = k)
    (hno : k ∉ handles (pre ++ post)) (h0 : o.inUse = 0) (j : ℕ) :
    usesOf j objs' = usesOf j (pre ++ post) := by
  rcases h.stays hk hno with ⟨-, rfl⟩ | ⟨y, hp, hy⟩
  · rfl
  · have hsum : usesOf j objs' = usesOf j (y :: (pre ++ post)) := (hp.map _).sum_nat
    rw [hsum, usesOf_cons, hy.unused h0, ite_self, Nat.zero_add]

theorem Change.uses (h : Change P v u c r next objs next' objs')
    (hlive : ∀ x ∈ objs, LiveObj P v x) (hfresh : c.isSend = true → next ∉ handles objs)
    (hd : (handles objs).Nodup)
    (hroom : ∀ x ∈ objs, c.retrieving = some (Mtd.handle x.desc) → x.inUse + 1 < 2 ^ 64) (j : ℕ) :
    usesOf j objs' + (if event c r = .relinquished j then 1 else 0) =
      usesOf j objs + if event c r = .retrieved j then 1 else 0 := by
  have hother : event c r = .other → usesOf j objs' = usesOf j objs →
      usesOf j objs' + (if event c r = .relinquished j then 1 else 0) =
        usesOf j objs + if event c r = .retrieved j then 1 else 0 := by
    intro he hu
    rw [he, if_neg (by simp), if_neg (by simp), hu]
  -- an object that is being received is not in use
  have hunused : ∀ {h : ℕ} {pre post : List Obj} {x : Obj}, Found objs h pre x post →
      x.inUse = 0 → usesOf j (pre ++ post) = usesOf j objs := by
    intro h pre post x found h0
    rw [found.split, usesOf_append, usesOf_append, usesOf_cons, h0, ite_self, Nat.zero_add]
  cases h with
  | same hev hr => exact hother hev rfl
  | sent hc handle unused size filledTo content settled =>
    have hno : next ∉ handles (objs ++ []) := by
      rw [List.append_nil]
      exact hfresh (by rw [hc]; rfl)
    refine hother (by rw [hc]; rfl) ?_
    rw [settled.uses handle hno unused, List.append_nil]
  | filled hc found partly handle unused size filledTo content settled =>
    refine hother (by rw [hc]; rfl) ?_
    rw [settled.uses (handle.trans found.handle) (found.nodup hd).1 unused]
    exact hunused found ((hlive _ found.mem).partly partly).2
  | failed hc found partly hr =>
    refine hother (by rw [hc]; rfl) ?_
    exact hunused found ((hlive _ found.mem).partly partly).2
  | @retrieved h pre post o hc hev found full =>
    have hlt := hroom o found.mem (by rw [found.handle]; exact event_retrieving hev)
    rw [hev, if_neg (by simp), found.split, usesOf_append, usesOf_append, usesOf_cons, usesOf_cons,
      Obj.withInUse_desc, Obj.withInUse_inUse, found.handle, Nat.mod_eq_of_lt hlt]
    by_cases hj : h = j
    · rw [if_pos hj, if_pos hj, if_pos (by rw [hj])]
      omega
    · rw [if_neg hj, if_neg hj, if_neg (by simpa using hj)]
  | viewed hc hns hev hr found full =>
    refine hother hev ?_
    rw [found.split, usesOf_append, usesOf_append, usesOf_cons, usesOf_cons,
      Obj.withHypShift_desc, Obj.withHypShift_inUse]
  | @relinquished h pre post o hc hev found used =>
    have hne : ¬ Event.relinquished h = .retrieved j := by simp
    rw [hev, if_neg hne, found.split, usesOf_append, usesOf_append, usesOf_cons, usesOf_cons,
      Obj.withInUse_desc, Obj.withInUse_inUse, found.handle]
    by_cases hj : h = j
    · rw [if_pos hj, if_pos hj, if_pos (by rw [hj])]
      omega
    · rw [if_neg hj, if_neg hj, if_neg (by simpa using hj)]
  | reclaimed hc hev found full unused =>
    rw [hev, if_neg (by simp), if_neg (by simp), hunused found unused]

/-! ## Runs -/

/-- The object that a call adds a fragment to. -/
def Call.addingTo : Call → Option ℕ
  | memFragTx _ low high _ _ _ => some (memHandle low.toNat high.toNat)
  | _ => none

theorem Settled.keeps (h : Settled P v u pre post o r objs') (hk : Mtd.handle o.desc = k)
    (hno : k ∉ handles (pre ++ post)) :
    (∀ j ∈ handles (pre ++ post), j ∈ handles objs') ∧
      (k ∈ handles objs' ∨ ∃ code, r = .error code) := by
  rcases h.handles_perm hk hno with ⟨he, heq⟩ | hp
  · rw [heq]
    exact ⟨fun _ hj => hj, Or.inr he⟩
  · exact ⟨fun j hj => hp.mem_iff.mpr (List.mem_cons_of_mem _ hj),
      Or.inl (hp.mem_iff.mpr List.mem_cons_self)⟩

theorem Change.keeps (h : Change P v u c r next objs next' objs')
    (hfresh : c.isSend = true → next ∉ handles objs) (hd : (handles objs).Nodup) (ho : o ∈ objs) :
    Mtd.handle o.desc ∈ handles objs' ∨
      (event c r = .reclaimed (Mtd.handle o.desc) ∧ c.secureOrigin = false) ∨
      (c.addingTo = some (Mtd.handle o.desc) ∧ o.descFilled ≠ o.descSize ∧
        ∃ code, r = .error code) := by
  have hmem : Mtd.handle o.desc ∈ handles objs := mem_handles.mpr ⟨o, ho, rfl⟩
  have hrest : ∀ {k : ℕ} {pre post : List Obj} {x : Obj}, Found objs k pre x post →
      o = x ∨ Mtd.handle o.desc ∈ handles (pre ++ post) := by
    intro k pre post x found
    rw [found.split] at ho
    rcases List.mem_append.mp ho with h | h
    · exact Or.inr (mem_handles.mpr ⟨o, List.mem_append_left _ h, rfl⟩)
    rcases List.mem_cons.mp h with rfl | h
    · exact Or.inl rfl
    · exact Or.inr (mem_handles.mpr ⟨o, List.mem_append_right _ h, rfl⟩)
  cases h with
  | same hev hr => exact Or.inl hmem
  | sent hc handle unused size filledTo content settled =>
    have hno : next ∉ handles (objs ++ []) := by
      rw [List.append_nil]
      exact hfresh (by rw [hc]; rfl)
    exact Or.inl ((settled.keeps handle hno).1 _ (by rw [List.append_nil]; exact hmem))
  | filled hc found partly handle unused size filledTo content settled =>
    obtain ⟨hkeep, hown⟩ := settled.keeps (handle.trans found.handle) (found.nodup hd).1
    rcases hrest found with rfl | hin
    · rw [← found.handle] at hown
      refine hown.imp_right fun hr => Or.inr ⟨?_, partly, hr⟩
      rw [hc, found.handle]
      rfl
    · exact Or.inl (hkeep _ hin)
  | failed hc found partly hr =>
    rcases hrest found with rfl | hin
    · refine Or.inr (Or.inr ⟨?_, partly, _, hr⟩)
      rw [hc, found.handle]
      rfl
    · exact Or.inl hin
  | retrieved hc hev found full =>
    rw [found.handles_replace (Obj.withInUse_desc _ _)]
    exact Or.inl hmem
  | viewed hc hns hev hr found full =>
    rw [found.handles_replace (Obj.withHypShift_desc _ _)]
    exact Or.inl hmem
  | relinquished hc hev found used =>
    rw [found.handles_replace (Obj.withInUse_desc _ _)]
    exact Or.inl hmem
  | reclaimed hc hev found full unused hns =>
    rcases hrest found with rfl | hin
    · rw [found.handle]
      exact Or.inr (Or.inl ⟨hev, hns⟩)
    · exact Or.inl hin

theorem Change.reclaimed_found (h : Change P v u c r next objs next' objs')
    (hev : event c r = .reclaimed k) :
    ∃ o ∈ objs, Mtd.handle o.desc = k ∧ o.descFilled = o.descSize ∧ o.inUse = 0 := by
  cases h with
  | same hev' => exact absurd (hev.symm.trans hev') (by simp)
  | sent hc =>
    rw [hc] at hev
    cases hev
  | filled hc =>
    rw [hc] at hev
    cases hev
  | failed hc =>
    rw [hc] at hev
    cases hev
  | retrieved _ hev' => exact absurd (hev.symm.trans hev') (by simp)
  | viewed _ _ hev' => exact absurd (hev.symm.trans hev') (by simp)
  | relinquished _ hev' => exact absurd (hev.symm.trans hev') (by simp)
  | @reclaimed h pre post o hc hev' found full unused =>
    have he : k = h := by simpa using hev.symm.trans hev'
    exact ⟨o, found.mem, found.handle.trans he.symm, full, unused⟩

instance (s : State) (c : Call) : Decidable (CountRoom s c) := by
  unfold CountRoom
  infer_instance

theorem use_counts {b : Boot}
    (hrun : RunWhen P (fun s c => FreshHandle s c ∧ CountRoom s c) b.state t s) :
    (∀ o ∈ liveObjects s.store, o.inUse + relinquishes (Mtd.handle o.desc) t =
      retrieves (Mtd.handle o.desc) t) ∧
    ∀ c r s', FreshHandle s c → spmcSmcHandler P s c = some (s', r) →
      (∀ k, event c r = .reclaimed k → retrieves k t = relinquishes k t ∧
        ∃ o ∈ liveObjects s.store, Mtd.handle o.desc = k ∧ o.descFilled = o.descSize) ∧
      ∀ o ∈ liveObjects s.store, Mtd.handle o.desc ∈ handles (liveObjects s'.store) ∨
        (event c r = .reclaimed (Mtd.handle o.desc) ∧ c.secureOrigin = false) ∨
        (c.addingTo = some (Mtd.handle o.desc) ∧ o.descFilled ≠ o.descSize ∧
          ∃ code, r = .error code) := by
  obtain ⟨objs, hinv, -, hd, huses⟩ := @RunWhen.objects (fun _ => True) P s _ b t
    (fun t _ objs => (handles objs).Nodup ∧ ∀ k, usesOf k objs + relinquishes k t = retrieves k t)
    hrun (fun _ _ => trivial) (fun _ _ _ _ _ _ _ _ => trivial) ⟨List.nodup_nil, fun _ => rfl⟩ (by
      intro t s objs c r s' objs' hC hinv _ ⟨hd, huses⟩ hchange
      have hlive := hinv.stored.liveObjects_eq
      obtain ⟨hfresh, hroom⟩ := hC
      rw [FreshHandle, hlive] at hfresh
      rw [CountRoom, hlive] at hroom
      refine ⟨hchange.nodup hfresh hd, fun k => ?_⟩
      have h1 := hchange.uses hinv.live hfresh hd hroom k
      have h2 := huses k
      rw [relinquishes_snoc, retrieves_snoc]
      omega)
  have hlive := hinv.stored.liveObjects_eq
  have hcount : ∀ o ∈ objs, o.inUse + relinquishes (Mtd.handle o.desc) t =
      retrieves (Mtd.handle o.desc) t := by
    intro o ho
    rw [← usesOf_of_mem hd ho]
    exact huses _
  rw [hlive]
  refine ⟨hcount, fun c r s' hfresh hres => ?_⟩
  rw [FreshHandle, hlive] at hfresh
  obtain ⟨objs', hinv', hchange, -⟩ := smcHandler_step hinv (fun _ _ _ _ => trivial) hres
  rw [hinv'.stored.liveObjects_eq]
  refine ⟨fun k hev => ?_, fun o ho => hchange.keeps hfresh hd ho⟩
  obtain ⟨o, ho, hk, hfull, h0⟩ := hchange.reclaimed_found hev
  have h := hcount o ho
  rw [hk, h0, Nat.zero_add] at h
  exact ⟨h.symm, o, ho, hk, hfull⟩

def wholeRequest : Bytes := requestV11 0xffffffc0 48 [0x8001]

theorem use_counts_retrieved : ∃ t s, RunWhen onePartition (fun s c => FreshHandle s c ∧ CountRoom s c)
    (bootV11 256 (by decide)).state t s ∧ (liveObjects s.store).map Obj.inUse = [1] ∧
    (∀ o ∈ liveObjects s.store, o.inUse + relinquishes (Mtd.handle o.desc) t =
      retrieves (Mtd.handle o.desc) t) ∧
    ∀ c r s', FreshHandle s c → spmcSmcHandler onePartition s c = some (s', r) →
      (∀ k, event c r = .reclaimed k → retrieves k t = relinquishes k t ∧
        ∃ o ∈ liveObjects s.store, Mtd.handle o.desc = k ∧ o.descFilled = o.descSize) ∧
      ∀ o ∈ liveObjects s.store, Mtd.handle o.desc ∈ handles (liveObjects s'.store) ∨
        (event c r = .reclaimed (Mtd.handle o.desc) ∧ c.secureOrigin = false) ∨
        (c.addingTo = some (Mtd.handle o.desc) ∧ o.descFilled ≠ o.descSize ∧
          ∃ code, r = .error code) := by
  obtain ⟨t, s, hrun, hq⟩ := @executeWhen_run onePartition
    (fun s c => decide (FreshHandle s c ∧ CountRoom s c)) _
    (fun _ s => decide ((liveObjects s.store).map Obj.inUse = [1])) (bootV11 256 (by decide)).state
    (setUp 0x10001 ++ [.memSend false false 96 96 0 0 (descriptorV11 0 [0x8001] [(0x1000, 1)]),
      .memRetrieveReq true 64 64 0 0 wholeRequest, .rxRelease true,
      .memRetrieveReq true 64 64 0 0 wholeRequest,
      .memRelinquish true (record [(0, 8, 0xffffffc0), (12, 4, 1), (16, 2, 0x8001)])])
    (by decide +kernel) (fun _ _ h => of_decide_eq_true h)
  exact ⟨t, s, hrun, of_decide_eq_true hq, use_counts hrun⟩

/-! ## The count wraps -/

/-- The object `o`, retrieved `k` times, and a partition that can retrieve it once more. -/
structure RetrieveReady (s : State) (o : Obj) (k : ℕ) : Prop where
  inv : Inv onePartition (fun _ => True) s [o.withInUse k]
  version : s.sp.ffaVersion = makeFfaVersion 1 1
  mapped : s.sp.mailbox.rxtxPageCount = 1
  empty : s.sp.mailbox.state = .empty
  room : Fits s.store 64

/-- The request `wholeRequest` passes the checks for `o`. -/
def Retrievable (o : Obj) : Prop :=
  Mtd.handle o.desc = Mtd.handle wholeRequest ∧
    RequestOk onePartition true (makeFfaVersion 1 1) (clip wholeRequest 64) 64 o

theorem requestOf_eq (t : Datastore) (tx : Bytes) (h : n % 16 = 0) :
    requestOf t tx n = clip tx n := by
  have hn : roundUp16 n = n := by
    rw [roundUp16]
    omega
  funext i
  rw [requestOf, hn]
  by_cases hi : i < n
  · rw [blit_inside (Nat.zero_le i) (by omega), clip_inside hi, Nat.sub_zero]
  · rw [blit_outside (by omega), clip_outside (m := tx) (by omega)]
    exact clip_outside (by omega)

theorem validateId_withInUse (o : Obj) (k spId : ℕ) :
    spmcShmemObjValidateId (o.withInUse k) spId = spmcShmemObjValidateId o spId := by
  have hfrom : ∀ n i, validateIdFrom (o.withInUse k) spId n i = validateIdFrom o spId n i := by
    intro n
    induction n with
    | zero => exact fun i => rfl
    | succ n ih =>
      intro i
      simp only [validateIdFrom, ih, Obj.withInUse_desc, Obj.withInUse_descSize]
  exact hfrom _ 0

theorem RequestOk.withInUse {b : Bool} {req : Bytes} (h : RequestOk P b v req n o) (k : ℕ) :
    RequestOk P b v req n (o.withInUse k) := by
  refine ⟨h.origin, h.fields, ?_⟩
  have hc := h.caller
  rw [retrieveCheckCaller] at hc ⊢
  rw [validateId_withInUse]
  exact hc

theorem retrieve_again (h : RetrieveReady s o k) (ho : Retrievable o) :
    ∃ s₁ i j s₂, spmcSmcHandler onePartition s (.memRetrieveReq true 64 64 0 0 wholeRequest) =
        some (s₁, .memRetrieveResp i j) ∧
      spmcSmcHandler onePartition s₁ (.rxRelease true) = some (s₂, .success) ∧
      RetrieveReady s₂ o ((k + 1) % 2 ^ 64) := by
  obtain ⟨s₀, hs₀⟩ : ∃ s₀, s₀ = spmcCompleteFfaVersionNegotiation s true := ⟨_, rfl⟩
  have hstore : s₀.store = s.store := by rw [hs₀, complete_store]
  have hver : (s₀.endpoint true).ffaVersion = makeFfaVersion 1 1 := by
    rw [hs₀]
    exact h.version
  have hmailbox : (s₀.endpoint true).mailbox = s.sp.mailbox := by rw [hs₀]; rfl
  have hknown : (s.endpoint true).ffaVersion ≠ FFA_VERSION_NULL := by
    change s.sp.ffaVersion ≠ FFA_VERSION_NULL
    rw [h.version]
    decide
  have hbuf : s.sp.mailbox.bufSize = 4096 := by rw [Mailbox.bufSize, h.mapped]; rfl
  have hargs : RequestArgs (s₀.endpoint true) 64 64 0 0 := by
    refine ⟨rfl, rfl, ?_, ?_, rfl, ?_, ?_⟩
    · rw [hmailbox, h.mapped]
      decide
    · rw [hmailbox, h.empty]
    · rw [hver]
      decide
    · rw [hmailbox, hbuf]
      omega
  have hstored : Stored (fun _ => True) s₀.store [o.withInUse k] := hstore ▸ h.inv.stored
  have hroom : Fits s₀.store (roundUp16 64) := hstore ▸ h.room
  have hfound : Found [o.withInUse k] (Mtd.handle wholeRequest) [] (o.withInUse k) [] :=
    ⟨rfl, ho.1, fun x hx => absurd hx List.not_mem_nil⟩
  have hreq : RequestOk onePartition true (s₀.endpoint true).ffaVersion
      (requestOf s₀.store wholeRequest 64) 64 (o.withInUse k) := by
    rw [hver, requestOf_eq _ _ rfl]
    exact ho.2.withInUse k
  have hall : FullLayout onePartition [o.withInUse k] := fun x hx hf => (h.inv.live x hx).full hf
  rcases @retrieveFromSnapshot_ok (fun _ => True) onePartition s₀ [o.withInUse k] [] []
      (o.withInUse k) true wholeRequest s₀.store 64 hstored hall (by omega) hroom (fun _ => trivial)
      hfound hreq with ⟨t', code, _, _, hun, _⟩ | ⟨t', p, he, hk, _, hst⟩
  · cases hun with
    | hyp hb => cases hb
    | v10 _ hv => exact absurd (hver.symm.trans hv) v11_ne
  have hret : spmcSmcHandler onePartition s (.memRetrieveReq true 64 64 0 0 wholeRequest) =
      some (({ s₀ with store := t' }).setMailbox true (respondedMailbox (s₀.endpoint true) true p),
        .memRetrieveResp p.descSize p.copySize) := by
    have heq := @smcHandler_eq onePartition s (.memRetrieveReq true 64 64 0 0 wholeRequest) rfl hknown
    rw [heq, ← he, ← retrieveReq_eq hstored hargs hroom]
    rw [hs₀]
    rfl
  obtain ⟨s₁, hs₁⟩ : ∃ s₁, s₁ = ({ s₀ with store := t' } : State).setMailbox true
    (respondedMailbox (s₀.endpoint true) true p) := ⟨_, rfl⟩
  rw [← hs₁] at hret
  have hstore₁ : s₁.store = t' := by
    rw [hs₁]
    exact setMailbox_store _ _ _
  have hver₁ : s₁.sp.ffaVersion = makeFfaVersion 1 1 := by
    rw [hs₁]
    exact hver
  have hknown₁ : (s₁.endpoint true).ffaVersion ≠ FFA_VERSION_NULL := by
    change s₁.sp.ffaVersion ≠ FFA_VERSION_NULL
    rw [hver₁]
    decide
  have hrel : spmcSmcHandler onePartition s₁ (.rxRelease true) =
      some ((spmcCompleteFfaVersionNegotiation s₁ true).setMailbox true
        { s₁.sp.mailbox with state := .empty }, .success) := by
    have heq := @smcHandler_eq onePartition s₁ (.rxRelease true) rfl hknown₁
    rw [heq, hs₁]
    rfl
  obtain ⟨objs₁, hinv₁, -⟩ := smcHandler_step h.inv (fun _ _ _ _ => trivial) hret
  obtain ⟨objs₂, hinv₂, -⟩ := smcHandler_step hinv₁ (fun _ _ _ _ => trivial) hrel
  have hobjs₂ : objs₂ = [o.withInUse ((k + 1) % 2 ^ 64)] := by
    have hl := hinv₂.stored.liveObjects_eq
    rw [setMailbox_store, complete_store, hstore₁, hst.liveObjects_eq] at hl
    exact hl.symm
  rw [hobjs₂] at hinv₂
  have hkept : s.store.Kept t' := by
    rw [← hstore]
    exact hk
  refine ⟨s₁, _, _, _, hret, hrel, hinv₂, hver₁, ?_, rfl, ?_⟩
  · change s₁.sp.mailbox.rxtxPageCount = 1
    rw [hs₁]
    change (s₀.endpoint true).mailbox.rxtxPageCount = 1
    rw [hmailbox, h.mapped]
  · have hr := h.room
    rw [setMailbox_store, complete_store, hstore₁]
    refine ⟨hkept.present.trans hr.present, hr.aligned, ?_⟩
    have hsize := hr.room
    rw [h.inv.stored.allocated_eq] at hsize
    rw [hst.allocated_eq, hkept.dataSize]
    exact hsize

theorem retrieves_again {b : Boot} (n : ℕ) (hrun : Run onePartition b.state t s)
    (h : RetrieveReady s o k) (ho : Retrievable o) (hk : k < 2 ^ 64) :
    ∃ t' s', Run onePartition b.state t' s' ∧ RetrieveReady s' o ((k + n) % 2 ^ 64) ∧
      retrieves (Mtd.handle wholeRequest) t' = retrieves (Mtd.handle wholeRequest) t + n ∧
      relinquishes (Mtd.handle wholeRequest) t' = relinquishes (Mtd.handle wholeRequest) t := by
  induction n with
  | zero =>
    refine ⟨t, s, hrun, ?_, rfl, rfl⟩
    rw [Nat.add_zero, Nat.mod_eq_of_lt hk]
    exact h
  | succ n ih =>
    obtain ⟨t₁, s₁, hrun₁, h₁, hret, hrel⟩ := ih
    obtain ⟨s₂, i, j, s₃, hstep₁, hstep₂, h₃⟩ := retrieve_again h₁ ho
    refine ⟨_, s₃, .snoc (.snoc hrun₁ trivial hstep₁) trivial hstep₂, ?_, ?_, ?_⟩
    · rw [Nat.mod_add_mod, Nat.add_assoc] at h₃
      exact h₃
    · rw [retrieves_snoc, retrieves_snoc, if_pos (by rfl), if_neg (by simp [event]), hret]
      omega
    · rw [relinquishes_snoc, relinquishes_snoc, if_neg (by simp [event]), if_neg (by simp [event]),
        Nat.add_zero, hrel]

theorem requestOk_iff {b : Bool} {req : Bytes} :
    RequestOk P b v req n o ↔ (b = true ↔ Mtd.emadCount req ≠ 0) ∧
      retrieveCheckFields o req = 0 ∧ retrieveCheckCaller P o req v n = some 0 :=
  ⟨fun h => ⟨h.origin, h.fields, h.caller⟩, fun h => ⟨h.1, h.2.1, h.2.2⟩⟩

instance (o : Obj) : Decidable (Retrievable o) :=
  decidable_of_iff (Mtd.handle o.desc = Mtd.handle wholeRequest ∧
    (true = true ↔ Mtd.emadCount (clip wholeRequest 64) ≠ 0) ∧
      retrieveCheckFields o (clip wholeRequest 64) = 0 ∧
      retrieveCheckCaller onePartition o (clip wholeRequest 64) (makeFfaVersion 1 1) 64 = some 0)
    (and_congr_right' requestOk_iff.symm)

/-- After 2^64 retrieves an object counts as unused. The handles repeat in the end as well, and
then say no longer which object is meant. -/
theorem use_count_wraps :
    (∃ t s o, Run onePartition (bootV11 256 (by decide)).state t s ∧ liveObjects s.store = [o] ∧
      o.inUse = 0 ∧ retrieves (Mtd.handle o.desc) t = 2 ^ 64 ∧
      relinquishes (Mtd.handle o.desc) t = 0) ∧
    ∃ t s, Run onePartition (bootV11 256 (by decide)).state t s ∧
      ¬ (handles (liveObjects s.store)).Nodup := by
  refine ⟨?_, handles_repeat⟩
  obtain ⟨t₀, s₀, hrun₀, hq⟩ := @execute_run onePartition
    (fun t s => decide (s.sp.ffaVersion = makeFfaVersion 1 1 ∧ s.sp.mailbox.rxtxPageCount = 1 ∧
      s.sp.mailbox.state = .empty ∧ Fits s.store 64 ∧
      (liveObjects s.store).map Obj.inUse = [0] ∧ (∀ o ∈ liveObjects s.store, Retrievable o) ∧
      retrieves (Mtd.handle wholeRequest) t = 0 ∧ relinquishes (Mtd.handle wholeRequest) t = 0))
    (bootV11 256 (by decide)).state
    (setUp 0x10001 ++ [.memSend false false 96 96 0 0 (descriptorV11 0 [0x8001] [(0x1000, 1)])])
    (by decide +kernel)
  obtain ⟨hver, hmap, hempty, hroom, huse, hreq, hret, hrel⟩ := of_decide_eq_true hq
  obtain ⟨objs, hinv, -⟩ := hrun₀.issued
  rw [hinv.stored.liveObjects_eq] at huse hreq
  obtain ⟨o, rfl⟩ : ∃ o, objs = [o] := by
    have hlen := congrArg List.length huse
    rw [List.length_map] at hlen
    exact List.length_eq_one_iff.mp hlen
  have h0 : o.inUse = 0 := by simpa using huse
  have ho : Retrievable o := hreq o List.mem_cons_self
  have hready : RetrieveReady s₀ o 0 := by
    have he : o.withInUse 0 = o := by rw [← h0]; rfl
    rw [← he] at hinv
    exact ⟨hinv, hver, hmap, hempty, hroom⟩
  obtain ⟨t, s, hrun, hs, hr, hl⟩ := retrieves_again (2 ^ 64) hrun₀ hready ho (by omega)
  refine ⟨t, s, _, hrun, hs.inv.stored.liveObjects_eq, ?_, ?_, ?_⟩
  · rw [Obj.withInUse_inUse]
    decide +kernel
  · rw [Obj.withInUse_desc, ho.1, hr, hret, Nat.zero_add]
  · rw [Obj.withInUse_desc, ho.1, hl, hrel]

end TrustedFirmware.Spmc
