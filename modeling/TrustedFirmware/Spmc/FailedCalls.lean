import TrustedFirmware.Spmc.RoundTrip

/-! # Calls of a receiver that fail

FFA_MEM_RETRIEVE_REQ marks the receive buffer full once the response is there.
FFA_MEM_FRAG_RX marks it full before it makes the fragment. When a version 1.0 fragment
cannot be made, the caller gets an error and its buffer stays full, so that the same call is
then denied until FFA_RX_RELEASE. -/
namespace TrustedFirmware.Spmc
open ByteMemory RecordTiling
set_option autoImplicit false

variable {W : Write → Prop} {P : Platform} {s s' : State} {r : Reply} {objs pre post : List Obj}
  {o : Obj} {b : Bool} {e : Endpoint} {c : Call} {code : Int} {tx : Bytes}
  {total fragment address pages : ℕ}

/-- The calls by which a receiver asks for bytes. -/
def Call.receives : Call → Bool
  | memRetrieveReq _ _ _ _ _ _ => true
  | memFragRx _ _ _ _ _ => true
  | _ => false

/-- What a call that was answered with the error `code` leaves. Both handlers answer a full receive
buffer with FFA_ERROR_DENIED, and nothing else. -/
structure Harmless (P : Platform) (s s' : State) (c : Call) (code : Int) : Prop where
  mailbox : (s'.endpoint c.secureOrigin).mailbox.state = (s.endpoint c.secureOrigin).mailbox.state
  counts : (liveObjects s'.store).map (fun o => (Mtd.handle o.desc, o.inUse)) =
    (liveObjects s.store).map fun o => (Mtd.handle o.desc, o.inUse)
  retry : ∀ s'', spmcSmcHandler P s' c = some (s'', .error FFA_ERROR_DENIED) →
    code = FFA_ERROR_DENIED

/-! ## The fragment can be made -/

/-- The first fragment for a hypervisor and the fragments of a version 1.1 receiver can always be
made. A version 1.0 fragment needs room for the temporary object, a conversion that passes its
bound checks, and an offset inside the converted descriptor. -/
def FragmentFits (t : Datastore) (e : Endpoint) (o : Obj) (b : Bool) (offset : ℕ) : Prop :=
  (b = false ∧ offset = 0) ∨ e.ffaVersion ≠ makeFfaVersion 1 0 ∨
    (Fits t (spmcShmGetV10DescriptorSize o.desc o.descSize) ∧
      V10Fits o.desc o.descSize (spmcShmGetV10DescriptorSize o.desc o.descSize) ∧
      actualFragmentOffset o b offset < spmcShmGetV10DescriptorSize o.desc o.descSize)

theorem bufSize_ge (h : e.mailbox.rxtxPageCount ≠ 0) : 4096 ≤ e.mailbox.bufSize := by
  have hpos : 0 < e.mailbox.rxtxPageCount.val := Nat.pos_of_ne_zero fun hz => h (Fin.ext hz)
  rw [Mailbox.bufSize]
  omega

theorem hypMrdOffset_le (v : ℕ) : 48 ≤ hypMrdOffset v ∧ hypMrdOffset v ≤ 64 := by
  rw [hypMrdOffset]
  split <;> omega

theorem endpoint_setMailbox (s : State) (b : Bool) (m : Mailbox) :
    (s.setMailbox b m).endpoint b = { s.endpoint b with mailbox := m } := by
  cases b <;> rfl

theorem endpoint_complete (s : State) (b : Bool) :
    (spmcCompleteFfaVersionNegotiation s b).endpoint b =
      { s.endpoint b with ffaVersionNegotiated := true } := by
  cases b <;> rfl

theorem hypMrdOffset_le_bufSize (h : e.mailbox.rxtxPageCount ≠ 0) (v : ℕ) :
    hypMrdOffset v ≤ e.mailbox.bufSize := by
  have h1 := bufSize_ge h
  have h2 := (hypMrdOffset_le v).2
  omega

theorem Unanswered.not_fits {t : Datastore} {offset : ℕ}
    (h : Unanswered t e o b offset (actualFragmentOffset o b offset) code)
    (hmap : e.mailbox.rxtxPageCount ≠ 0) : ¬ FragmentFits t e o b offset := by
  cases h with
  | hyp hb hz hfit => exact absurd hfit (Nat.not_lt.mpr (hypMrdOffset_le_bufSize hmap _))
  | v10 hb hv h =>
    rintro (hh | hne | ⟨hroom, hfits, hin⟩)
    · exact hb hh
    · exact hne hv
    cases h with
    | outside hz =>
      rw [hz] at hin
      exact absurd hin (Nat.not_lt_zero _)
    | noMemory hno => exact hno hroom
    | unfit hno => exact hno hfits
    | past hp => exact absurd hin (Nat.not_lt.mpr hp)

theorem Fragment.fits {t : Datastore} {offset : ℕ} {p : Populated}
    (h : Fragment t e o b offset (actualFragmentOffset o b offset) p) :
    FragmentFits t e o b offset := by
  cases h with
  | hyp hb hz hfit => exact Or.inl ⟨hb, hz⟩
  | v11 hb hv hk => exact Or.inr (Or.inl hv)
  | v10 hb hv h =>
    cases h with
    | @made n k hn room fits conversion inside hk =>
      subst hn
      exact Or.inr (Or.inr ⟨room, fits, inside⟩)

/-! ## A full receive buffer -/

theorem retrieveCheckEmads_code {req : Bytes} {v : ℕ} {ret : Int}
    (h : retrieveCheckEmads o req v total = some ret) :
    ret = FFA_ERROR_INVALID_PARAMETER ∨ ret = 0 := by
  rw [retrieveCheckEmads] at h
  split at h
  · cases h
  · exact Or.inl (Option.some.inj h).symm
  split at h
  · cases h
  · exact Or.inl (Option.some.inj h).symm
  · exact Or.inr (Option.some.inj h).symm

theorem retrieveCheckFields_code {req : Bytes} :
    retrieveCheckFields o req = FFA_ERROR_INVALID_PARAMETER ∨ retrieveCheckFields o req = 0 := by
  by_cases hz : retrieveCheckFields o req = 0
  · exact Or.inr hz
  left
  unfold retrieveCheckFields at hz ⊢
  simp only at hz ⊢
  split_ifs at hz ⊢ <;> first | rfl | exact absurd rfl hz

theorem retrieveCheck_code {t : Datastore} {req : Bytes} {v : ℕ} {ret : Int}
    (h : retrieveCheck P t b v req total = some ret) :
    ret = FFA_ERROR_INVALID_PARAMETER ∨ ret = 0 := by
  rw [retrieveCheck] at h
  split at h
  · exact Or.inl (Option.some.inj h).symm
  split at h
  · exact Or.inl (Option.some.inj h).symm
  rename_i obj hl
  simp only at h
  split at h
  · rename_i hne
    have hc := @retrieveCheckFields_code (t.obj obj) req
    exact Or.inl ((Option.some.inj h).symm.trans (hc.resolve_right hne))
  rw [retrieveCheckCaller] at h
  split at h
  · exact retrieveCheckEmads_code h
  split at h
  · cases h
  · exact Or.inl (Option.some.inj h).symm
  · exact retrieveCheckEmads_code h

theorem Unanswered.code_ne {t : Datastore} {offset actual : ℕ}
    (h : Unanswered t e o b offset actual code) (hmap : e.mailbox.rxtxPageCount ≠ 0) :
    code ≠ FFA_ERROR_DENIED := by
  cases h with
  | hyp hb hz hfit => exact absurd hfit (Nat.not_lt.mpr (hypMrdOffset_le_bufSize hmap _))
  | v10 hb hv h => cases h <;> decide

theorem retrieveReq_denied (hs : Stored W s.store objs) (hall : FullLayout P objs)
    (htotal : total < 2 ^ 32)
    (hshort : Fits s.store (roundUp16 total) → roundUp16 total < 48 →
      W (.into s.store.allocated (32 + roundUp16 total) 32 48))
    (hempty : (s.endpoint b).mailbox.state = .empty) :
    spmcFfaMemRetrieveReq P s b total fragment address pages tx ≠
      some (s', .error FFA_ERROR_DENIED) := by
  intro hres
  have hother : ∀ code, code ≠ FFA_ERROR_DENIED → ∀ x : State,
      some (x, Reply.error code) ≠ some (s', .error FFA_ERROR_DENIED) := by
    intro code hne x h
    simp only [Option.some.injEq, Prod.mk.injEq, Reply.error.injEq] at h
    exact hne h.2
  rcases retrieveReq_early hs htotal hres with ⟨code, hr, _, hdenied⟩ | ⟨hargs, hfits⟩
  · exact hdenied (Reply.error.inj hr).symm hempty
  have hsnap := @snapshot_stored W objs tx s.store total hs hfits (hshort hfits)
  have hx : (0 : ℕ) ≠ roundUp16 total := by
    have h32 := hargs.size
    have hle := le_roundUp16 total
    omega
  rw [retrieveReq_eq hs hargs hfits] at hres
  by_cases hc : retrieveCheck P (snapshot s.store tx total) b (s.endpoint b).ffaVersion
      (requestOf s.store tx total) total = some 0
  · obtain ⟨pre, o, post, hfound, hok⟩ := (retrieveCheck_eq_zero hsnap hx).mp hc
    rw [requestOf_handle hargs.size] at hfound
    rcases retrieveFromSnapshot_ok hs hall hargs.size hfits (hshort hfits) hfound hok with
      ⟨t', code, he, _, hun, _⟩ | ⟨t', p, he, _, _, _⟩
    · exact hother _ (hun.code_ne hargs.mapped) _ (he.symm.trans hres)
    · exact absurd (he.symm.trans hres) (by simp)
  · rw [retrieveFromSnapshot, snapshot_obj hs hfits (hshort hfits), endpoint_store] at hres
    simp only at hres
    cases hcheck : retrieveCheck P (snapshot s.store tx total) b (s.endpoint b).ffaVersion
        (requestOf s.store tx total) total with
    | none =>
      rw [hcheck] at hres
      cases hres
    | some ret =>
      rw [hcheck] at hres hc
      have hz : ret ≠ 0 := fun h => hc (congrArg some h)
      simp only [hz, ne_eq, not_false_eq_true, if_true] at hres
      have hcode := (retrieveCheck_code hcheck).resolve_right hz
      exact hother _ (by rw [hcode]; decide) _ hres

theorem retrieveReq_full (hfull : (s.endpoint b).mailbox.state ≠ .empty) :
    spmcFfaMemRetrieveReq P s b total fragment address pages tx =
      some (s, .error (if address ≠ 0 ∨ pages ≠ 0 then FFA_ERROR_INVALID_PARAMETER
        else if (s.endpoint b).mailbox.rxtxPageCount = 0 then FFA_ERROR_INVALID_PARAMETER
        else FFA_ERROR_DENIED)) := by
  rw [spmcFfaMemRetrieveReq]
  split
  · rfl
  split <;> rfl

/-! ## Both calls -/

theorem harmless_of_unchanged (hc : c.isVersion = false)
    (hs' : s' = spmcCompleteFfaVersionNegotiation s c.secureOrigin)
    (hres : spmcSmcHandler P s c = some (s', .error code)) : Harmless P s s' c code := by
  have hnot : ¬ c.isVersion = true := by
    rw [hc]
    simp
  have hsame : spmcSmcHandler P s' c = spmcSmcHandler P s c := by
    simp only [spmcSmcHandler, if_neg hnot, hs', complete_again]
  refine ⟨?_, ?_, fun s'' hretry => ?_⟩
  · rw [hs', endpoint_complete]
  · rw [hs', complete_store]
  · rw [hsame, hres] at hretry
    simp only [Option.some.injEq, Prod.mk.injEq, Reply.error.injEq] at hretry
    exact hretry.2

theorem harmless_of_null (hc : c.isVersion = false)
    (hv : (s.endpoint c.secureOrigin).ffaVersion = FFA_VERSION_NULL)
    (hres : spmcSmcHandler P s c = some (s', .error code)) : Harmless P s s' c code := by
  refine harmless_of_unchanged hc ?_ hres
  rw [spmcSmcHandler, if_neg (by rw [hc]; simp)] at hres
  simp only at hres
  rw [if_pos (by rw [complete_caller]; exact hv)] at hres
  simp only [Option.some.injEq, Prod.mk.injEq] at hres
  exact hres.1.symm

theorem memRetrieveReq_harmless {size frag : UInt32} {addr : UInt64} {count : UInt32}
    (hinv : Inv P (fun _ => True) s objs)
    (hres : spmcSmcHandler P s (.memRetrieveReq b size frag addr count tx) =
      some (s', .error code)) :
    Harmless P s s' (.memRetrieveReq b size frag addr count tx) code := by
  by_cases hv : (s.endpoint b).ffaVersion = FFA_VERSION_NULL
  · exact harmless_of_null rfl hv hres
  have heq := @smcHandler_eq P s (.memRetrieveReq b size frag addr count tx) rfl hv
  obtain ⟨s₀, hs₀⟩ : ∃ s₀, s₀ = spmcCompleteFfaVersionNegotiation s b := ⟨_, rfl⟩
  have hdisp : spmcFfaMemRetrieveReq P s₀ b size.toNat frag.toNat addr.toNat count.toNat tx =
      some (s', .error code) := by
    rw [← hres, heq, hs₀]
    rfl
  have hstore : s₀.store = s.store := by rw [hs₀, complete_store]
  have hst₀ : Stored (fun _ => True) s₀.store objs := hstore ▸ hinv.stored
  have hall : FullLayout P objs := fun x hx hf => (hinv.live x hx).full hf
  cases retrieveReq_cases hst₀ hall (UInt32.toNat_lt size) (fun _ _ _ => trivial) hdisp with
  | responded found full request room response hr => cases hr
  | @refused t code' hr hs' kept stored =>
    have hep : s'.endpoint b = s₀.endpoint b := by
      rw [hs', endpoint_store]
    have hretry : spmcSmcHandler P s' (.memRetrieveReq b size frag addr count tx) =
        spmcFfaMemRetrieveReq P s' b size.toNat frag.toNat addr.toNat count.toNat tx := by
      have hv' : (s'.endpoint b).ffaVersion ≠ FFA_VERSION_NULL := by
        rw [hep, hs₀, complete_caller]
        exact hv
      rw [@smcHandler_eq P s' (.memRetrieveReq b size frag addr count tx) rfl hv']
      change spmcFfaMemRetrieveReq P (spmcCompleteFfaVersionNegotiation s' b) b _ _ _ _ tx = _
      have hs'' : spmcCompleteFfaVersionNegotiation s' b = s' := by
        rw [hs', complete_withStore, hs₀, complete_again]
      rw [hs'']
    refine ⟨?_, ?_, fun s'' hden => ?_⟩
    · change (s'.endpoint b).mailbox.state = (s.endpoint b).mailbox.state
      rw [hep, hs₀, endpoint_complete]
    · have hobjs : s'.store = t := by rw [hs']
      rw [hobjs, stored.liveObjects_eq, hinv.stored.liveObjects_eq]
    · rw [hretry] at hden
      have hst' : Stored (fun _ => True) s'.store objs := by
        rw [hs']
        exact stored
      by_cases hempty : (s'.endpoint b).mailbox.state = .empty
      · exact absurd hden
          (retrieveReq_denied hst' hall (UInt32.toNat_lt size) (fun _ _ => trivial) hempty)
      · -- the buffer was full before, and the first call was denied for it
        rw [retrieveReq_full hempty, hep] at hden
        rw [hep] at hempty
        rw [retrieveReq_full hempty] at hdisp
        simp only [Option.some.injEq, Prod.mk.injEq, Reply.error.injEq] at hden hdisp
        rw [← hdisp.2, hden.2]

/-- A fragment that is asked for in a way that passes the checks can be made. -/
def Fillable (s : State) : Call → Prop
  | .memFragRx b low high offset sender => ∀ o,
      ((liveObjects s.store).find? fun x =>
        Mtd.handle x.desc == memHandle low.toNat high.toNat) = some o →
      FragRxOk (s.endpoint b) o b offset.toNat sender.toNat →
        FragmentFits s.store (s.endpoint b) o b offset.toNat
  | _ => True

theorem Stored.found_of_find {t : Datastore} {handle : ℕ} (hs : Stored W t objs)
    (hfind : ((liveObjects t).find? fun x => Mtd.handle x.desc == handle) = some o) :
    ∃ pre post, Found objs handle pre o post := by
  rw [hs.liveObjects_eq] at hfind
  rcases hs.found with ⟨_, hn⟩ | ⟨pre, o', post, hfound, _⟩
  · exact absurd (by simpa using List.find?_some hfind) (hn o (List.mem_of_find?_eq_some hfind))
  · rw [hfound.find_eq] at hfind
    cases hfind
    exact ⟨pre, post, hfound⟩

theorem fragRxOk_complete {offset sender : ℕ} :
    FragRxOk ((spmcCompleteFfaVersionNegotiation s b).endpoint b) o b offset sender ↔
      FragRxOk (s.endpoint b) o b offset sender := by
  rw [endpoint_complete]
  exact ⟨fun h => ⟨h.full, h.sender, h.inside, h.mapped, h.empty, h.running⟩,
    fun h => ⟨h.full, h.sender, h.inside, h.mapped, h.empty, h.running⟩⟩

theorem fragmentFits_complete {offset : ℕ} :
    FragmentFits (spmcCompleteFfaVersionNegotiation s b).store
        ((spmcCompleteFfaVersionNegotiation s b).endpoint b) o b offset ↔
      FragmentFits s.store (s.endpoint b) o b offset := by
  rw [endpoint_complete, complete_store]
  exact Iff.rfl

theorem memFragRx_harmless_iff {low high offset sender : UInt32}
    (hinv : Inv P (fun _ => True) s objs) :
    (∀ s' code, spmcSmcHandler P s (.memFragRx b low high offset sender) =
        some (s', .error code) → Harmless P s s' (.memFragRx b low high offset sender) code) ↔
      Fillable s (.memFragRx b low high offset sender) := by
  by_cases hv : (s.endpoint b).ffaVersion = FFA_VERSION_NULL
  · refine iff_of_true (fun s' code hres => harmless_of_null rfl hv hres) fun o _ _ => ?_
    refine Or.inr (Or.inl ?_)
    rw [hv]
    decide
  obtain ⟨s₀, hs₀⟩ : ∃ s₀, s₀ = spmcCompleteFfaVersionNegotiation s b := ⟨_, rfl⟩
  have hdisp : spmcSmcHandler P s (.memFragRx b low high offset sender) =
      spmcFfaMemFragRx s₀ b low.toNat high.toNat offset.toNat sender.toNat := by
    rw [hs₀]
    exact @smcHandler_eq P s (.memFragRx b low high offset sender) rfl hv
  have hst₀ : Stored (fun _ => True) s₀.store objs := by
    rw [hs₀, complete_store]
    exact hinv.stored
  constructor
  · intro hall o hfind hok
    obtain ⟨pre, post, hfound⟩ := hinv.stored.found_of_find hfind
    have hok₀ : FragRxOk (s₀.endpoint b) o b offset.toNat sender.toNat := by
      rw [hs₀]
      exact fragRxOk_complete.mpr hok
    rcases fragRx_ok hst₀ hfound (hinv.fullLayout o hfound.mem hok.full) hok₀ with
      ⟨t, code, he, _, _, _⟩ | ⟨t, p, _, _, hfrag, _⟩
    · -- the buffer is full now, which it was not
      have hstate := (hall _ code (hdisp.trans he)).mailbox
      change ((({ s₀ with store := t } : State).setMailbox b _).endpoint b).mailbox.state =
        (s.endpoint b).mailbox.state at hstate
      rw [endpoint_setMailbox, hok.empty] at hstate
      cases hstate
    · have hfits := hfrag.fits
      rw [hs₀] at hfits
      exact fragmentFits_complete.mp hfits
  · intro hfill s' code hres
    have hres₀ := hdisp.symm.trans hres
    cases fragRx_cases hst₀ hinv.fullLayout hres₀ with
    | refused hr hs' => exact harmless_of_unchanged rfl (hs'.trans hs₀) hres
    | sent found checks fragment hr => cases hr
    | @failed t code' pre post o found checks hr hs' kept stored =>
      have hok : FragRxOk (s.endpoint b) o b offset.toNat sender.toNat := by
        rw [hs₀] at checks
        exact fragRxOk_complete.mp checks
      have hfits := hfill o (by rw [hinv.stored.liveObjects_eq]; exact found.find_eq) hok
      rw [← fragmentFits_complete, ← hs₀] at hfits
      rcases fragRx_ok hst₀ found (hinv.fullLayout o found.mem checks.full) checks with
        ⟨t', code'', _, _, hun, _⟩ | ⟨t', p, he, _, _, _⟩
      · exact absurd hfits (hun.not_fits checks.mapped)
      · exact absurd (he.symm.trans hres₀) (by simp)

theorem receive_errors_harmless_iff {b₀ : Boot} {t : List (Call × Reply)}
    (hrun : Run P b₀.state t s) (hc : c.receives = true) :
    (∀ s' code, spmcSmcHandler P s c = some (s', .error code) → Harmless P s s' c code) ↔
      Fillable s c := by
  obtain ⟨objs, hinv, -⟩ := hrun.issued
  cases c with
  | memRetrieveReq b size frag addr count tx =>
    exact iff_of_true (fun s' code hres => memRetrieveReq_harmless hinv hres) trivial
  | memFragRx b low high offset sender => exact memFragRx_harmless_iff hinv
  | _ => cases hc

def sendLong (version : UInt32) (length : UInt32) (tx : Bytes) : List Call :=
  [.version false version, .mailbox false (mappedMailbox 2),
    .memSend false false length.toUInt64 length 0 0 tx, .mailbox false (mappedMailbox 1),
    .mailbox true (mappedMailbox 1)]

theorem receive_errors_harmless_offset : ∃ t s s',
    Run onePartition (bootV11 8192 (by decide)).state t s ∧
    spmcSmcHandler onePartition s (.memFragRx true 0xffffffc0 0 16 0) =
      some (s', .error FFA_ERROR_INVALID_PARAMETER) ∧
    Harmless onePartition s s' (.memFragRx true 0xffffffc0 0 16 0) FFA_ERROR_INVALID_PARAMETER := by
  obtain ⟨t, s, r, s', hrun, hstep, hq⟩ := @execute_step onePartition
    (fun s r _ => decide (r = .error FFA_ERROR_INVALID_PARAMETER) &&
      decide ((s.endpoint true).ffaVersion ≠ makeFfaVersion 1 0))
    (bootV11 8192 (by decide)).state
    (sendLong 0x10001 4128 (record [(24, 4, 16), (28, 4, 1), (32, 4, 48), (48, 2, 0x8001),
        (52, 4, 64), (68, 4, 253)]) ++
      [.memRetrieveReq true 64 64 0 0 (requestV11 0xffffffc0 48 [0x8001]), .rxRelease true])
    (.memFragRx true 0xffffffc0 0 16 0) (by decide +kernel)
  rw [Bool.and_eq_true, decide_eq_true_eq, decide_eq_true_eq] at hq
  obtain ⟨rfl, hv⟩ := hq
  have hfill : Fillable s (.memFragRx true 0xffffffc0 0 16 0) := fun o _ _ => Or.inr (Or.inl hv)
  exact ⟨t, s, s', hrun, hstep, (receive_errors_harmless_iff hrun rfl).mpr hfill s' _ hstep⟩

/-- A version 1.0 hypervisor asks for a second fragment. -/
theorem failed_fragment_keeps_buffer : ∃ t s s' code,
    Run onePartition (bootV11 16384 (by decide)).state t s ∧
    spmcSmcHandler onePartition s (.memFragRx false 0xffffffc0 0 4096 0) = some (s', .error code) ∧
    code = FFA_ERROR_INVALID_PARAMETER ∧ (s.endpoint false).mailbox.state = .empty ∧
    (s'.endpoint false).mailbox.state = .full ∧
    (spmcSmcHandler onePartition s' (.memFragRx false 0xffffffc0 0 4096 0)).any
      (fun x => decide (x.2 = .error FFA_ERROR_DENIED)) = true := by
  obtain ⟨t, s, r, s', hrun, hstep, hq⟩ := @execute_step onePartition
    (fun s r s' => decide (r = .error FFA_ERROR_INVALID_PARAMETER) &&
      (decide ((s.endpoint false).mailbox.state = .empty) &&
        (decide ((s'.endpoint false).mailbox.state = .full) &&
          (spmcSmcHandler onePartition s' (.memFragRx false 0xffffffc0 0 4096 0)).any
            (fun x => decide (x.2 = .error FFA_ERROR_DENIED)))))
    (bootV11 16384 (by decide)).state
    (sendLong 0x10000 4112 (record [(28, 4, 1), (32, 2, 0x8001), (36, 4, 48), (52, 4, 253)]) ++
      [.memRetrieveReq false 32 32 0 0 (requestV10 0xffffffc0 []), .rxRelease false])
    (.memFragRx false 0xffffffc0 0 4096 0) (by decide +kernel)
  rw [Bool.and_eq_true, Bool.and_eq_true, Bool.and_eq_true, decide_eq_true_eq, decide_eq_true_eq,
    decide_eq_true_eq] at hq
  obtain ⟨rfl, hempty, hfull, hretry⟩ := hq
  exact ⟨t, s, s', _, hrun, hstep, rfl, hempty, hfull, hretry⟩

end TrustedFirmware.Spmc
