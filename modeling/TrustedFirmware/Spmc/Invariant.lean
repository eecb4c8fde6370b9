import TrustedFirmware.Spmc.Change

/-! # The datastore over runs

Between two calls every object is live, and the version that the objects were sent in does
not change any more. Whatever a claim says about whole runs is proved by `RunWhen.objects`
from what one change does. -/
namespace TrustedFirmware.Spmc
open ByteMemory RecordTiling
set_option autoImplicit false

variable {W : Write → Prop} {P : Platform} {s s' : State} {r : Reply} {c : Call}
  {objs objs' pre post : List Obj} {o : Obj} {v u next next' : ℕ}

structure Inv (P : Platform) (W : Write → Prop) (s : State) (objs : List Obj) : Prop where
  stored : Stored W s.store objs
  live : ∀ o ∈ objs, LiveObj P s.ns.ffaVersion o
  next_lt : s.store.nextHandle < 2 ^ 64
  negotiated : objs ≠ [] → s.ns.ffaVersionNegotiated = true

theorem Inv.fullLayout (h : Inv P W s objs) : FullLayout P objs :=
  fun x hx hf => (h.live x hx).full hf

/-! ## One change -/

theorem LiveObj.withInUse (h : LiveObj P v o) (hf : o.descFilled = o.descSize ∨ o.inUse ≠ 0) (k : ℕ) :
    LiveObj P v (o.withInUse k) := by
  refine ⟨h.aligned, h.filled_le, fun hp => ?_, h.full⟩
  rcases hf with hf | hf
  · exact absurd hf hp
  · exact absurd (h.partly hp).2 hf

theorem LiveObj.withHypShift (h : LiveObj P v o) (k : ℕ) : LiveObj P v (o.withHypShift k) :=
  ⟨h.aligned, h.filled_le, h.partly, h.full⟩

theorem forall_mem_replace {p : Obj → Prop} {o' : Obj} (h : ∀ x ∈ pre ++ o :: post, p x)
    (ho : p o') : ∀ x ∈ pre ++ o' :: post, p x := by
  intro x hx
  rcases List.mem_append.mp hx with hx | hx
  · exact h x (List.mem_append_left _ hx)
  rcases List.mem_cons.mp hx with rfl | hx
  · exact ho
  · exact h x (List.mem_append_right _ (List.mem_cons_of_mem _ hx))

theorem forall_mem_remove {p : Obj → Prop} (h : ∀ x ∈ pre ++ o :: post, p x) :
    ∀ x ∈ pre ++ post, p x := by
  intro x hx
  rcases List.mem_append.mp hx with hx | hx
  · exact h x (List.mem_append_left _ hx)
  · exact h x (List.mem_append_right _ (List.mem_cons_of_mem _ hx))

theorem forall_mem_snoc {p : Obj → Prop} (h : ∀ x ∈ objs, p x) (ho : p o) :
    ∀ x ∈ objs ++ [o], p x := by
  intro x hx
  rcases List.mem_append.mp hx with hx | hx
  · exact h x hx
  · rw [List.mem_singleton.mp hx]
    exact ho

theorem Settled.live (h : Settled P v u pre post o r objs')
    (hlive : ∀ x ∈ pre ++ post, LiveObj P v x) : ∀ x ∈ objs', LiveObj P v x := by
  have hin : LiveObj P v o → ∀ x ∈ pre ++ o :: post, LiveObj P v x := by
    intro ho x hx
    rcases List.mem_append.mp hx with hx | hx
    · exact hlive x (List.mem_append_left _ hx)
    rcases List.mem_cons.mp hx with rfl | hx
    · exact ho
    · exact hlive x (List.mem_append_right _ hx)
  cases h with
  | gone hr => exact hlive
  | pending hr live partly => exact hin live
  | accepted hr hu live full clear => exact hin live
  | moved hr hu layout whole live full unused handle ranges clear => exact forall_mem_snoc hlive live
  | dropped hr h =>
    obtain ⟨y, pre', x, post', hy, _, _, hf, rfl⟩ := h
    have hall := forall_mem_snoc hlive hy
    rw [hf.split] at hall
    exact forall_mem_remove hall

theorem Change.live (h : Change P v u c r next objs next' objs')
    (hlive : ∀ x ∈ objs, LiveObj P v x) : ∀ x ∈ objs', LiveObj P v x := by
  cases h with
  | same => exact hlive
  | sent hc handle unused size filledTo content settled =>
    refine settled.live ?_
    rw [List.append_nil]
    exact hlive
  | filled hc found partly handle unused size filledTo content settled =>
    rw [found.split] at hlive
    exact settled.live (forall_mem_remove hlive)
  | failed hc found partly hr =>
    rw [found.split] at hlive
    exact forall_mem_remove hlive
  | retrieved hc hev found full =>
    have ho := hlive _ found.mem
    rw [found.split] at hlive
    exact forall_mem_replace hlive (ho.withInUse (Or.inl full) _)
  | viewed hc hns hev hr found full =>
    have ho := hlive _ found.mem
    rw [found.split] at hlive
    exact forall_mem_replace hlive (ho.withHypShift _)
  | relinquished hc hev found used =>
    have ho := hlive _ found.mem
    rw [found.split] at hlive
    exact forall_mem_replace hlive (ho.withInUse (Or.inr used) _)
  | reclaimed hc hev found full unused =>
    rw [found.split] at hlive
    exact forall_mem_remove hlive

theorem Change.next_lt (h : Change P v u c r next objs next' objs') (hn : next < 2 ^ 64) :
    next' < 2 ^ 64 := by
  cases h with
  | sent => exact Nat.mod_lt _ (by omega)
  | _ => exact hn

theorem Change.sends (h : Change P v u c r next [] next' objs') : objs' = [] ∨ c.isSend = true := by
  have hno : ∀ {pre post : List Obj} {o : Obj} {k : ℕ}, ¬ Found [] k pre o post := by
    intro pre post o k hf
    exact absurd hf.mem List.not_mem_nil
  cases h with
  | same => exact Or.inl rfl
  | sent hc =>
    rw [hc]
    exact Or.inr rfl
  | filled hc found => exact absurd found hno
  | failed hc found => exact absurd found hno
  | retrieved hc hev found => exact absurd found hno
  | viewed hc hns hev hr found => exact absurd found hno
  | relinquished hc hev found => exact absurd found hno
  | reclaimed hc hev found => exact absurd found hno

/-! ## One call -/

/-- The write of a whole header into an object that is too short for it satisfies `W`. -/
def ShortOk (W : Write → Prop) (s : State) (c : Call) : Prop :=
  ∀ n, c.Allocates s n → Fits s.store n → n < 48 →
    W (.into s.store.allocated (32 + n) 32 48)

theorem dispatch_changes (hs : Stored W s.store objs)
    (hlive : ∀ x ∈ objs, LiveObj P s.ns.ffaVersion x) (hnext : s.store.nextHandle < 2 ^ 64)
    (hshort : ShortOk W s c) (hc : c.isVersion = false)
    (hres : dispatch P s c = some (s', r)) : Changes P W c r s s' objs := by
  have hall : FullLayout P objs := fun x hx hf => (hlive x hx).full hf
  cases c with
  | version b requested => cases hc
  | memSend b lend total n address pages tx =>
    exact memSend_changes hs hall hnext (hshort _) hres
  | memFragTx b low high n sender tx => exact memFragTx_changes hs hlive hres
  | memRetrieveReq b total n address pages tx =>
    exact memRetrieveReq_changes hs hall (hshort _) hres
  | memFragRx b low high offset sender => exact memFragRx_changes hs hall hres
  | memRelinquish b tx => exact memRelinquish_changes hs hres
  | memReclaim b low high flags => exact memReclaim_changes hs hres
  | rxRelease b =>
    simp only [dispatch, rxReleaseHandler, Option.some.injEq] at hres
    split at hres
    · exact .refused hs (congrArg some hres)
    · rw [Prod.mk.injEq] at hres
      obtain ⟨rfl, rfl⟩ := hres
      exact .same hs (Datastore.Kept.refl _) rfl rfl (setMailbox_store _ _ _)
        (sameVersions_setMailbox s b _)
  | mailbox b m =>
    simp only [dispatch, Option.some.injEq, Prod.mk.injEq] at hres
    obtain ⟨rfl, rfl⟩ := hres
    exact .same hs (Datastore.Kept.refl _) rfl rfl (setMailbox_store _ _ _)
      (sameVersions_setMailbox s b m)
  | features b =>
    simp only [dispatch, Option.some.injEq, Prod.mk.injEq] at hres
    obtain ⟨rfl, rfl⟩ := hres
    exact .same hs (Datastore.Kept.refl _) rfl rfl rfl ⟨rfl, rfl, rfl, rfl⟩

theorem complete_store (s : State) (b : Bool) :
    (spmcCompleteFfaVersionNegotiation s b).store = s.store := by
  cases b <;> rfl

theorem complete_version (s : State) (b : Bool) :
    (spmcCompleteFfaVersionNegotiation s b).ns.ffaVersion = s.ns.ffaVersion := by
  cases b <;> rfl

theorem complete_endpoint (s : State) (b b' : Bool) :
    (spmcCompleteFfaVersionNegotiation s b).endpoint b' = { s.endpoint b' with
      ffaVersionNegotiated := b == b' || (s.endpoint b').ffaVersionNegotiated } := by
  cases b <;> cases b' <;> rfl

theorem complete_caller (s : State) (b b' : Bool) :
    ((spmcCompleteFfaVersionNegotiation s b).endpoint b').ffaVersion =
      (s.endpoint b').ffaVersion := by
  rw [complete_endpoint]

theorem Call.Allocates.of_complete {b : Bool} {n : ℕ}
    (h : c.Allocates (spmcCompleteFfaVersionNegotiation s b) n) : c.Allocates s n := by
  cases c with
  | memSend b' =>
    cases b' with
    | true => exact h
    | false =>
      refine ⟨h.1, ?_, h.2.2⟩
      rw [← complete_version s b]
      exact h.2.1
  | memRetrieveReq b' =>
    obtain ⟨hn, h⟩ := h
    rw [complete_endpoint] at h
    exact ⟨hn, h.address, h.pages, h.mapped, h.empty, h.whole, h.header, h.fits⟩
  | _ => exact h

theorem complete_negotiated (s : State) (b : Bool)
    (h : s.ns.ffaVersionNegotiated = true ∨ b = false) :
    (spmcCompleteFfaVersionNegotiation s b).ns.ffaVersionNegotiated = true := by
  cases b with
  | false => rfl
  | true => exact h.resolve_right (by simp)

theorem complete_again (s : State) (b : Bool) :
    spmcCompleteFfaVersionNegotiation (spmcCompleteFfaVersionNegotiation s b) b =
      spmcCompleteFfaVersionNegotiation s b := by
  cases b <;> rfl

theorem complete_withStore (s : State) (b : Bool) (t : Datastore) :
    spmcCompleteFfaVersionNegotiation { s with store := t } b =
      { spmcCompleteFfaVersionNegotiation s b with store := t } := by
  cases b <;> rfl

theorem smcHandler_eq (hc : c.isVersion = false)
    (hv : (s.endpoint c.secureOrigin).ffaVersion ≠ FFA_VERSION_NULL) :
    spmcSmcHandler P s c = dispatch P (spmcCompleteFfaVersionNegotiation s c.secureOrigin) c := by
  rw [← complete_caller s c.secureOrigin] at hv
  rw [spmcSmcHandler, if_neg (by rw [hc]; simp), if_neg hv]

theorem versionHandler_settled {b : Bool} {n : ℕ} (h : s.ns.ffaVersionNegotiated = true) :
    (ffaVersionHandler s b n).1.ns = s.ns := by
  rw [ffaVersionHandler]
  split
  · rfl
  split
  · rfl
  rename_i hb
  split
  · cases b with
    | true => rfl
    | false => exact absurd h hb
  · rfl

theorem versionHandler_store (s : State) (b : Bool) (n : ℕ) :
    (ffaVersionHandler s b n).1.store = s.store := by
  rw [ffaVersionHandler]
  split
  · rfl
  split
  · rfl
  split
  · cases b <;> rfl
  · rfl

theorem versionHandler_reply {b : Bool} {n : ℕ} (h : ffaVersionHandler s b n = (s', r)) :
    r.isHandle = false := by
  have hr : r = (ffaVersionHandler s b n).2 := by rw [h]
  rw [hr, ffaVersionHandler]
  split
  · rfl
  split
  · rfl
  split <;> rfl

theorem isSend_secureOrigin (h : c.isSend = true) : c.secureOrigin = false ∧ c.isVersion = false := by
  cases c with
  | memSend b =>
    have hb : b = false := by simpa [Call.isSend] using h
    exact ⟨hb, rfl⟩
  | _ => cases h

theorem smcHandler_step (hinv : Inv P W s objs) (hshort : ShortOk W s c)
    (hres : spmcSmcHandler P s c = some (s', r)) :
    ∃ objs', Inv P W s' objs' ∧
      Change P s.ns.ffaVersion (s.endpoint c.secureOrigin).ffaVersion c r
        s.store.nextHandle objs s'.store.nextHandle objs' ∧
      s'.store.dataSize = s.store.dataSize := by
  rw [spmcSmcHandler] at hres
  by_cases hver : c.isVersion = true
  · rw [if_pos hver] at hres
    cases c with
    | version b n =>
      simp only [dispatch, Option.some.injEq] at hres
      have hstore := versionHandler_store s b n.toNat
      rw [hres] at hstore
      have hs' : s'.store = s.store := hstore
      refine ⟨objs, ⟨hs' ▸ hinv.stored, ?_, hs' ▸ hinv.next_lt, ?_⟩, ?_, by rw [hs']⟩
      · intro x hx
        have hne : objs ≠ [] := List.ne_nil_of_mem hx
        have hns := @versionHandler_settled s b n.toNat (hinv.negotiated hne)
        rw [hres] at hns
        have hns' : s'.ns = s.ns := hns
        rw [hns']
        exact hinv.live x hx
      · intro hne
        have hns := @versionHandler_settled s b n.toNat (hinv.negotiated hne)
        rw [hres] at hns
        have hns' : s'.ns = s.ns := hns
        rw [hns']
        exact hinv.negotiated hne
      · rw [hs']
        exact .same rfl (versionHandler_reply hres)
    | _ => cases hver
  · rw [if_neg hver] at hres
    simp only at hres
    have hver' : c.isVersion = false := by simpa using hver
    have hstore := complete_store s c.secureOrigin
    have hversion := complete_version s c.secureOrigin
    have hdone := complete_negotiated s c.secureOrigin
    obtain ⟨s₁, hs₁⟩ : ∃ s₁, s₁ = spmcCompleteFfaVersionNegotiation s c.secureOrigin := ⟨_, rfl⟩
    rw [← hs₁] at hres hstore hversion hdone
    split at hres
    · cases hres
      refine ⟨objs, ⟨hstore ▸ hinv.stored, ?_, hstore ▸ hinv.next_lt, ?_⟩, ?_, by rw [hstore]⟩
      · rw [hversion]
        exact hinv.live
      · exact fun hne => hdone (Or.inl (hinv.negotiated hne))
      · rw [hstore]
        exact .same (event_error _ _) rfl
    · have hlive : ∀ x ∈ objs, LiveObj P s₁.ns.ffaVersion x := by
        rw [hversion]
        exact hinv.live
      have hshort' : ShortOk W s₁ c := by
        rw [ShortOk, hstore, hs₁]
        exact fun n hn => hshort n hn.of_complete
      obtain ⟨objs', hch⟩ := dispatch_changes (hstore ▸ hinv.stored) hlive
        (hstore ▸ hinv.next_lt) hshort' hver' hres
      have hchange := hch.change
      have hcaller : (s₁.endpoint c.secureOrigin).ffaVersion =
          (s.endpoint c.secureOrigin).ffaVersion := by
        rw [hs₁]
        exact complete_caller s _ _
      rw [hversion, hstore, hcaller] at hchange
      refine ⟨objs', ⟨hch.stored, ?_, hchange.next_lt hinv.next_lt, ?_⟩, hchange,
        by rw [hch.dataSize, hstore]⟩
      · rw [hch.versions.ns, hversion]
        exact hchange.live hinv.live
      · intro hne
        rw [hch.versions.nsDone]
        apply hdone
        by_cases hnil : objs = []
        · subst hnil
          rcases hchange.sends with h | h
          · exact absurd h hne
          · exact Or.inr (isSend_secureOrigin h).1
        · exact Or.inl (hinv.negotiated hnil)

/-! ## Runs -/

theorem Boot.inv (b : Boot) (hW : ∀ w, w.Inside b.dataSize → W w) : Inv P W b.state [] := by
  refine ⟨⟨rfl, Nat.zero_le _, b.dataSize_lt, ?_, hW⟩, ?_, ?_, fun h => absurd rfl h⟩
  · exact fun w hw => absurd hw List.not_mem_nil
  · exact fun x hx => absurd hx List.not_mem_nil
  · simp [Boot.state]

theorem RunWhen.objects {C : State → Call → Prop} {b : Boot} {t : List (Call × Reply)}
    {I : List (Call × Reply) → State → List Obj → Prop} (hrun : RunWhen P C b.state t s)
    (hW : ∀ w, w.Inside b.dataSize → W w)
    (hC : ∀ s c, s.store.dataSize = b.dataSize → C s c → ShortOk W s c) (h0 : I [] b.state [])
    (hstep : ∀ t s objs c r s' objs', C s c → Inv P W s objs → Inv P W s' objs' → I t s objs →
      Change P s.ns.ffaVersion (s.endpoint c.secureOrigin).ffaVersion c r
        s.store.nextHandle objs s'.store.nextHandle objs' →
      I (t ++ [(c, r)]) s' objs') :
    ∃ objs, Inv P W s objs ∧ s.store.dataSize = b.dataSize ∧ I t s objs := by
  induction hrun with
  | nil => exact ⟨[], b.inv hW, rfl, h0⟩
  | snoc run cond step ih =>
    obtain ⟨objs, hinv, hsize, hI⟩ := ih
    obtain ⟨objs', hinv', hchange, hsize'⟩ := smcHandler_step hinv (hC _ _ hsize cond) step
    exact ⟨objs', hinv', hsize'.trans hsize, hstep _ _ _ _ _ _ _ cond hinv hinv' hI hchange⟩

end TrustedFirmware.Spmc
