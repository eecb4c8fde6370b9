import TrustedFirmware.Spmc.RetrieveSpec

/-! # Further fragments, relinquish and reclaim

FFA_MEM_FRAG_RX leaves the stored descriptors alone, except that the first fragment for the
hypervisor stores its shift again. FFA_MEM_RELINQUISH changes a use count and
FFA_MEM_RECLAIM takes an unused object out. -/
namespace TrustedFirmware.Spmc
open ByteMemory RecordTiling
set_option autoImplicit false

variable {W : Write → Prop} {P : Platform} {s s' : State} {r : Reply} {objs pre post : List Obj}
  {o : Obj} {b : Bool} {tx : Bytes} {low high offset sender flags : ℕ}

/-! ## FFA_MEM_FRAG_RX -/

/-- The fragment of `o` at `offset`, which is `actual` in the stored descriptor. -/
inductive Fragment (t : Datastore) (e : Endpoint) (o : Obj) (b : Bool) (offset actual : ℕ) :
    Populated → Prop
  | hyp (hb : b = false) (hz : offset = 0) (hfit : hypMrdOffset e.ffaVersion ≤ e.mailbox.bufSize) :
      Fragment t e o b offset actual
        (hypPopulated o.desc e.ffaVersion e.mailbox.rx e.mailbox.bufSize)
  | v10 {y : Bytes} {p : Populated} (hb : ¬ (b = false ∧ offset = 0))
      (hv : e.ffaVersion = makeFfaVersion 1 0)
      (h : V10Response t o y e.mailbox.rx e.mailbox.bufSize actual (.ok p)) :
      Fragment t e o b offset actual p
  | v11 {k : ℕ} (hb : ¬ (b = false ∧ offset = 0)) (hv : e.ffaVersion ≠ makeFfaVersion 1 0)
      (hk : k = min (o.descSize - actual) e.mailbox.bufSize) :
      Fragment t e o b offset actual
        ⟨blit e.mailbox.rx 0 (shift o.desc actual) k, k, o.descSize⟩

def fragmentObj (o : Obj) (v : ℕ) (b : Bool) (offset : ℕ) : Obj :=
  if b = false ∧ offset = 0 then respondedObj o v false else o

theorem fragRxPopulate_spec {t : Datastore} {e : Endpoint} {actual : ℕ}
    (hs : Stored W t (pre ++ o :: post))
    (hl : Layout P (makeFfaVersion 1 1) o.desc o.descSize) (hf : o.descFilled = o.descSize) :
    ∃ t' res, fragRxPopulate t e b (offsetOf pre) offset actual = some (t', res) ∧ t.Kept t' ∧
      ((∃ code, res = .error code ∧ Unanswered t e o b offset actual code ∧
          Stored W t' (pre ++ o :: post)) ∨
        ∃ p, res = .ok p ∧ Fragment t e o b offset actual p ∧
          Stored W t' (pre ++ fragmentObj o e.ffaVersion b offset :: post)) := by
  rw [fragRxPopulate]
  by_cases hh : b = false ∧ offset = 0
  · rw [if_pos hh, populateHyp_eq hs hl hf]
    by_cases hfit : hypMrdOffset e.ffaVersion > e.mailbox.bufSize
    · rw [if_pos hfit]
      exact ⟨t, _, rfl, Datastore.Kept.refl t, Or.inl ⟨_, rfl, .hyp hh.1 hh.2 hfit, hs⟩⟩
    · rw [if_neg hfit]
      have hk : t.Kept (t.setHypShift (offsetOf pre) (hypShiftOf o.desc e.ffaVersion)) :=
        ⟨rfl, rfl, rfl⟩
      refine ⟨_, _, rfl, hk, Or.inr ⟨_, rfl, .hyp hh.1 hh.2 (Nat.le_of_not_lt hfit), ?_⟩⟩
      rw [fragmentObj, if_pos hh, respondedObj]
      exact hs.setHypShift
  · have hobj : fragmentObj o e.ffaVersion b offset = o := by
      rw [fragmentObj, if_neg hh]
    rw [if_neg hh, hobj]
    by_cases hv : e.ffaVersion = makeFfaVersion 1 0
    · rw [if_pos hv]
      obtain ⟨y, hy⟩ := populateV10_spec hs
      obtain ⟨t', res, he, hk, hs', hr⟩ := hy e.mailbox.rx e.mailbox.bufSize actual
      rw [he]
      refine ⟨t', res, rfl, hk, ?_⟩
      cases res with
      | error code => exact Or.inl ⟨code, rfl, .v10 hh hv hr, hs'⟩
      | ok p => exact Or.inr ⟨p, rfl, .v10 hh hv hr, hs'⟩
    · rw [if_neg hv, hs.obj_eq]
      exact ⟨t, _, rfl, Datastore.Kept.refl t, Or.inr ⟨_, rfl, .v11 hh hv rfl, hs⟩⟩

structure FragRxOk (e : Endpoint) (o : Obj) (b : Bool) (offset sender : ℕ) : Prop where
  full : o.descFilled = o.descSize
  sender : sender = 0 ∨ sender = Mtd.senderId o.desc * 2 ^ 16
  inside : actualFragmentOffset o b offset < o.descSize
  mapped : e.mailbox.rxtxPageCount ≠ 0
  empty : e.mailbox.state = .empty
  running : offset = e.mailbox.lastRxFragmentOffset ∨ offset = e.mailbox.nextRxFragmentOffset

def fragmentMailbox (e : Endpoint) (offset : ℕ) (p : Populated) : Mailbox :=
  { e.mailbox with
    state := .full
    rx := p.rx
    lastRxFragmentOffset := offset
    nextRxFragmentOffset := (offset + p.copySize) % 2 ^ 32 }

/-- What FFA_MEM_FRAG_RX does. -/
inductive FragmentSent (W : Write → Prop) (s s' : State) (b : Bool) (objs : List Obj)
    (low high offset sender : ℕ) (r : Reply) : Prop
  | refused {code : Int} (hr : r = .error code) (hs' : s' = s) :
      FragmentSent W s s' b objs low high offset sender r
  | failed {t : Datastore} {code : Int} {pre post : List Obj} {o : Obj}
      (found : Found objs (memHandle low high) pre o post)
      (checks : FragRxOk (s.endpoint b) o b offset sender) (hr : r = .error code)
      (hs' : s' = ({ s with store := t }).setMailbox b
        { (s.endpoint b).mailbox with state := .full })
      (kept : s.store.Kept t) (stored : Stored W t objs) :
      FragmentSent W s s' b objs low high offset sender r
  | sent {t : Datastore} {pre post : List Obj} {o : Obj} {p : Populated}
      (found : Found objs (memHandle low high) pre o post)
      (checks : FragRxOk (s.endpoint b) o b offset sender)
      (fragment : Fragment s.store (s.endpoint b) o b offset (actualFragmentOffset o b offset) p)
      (hr : r = .memFragTx low high p.copySize sender)
      (hs' : s' = ({ s with store := t }).setMailbox b (fragmentMailbox (s.endpoint b) offset p))
      (kept : s.store.Kept t)
      (stored : Stored W t (pre ++ fragmentObj o (s.endpoint b).ffaVersion b offset :: post)) :
      FragmentSent W s s' b objs low high offset sender r

theorem fragRx_eq (hs : Stored W s.store objs) (hfound : Found objs (memHandle low high) pre o post)
    (hok : FragRxOk (s.endpoint b) o b offset sender) :
    spmcFfaMemFragRx s b low high offset sender =
      match fragRxPopulate s.store (s.endpoint b) b (offsetOf pre) offset
        (actualFragmentOffset o b offset) with
      | none => none
      | some (t, .error ret) =>
        some (({ s with store := t }).setMailbox b { (s.endpoint b).mailbox with state := .full },
          .error ret)
      | some (t, .ok p) =>
        some (({ s with store := t }).setMailbox b (fragmentMailbox (s.endpoint b) offset p),
          .memFragTx low high p.copySize sender) := by
  have hs1 := hs
  rw [hfound.split] at hs1
  have h2 : ¬ (sender ≠ 0 ∧ sender ≠ Mtd.senderId o.desc * 2 ^ 16) := by
    rintro ⟨ha, hb⟩
    exact hok.sender.elim ha hb
  have h6 : ¬ (offset ≠ (s.endpoint b).mailbox.lastRxFragmentOffset ∧
      offset ≠ (s.endpoint b).mailbox.nextRxFragmentOffset) := by
    rintro ⟨ha, hb⟩
    exact hok.running.elim ha hb
  rw [spmcFfaMemFragRx, hfound.lookup hs]
  simp only [hs1.obj_eq]
  rw [if_neg (not_not.mpr hok.full), if_neg h2, if_neg (Nat.not_le.mpr hok.inside),
    if_neg hok.mapped, if_neg (not_not.mpr hok.empty), if_neg h6]
  rfl

theorem fragRx_ok (hs : Stored W s.store objs) (hfound : Found objs (memHandle low high) pre o post)
    (hl : Layout P (makeFfaVersion 1 1) o.desc o.descSize)
    (hok : FragRxOk (s.endpoint b) o b offset sender) :
    (∃ t code, spmcFfaMemFragRx s b low high offset sender =
        some (({ s with store := t }).setMailbox b { (s.endpoint b).mailbox with state := .full },
          .error code) ∧ s.store.Kept t ∧
      Unanswered s.store (s.endpoint b) o b offset (actualFragmentOffset o b offset) code ∧
      Stored W t objs) ∨
    ∃ t p, spmcFfaMemFragRx s b low high offset sender =
        some (({ s with store := t }).setMailbox b (fragmentMailbox (s.endpoint b) offset p),
          .memFragTx low high p.copySize sender) ∧ s.store.Kept t ∧
      Fragment s.store (s.endpoint b) o b offset (actualFragmentOffset o b offset) p ∧
      Stored W t (pre ++ fragmentObj o (s.endpoint b).ffaVersion b offset :: post) := by
  have hs1 := hs
  rw [hfound.split] at hs1
  obtain ⟨t, res, he, hk, hcase⟩ := @fragRxPopulate_spec W P pre post o b offset s.store
    (s.endpoint b) (actualFragmentOffset o b offset) hs1 hl hok.full
  rw [fragRx_eq hs hfound hok, he]
  rcases hcase with ⟨code, rfl, hun, hst⟩ | ⟨p, rfl, hfrag, hst⟩
  · rw [← hfound.split] at hst
    exact Or.inl ⟨t, code, rfl, hk, hun, hst⟩
  · exact Or.inr ⟨t, p, rfl, hk, hfrag, hst⟩

theorem fragRx_cases (hs : Stored W s.store objs) (hall : FullLayout P objs)
    (hres : spmcFfaMemFragRx s b low high offset sender = some (s', r)) :
    FragmentSent W s s' b objs low high offset sender r := by
  have hearly : ∀ code, some (s, Reply.error code) = some (s', r) →
      FragmentSent W s s' b objs low high offset sender r := by
    intro code h
    simp only [Option.some.injEq, Prod.mk.injEq] at h
    exact .refused h.2.symm h.1.symm
  have hres' := hres
  rw [spmcFfaMemFragRx] at hres'
  rcases hs.found with ⟨hl, _⟩ | ⟨pre, o, post, hfound, hl⟩
  · rw [hl] at hres'
    exact hearly _ hres'
  rw [hl] at hres'
  have hs1 := hs
  rw [hfound.split] at hs1
  simp only [hs1.obj_eq] at hres'
  split at hres'
  · exact hearly _ hres'
  rename_i h1
  split at hres'
  · exact hearly _ hres'
  rename_i h2
  split at hres'
  · exact hearly _ hres'
  rename_i h3
  split at hres'
  · exact hearly _ hres'
  rename_i h4
  split at hres'
  · exact hearly _ hres'
  rename_i h5
  split at hres'
  · exact hearly _ hres'
  rename_i h6
  have hfull : o.descFilled = o.descSize := not_not.mp h1
  have hok : FragRxOk (s.endpoint b) o b offset sender := by
    refine ⟨hfull, ?_, Nat.lt_of_not_le h3, h4, not_not.mp h5, ?_⟩
    · by_contra hne
      exact h2 ⟨fun h => hne (Or.inl h), fun h => hne (Or.inr h)⟩
    · by_contra hne
      exact h6 ⟨fun h => hne (Or.inl h), fun h => hne (Or.inr h)⟩
  rcases fragRx_ok hs hfound (hall o hfound.mem hfull) hok with
    ⟨t, code, he, hk, _, hst⟩ | ⟨t, p, he, hk, hfrag, hst⟩
  · have hpair := Option.some.inj (he.symm.trans hres)
    rw [Prod.mk.injEq] at hpair
    exact .failed hfound hok hpair.2.symm hpair.1.symm hk hst
  · have hpair := Option.some.inj (he.symm.trans hres)
    rw [Prod.mk.injEq] at hpair
    exact .sent hfound hok hfrag hpair.2.symm hpair.1.symm hk hst

/-! ## FFA_MEM_RELINQUISH -/

/-- What FFA_MEM_RELINQUISH does. -/
inductive Relinquished (P : Platform) (W : Write → Prop) (s s' : State) (objs : List Obj)
    (tx : Bytes) (r : Reply) : Prop
  | refused {code : Int} (hr : r = .error code) (hs' : s' = s) : Relinquished P W s s' objs tx r
  | released {t : Datastore} {pre post : List Obj} {o : Obj}
      (found : Found objs (load tx 0 8) pre o post)
      (listed : spmcShmemObjValidateId o P.spId = some true) (used : o.inUse ≠ 0)
      (hr : r = .success) (hs' : s' = { s with store := t }) (kept : s.store.Kept t)
      (stored : Stored W t (pre ++ o.withInUse (o.inUse - 1) :: post)) :
      Relinquished P W s s' objs tx r

theorem relinquish_cases (hs : Stored W s.store objs)
    (hres : spmcFfaMemRelinquish P s b tx = some (s', r)) :
    Relinquished P W s s' objs tx r ∧ (r = .success → b = true) := by
  have hearly : ∀ code, some (s, Reply.error code) = some (s', r) →
      Relinquished P W s s' objs tx r ∧ (r = .success → b = true) := by
    intro code h
    simp only [Option.some.injEq, Prod.mk.injEq] at h
    refine ⟨.refused h.2.symm h.1.symm, fun hr => ?_⟩
    rw [hr] at h
    exact absurd h.2 (by simp)
  rw [spmcFfaMemRelinquish] at hres
  split at hres
  · exact hearly _ hres
  rename_i hb
  split at hres
  · exact hearly _ hres
  split at hres
  · exact hearly _ hres
  split at hres
  · exact hearly _ hres
  rcases hs.found with ⟨hl, _⟩ | ⟨pre, o, post, hfound, hl⟩
  · rw [hl] at hres
    exact hearly _ hres
  rw [hl] at hres
  have hs1 := hs
  rw [hfound.split] at hs1
  simp only [hs1.obj_eq] at hres
  split at hres
  · exact hearly _ hres
  split at hres
  · exact hearly _ hres
  cases hid : spmcShmemObjValidateId o P.spId with
  | none =>
    rw [hid] at hres
    cases hres
  | some listed =>
    rw [hid] at hres
    cases listed with
    | false => exact hearly _ hres
    | true =>
      simp only at hres
      split at hres
      · exact hearly _ hres
      rename_i hused
      simp only [Option.some.injEq, Prod.mk.injEq] at hres
      have hk : s.store.Kept (s.store.setInUse (offsetOf pre) (o.inUse - 1)) := ⟨rfl, rfl, rfl⟩
      -- the count is a stored one, so that the difference is not reduced
      have hlt : o.inUse - 1 < 2 ^ 64 := by
        have h8 := load_lt (shift s.store.data (offsetOf pre)) 16 8
        have hv : load (shift s.store.data (offsetOf pre)) 16 8 = o.inUse := by
          rw [← hs1.view_eq]
          rfl
        rw [hv, size_t_bytes] at h8
        omega
      have hst := @Stored.setInUse W _ pre post o (o.inUse - 1) hs1
      rw [Nat.mod_eq_of_lt hlt] at hst
      refine ⟨.released hfound hid hused hres.2.symm hres.1.symm hk hst, fun _ => ?_⟩
      simpa using hb

/-! ## FFA_MEM_RECLAIM -/

/-- What FFA_MEM_RECLAIM does. -/
inductive Reclaimed (P : Platform) (W : Write → Prop) (s s' : State) (objs : List Obj)
    (low high : ℕ) (r : Reply) : Prop
  | refused {code : Int} (hr : r = .error code) (hs' : s' = s) :
      Reclaimed P W s s' objs low high r
  | removed {t : Datastore} {pre post : List Obj} {o : Obj}
      (found : Found objs (memHandle low high) pre o post)
      (full : o.descFilled = o.descSize) (unused : o.inUse = 0)
      (hr : r = .success) (hs' : s' = { s with store := t }) (kept : s.store.Kept t)
      (stored : Stored W t (pre ++ post)) : Reclaimed P W s s' objs low high r

theorem reclaim_cases (hs : Stored W s.store objs)
    (hres : spmcFfaMemReclaim P s b low high flags = some (s', r)) :
    Reclaimed P W s s' objs low high r ∧ (r = .success → b = false) := by
  have hearly : ∀ code, some (s, Reply.error code) = some (s', r) →
      Reclaimed P W s s' objs low high r ∧ (r = .success → b = false) := by
    intro code h
    simp only [Option.some.injEq, Prod.mk.injEq] at h
    refine ⟨.refused h.2.symm h.1.symm, fun hr => ?_⟩
    rw [hr] at h
    exact absurd h.2 (by simp)
  rw [spmcFfaMemReclaim] at hres
  split at hres
  · exact hearly _ hres
  rename_i hb
  split at hres
  · exact hearly _ hres
  rcases hs.found with ⟨hl, _⟩ | ⟨pre, o, post, hfound, hl⟩
  · rw [hl] at hres
    exact hearly _ hres
  rw [hl] at hres
  have hs1 := hs
  rw [hfound.split] at hs1
  simp only [hs1.obj_eq] at hres
  split at hres
  · exact hearly _ hres
  rename_i hused
  split at hres
  · exact hearly _ hres
  rename_i hfull
  split at hres
  · exact hearly _ hres
  simp only [Option.some.injEq, Prod.mk.injEq] at hres
  refine ⟨.removed hfound (not_not.mp hfull) (not_not.mp hused) hres.2.symm hres.1.symm
    (kept_free _ _) hs1.free, fun _ => ?_⟩
  simpa using hb

end TrustedFirmware.Spmc
