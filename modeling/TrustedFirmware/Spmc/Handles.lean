import Mathlib.Data.List.Perm.Subperm
import TrustedFirmware.Spmc.Invariant

/-! # Handles

Handles are issued in sequence from a 64-bit counter, so that the first 2^64 of them are
distinct. As long as no more sends have been made no two live objects share a handle, and
a call changes no object but the one it names or sends. -/
namespace TrustedFirmware.Spmc
open ByteMemory RecordTiling
set_option autoImplicit false

variable {W : Write → Prop} {P : Platform} {s s' : State} {r : Reply} {c : Call}
  {objs objs' pre post : List Obj} {o : Obj} {v u n k next next' : ℕ}

def handles (objs : List Obj) : List ℕ := objs.map fun o => Mtd.handle o.desc

@[simp] theorem handles_cons (o : Obj) (objs : List Obj) :
    handles (o :: objs) = Mtd.handle o.desc :: handles objs := rfl

@[simp] theorem handles_append (xs ys : List Obj) :
    handles (xs ++ ys) = handles xs ++ handles ys := List.map_append

theorem mem_handles {k : ℕ} : k ∈ handles objs ↔ ∃ x ∈ objs, Mtd.handle x.desc = k := List.mem_map

def Obj.body (o : Obj) : ℕ × ℕ × Bytes := (o.descSize, o.descFilled, o.desc)

/-! ## The object a call is about -/

/-- The handle that a call names or, for a send, takes. -/
def subject (c : Call) (next : ℕ) : Option ℕ := if c.isSend then some next else c.handle

def others (k : Option ℕ) (objs : List Obj) : List Obj :=
  objs.filter fun x => decide (k ≠ some (Mtd.handle x.desc))

theorem others_append (k : Option ℕ) (xs ys : List Obj) :
    others k (xs ++ ys) = others k xs ++ others k ys := List.filter_append ..

theorem others_cons_self (o : Obj) (xs : List Obj) :
    others (some (Mtd.handle o.desc)) (o :: xs) = others (some (Mtd.handle o.desc)) xs := by
  rw [others, List.filter_cons]
  simp only [ne_eq, not_true_eq_false, decide_false, Bool.false_eq_true, if_false]
  rfl

theorem others_replace {o' : Obj} (h : Mtd.handle o.desc = k) (h' : Mtd.handle o'.desc = k) :
    others (some k) (pre ++ o' :: post) = others (some k) (pre ++ o :: post) := by
  rw [others_append, others_append, ← h', others_cons_self, h', ← h, others_cons_self]

theorem others_remove (h : Mtd.handle o.desc = k) :
    others (some k) (pre ++ post) = others (some k) (pre ++ o :: post) := by
  rw [others_append, others_append, ← h, others_cons_self]

theorem Settled.others_eq (h : Settled P v u pre post o r objs') (hk : Mtd.handle o.desc = k) :
    others (some k) objs' = others (some k) (pre ++ post) := by
  cases h with
  | gone hr => rfl
  | pending hr live partly => exact (others_remove hk).symm
  | accepted hr hu live full clear => exact (others_remove hk).symm
  | moved hr hu layout whole live full unused handle ranges clear =>
    rw [others_append, ← hk, ← handle, others_cons_self]
    exact List.append_nil _
  | dropped hr h =>
    obtain ⟨y, pre', x, post', _, _, hy, hf, rfl⟩ := h
    rw [hk] at hy hf
    rw [others_remove hf.handle, ← hf.split, others_append, ← hy, others_cons_self]
    exact List.append_nil _

theorem Found.others_eq (h : Found objs k pre o post) {o' : Obj} (hd : o'.desc = o.desc) :
    others (some k) (pre ++ o' :: post) = others (some k) objs := by
  rw [h.split]
  exact others_replace h.handle (by rw [hd]; exact h.handle)

theorem subject_of_handle (h : c.handle = some k) : subject c next = some k := by
  cases c with
  | memSend => cases h
  | _ => exact h

theorem Change.others_eq (h : Change P v u c r next objs next' objs') :
    others (subject c next) objs' = others (subject c next) objs := by
  cases h with
  | same => rfl
  | sent hc handle unused size filledTo content settled =>
    have hsub : subject c next = some next := by
      rw [hc]
      rfl
    rw [hsub, settled.others_eq handle, List.append_nil]
  | filled hc found partly handle unused size filledTo content settled =>
    have hsub : subject c next = some _ := subject_of_handle (by rw [hc]; rfl)
    rw [hsub, settled.others_eq (handle.trans found.handle), others_remove found.handle, ← found.split]
  | failed hc found partly hr =>
    have hsub : subject c next = some _ := subject_of_handle (by rw [hc]; rfl)
    rw [hsub, others_remove found.handle, ← found.split]
  | retrieved hc hev found full =>
    rw [subject_of_handle hc]
    exact found.others_eq (Obj.withInUse_desc _ _)
  | viewed hc hns hev hr found full =>
    rw [subject_of_handle hc]
    exact found.others_eq (Obj.withHypShift_desc _ _)
  | relinquished hc hev found used =>
    rw [subject_of_handle hc]
    exact found.others_eq (Obj.withInUse_desc _ _)
  | reclaimed hc hev found full unused =>
    rw [subject_of_handle hc, others_remove found.handle, ← found.split]

/-! ## Distinct handles -/

/-- The handle of the send number `i`. -/
def handleAt (i : ℕ) : ℕ := (0xffffffc0 + i) % 2 ^ 64

theorem handleAt_inj {i j : ℕ} (hi : i < 2 ^ 64) (hj : j < 2 ^ 64) (h : handleAt i = handleAt j) :
    i = j := by
  simp only [handleAt] at h
  omega

/-- `n` handles have been issued, and the live objects have different ones of them. -/
structure Issued (n next : ℕ) (objs : List Obj) : Prop where
  next : next = handleAt n
  old : ∀ k ∈ handles objs, ∃ i < n, k = handleAt i
  nodup : (handles objs).Nodup

theorem Dropped.eq {rest : List Obj} (h : Dropped P v k rest objs') (hno : k ∉ handles rest) :
    objs' = rest := by
  obtain ⟨y, pre, x, post, _, _, hy, hf, rfl⟩ := h
  rcases hf.snoc with ⟨rfl, _, rfl⟩ | ⟨post', _, hf'⟩
  · exact List.append_nil _
  · exact absurd (mem_handles.mpr ⟨x, hf'.mem, hf'.handle⟩) hno

/-- The object that stays of `o` next to the others, once `o` is settled. -/
structure Stays (P : Platform) (u : ℕ) (rest : List Obj) (o y : Obj) : Prop where
  handle : Mtd.handle y.desc = Mtd.handle o.desc
  unused : o.inUse = 0 → y.inUse = 0
  clear : y.descFilled = y.descSize → Clear (makeFfaVersion 1 1) y rest
  whole : y.descFilled = y.descSize → o.descFilled = o.descSize ∧ ∃ w,
    Layout P w o.desc o.descSize ∧ (∀ d, regionRanges d w = regionRanges d u) ∧
      regionRanges y.desc (makeFfaVersion 1 1) = regionRanges o.desc w

theorem Settled.stays (h : Settled P v u pre post o r objs') (hk : Mtd.handle o.desc = k)
    (hno : k ∉ handles (pre ++ post)) : (∃ code, r = .error code) ∧ objs' = pre ++ post ∨
      ∃ y, objs'.Perm (y :: (pre ++ post)) ∧ Stays P u (pre ++ post) o y := by
  subst hk
  cases h with
  | gone hr => exact .inl ⟨⟨_, hr⟩, rfl⟩
  | pending hr live partly =>
    exact .inr ⟨o, List.perm_middle, rfl, id, fun hf => absurd hf partly, fun hf => absurd hf partly⟩
  | accepted hr hu live full clear =>
    exact .inr ⟨o, List.perm_middle, rfl, id, fun _ => clear,
      fun hf => ⟨hf, _, live.full hf, fun _ => regionRanges_of_ne hu, rfl⟩⟩
  | moved hr hu layout whole live full unused handle ranges clear =>
    exact .inr ⟨_, List.perm_append_singleton _ _, handle, fun _ => unused, fun _ => clear,
      fun _ => ⟨whole, _, layout, fun _ => by rw [hu], ranges⟩⟩
  | dropped hr h => exact .inl ⟨⟨_, hr⟩, h.eq hno⟩

theorem Settled.handles_perm (h : Settled P v u pre post o r objs') (hk : Mtd.handle o.desc = k)
    (hno : k ∉ handles (pre ++ post)) :
    (∃ code, r = .error code) ∧ handles objs' = handles (pre ++ post) ∨
      (handles objs').Perm (k :: handles (pre ++ post)) := by
  rcases h.stays hk hno with ⟨he, rfl⟩ | ⟨y, hp, hy⟩
  · exact .inl ⟨he, rfl⟩
  · have hmap := hp.map fun x => Mtd.handle x.desc
    rw [List.map_cons, hy.handle, hk] at hmap
    exact .inr hmap

theorem Found.nodup (h : Found objs k pre o post) (hn : (handles objs).Nodup) :
    k ∉ handles (pre ++ post) ∧ (handles (pre ++ post)).Nodup := by
  rw [h.split, handles_append, handles_cons, h.handle] at hn
  have hp := (List.perm_middle.nodup_iff).mp hn
  rw [List.nodup_cons] at hp
  rw [handles_append]
  exact hp

theorem Found.find_eq (h : Found objs k pre o post) :
    (objs.find? fun x => Mtd.handle x.desc == k) = some o := by
  rw [h.split, List.find?_append, List.find?_eq_none.mpr, Option.none_or, List.find?_cons_of_pos]
  · simpa using h.handle
  · intro x hx
    simpa using h.first x hx

theorem Found.handles_replace (h : Found objs k pre o post) {o' : Obj} (hd : o'.desc = o.desc) :
    handles (pre ++ o' :: post) = handles objs := by
  rw [h.split, handles_append, handles_append, handles_cons, handles_cons, hd]

theorem Change.handles_cases (h : Change P v u c r next objs next' objs')
    (hfresh : c.isSend = true → next ∉ handles objs) (hd : (handles objs).Nodup) :
    next' = next ∧ (handles objs').Subperm (handles objs) ∨
      c.isSend = true ∧ next' = (next + 1) % 2 ^ 64 ∧
        (handles objs').Subperm (next :: handles objs) := by
  have hless : ∀ {k : ℕ} {pre post : List Obj} {o : Obj}, Found objs k pre o post →
      (handles (pre ++ post)).Subperm (handles objs) := by
    intro k pre post o found
    rw [found.split, handles_append, handles_append, handles_cons]
    exact (List.Sublist.append_left (List.sublist_cons_self _ _) _).subperm
  have hsame : ∀ {k : ℕ} {pre post : List Obj} {o o' : Obj}, Found objs k pre o post →
      o'.desc = o.desc → (handles (pre ++ o' :: post)).Subperm (handles objs) := by
    intro k pre post o o' found hdesc
    rw [found.handles_replace hdesc]
  cases h with
  | same => exact Or.inl ⟨rfl, List.Subperm.refl _⟩
  | sent hc handle unused size filledTo content settled =>
    have hsend : c.isSend = true := by
      rw [hc]
      rfl
    have hno : next ∉ handles (objs ++ []) := by
      rw [List.append_nil]
      exact hfresh hsend
    refine Or.inr ⟨hsend, rfl, ?_⟩
    rcases settled.handles_perm handle hno with ⟨-, hp⟩ | hp
    · rw [hp, List.append_nil]
      exact (List.sublist_cons_self _ _).subperm
    · rw [List.append_nil] at hp
      exact hp.subperm
  | filled hc found partly handle unused size filledTo content settled =>
    refine Or.inl ⟨rfl, ?_⟩
    rcases settled.handles_perm (handle.trans found.handle) (found.nodup hd).1 with ⟨-, hp⟩ | hp
    · rw [hp]
      exact hless found
    · rw [found.split, handles_append, handles_cons, found.handle]
      rw [handles_append] at hp
      exact (hp.trans List.perm_middle.symm).subperm
  | retrieved hc hev found full => exact Or.inl ⟨rfl, hsame found (Obj.withInUse_desc _ _)⟩
  | viewed hc hns hev hr found full => exact Or.inl ⟨rfl, hsame found (Obj.withHypShift_desc _ _)⟩
  | relinquished hc hev found used => exact Or.inl ⟨rfl, hsame found (Obj.withInUse_desc _ _)⟩
  | failed hc found partly hr => exact Or.inl ⟨rfl, hless found⟩
  | reclaimed hc hev found full unused => exact Or.inl ⟨rfl, hless found⟩

theorem subperm_nodup {l m : List ℕ} (h : l.Subperm m) (hm : m.Nodup) : l.Nodup := by
  obtain ⟨l', hp, hs⟩ := h
  exact hp.nodup_iff.mp (hm.sublist hs)

theorem Change.nodup (h : Change P v u c r next objs next' objs')
    (hfresh : c.isSend = true → next ∉ handles objs) (hd : (handles objs).Nodup) :
    (handles objs').Nodup := by
  rcases h.handles_cases hfresh hd with ⟨_, hp⟩ | ⟨hsend, _, hp⟩
  · exact subperm_nodup hp hd
  · exact subperm_nodup hp (List.nodup_cons.mpr ⟨hfresh hsend, hd⟩)

theorem Issued.fresh (h : Issued n next objs) (hn : n < 2 ^ 64) : next ∉ handles objs := by
  intro hmem
  obtain ⟨i, hin, he⟩ := h.old next hmem
  have hij := handleAt_inj hn (by omega) (h.next.symm.trans he)
  omega

theorem Change.issued (h : Change P v u c r next objs next' objs') (hi : Issued n next objs)
    (hn : c.isSend = true → n < 2 ^ 64) :
    ∃ n', n ≤ n' ∧ n' ≤ n + (if c.isSend then 1 else 0) ∧ Issued n' next' objs' := by
  have hfresh : c.isSend = true → next ∉ handles objs := fun hc => hi.fresh (hn hc)
  have hnd := h.nodup hfresh hi.nodup
  rcases h.handles_cases hfresh hi.nodup with ⟨hnext, hp⟩ | ⟨hsend, hnext, hp⟩
  · rw [hnext]
    exact ⟨n, Nat.le_refl n, Nat.le_add_right _ _, hi.next, fun k hk => hi.old k (hp.subset hk), hnd⟩
  · refine ⟨n + 1, Nat.le_succ n, by rw [if_pos hsend], ?_, fun k hk => ?_, hnd⟩
    · rw [hnext, hi.next, handleAt, handleAt, Nat.mod_add_mod, Nat.add_assoc]
    · rcases List.mem_cons.mp (hp.subset hk) with rfl | hk'
      · exact ⟨n, Nat.lt_succ_self n, hi.next⟩
      · obtain ⟨i, hin, he⟩ := hi.old k hk'
        exact ⟨i, by omega, he⟩

/-! ## Runs -/

def liveObjects (s : Datastore) : List Obj := s.objects.map Prod.snd

theorem Stored.liveObjects_eq {t : Datastore} (h : Stored W t objs) : liveObjects t = objs := by
  rw [liveObjects, h.objects_eq, withOffsets_snd]

/-- A send does not take the handle of a live object. -/
def FreshHandle (s : State) (c : Call) : Prop :=
  c.isSend = true → s.store.nextHandle ∉ handles (liveObjects s.store)

instance (s : State) (c : Call) : Decidable (FreshHandle s c) := by
  unfold FreshHandle
  infer_instance

def sends (t : List (Call × Reply)) : ℕ := t.countP fun x => x.1.isSend

theorem sends_snoc (t : List (Call × Reply)) (c : Call) (r : Reply) :
    sends (t ++ [(c, r)]) = sends t + if c.isSend then 1 else 0 := by
  rw [sends, sends, List.countP_append, List.countP_singleton]

theorem Run.issued {b : Boot} {t : List (Call × Reply)} (hrun : Run P b.state t s) :
    ∃ objs, Inv P (fun _ => True) s objs ∧ s.store.dataSize = b.dataSize ∧
      (sends t ≤ 2 ^ 64 → ∃ n ≤ sends t, Issued n s.store.nextHandle objs) := by
  refine @RunWhen.objects (fun _ => True) P s _ b t
    (fun t s objs => sends t ≤ 2 ^ 64 → ∃ n ≤ sends t, Issued n s.store.nextHandle objs) hrun
    (fun _ _ => trivial) (fun _ _ _ _ _ _ _ _ => trivial) ?_ ?_
  · intro _
    exact ⟨0, Nat.le_refl _, rfl, fun k hk => absurd hk List.not_mem_nil, List.nodup_nil⟩
  · intro t s objs c r s' objs' _ _ _ ih hchange hle
    rw [sends_snoc] at hle ⊢
    obtain ⟨n, hn, hi⟩ := ih (by omega)
    obtain ⟨n', _, hn', hi'⟩ := hchange.issued hi fun hc => by
      rw [if_pos hc] at hle
      omega
    exact ⟨n', by omega, hi'⟩

end TrustedFirmware.Spmc
