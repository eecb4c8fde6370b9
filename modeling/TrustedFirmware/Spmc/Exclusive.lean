import Mathlib
import TrustedFirmware.Spmc.Handles
import TrustedFirmware.Spmc.Execution

/-! # Exclusive memory

An object is compared with all complete ones when its last fragment arrives, so that the
bytes that two complete objects describe are disjoint, as long as no handle repeats. An
address that is not page aligned is only reported: two objects can then share a page. -/
namespace TrustedFirmware.Spmc
open ByteMemory RecordTiling
set_option autoImplicit false

variable {P : Platform} {s s' : State} {r : Reply} {c : Call} {objs objs' pre post : List Obj}
  {o : Obj} {v u n k next next' : ℕ}

/-! ## Disjoint bytes -/

def ApartObjs (x y : Obj) : Prop :=
  x.descFilled = x.descSize → y.descFilled = y.descSize →
    ∀ r1 ∈ regionRanges x.desc (makeFfaVersion 1 1),
      ∀ r2 ∈ regionRanges y.desc (makeFfaVersion 1 1), Apart r1 r2

theorem apartObjs_symm {x y : Obj} (h : ApartObjs x y) : ApartObjs y x :=
  fun hy hx r1 hr1 r2 hr2 => (h hx hy r2 hr2 r1 hr1).symm

theorem pairwise_apart_insert :
    (pre ++ o :: post).Pairwise ApartObjs ↔
      (∀ x ∈ pre ++ post, ApartObjs o x) ∧ (pre ++ post).Pairwise ApartObjs := by
  rw [List.Perm.pairwise_iff (fun h => apartObjs_symm h) List.perm_middle, List.pairwise_cons]

theorem pairwise_apart_remove (h : (pre ++ o :: post).Pairwise ApartObjs) :
    (pre ++ post).Pairwise ApartObjs := (pairwise_apart_insert.mp h).2

theorem pairwise_apart_replace {o' : Obj} (h : (pre ++ o :: post).Pairwise ApartObjs)
    (hb : o'.body = o.body) : (pre ++ o' :: post).Pairwise ApartObjs := by
  obtain ⟨ho, hp⟩ := pairwise_apart_insert.mp h
  refine pairwise_apart_insert.mpr ⟨fun x hx => ?_, hp⟩
  simp only [Obj.body, Prod.mk.injEq] at hb
  have hox := ho x hx
  rw [ApartObjs, hb.1, hb.2.1, hb.2.2]
  exact hox

theorem Settled.apart (h : Settled P v u pre post o r objs') (hk : Mtd.handle o.desc = k)
    (hno : k ∉ handles (pre ++ post)) (hp : (pre ++ post).Pairwise ApartObjs) :
    objs'.Pairwise ApartObjs := by
  rcases h.stays hk hno with ⟨-, rfl⟩ | ⟨y, hperm, hy⟩
  · exact hp
  · rw [hperm.pairwise_iff fun h => apartObjs_symm h, List.pairwise_cons]
    refine ⟨fun x hx hf hfx => hy.clear hf x hx (fun he => hno ?_) hfx, hp⟩
    exact mem_handles.mpr ⟨x, hx, he.symm.trans (hy.handle.trans hk)⟩

theorem Change.apart (h : Change P v u c r next objs next' objs')
    (hfresh : c.isSend = true → next ∉ handles objs) (hd : (handles objs).Nodup)
    (hp : objs.Pairwise ApartObjs) : objs'.Pairwise ApartObjs := by
  cases h with
  | same => exact hp
  | sent hc handle unused size filledTo content settled =>
    refine settled.apart handle ?_ (by rw [List.append_nil]; exact hp)
    rw [List.append_nil]
    exact hfresh (by rw [hc]; rfl)
  | filled hc found partly handle unused size filledTo content settled =>
    rw [found.split] at hp
    exact settled.apart (handle.trans found.handle) (found.nodup hd).1
      (pairwise_apart_remove hp)
  | failed hc found partly hr =>
    rw [found.split] at hp
    exact pairwise_apart_remove hp
  | retrieved hc hev found full =>
    rw [found.split] at hp
    exact pairwise_apart_replace hp rfl
  | viewed hc hns hev hr found full =>
    rw [found.split] at hp
    exact pairwise_apart_replace hp rfl
  | relinquished hc hev found used =>
    rw [found.split] at hp
    exact pairwise_apart_replace hp rfl
  | reclaimed hc hev found full unused =>
    rw [found.split] at hp
    exact pairwise_apart_remove hp

/-! ## Page alignment -/

def completedRanges (s : State) : Call → List (ℕ × ℕ)
  | .memSend false _ total n _ _ tx =>
    if n.toNat = total.toNat then regionRanges tx s.ns.ffaVersion else []
  | .memFragTx b low high n _ tx =>
    match (liveObjects s.store).find? fun o =>
      Mtd.handle o.desc == memHandle low.toNat high.toNat with
    | none => []
    | some o =>
      if o.descFilled + n.toNat = o.descSize then
        regionRanges (blit o.desc o.descFilled tx n.toNat) (s.endpoint b).ffaVersion
      else []
  | _ => []

def PageAligned (s : State) (c : Call) : Prop := ∀ r ∈ completedRanges s c, r.1 % 4096 = 0

def AlignedObj (o : Obj) : Prop :=
  o.descFilled = o.descSize → ∀ r ∈ regionRanges o.desc (makeFfaVersion 1 1), r.1 % 4096 = 0

theorem regionRanges_congr {d d' : Bytes} (h : Layout P v d n)
    (hl : ∀ a k, 16 ≤ a → a + k ≤ n → load d' a k = load d a k) :
    regionRanges d' v = regionRanges d v := by
  have hfirst := h.start.first_le
  have hbehind := h.behind
  have hsize := h.size_eq
  have hmul := Nat.mul_le_mul (Nat.pos_of_ne_zero h.start.emads) h.start.stride_ge
  have h32 : 32 ≤ firstEmad d v := by
    split at hfirst <;> omega
  have he : firstEmad d' v = firstEmad d v := by
    by_cases hv : v = makeFfaVersion 1 0
    · rw [firstEmad, firstEmad, if_pos hv, if_pos hv]
    · rw [if_neg hv] at hfirst
      rw [firstEmad_of_ne _ hv, firstEmad_of_ne _ hv]
      exact hl 32 4 (by omega) (by omega)
  have hc : compOffset d' v = compOffset d v := by
    rw [compOffset, compOffset, he]
    exact hl _ 4 (by omega) (by omega)
  have hcount : CompMrd.addressRangeCount d' (compOffset d v) =
      CompMrd.addressRangeCount d (compOffset d v) := hl _ 4 (by omega) (by omega)
  rw [regionRanges, regionRanges, hc, CompMrd.ranges, CompMrd.ranges, hcount]
  refine List.map_congr_left fun i hi => ?_
  have hi' := List.mem_range.mp hi
  exact Prod.ext (hl _ 8 (by omega) (by omega)) (hl _ 4 (by omega) (by omega))

theorem Settled.aligned {d : Bytes} (h : Settled P v u pre post o r objs')
    (hk : Mtd.handle o.desc = k) (hno : k ∉ handles (pre ++ post))
    (hd : o.descFilled = o.descSize → (∀ a k, 16 ≤ a → a + k ≤ o.descSize →
      load d a k = load o.desc a k) ∧ ∀ r ∈ regionRanges d u, r.1 % 4096 = 0)
    (hp : ∀ x ∈ pre ++ post, AlignedObj x) : ∀ x ∈ objs', AlignedObj x := by
  rcases h.stays hk hno with ⟨-, rfl⟩ | ⟨y, hperm, hy⟩
  · exact hp
  intro x hx
  rcases List.mem_cons.mp (hperm.mem_iff.mp hx) with rfl | hx
  · intro hf r hr
    obtain ⟨hwhole, w, layout, hu, ranges⟩ := hy.whole hf
    obtain ⟨hload, hal⟩ := hd hwhole
    rw [ranges, ← regionRanges_congr layout hload, hu] at hr
    exact hal r hr
  · exact hp x hx

theorem Change.aligned (h : Change P s.ns.ffaVersion (s.endpoint c.secureOrigin).ffaVersion c r next
      objs next' objs') (hlive : liveObjects s.store = objs) (hC : PageAligned s c)
    (hfresh : c.isSend = true → next ∉ handles objs) (hd : (handles objs).Nodup)
    (hp : ∀ x ∈ objs, AlignedObj x) : ∀ x ∈ objs', AlignedObj x := by
  cases h with
  | same => exact hp
  | @sent lend total address n pages tx o _ _ hc handle unused size filledTo content settled =>
    subst hc
    refine settled.aligned (d := tx) handle ?_ (fun hf => ⟨fun a k ha hk => ?_, ?_⟩)
      (by rw [List.append_nil]; exact hp)
    · rw [List.append_nil]
      exact hfresh rfl
    · exact (content a k ha (by omega)).symm
    · rw [PageAligned, completedRanges, if_pos (by omega)] at hC
      exact hC
  | @filled b low high n sender tx pre post x o _ hc found partly handle unused size filledTo content
      settled =>
    subst hc
    have hp' := hp
    rw [found.split] at hp'
    refine settled.aligned (d := blit x.desc x.descFilled tx n.toNat)
      (handle.trans found.handle) (found.nodup hd).1
      (fun hf => ⟨fun a k ha hk => (content a k ha).symm, ?_⟩) (forall_mem_remove hp')
    rw [PageAligned, completedRanges, hlive, found.find_eq] at hC
    simp only at hC
    rw [if_pos (by omega)] at hC
    exact hC
  | failed hc found partly hr =>
    rw [found.split] at hp
    exact forall_mem_remove hp
  | retrieved hc hev found full =>
    have ho := hp _ found.mem
    rw [found.split] at hp
    exact forall_mem_replace hp ho
  | viewed hc hns hev hr found full =>
    have ho := hp _ found.mem
    rw [found.split] at hp
    exact forall_mem_replace hp ho
  | relinquished hc hev found used =>
    have ho := hp _ found.mem
    rw [found.split] at hp
    exact forall_mem_replace hp ho
  | reclaimed hc hev found full unused =>
    rw [found.split] at hp
    exact forall_mem_remove hp

/-! ## Pages -/

/-- The pages that the bytes of a range lie on. -/
def rangePages (r : ℕ × ℕ) : Set ℕ := {p | ∃ a, r.1 ≤ a ∧ a < r.1 + r.2 * 4096 ∧ a / 4096 = p}

def objPages (o : Obj) : Set ℕ :=
  {p | ∃ r ∈ regionRanges o.desc (makeFfaVersion 1 1), p ∈ rangePages r}

theorem rangePages_disjoint {r1 r2 : ℕ × ℕ} (h : Apart r1 r2) (h1 : r1.1 % 4096 = 0)
    (h2 : r2.1 % 4096 = 0) : Disjoint (rangePages r1) (rangePages r2) := by
  rw [Set.disjoint_left]
  rintro p ⟨a, ha1, ha2, ha⟩ ⟨b, hb1, hb2, hb⟩
  obtain ⟨_, _, h⟩ := h
  omega

theorem objPages_disjoint {x y : Obj} (h : ApartObjs x y) (hx : AlignedObj x) (hy : AlignedObj y)
    (hfx : x.descFilled = x.descSize) (hfy : y.descFilled = y.descSize) :
    Disjoint (objPages x) (objPages y) := by
  rw [Set.disjoint_left]
  rintro p ⟨r1, hr1, hp1⟩ ⟨r2, hr2, hp2⟩
  exact Set.disjoint_left.mp
    (rangePages_disjoint (h hfx hfy r1 hr1 r2 hr2) (hx hfx r1 hr1) (hy hfy r2 hr2)) hp1 hp2

/-- Two complete objects describe disjoint pages, if all constituents are page aligned and no
send takes the handle of a live object. -/
theorem pages_exclusive {b : Boot} {t : List (Call × Reply)}
    (hrun : RunWhen P (fun s c => PageAligned s c ∧ FreshHandle s c) b.state t s) :
    (liveObjects s.store).Pairwise fun x y =>
      x.descFilled = x.descSize → y.descFilled = y.descSize → Disjoint (objPages x) (objPages y) := by
  obtain ⟨objs, hinv, -, -, hap, hal⟩ := @RunWhen.objects (fun _ => True) P s _ b t
    (fun _ _ objs => (handles objs).Nodup ∧ objs.Pairwise ApartObjs ∧ ∀ x ∈ objs, AlignedObj x) hrun
    (fun _ _ => trivial) (fun _ _ _ _ _ _ _ _ => trivial)
    ⟨List.nodup_nil, List.Pairwise.nil, fun x hx => absurd hx List.not_mem_nil⟩ (by
      intro t s objs c r s' objs' hC hinv _ ⟨hd, hap, hal⟩ hchange
      have hlive := hinv.stored.liveObjects_eq
      have hfresh : c.isSend = true → s.store.nextHandle ∉ handles objs := by
        have h := hC.2
        rw [FreshHandle, hlive] at h
        exact h
      exact ⟨hchange.nodup hfresh hd, hchange.apart hfresh hd hap,
        hchange.aligned hlive hC.1 hfresh hd hal⟩)
  rw [hinv.stored.liveObjects_eq]
  refine hap.imp_of_mem fun hx hy h hfx hfy => ?_
  exact objPages_disjoint h (hal _ hx) (hal _ hy) hfx hfy

instance (s : State) (c : Call) : Decidable (PageAligned s c) := by
  unfold PageAligned
  infer_instance

theorem pages_exclusive_two : ∃ t s, RunWhen onePartition (fun s c => PageAligned s c ∧ FreshHandle s c)
    (bootV11 256 (by decide)).state t s ∧
    ((liveObjects s.store).map fun o => (o.descFilled == o.descSize,
      regionRanges o.desc (makeFfaVersion 1 1))) = [(true, [(0x1000, 1)]), (true, [(0x2000, 1)])] ∧
    (liveObjects s.store).Pairwise fun x y =>
      x.descFilled = x.descSize → y.descFilled = y.descSize → Disjoint (objPages x) (objPages y) := by
  obtain ⟨t, s, hrun, hq⟩ := @executeWhen_run onePartition
    (fun s c => decide (PageAligned s c ∧ FreshHandle s c)) _
    (fun _ s => decide (((liveObjects s.store).map fun o => (o.descFilled == o.descSize,
      regionRanges o.desc (makeFfaVersion 1 1))) = [(true, [(0x1000, 1)]), (true, [(0x2000, 1)])]))
    (bootV11 256 (by decide)).state
    (setUp 0x10001 ++ [.memSend false false 96 96 0 0 (descriptorV11 0 [0x8001] [(0x1000, 1)]),
      .memSend false false 96 96 0 0 (descriptorV11 0 [0x8001] [(0x2000, 1)])])
    (by decide +kernel) (fun _ _ h => of_decide_eq_true h)
  exact ⟨t, s, hrun, of_decide_eq_true hq, pages_exclusive hrun⟩

/-- The ranges at 0x1800 and 0x2800 share the page at 0x2000, and both are accepted. -/
theorem unaligned_ranges_share_page : ∃ t s, Run onePartition (bootV11 256 (by decide)).state t s ∧
    ∃ x y, liveObjects s.store = [x, y] ∧ x.descFilled = x.descSize ∧ y.descFilled = y.descSize ∧
      ¬ Disjoint (objPages x) (objPages y) := by
  obtain ⟨t, s, hrun, hq⟩ := @execute_run onePartition
    (fun _ s => decide (((liveObjects s.store).map fun o => (o.descFilled == o.descSize,
      regionRanges o.desc (makeFfaVersion 1 1))) = [(true, [(0x1800, 1)]), (true, [(0x2800, 1)])]))
    (bootV11 256 (by decide)).state
    (setUp 0x10001 ++ [.memSend false false 96 96 0 0 (descriptorV11 0 [0x8001] [(0x1800, 1)]),
      .memSend false false 96 96 0 0 (descriptorV11 0 [0x8001] [(0x2800, 1)])])
    (by decide +kernel)
  have hq' := of_decide_eq_true hq
  refine ⟨t, s, hrun, ?_⟩
  rcases hl : liveObjects s.store with _ | ⟨x, _ | ⟨y, _ | ⟨z, l⟩⟩⟩
  · simp [hl] at hq'
  · simp [hl] at hq'
  · simp only [hl, List.map_cons, List.map_nil, List.cons.injEq, Prod.mk.injEq, beq_iff_eq,
      and_true] at hq'
    obtain ⟨⟨hfx, hrx⟩, hfy, hry⟩ := hq'
    refine ⟨x, y, rfl, hfx, hfy, fun hdis => ?_⟩
    rw [Set.disjoint_left] at hdis
    refine hdis (a := 2) ⟨(0x1800, 1), ?_, 0x2000, ?_⟩ ⟨(0x2800, 1), ?_, 0x2800, ?_⟩
    · rw [hrx]
      exact List.mem_cons_self
    · decide
    · rw [hry]
      exact List.mem_cons_self
    · decide
  · simp [hl] at hq'

end TrustedFirmware.Spmc
