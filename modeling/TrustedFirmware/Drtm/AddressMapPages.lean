import Mathlib.Data.List.Chain
import TrustedFirmware.Drtm.AddressMap

/-! # The pages of the address map

Coalescing in place is a fold over the sorted entries that pushes each one on those kept so far or adds
its pages to the last of them. The fold keeps the pages with their kinds, the order and the disjointness,
and leaves no two neighbours that could be merged. -/
namespace TrustedFirmware.Drtm.AddressMap
set_option autoImplicit false

/-! ## In place and as a fold -/

def push : List MemRegion → MemRegion → List MemRegion
  | [], c => [c]
  | p :: kept, c => if canCoalesce p c then coalesced p c :: kept else c :: p :: kept

theorem map_update_range {f : ℕ → MemRegion} {n k : ℕ} {v : MemRegion} (h : n ≤ k) :
    (List.range n).map (Function.update f k v) = (List.range n).map f := by
  apply List.map_congr_left
  intro i hi
  have hlt := List.mem_range.mp hi
  have hne : i ≠ k := by omega
  exact Function.update_of_ne hne v f

theorem map_range_succ {f : ℕ → MemRegion} {n : ℕ} {kept : List MemRegion} {p : MemRegion} :
    (List.range (n + 1)).map f = (p :: kept).reverse ↔
      (List.range n).map f = kept.reverse ∧ f n = p := by
  rw [List.range_succ, List.map_append, List.reverse_cons, List.map_singleton]
  exact List.append_singleton_inj

/-- The entries in front of the write index are those kept, and the array is as it was from the read
index on. -/
theorem coalesceFrom_fold {rest kept : List MemRegion} {r : ℕ} {region : ℕ → MemRegion}
    (hr : kept.length ≤ r) (hkept : (List.range kept.length).map region = kept.reverse)
    (hrest : ∀ i < rest.length, region (r + i) = rest.getD i ⟨0, 0⟩) :
    (List.range (coalesceFrom rest.length r kept.length region).2).map
      (coalesceFrom rest.length r kept.length region).1 = (rest.foldl push kept).reverse := by
  induction rest generalizing kept r region with
  | nil => exact hkept
  | cons c cs ih =>
    have hc : region r = c := hrest 0 (by simp)
    have hcs : ∀ i < cs.length, region (r + 1 + i) = cs.getD i ⟨0, 0⟩ := by
      intro i hi
      have hnext := hrest (i + 1) (by simpa using hi)
      rwa [← Nat.add_assoc, Nat.add_right_comm] at hnext
    -- Writing in front of the next read index leaves what is still to be read.
    have hafter {k : ℕ} {v : MemRegion} (hk : k ≤ r) :
        ∀ i < cs.length, Function.update region k v (r + 1 + i) = cs.getD i ⟨0, 0⟩ := by
      intro i hi
      rw [Function.update_of_ne (by omega), hcs i hi]
    rw [List.length_cons, List.foldl_cons, coalesceFrom, hc]
    generalize hnext : (if kept.length ≠ r then Function.update region kept.length c else region) = next
    have hkept' : (List.range (kept.length + 1)).map next = (c :: kept).reverse := by
      rw [map_range_succ, ← hnext]
      split
      · exact ⟨(map_update_range le_rfl).trans hkept, Function.update_self ..⟩
      · next heq => exact ⟨hkept, by rw [not_not.mp heq, hc]⟩
    have hrest' : ∀ i < cs.length, next (r + 1 + i) = cs.getD i ⟨0, 0⟩ := by
      rw [← hnext]
      split
      · exact hafter hr
      · exact hcs
    have hkeep := @ih (c :: kept) (r + 1) next (Nat.succ_le_succ hr) hkept' hrest'
    cases kept with
    | nil => exact hkeep
    | cons p kept =>
      obtain ⟨hinit, hp⟩ := map_range_succ.mp hkept
      simp only [List.length_cons, Nat.add_sub_cancel, hp, ne_eq, Nat.add_one_ne_zero, not_false_eq_true,
        true_and, push]
      by_cases hcan : canCoalesce p c = true
      · rw [if_pos hcan, if_pos hcan]
        refine @ih (coalesced p c :: kept) (r + 1) _ ?_ ?_ ?_
        · rw [List.length_cons] at hr ⊢
          omega
        · rw [List.length_cons, map_range_succ]
          exact ⟨(map_update_range le_rfl).trans hinit, Function.update_self ..⟩
        · exact hafter (by rw [List.length_cons] at hr; omega)
      · rw [if_neg hcan, if_neg hcan]
        exact hkeep

/-! ## What the fold keeps -/

def Covers (rs : List MemRegion) (n k : ℕ) : Prop := ∃ r ∈ rs, r.Has n ∧ r.kind = k

/-- The entries `kept`, the last one first, stand for those of `seen`. -/
structure Kept (kept seen : List MemRegion) : Prop where
  covers : ∀ n k, Covers kept n k ↔ Covers seen n k
  whole : ∀ r ∈ kept, r.Whole
  address : ∀ r ∈ kept, ∃ q ∈ seen, r.regionAddress = q.regionAddress
  sorted : kept.Pairwise fun c p => p.regionAddress ≤ c.regionAddress
  disjoint : kept.Pairwise fun c p => ∀ n, ¬ (c.Has n ∧ p.Has n)
  apart : kept.IsChain fun c p => ¬ Mergeable p c

/-- An entry that may follow: it is behind those seen and has no page of theirs. -/
structure Follows (seen : List MemRegion) (c : MemRegion) : Prop where
  whole : c.Whole
  sorted : ∀ r ∈ seen, r.regionAddress ≤ c.regionAddress
  disjoint : ∀ r ∈ seen, ∀ n, ¬ (c.Has n ∧ r.Has n)

section

variable {kept seen : List MemRegion} {c p : MemRegion}

theorem Kept.behind (h : Kept kept seen) (hc : Follows seen c) {r : MemRegion} (hr : r ∈ kept) :
    r.regionAddress ≤ c.regionAddress := by
  obtain ⟨q, hq, heq⟩ := h.address r hr
  rw [heq]
  exact hc.sorted q hq

theorem Kept.no_page (h : Kept kept seen) (hc : Follows seen c) {r : MemRegion} (hr : r ∈ kept) (n : ℕ) :
    ¬ (c.Has n ∧ r.Has n) := by
  rintro ⟨hcn, hrn⟩
  obtain ⟨q, hq, hqn, -⟩ := (h.covers n r.kind).mp ⟨r, hr, hrn, rfl⟩
  exact hc.disjoint q hq n ⟨hcn, hqn⟩

theorem covers_append (n k : ℕ) : Covers (seen ++ [c]) n k ↔ Covers seen n k ∨ (c.Has n ∧ c.kind = k) := by
  simp [Covers, or_and_right, exists_or]

theorem covers_cons (n k : ℕ) : Covers (c :: kept) n k ↔ (c.Has n ∧ c.kind = k) ∨ Covers kept n k := by
  simp [Covers]

theorem Kept.append (h : Kept kept seen) (hc : Follows seen c)
    (hhead : ∀ p ∈ kept.head?, ¬ Mergeable p c) : Kept (c :: kept) (seen ++ [c]) where
  covers n k := by rw [covers_cons, covers_append, h.covers, or_comm]
  whole := List.forall_mem_cons.mpr ⟨hc.whole, h.whole⟩
  address := by
    refine List.forall_mem_cons.mpr ⟨⟨c, by simp, rfl⟩, fun r hr => ?_⟩
    obtain ⟨q, hq, heq⟩ := h.address r hr
    exact ⟨q, List.mem_append_left _ hq, heq⟩
  sorted := List.pairwise_cons.mpr ⟨fun r hr => h.behind hc hr, h.sorted⟩
  disjoint := List.pairwise_cons.mpr ⟨fun r hr => h.no_page hc hr, h.disjoint⟩
  apart := by
    cases kept with
    | nil => exact .singleton c
    | cons p kept => exact List.isChain_cons_cons.mpr ⟨hhead p rfl, h.apart⟩

theorem Mergeable.of_coalesced {q : MemRegion} (hm : Mergeable p c) (h : Mergeable q (coalesced p c)) :
    Mergeable q p := by
  obtain ⟨hend, hkind, hpages⟩ := h
  rw [coalesced_kind] at hkind
  rw [coalesced_pages hm] at hpages
  exact ⟨hend, hkind, by omega⟩

theorem Kept.merge (h : Kept (p :: kept) seen) (hc : Follows seen c) (hm : Mergeable p c) :
    Kept (coalesced p c :: kept) (seen ++ [c]) := by
  obtain ⟨hp, hkept⟩ := List.forall_mem_cons.mp h.whole
  have hdisjoint := List.pairwise_cons.mp h.disjoint
  refine ⟨fun n k => ?_, ?_, ?_, ?_, ?_, ?_⟩
  · have hcovers := h.covers n k
    rw [covers_cons] at hcovers
    rw [covers_cons, covers_append, ← hcovers, coalesced_has hm hp, coalesced_kind, ← hm.2.1]
    tauto
  · refine List.forall_mem_cons.mpr ⟨⟨hp.aligned, ?_⟩, hkept⟩
    have hbound := hc.whole.bound
    have hend := hm.1
    have haddress : (coalesced p c).regionAddress = p.regionAddress := rfl
    rw [coalesced_pages hm, haddress]
    omega
  · intro r hr
    have hmem : ∃ q ∈ p :: kept, r.regionAddress = q.regionAddress := by
      rcases List.mem_cons.mp hr with rfl | hr
      · exact ⟨p, by simp, rfl⟩
      · exact ⟨r, by simp [hr], rfl⟩
    obtain ⟨q, hq, heq⟩ := hmem
    obtain ⟨q', hq', heq'⟩ := h.address q hq
    exact ⟨q', List.mem_append_left _ hq', heq.trans heq'⟩
  · exact List.pairwise_cons.mpr (List.pairwise_cons.mp h.sorted)
  · refine List.pairwise_cons.mpr ⟨fun r hr n hn => ?_, hdisjoint.2⟩
    rcases (coalesced_has hm hp).mp hn.1 with hpn | hcn
    · exact hdisjoint.1 r hr n ⟨hpn, hn.2⟩
    · exact h.no_page hc (List.mem_cons_of_mem p hr) n ⟨hcn, hn.2⟩
  · cases kept with
    | nil => exact .singleton _
    | cons q kept =>
      obtain ⟨hq, hrest⟩ := List.isChain_cons_cons.mp h.apart
      exact List.isChain_cons_cons.mpr ⟨fun hmerge => hq (hm.of_coalesced hmerge), hrest⟩

theorem Kept.push (h : Kept kept seen) (hc : Follows seen c) : Kept (push kept c) (seen ++ [c]) := by
  cases kept with
  | nil => exact h.append hc nofun
  | cons p kept =>
    rw [AddressMap.push]
    split
    · next hcan => exact h.merge hc (canCoalesce_iff.mp hcan)
    · next hcan =>
      refine h.append hc fun q hq => ?_
      cases hq
      exact mt canCoalesce_iff.mpr hcan

end

structure Sorted (rs : List MemRegion) : Prop where
  whole : ∀ r ∈ rs, r.Whole
  sorted : rs.Pairwise fun p c => p.regionAddress ≤ c.regionAddress
  disjoint : rs.Pairwise fun p c => ∀ n, ¬ (c.Has n ∧ p.Has n)

theorem kept_foldl {rest kept seen : List MemRegion} (h : Kept kept seen) (hs : Sorted (seen ++ rest)) :
    Kept (rest.foldl push kept) (seen ++ rest) := by
  induction rest generalizing kept seen with
  | nil =>
    rw [List.append_nil]
    exact h
  | cons c rest ih =>
    have hsplit : seen ++ c :: rest = seen ++ [c] ++ rest := by simp
    have hc : Follows seen c := by
      refine ⟨hs.whole c (by simp), ?_, ?_⟩
      · exact fun r hr => (List.pairwise_append.mp hs.sorted).2.2 r hr c List.mem_cons_self
      · exact fun r hr => (List.pairwise_append.mp hs.disjoint).2.2 r hr c List.mem_cons_self
    rw [hsplit, List.foldl_cons]
    exact ih (h.push hc) (hsplit ▸ hs)

/-! ## The table -/

/-- `qsort()` with `compare_regions()`, of which no more is asked. -/
structure Sorts (qsort : List MemRegion → List MemRegion) : Prop where
  perm : ∀ l, (qsort l).Perm l
  sorted : ∀ l, (qsort l).Pairwise fun p c => p.regionAddress ≤ c.regionAddress

structure WellFormed (rs : List MmapRegion) : Prop where
  valid : ∀ m ∈ rs, m.Valid
  disjoint : rs.Pairwise fun m m' => ∀ n, ¬ (m'.Has n ∧ m.Has n)

/-- The table describes the regions page by page; it is sorted, without overlap, and no two neighbours
could be merged. -/
structure Describes (rs : List MmapRegion) (table : List MemRegion) : Prop where
  pages : ∀ n k, Covers table n k ↔ ∃ m ∈ rs, m.Has n ∧ m.kind = k
  sorted : table.Pairwise fun p c => p.regionAddress ≤ c.regionAddress
  disjoint : table.Pairwise fun p c => ∀ n, ¬ (c.Has n ∧ p.Has n)
  apart : table.IsChain fun p c => ¬ Mergeable p c

/-- The regions that are converted: those in front of the first one at address 0. -/
def taken (rs : List MmapRegion) : List MmapRegion := rs.takeWhile (·.basePa != 0)
def dropped (rs : List MmapRegion) : List MmapRegion := rs.dropWhile (·.basePa != 0)

def entry (m : MmapRegion) : MemRegion := (convert m).getD ⟨0, 0⟩

theorem convert_entry {m : MmapRegion} (h : m.Valid) : convert m = some (entry m) := by
  obtain ⟨r, hr, -⟩ := convert_eq h
  rw [entry, hr, Option.getD_some]

theorem entry_eq {m : MmapRegion} (h : m.Valid) : (entry m).regionAddress = m.basePa ∧
    (entry m).pages = m.size.toNat / 4096 ∧ (entry m).kind = m.kind := by
  obtain ⟨r, hr, heq⟩ := convert_eq h
  rw [entry, hr, Option.getD_some]
  exact heq

theorem entry_has {m : MmapRegion} (h : m.Valid) {n : ℕ} : (entry m).Has n ↔ m.Has n := by
  rw [MemRegion.Has, (entry_eq h).1, (entry_eq h).2.1]
  rfl

theorem convertAll_eq {rs : List MmapRegion} {z : MmapRegion} (hz : z.basePa = 0)
    (h : ∀ m ∈ rs, m.Valid) : convertAll (rs ++ [z]) = some ((taken rs).map entry) := by
  induction rs with
  | nil => simp [convertAll, hz, taken]
  | cons m rs ih =>
    obtain ⟨hm, hrs⟩ := List.forall_mem_cons.mp h
    rw [List.cons_append, convertAll, taken, List.takeWhile_cons]
    by_cases hzero : m.basePa = 0
    · simp [hzero]
    · rw [if_neg hzero, convert_entry hm, ih hrs]
      simp [hzero, taken]

section

variable {rs : List MmapRegion} {qsort : List MemRegion → List MemRegion}

theorem taken_append_dropped (rs : List MmapRegion) : taken rs ++ dropped rs = rs :=
  List.takeWhile_append_dropWhile

theorem WellFormed.sorted (h : WellFormed rs) (hq : Sorts qsort) : Sorted (qsort (rs.map entry)) where
  sorted := hq.sorted _
  whole := by
    intro r hr
    obtain ⟨m, hm, rfl⟩ := List.mem_map.mp ((hq.perm _).mem_iff.mp hr)
    have hvalid := h.valid m hm
    have hsize := hvalid.size_aligned
    have hbound := hvalid.bound
    obtain ⟨haddress, hpages, -⟩ := entry_eq hvalid
    refine ⟨?_, ?_⟩
    · rw [haddress]
      exact hvalid.base_aligned
    · rw [haddress, hpages]
      omega
  disjoint := by
    refine ((hq.perm _).pairwise_iff fun hpc n hn => hpc n hn.symm).mpr ?_
    rw [List.pairwise_map]
    refine h.disjoint.imp_of_mem fun hm hm' hdisjoint n hn => ?_
    rw [entry_has (h.valid _ hm), entry_has (h.valid _ hm')] at hn
    exact hdisjoint n hn

theorem build_describes (h : WellFormed rs) (hq : Sorts qsort) :
    ∃ table, drtmBuildAddressMap qsort (rs ++ [⟨0, 0, 0⟩]) = some table ∧ Describes (taken rs) table := by
  have htaken : WellFormed (taken rs) :=
    ⟨fun m hm => h.valid m ((List.takeWhile_subset _) hm), h.disjoint.sublist (List.takeWhile_sublist _)⟩
  have hsorted := htaken.sorted hq
  have hkept : Kept ((qsort ((taken rs).map entry)).foldl push []) (qsort ((taken rs).map entry)) :=
    @kept_foldl _ [] [] ⟨fun _ _ => Iff.rfl, nofun, nofun, .nil, .nil, .nil⟩ hsorted
  refine ⟨((qsort ((taken rs).map entry)).foldl push []).reverse, ?_, ?_, ?_, ?_, ?_⟩
  · have hfold := @coalesceFrom_fold (qsort ((taken rs).map entry)) [] 0
      (fun i => (qsort ((taken rs).map entry)).getD i ⟨0, 0⟩) le_rfl rfl
      fun i _ => by rw [Nat.zero_add]
    rw [drtmBuildAddressMap, convertAll_eq rfl h.valid]
    exact congrArg some hfold
  · intro n k
    have hcovers := hkept.covers n k
    simp only [Covers, List.mem_reverse, (hq.perm _).mem_iff, List.mem_map] at hcovers ⊢
    rw [hcovers]
    constructor
    · rintro ⟨r, ⟨m, hm, rfl⟩, hn, rfl⟩
      have hvalid := htaken.valid m hm
      exact ⟨m, hm, (entry_has hvalid).mp hn, (entry_eq hvalid).2.2.symm⟩
    · rintro ⟨m, hm, hn, rfl⟩
      have hvalid := htaken.valid m hm
      exact ⟨entry m, ⟨m, hm, rfl⟩, (entry_has hvalid).mpr hn, (entry_eq hvalid).2.2⟩
  · exact List.pairwise_reverse.mpr hkept.sorted
  · exact List.pairwise_reverse.mpr hkept.disjoint
  · exact List.isChain_reverse.mpr hkept.apart

theorem has_base {m : MmapRegion} (h : m.Valid) (hsize : m.size ≠ 0) : m.Has (m.basePa.toNat / 4096) := by
  have hne : m.size.toNat ≠ 0 := fun h0 => hsize (UInt64.toNat_inj.mp h0)
  have haligned := h.size_aligned
  exact ⟨le_rfl, by omega⟩

end

theorem address_map_iff (qsort : List MemRegion → List MemRegion) (hq : Sorts qsort)
    (rs : List MmapRegion) (hrs : WellFormed rs) :
    (∃ table, drtmBuildAddressMap qsort (rs ++ [⟨0, 0, 0⟩]) = some table ∧ Describes rs table) ↔
      ∀ m ∈ dropped rs, m.size = 0 := by
  obtain ⟨table, htable, hd⟩ := build_describes hrs hq
  have hsplit := hrs.disjoint
  rw [← taken_append_dropped rs] at hsplit
  constructor
  · rintro ⟨table', htable', hd'⟩ m hm
    obtain rfl := Option.some.inj (htable.symm.trans htable')
    have hmem : m ∈ rs := (List.dropWhile_subset _) hm
    by_contra hsize
    have hbase := has_base (hrs.valid m hmem) hsize
    -- The first page of a dropped region would be one of a region that was taken.
    obtain ⟨m', hm', hn, -⟩ := (hd.pages _ _).mp ((hd'.pages _ m.kind).mpr ⟨m, hmem, hbase, rfl⟩)
    exact (List.pairwise_append.mp hsplit).2.2 m' hm' m hm _ ⟨hbase, hn⟩
  · intro hempty
    refine ⟨table, htable, fun n k => ?_, hd.sorted, hd.disjoint, hd.apart⟩
    rw [hd.pages]
    constructor
    · rintro ⟨m, hm, hn⟩
      exact ⟨m, (List.takeWhile_subset _) hm, hn⟩
    · rintro ⟨m, hm, hn⟩
      rw [← taken_append_dropped rs, List.mem_append] at hm
      rcases hm with hm | hm
      · exact ⟨m, hm, hn⟩
      · have hnone := hn.1
        rw [MmapRegion.Has, hempty m hm] at hnone
        have h0 : UInt64.toNat 0 = 0 := rfl
        omega

def sortByAddress (l : List MemRegion) : List MemRegion :=
  l.mergeSort fun p c => p.regionAddress ≤ c.regionAddress

theorem sorts_sortByAddress : Sorts sortByAddress where
  perm l := List.mergeSort_perm l _
  sorted l := by
    have hsorted := @List.pairwise_mergeSort MemRegion (fun p c => decide (p.regionAddress ≤ c.regionAddress))
      (fun a b c hab hbc => by simp only [decide_eq_true_eq] at *; exact UInt64.le_trans hab hbc)
      (fun a b => by simp only [Bool.or_eq_true, decide_eq_true_eq]; exact UInt64.le_total _ _) l
    exact hsorted.imp fun h => of_decide_eq_true h

def twoPages : List MmapRegion := [⟨0x2000, 0x1000, MT_DEVICE⟩, ⟨0x1000, 0x1000, MT_DEVICE⟩]

theorem address_map_twoPages :
    ∃ table, drtmBuildAddressMap sortByAddress (twoPages ++ [⟨0, 0, 0⟩]) = some table ∧
      Describes twoPages table := by
  refine (address_map_iff sortByAddress sorts_sortByAddress twoPages ⟨?_, ?_⟩).mpr (by decide)
  · simp only [twoPages, List.forall_mem_cons]
    exact ⟨⟨by decide, by decide, by decide, .inl rfl⟩, ⟨by decide, by decide, by decide, .inl rfl⟩, nofun⟩
  · refine List.pairwise_pair.mpr fun n hn => ?_
    have hlow : n < 2 := hn.1.2
    have hhigh : 2 ≤ n := hn.2.1
    omega

/-- A page of memory at address 0 ends the list: the table is empty. -/
theorem address_zero_lost : ¬ ∃ table, drtmBuildAddressMap sortByAddress
    ([⟨0, 0x1000, MT_MEMORY⟩] ++ [⟨0, 0, 0⟩]) = some table ∧ Describes [⟨0, 0x1000, MT_MEMORY⟩] table := by
  rintro ⟨table, htable, hd⟩
  have hempty : drtmBuildAddressMap sortByAddress ([⟨0, 0x1000, MT_MEMORY⟩] ++ [⟨0, 0, 0⟩]) = some [] := by
    decide +kernel
  obtain rfl := Option.some.inj (hempty.symm.trans htable)
  have hpage := (hd.pages 0 0).mpr ⟨_, List.mem_singleton_self _, by unfold MmapRegion.Has; decide, by decide⟩
  simp [Covers] at hpage

end TrustedFirmware.Drtm.AddressMap
