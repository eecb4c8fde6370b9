import Mathlib.Data.Finset.Card
import TrustedFirmware.Qti.AccessControl

/-! # What a memory assignment does to the tables of the MPUs

Each MPU of a device goes through the same updates, one for each region of the request, and the MPUs
of the other devices are not touched. So the effect of a request is told MPU by MPU: the ranges that an
MPU holds, and the RGs that give access. -/
namespace TrustedFirmware.Qti
open SlotTable
set_option autoImplicit false

/-! ## One update of one MPU -/

theorem Rg.range_of_free {rg : Rg} (h : rg.free = true) :
    rg.range = (XPU_INVALID_ADDR, XPU_INVALID_ADDR) := by
  rw [Rg.free, Bool.and_eq_true, Bool.and_eq_true, beq_iff_eq, beq_iff_eq, beq_iff_eq] at h
  exact Prod.ext h.1.2 h.2

/-- A range that is not the one of the unused RGs. -/
def Proper (range : Range) : Prop := range.1 ≠ XPU_INVALID_ADDR

theorem Rg.free_eq_false {rg : Rg} (h : Proper rg.range) : rg.free = false := by
  cases hf : rg.free with
  | false => rfl
  | true => exact absurd (congrArg Prod.fst (Rg.range_of_free hf)) h

inductive Update (domain : DomainType) (range : Range) (permR permW : UInt32) (mpu : List Rg) :
    List Rg → Prop
  | freed {pre post : List Rg} {rg : Rg} (split : mpu = pre ++ rg :: post) (hrange : rg.range = range)
      (hdomain : domain = .APPS_NS_DOMAIN) :
      Update domain range permR permW mpu
        (pre ++ ⟨(XPU_INVALID_ADDR, XPU_INVALID_ADDR), .NO_DOMAIN, permR, permW⟩ :: post)
  | rewritten {pre post : List Rg} {rg : Rg} (split : mpu = pre ++ rg :: post)
      (hrange : rg.range = range) (hdomain : domain ≠ .APPS_NS_DOMAIN) :
      Update domain range permR permW mpu (pre ++ ⟨range, domain, permR, permW⟩ :: post)
  | taken {pre post : List Rg} {rg : Rg} (split : mpu = pre ++ rg :: post) (hfree : rg.free = true)
      (hnew : ∀ x ∈ mpu, x.range ≠ range) :
      Update domain range permR permW mpu (pre ++ ⟨range, domain, permR, permW⟩ :: post)

variable {domain : DomainType} {range : Range} {permR permW : UInt32} {mpu mpu' : List Rg}

variable {rg : Rg} {t : Target} {mem : List Mem} {pre post : List Rg}

theorem updateMasterSideMpu_some (h : updateMasterSideMpu domain range permR permW mpu = some mpu') :
    Update domain range permR permW mpu mpu' := by
  have hfound := search_found (fun rg : Rg => rg.range == range) Rg.free mpu 0
  rw [updateMasterSideMpu] at h
  generalize search (fun rg : Rg => rg.range == range) Rg.free mpu 0 none = r at hfound h
  cases hfound with
  | none => cases h
  | @hit pre post rg hsplit hrg =>
    subst hsplit
    have hrange : rg.range = range := beq_iff_eq.mp hrg
    by_cases hd : domain = .APPS_NS_DOMAIN
    · simp only [hd, beq_self_eq_true, Bool.and_self, if_true, Option.some.injEq, set_split] at h
      subst h
      exact .freed rfl hrange hd
    · simp only [beq_eq_false_iff_ne.mpr hd, Bool.and_false, Bool.false_eq_true, if_false,
        Option.some.injEq, set_split] at h
      subst h
      exact .rewritten rfl hrange hd
  | @free pre post rg hsplit hrg hmiss =>
    subst hsplit
    simp only [Bool.false_and, Bool.false_eq_true, if_false, Option.some.injEq, set_split] at h
    subst h
    exact .taken rfl hrg fun x hx => beq_eq_false_iff_ne.mp (hmiss x hx)

theorem updateMasterSideMpu_none (h : updateMasterSideMpu domain range permR permW mpu = none) :
    (∀ x ∈ mpu, x.range ≠ range) ∧ ∀ x ∈ mpu, x.free = false := by
  have hfound := search_found (fun rg : Rg => rg.range == range) Rg.free mpu 0
  rw [updateMasterSideMpu] at h
  generalize search (fun rg : Rg => rg.range == range) Rg.free mpu 0 none = r at hfound h
  cases hfound with
  | none hmiss hfull => exact ⟨fun x hx => beq_eq_false_iff_ne.mp (hmiss x hx), hfull⟩
  | hit _ _ =>
    dsimp only at h
    split at h <;> cases h
  | free _ _ _ => cases h

/-! ## All regions of a request on one MPU -/

def updateAll (t : Target) : List Mem → List Rg → Option (List Rg)
  | [], mpu => some mpu
  | m :: mem, mpu =>
    (updateMasterSideMpu t.domain m.range t.readPermDomain.bits t.writePermDomain.bits mpu).bind
      (updateAll t mem)

theorem updateAll_cons {m : Mem} (h : updateAll t (m :: mem) mpu = some mpu') :
    ∃ mid, Update t.domain m.range t.readPermDomain.bits t.writePermDomain.bits mpu mid ∧
      updateAll t mem mid = some mpu' := by
  obtain ⟨mid, hmid, hrest⟩ := Option.bind_eq_some_iff.mp h
  exact ⟨mid, updateMasterSideMpu_some hmid, hrest⟩

/-- **The rule for a request on one MPU.** What each update keeps is kept by all of them. -/
theorem updateAll_invariant {I : List Rg → Prop} (h : updateAll t mem mpu = some mpu') (h0 : I mpu)
    (hstep : ∀ m ∈ mem, ∀ u v, I u →
      Update t.domain m.range t.readPermDomain.bits t.writePermDomain.bits u v → I v) :
    I mpu' := by
  induction mem generalizing mpu with
  | nil =>
    simp only [updateAll, Option.some.injEq] at h
    exact h ▸ h0
  | cons m mem ih =>
    obtain ⟨mid, hmid, hrest⟩ := updateAll_cons h
    have hI : I mid := hstep m (List.mem_cons_self ..) mpu mid h0 hmid
    exact ih hrest hI fun m' hm' => hstep m' (List.mem_cons_of_mem _ hm')

/-! ## The MPUs of a device -/

def mpusOf (device : DeviceType) : List MpuRanges → List (List Rg)
  | [] => []
  | r :: ranges => if r.device = device then r.mpus else mpusOf device ranges

theorem mpusOf_none (ranges : List MpuRanges) : mpusOf .none ranges = [] := by
  induction ranges with
  | nil => rfl
  | cons r ranges ih => rw [mpusOf, if_neg r.named, ih]

theorem mpusOf_init (device : DeviceType) (board : List MpuRanges) :
    mpusOf device (xpuMasterMpuInit board) = (mpusOf device board).map xpuInitUnusedRegions := by
  induction board with
  | nil => rfl
  | cons r board ih =>
    rw [xpuMasterMpuInit, List.map_cons, mpusOf, mpusOf]
    split
    · rfl
    · exact ih

theorem updateMpus_ok {mpus mpus' : List (List Rg)}
    (h : updateMpus domain range permR permW mpus = .ok mpus') :
    List.Forall₂ (fun m m' => updateMasterSideMpu domain range permR permW m = some m') mpus mpus' := by
  induction mpus generalizing mpus' with
  | nil =>
    simp only [updateMpus, Except.ok.injEq] at h
    exact h ▸ .nil
  | cons m mpus ih =>
    rw [updateMpus] at h
    cases hm : updateMasterSideMpu domain range permR permW m with
    | none => exact absurd h (by simp [hm])
    | some m' =>
      cases hrest : updateMpus domain range permR permW mpus with
      | error e => exact absurd h (by simp [hm, hrest])
      | ok rest =>
        simp only [hm, hrest, Except.ok.injEq] at h
        exact h ▸ .cons hm (ih hrest)

theorem updateMpus_error {mpus e : List (List Rg)}
    (h : updateMpus domain range permR permW mpus = .error e) :
    ∃ m ∈ mpus, updateMasterSideMpu domain range permR permW m = none := by
  induction mpus generalizing e with
  | nil => cases h
  | cons m mpus ih =>
    rw [updateMpus] at h
    cases hm : updateMasterSideMpu domain range permR permW m with
    | none => exact ⟨m, List.mem_cons_self .., hm⟩
    | some m' =>
      cases hrest : updateMpus domain range permR permW mpus with
      | error e' =>
        obtain ⟨x, hx, hnone⟩ := ih hrest
        exact ⟨x, List.mem_cons_of_mem _ hx, hnone⟩
      | ok rest => exact absurd h (by simp [hm, hrest])

theorem forall₂_then {α β γ : Type} {R : α → β → Prop} {S : β → γ → Prop} {T : α → γ → Prop}
    (hT : ∀ a b c, R a b → S b c → T a c) {l : List α} {m : List β} {n : List γ}
    (h : List.Forall₂ R l m) (h' : List.Forall₂ S m n) : List.Forall₂ T l n := by
  induction h generalizing n with
  | nil =>
    cases h' with
    | nil => exact .nil
  | cons hab _ ih =>
    cases h' with
    | cons hbc hrest => exact .cons (hT _ _ _ hab hbc) (ih hrest)

theorem forall₂_source {α β : Type} {R : α → β → Prop} {l : List α} {m : List β}
    (h : List.Forall₂ R l m) {b : β} (hb : b ∈ m) : ∃ a ∈ l, R a b := by
  induction h with
  | nil => cases hb
  | cons hab _ ih =>
    rcases List.mem_cons.mp hb with rfl | hb
    · exact ⟨_, List.mem_cons_self .., hab⟩
    · obtain ⟨a, ha, hR⟩ := ih hb
      exact ⟨a, List.mem_cons_of_mem _ ha, hR⟩

variable {device : DeviceType} {ranges ranges' : List MpuRanges}

theorem mpuMasterMpusRange_ok
    (h : mpuMasterMpusRange device domain range permR permW ranges = .ok ranges') :
    List.Forall₂ (fun m m' => updateMasterSideMpu domain range permR permW m = some m')
        (mpusOf device ranges) (mpusOf device ranges') ∧
      ∀ d ≠ device, mpusOf d ranges' = mpusOf d ranges := by
  induction ranges generalizing ranges' with
  | nil =>
    simp only [mpuMasterMpusRange, Except.ok.injEq] at h
    subst h
    exact ⟨.nil, fun _ _ => rfl⟩
  | cons r ranges ih =>
    rw [mpuMasterMpusRange] at h
    by_cases hd : r.device = device
    · rw [if_pos hd] at h
      cases hu : updateMpus domain range permR permW r.mpus with
      | error e => exact absurd h (by simp [hu])
      | ok mpus =>
        simp only [hu, Except.ok.injEq] at h
        subst h
        refine ⟨?_, fun d hne => ?_⟩
        · simp only [mpusOf, hd, if_true]
          exact updateMpus_ok hu
        · simp only [mpusOf, hd, Ne.symm hne, if_false]
    · rw [if_neg hd] at h
      cases hu : mpuMasterMpusRange device domain range permR permW ranges with
      | error e => exact absurd h (by simp [hu])
      | ok rest =>
        simp only [hu, Except.ok.injEq] at h
        subst h
        obtain ⟨hsame, hother⟩ := ih hu
        refine ⟨?_, fun d hne => ?_⟩
        · simp only [mpusOf, hd, if_false]
          exact hsame
        · simp only [mpusOf, hother d hne]

theorem mpuMasterMpusRange_error {e : List MpuRanges}
    (h : mpuMasterMpusRange device domain range permR permW ranges = .error e) :
    ∃ m ∈ mpusOf device ranges, updateMasterSideMpu domain range permR permW m = none := by
  induction ranges generalizing e with
  | nil => cases h
  | cons r ranges ih =>
    rw [mpuMasterMpusRange] at h
    by_cases hd : r.device = device
    · rw [if_pos hd] at h
      cases hu : updateMpus domain range permR permW r.mpus with
      | error e' =>
        rw [mpusOf, if_pos hd]
        exact updateMpus_error hu
      | ok mpus => exact absurd h (by simp [hu])
    · rw [if_neg hd] at h
      cases hu : mpuMasterMpusRange device domain range permR permW ranges with
      | error e' =>
        rw [mpusOf, if_neg hd]
        exact ih hu
      | ok rest => exact absurd h (by simp [hu])

theorem assignRegions_ok (h : assignRegions t mem ranges = .ok ranges') :
    List.Forall₂ (fun m m' => updateAll t mem m = some m')
        (mpusOf t.device ranges) (mpusOf t.device ranges') ∧
      ∀ d ≠ t.device, mpusOf d ranges' = mpusOf d ranges := by
  induction mem generalizing ranges with
  | nil =>
    simp only [assignRegions, Except.ok.injEq] at h
    subst h
    exact ⟨List.forall₂_same.mpr fun _ _ => rfl, fun _ _ => rfl⟩
  | cons m mem ih =>
    rw [assignRegions] at h
    cases hm : mpuMasterMpusRange t.device t.domain m.range t.readPermDomain.bits
        t.writePermDomain.bits ranges with
    | error e => exact absurd h (by simp [hm])
    | ok mid =>
      simp only [hm] at h
      obtain ⟨hfirst, hother⟩ := mpuMasterMpusRange_ok hm
      obtain ⟨hrest, hother'⟩ := ih h
      refine ⟨?_, fun d hd => (hother' d hd).trans (hother d hd)⟩
      refine forall₂_then (fun u v w huv hvw => ?_) hfirst hrest
      rw [updateAll, huv]
      exact hvw

theorem assignRegions_error {e : List MpuRanges} (h : assignRegions t mem ranges = .error e) :
    ∃ m ∈ mpusOf t.device ranges, updateAll t mem m = none := by
  induction mem generalizing ranges with
  | nil => cases h
  | cons m mem ih =>
    rw [assignRegions] at h
    cases hm : mpuMasterMpusRange t.device t.domain m.range t.readPermDomain.bits
        t.writePermDomain.bits ranges with
    | error e' =>
      obtain ⟨x, hx, hnone⟩ := mpuMasterMpusRange_error hm
      refine ⟨x, hx, ?_⟩
      rw [updateAll, hnone]
      rfl
    | ok mid =>
      simp only [hm] at h
      obtain ⟨y, hy, hnone⟩ := ih h
      obtain ⟨x, hx, hxy⟩ := forall₂_source (mpuMasterMpusRange_ok hm).1 hy
      refine ⟨x, hx, ?_⟩
      rw [updateAll, hxy]
      exact hnone

/-! ## The ranges that an MPU holds -/

def heldRanges (mpu : List Rg) : Multiset Range := held Rg.free Rg.range mpu

theorem mem_heldRanges {mpu : List Rg} {range : Range} (hproper : Proper range) :
    range ∈ heldRanges mpu ↔ ∃ rg ∈ mpu, rg.range = range := by
  rw [heldRanges, mem_held]
  refine ⟨fun ⟨rg, hrg, _, heq⟩ => ⟨rg, hrg, heq⟩, fun ⟨rg, hrg, heq⟩ => ⟨rg, hrg, ?_, heq⟩⟩
  exact Rg.free_eq_false (heq ▸ hproper)

theorem heldRanges_free (h : rg.free = true) :
    heldRanges (pre ++ rg :: post) = heldRanges (pre ++ post) := by
  rw [heldRanges, held_split, if_pos h, Multiset.zero_add]
  rfl

theorem heldRanges_used (h : Proper rg.range) :
    heldRanges (pre ++ rg :: post) = rg.range ::ₘ heldRanges (pre ++ post) := by
  rw [heldRanges, held_split, Rg.free_eq_false h, if_neg Bool.false_ne_true, Multiset.singleton_add]
  rfl

theorem Update.heldRanges_cases (h : Update domain range permR permW mpu mpu')
    (hproper : Proper range) :
    (domain = .APPS_NS_DOMAIN ∧ heldRanges mpu = range ::ₘ heldRanges mpu') ∨
      (domain ≠ .APPS_NS_DOMAIN ∧ range ∈ heldRanges mpu ∧ heldRanges mpu' = heldRanges mpu) ∨
      (range ∉ heldRanges mpu ∧ heldRanges mpu' = range ::ₘ heldRanges mpu) := by
  cases h with
  | @freed pre post rg hsplit hrange hdomain =>
    subst hsplit hrange
    refine .inl ⟨hdomain, ?_⟩
    rw [heldRanges_used hproper, heldRanges_free rfl]
  | @rewritten pre post rg hsplit hrange hdomain =>
    subst hsplit hrange
    refine .inr (.inl ⟨hdomain, ?_, ?_⟩)
    · rw [heldRanges_used hproper]
      exact Multiset.mem_cons_self _ _
    · rw [heldRanges_used hproper]
      exact heldRanges_used (by exact hproper)
  | @taken pre post rg hsplit hfree hnew =>
    refine .inr (.inr ⟨fun hmem => ?_, ?_⟩)
    · obtain ⟨x, hx, heq⟩ := (mem_heldRanges hproper).mp hmem
      exact hnew x hx heq
    · subst hsplit
      rw [heldRanges_free hfree]
      exact heldRanges_used (by exact hproper)

theorem Update.nodup (h : Update domain range permR permW mpu mpu') (hproper : Proper range)
    (hnodup : (heldRanges mpu).Nodup) : (heldRanges mpu').Nodup := by
  obtain ⟨_, heq⟩ | ⟨_, _, heq⟩ | ⟨hnew, heq⟩ := h.heldRanges_cases hproper
  · rw [heq] at hnodup
    exact (Multiset.nodup_cons.mp hnodup).2
  · rw [heq]
    exact hnodup
  · rw [heq]
    exact Multiset.nodup_cons.mpr ⟨hnew, hnodup⟩

theorem card_heldRanges (mpu : List Rg) :
    (heldRanges mpu).card = (mpu.filter fun rg => !rg.free).length := by
  rw [heldRanges, card_held, List.countP_eq_length_filter]

theorem count_heldRanges {mpu : List Rg} {range : Range} (hproper : Proper range) :
    (heldRanges mpu).count range = (mpu.filter fun rg => rg.range = range).length := by
  rw [heldRanges, held, ← Multiset.map_coe, Multiset.count_map, Multiset.filter_coe,
    Multiset.coe_card, List.filter_filter]
  refine congrArg List.length (List.filter_congr fun rg _ => ?_)
  by_cases hrange : rg.range = range
  · have hused : rg.free = false := Rg.free_eq_false (hrange ▸ hproper)
    simp [hrange, hused]
  · simp [hrange, Ne.symm hrange]

theorem heldRanges_init (mpu : List Rg) : heldRanges (xpuInitUnusedRegions mpu) = 0 := by
  refine Multiset.eq_zero_of_forall_notMem fun range hmem => ?_
  obtain ⟨rg, hrg, hused, _⟩ := mem_held.mp hmem
  obtain ⟨old, _, rfl⟩ := List.mem_map.mp hrg
  cases hused

theorem updateAll_heldRanges_gain {A : Finset Range} (h : updateAll t mem mpu = some mpu')
    (hdomain : t.domain ≠ .APPS_NS_DOMAIN) (hproper : ∀ m ∈ mem, Proper m.range)
    (hA : heldRanges mpu = A.val) : heldRanges mpu' = (A ∪ (mem.map Mem.range).toFinset).val := by
  induction mem generalizing mpu A with
  | nil =>
    simp only [updateAll, Option.some.injEq] at h
    subst h
    simpa using hA
  | cons m mem ih =>
    obtain ⟨mid, hmid, hrest⟩ := updateAll_cons h
    obtain ⟨hm, hmem⟩ := List.forall_mem_cons.mp hproper
    have hnext : heldRanges mid = (insert m.range A).val := by
      obtain ⟨hd, _⟩ | ⟨_, hin, heq⟩ | ⟨hnew, heq⟩ := hmid.heldRanges_cases hm
      · exact absurd hd hdomain
      · rw [heq, hA, Finset.insert_eq_of_mem (by rwa [hA] at hin)]
      · rw [heq, hA, Finset.insert_val_of_notMem (by rwa [hA] at hnew)]
    rw [ih hrest hmem hnext]
    congr 1
    ext x
    simp only [Finset.mem_union, Finset.mem_insert, List.map_cons, List.toFinset_cons]
    tauto

theorem updateAll_heldRanges_lose {A : Finset Range} (h : updateAll t mem mpu = some mpu')
    (hdomain : t.domain = .APPS_NS_DOMAIN) (hproper : ∀ m ∈ mem, Proper m.range)
    (honce : (mem.map Mem.range).Nodup) (hheld : ∀ m ∈ mem, m.range ∈ A)
    (hA : heldRanges mpu = A.val) : heldRanges mpu' = (A \ (mem.map Mem.range).toFinset).val := by
  induction mem generalizing mpu A with
  | nil =>
    simp only [updateAll, Option.some.injEq] at h
    subst h
    simpa using hA
  | cons m mem ih =>
    obtain ⟨mid, hmid, hrest⟩ := updateAll_cons h
    obtain ⟨hm, hmem⟩ := List.forall_mem_cons.mp hproper
    obtain ⟨hin, hheld⟩ := List.forall_mem_cons.mp hheld
    obtain ⟨hfirst, honce⟩ := List.nodup_cons.mp honce
    have hnext : heldRanges mid = (A.erase m.range).val := by
      obtain ⟨_, heq⟩ | ⟨hd, _⟩ | ⟨hnew, _⟩ := hmid.heldRanges_cases hm
      · rw [Finset.erase_val, ← hA, heq, Multiset.erase_cons_head]
      · exact absurd hdomain hd
      · rw [hA] at hnew
        exact absurd hin hnew
    have hrem : ∀ m' ∈ mem, m'.range ∈ A.erase m.range := by
      intro m' hm'
      refine Finset.mem_erase.mpr ⟨fun heq => hfirst ?_, hheld m' hm'⟩
      exact heq ▸ List.mem_map_of_mem hm'
    rw [ih hrest hmem honce hrem hnext]
    congr 1
    ext x
    simp only [Finset.mem_sdiff, Finset.mem_erase, List.map_cons, List.toFinset_cons,
      Finset.mem_insert]
    tauto

/-! ## The RGs that give access -/

/-- The RG gives the modem's domain access to an address. -/
def Rg.grants (rg : Rg) (addr : UInt64) : Prop :=
  (rg.permR &&& DomainType.MSA_DOMAIN.bits ≠ 0 ∨ rg.permW &&& DomainType.MSA_DOMAIN.bits ≠ 0) ∧
    rg.range.1 ≤ addr ∧ addr < rg.range.2

theorem Update.grants (h : Update domain range 0 0 mpu mpu') (hproper : Proper range)
    (hnodup : (heldRanges mpu).Nodup) (hrg : rg ∈ mpu') {addr : UInt64} (hgrants : rg.grants addr) :
    rg ∈ mpu ∧ rg.range ≠ range := by
  -- the RG that was written has no permission
  have hwritten : ∀ (r : Range) (d : DomainType), rg ≠ ⟨r, d, 0, 0⟩ := by
    rintro r d rfl
    rcases hgrants.1 with hbit | hbit
    · exact hbit (UInt32.zero_and ..)
    · exact hbit (UInt32.zero_and ..)
  have hrest : ∀ {pre post : List Rg} {r : Range} {d : DomainType},
      rg ∈ pre ++ ⟨r, d, 0, 0⟩ :: post → rg ∈ pre ++ post := by
    intro pre post r d hmem
    rcases List.mem_append.mp hmem with hmem | hmem
    · exact List.mem_append_left _ hmem
    · rcases List.mem_cons.mp hmem with heq | hmem
      · exact absurd heq (hwritten r d)
      · exact List.mem_append_right _ hmem
  have hold : ∀ {pre post : List Rg} {old : Rg}, rg ∈ pre ++ post → rg ∈ pre ++ old :: post := by
    intro pre post old hmem
    rcases List.mem_append.mp hmem with hmem | hmem
    · exact List.mem_append_left _ hmem
    · exact List.mem_append_right _ (List.mem_cons_of_mem _ hmem)
  -- where an RG with the range was found, it was the only one
  have honly : ∀ {pre post : List Rg} {old : Rg}, mpu = pre ++ old :: post → old.range = range →
      rg ∈ pre ++ post → rg.range ≠ range := by
    intro pre post old hsplit hrange hmem heq
    subst hsplit hrange
    rw [heldRanges_used hproper] at hnodup
    exact (Multiset.nodup_cons.mp hnodup).1 ((mem_heldRanges hproper).mpr ⟨rg, hmem, heq⟩)
  cases h with
  | freed hsplit hrange _ =>
    have hmem := hrest hrg
    exact ⟨hsplit ▸ hold hmem, honly hsplit hrange hmem⟩
  | rewritten hsplit hrange _ =>
    have hmem := hrest hrg
    exact ⟨hsplit ▸ hold hmem, honly hsplit hrange hmem⟩
  | taken hsplit _ hnew =>
    have hmem : rg ∈ mpu := hsplit ▸ hold (hrest hrg)
    exact ⟨hmem, hnew rg hmem⟩

def Covers (mpu : List Rg) (range : Range) (permR permW : UInt32) : Prop :=
  ∃ rg ∈ mpu, rg.range = range ∧ rg.permR = permR ∧ rg.permW = permW

instance (mpu : List Rg) (range : Range) (permR permW : UInt32) :
    Decidable (Covers mpu range permR permW) :=
  inferInstanceAs (Decidable (∃ rg ∈ mpu, _))

theorem Update.covers_self (h : Update domain range permR permW mpu mpu')
    (hdomain : domain ≠ .APPS_NS_DOMAIN) : Covers mpu' range permR permW := by
  cases h with
  | freed _ _ hd => exact absurd hd hdomain
  | rewritten _ _ _ => exact ⟨_, List.mem_append_right _ (List.mem_cons_self ..), rfl, rfl, rfl⟩
  | taken _ _ _ => exact ⟨_, List.mem_append_right _ (List.mem_cons_self ..), rfl, rfl, rfl⟩

theorem Update.covers (h : Update domain range permR permW mpu mpu')
    (hdomain : domain ≠ .APPS_NS_DOMAIN) {other : Range} (hproper : Proper other)
    (hcov : Covers mpu other permR permW) : Covers mpu' other permR permW := by
  obtain ⟨rg, hrg, hrange, hr, hw⟩ := hcov
  by_cases heq : other = range
  · subst heq
    exact h.covers_self hdomain
  have hkeep : ∀ {pre post : List Rg} {old new : Rg}, mpu = pre ++ old :: post → rg ≠ old →
      Covers (pre ++ new :: post) other permR permW := by
    intro pre post old new hsplit hne
    subst hsplit
    refine ⟨rg, ?_, hrange, hr, hw⟩
    rcases List.mem_append.mp hrg with hmem | hmem
    · exact List.mem_append_left _ hmem
    · exact List.mem_append_right _ (List.mem_cons_of_mem _ ((List.mem_cons.mp hmem).resolve_left hne))
  cases h with
  | freed _ _ hd => exact absurd hd hdomain
  | rewritten hsplit hold _ =>
    refine hkeep hsplit ?_
    rintro rfl
    exact heq (hrange.symm.trans hold)
  | taken hsplit hfree _ =>
    refine hkeep hsplit ?_
    rintro rfl
    rw [Rg.free_eq_false (hrange ▸ hproper)] at hfree
    exact absurd hfree Bool.false_ne_true

theorem updateAll_covers (h : updateAll t mem mpu = some mpu')
    (hdomain : t.domain ≠ .APPS_NS_DOMAIN) (hproper : ∀ m ∈ mem, Proper m.range) :
    ∀ m ∈ mem, Covers mpu' m.range t.readPermDomain.bits t.writePermDomain.bits := by
  induction mem generalizing mpu with
  | nil => simp
  | cons m mem ih =>
    obtain ⟨mid, hmid, hrest⟩ := updateAll_cons h
    obtain ⟨hm, hmem⟩ := List.forall_mem_cons.mp hproper
    refine List.forall_mem_cons.mpr ⟨?_, ih hrest hmem⟩
    refine updateAll_invariant (I := fun u => Covers u m.range _ _) hrest
      (hmid.covers_self hdomain) fun _ _ u v hu huv => ?_
    exact huv.covers hdomain hm hu

theorem updateAll_grants (h : updateAll t mem mpu = some mpu') (hr : t.readPermDomain = .NO_DOMAIN)
    (hw : t.writePermDomain = .NO_DOMAIN) (hproper : ∀ m ∈ mem, Proper m.range)
    (hnodup : (heldRanges mpu).Nodup) (hrg : rg ∈ mpu') {addr : UInt64} (hgrants : rg.grants addr) :
    rg ∈ mpu ∧ ∀ m ∈ mem, rg.range ≠ m.range := by
  induction mem generalizing mpu with
  | nil =>
    simp only [updateAll, Option.some.injEq] at h
    exact ⟨h ▸ hrg, by simp⟩
  | cons m mem ih =>
    obtain ⟨mid, hmid, hrest⟩ := updateAll_cons h
    obtain ⟨hm, hmem⟩ := List.forall_mem_cons.mp hproper
    obtain ⟨hin, hne⟩ := ih hrest hmem (hmid.nodup hm hnodup)
    rw [hr, hw] at hmid
    obtain ⟨hin', hne'⟩ := hmid.grants hm hnodup hin hgrants
    exact ⟨hin', List.forall_mem_cons.mpr ⟨hne', hne⟩⟩

end TrustedFirmware.Qti
