import TrustedFirmware.Foundations.Runs
import TrustedFirmware.Qti.RegionTables

/-! # Requests over whole histories

What a request asks for, VM by VM, and what the two lists of VMs are folded into when the request
changes the access of one modem VM at most. From that, what a request leaves in the tables in every
state that the requests before it can lead to, and the RGs that are in use after a history. -/
namespace TrustedFirmware.Qti
open Runs SlotTable
set_option autoImplicit false
set_option maxRecDepth 100000

/-! ## What a request asks for -/

inductive ModemVm where
  | MSS_MSA
  | MSS_NAV
  deriving DecidableEq, Repr

instance {P : ModemVm → Prop} [DecidablePred P] : Decidable (∀ v, P v) :=
  decidable_of_iff (P .MSS_MSA ∧ P .MSS_NAV)
    ⟨fun h v => match v with
      | .MSS_MSA => h.1
      | .MSS_NAV => h.2, fun h => ⟨h _, h _⟩⟩

def ModemVm.id : ModemVm → UInt32
  | MSS_MSA => AC_VM_MSS_MSA
  | MSS_NAV => AC_VM_MSS_NAV

def ModemVm.device : ModemVm → DeviceType
  | MSS_MSA => .DEVICE_MODEM
  | MSS_NAV => .DEVICE_MSS_NAV

def Request.Gains (r : Request) (v : ModemVm) : Prop :=
  (∃ d ∈ r.dst, d.dstVm = v.id) ∧ v.id ∉ r.src

def Request.Loses (r : Request) (v : ModemVm) : Prop :=
  v.id ∈ r.src ∧ ¬ ∃ d ∈ r.dst, d.dstVm = v.id

def Request.OneVm (r : Request) : Prop :=
  ∀ v w, r.Gains v ∨ r.Loses v → r.Gains w ∨ r.Loses w → v = w

instance (r : Request) (v : ModemVm) : Decidable (r.Gains v) := inferInstanceAs (Decidable (_ ∧ _))

instance (r : Request) (v : ModemVm) : Decidable (r.Loses v) := inferInstanceAs (Decidable (_ ∧ _))

instance (r : Request) : Decidable r.OneVm := inferInstanceAs (Decidable (∀ _ _, _ → _ → _))

/-- The modem's domain where some entry of the list asks for the permission for the VM. -/
def wanted (dst : List Perm) (v : ModemVm) (perm : UInt32) (old : DomainType) : DomainType :=
  if ∃ d ∈ dst, d.dstVm = v.id ∧ d.dstVmPerm &&& perm ≠ 0 then .MSA_DOMAIN else old

def Request.requested (r : Request) (v : ModemVm) (perm : UInt32) : DomainType :=
  wanted r.dst v perm .NO_DOMAIN

/-! ## The fold of the two lists -/

variable {r : Request} {v : ModemVm} {s s' : List MpuRanges} {ret : Int} {dst : List Perm}
  {memTypeOk : Mem → Bool}

theorem modem_cases (vm : UInt32) :
    (∃ v : ModemVm, vm = v.id ∧ (vm != AC_VM_MSS_MSA && vm != AC_VM_MSS_NAV) = false ∧
        vmDevice vm = .ok v.device) ∨
      ((vm != AC_VM_MSS_MSA && vm != AC_VM_MSS_NAV) = true ∧ ∀ v : ModemVm, vm ≠ v.id) := by
  by_cases hmsa : vm = AC_VM_MSS_MSA
  · subst hmsa
    exact .inl ⟨.MSS_MSA, rfl, by decide, rfl⟩
  by_cases hnav : vm = AC_VM_MSS_NAV
  · subst hnav
    exact .inl ⟨.MSS_NAV, rfl, by decide, rfl⟩
  refine .inr ⟨by simp [hmsa, hnav], fun v => ?_⟩
  cases v with
  | MSS_MSA => exact hmsa
  | MSS_NAV => exact hnav

theorem processSources_one (hlen : dst.length ≤ AC_VM_LAST) {src : List UInt32}
    (hone : ∀ w : ModemVm, w.id ∈ src → (¬ ∃ d ∈ dst, d.dstVm = w.id) → w = v) (t : Target) :
    processSources dst src t =
      .ok (if v.id ∈ src ∧ ¬ ∃ d ∈ dst, d.dstVm = v.id then
        { t with device := v.device, domain := .APPS_NS_DOMAIN } else t) := by
  induction src generalizing t with
  | nil => simp [processSources]
  | cons vm src ih =>
    have hrest := ih fun w hw => hone w (List.mem_cons_of_mem _ hw)
    have hany : (dst.take AC_VM_LAST).any (fun d => d.dstVm == vm) = true ↔
        ∃ d ∈ dst, d.dstVm = vm := by
      rw [List.take_of_length_le hlen]
      simp
    rw [processSources]
    obtain ⟨w, rfl, hmodem, hdev⟩ | ⟨hmodem, hnot⟩ := modem_cases vm
    · rw [if_neg (by simp [hmodem])]
      by_cases hboth : ∃ d ∈ dst, d.dstVm = w.id
      · rw [if_pos (hany.mpr hboth), hrest]
        by_cases hvw : v.id = w.id
        · simp [hvw, hboth]
        · simp [hvw]
      · have hwv : w = v := hone w (List.mem_cons_self ..) hboth
        subst hwv
        rw [if_neg (fun h => hboth (hany.mp h)), hdev]
        dsimp only
        rw [hrest]
        simp [hboth]
    · rw [if_pos hmodem, hrest]
      simp [Ne.symm (hnot v)]

theorem wanted_cons_other {d : Perm} {perm : UInt32} {old : DomainType} (h : d.dstVm ≠ v.id) :
    wanted (d :: dst) v perm old = wanted dst v perm old := by
  simp [wanted, h]

theorem wanted_cons_self {d : Perm} {perm : UInt32} {old : DomainType} (h : d.dstVm = v.id) :
    wanted (d :: dst) v perm old =
      wanted dst v perm (if d.dstVmPerm &&& perm != 0 then .MSA_DOMAIN else old) := by
  by_cases hbit : d.dstVmPerm &&& perm = 0
  · simp [wanted, hbit]
  · simp [wanted, hbit, h]

theorem wanted_absent {perm : UInt32} {old : DomainType} (h : ¬ ∃ d ∈ dst, d.dstVm = v.id) :
    wanted dst v perm old = old := by
  rw [wanted, if_neg]
  rintro ⟨d, hd, hid, _⟩
  exact h ⟨d, hd, hid⟩

theorem processDestinations_one {src : List UInt32}
    (hone : ∀ w : ModemVm, (∃ d ∈ dst, d.dstVm = w.id) → w.id ∉ src → w = v) (t : Target) :
    processDestinations src dst t =
      .ok (if (∃ d ∈ dst, d.dstVm = v.id) ∧ v.id ∉ src then
        ⟨v.device, .APPS_S_DOMAIN, wanted dst v AC_PERM_R t.readPermDomain,
          wanted dst v AC_PERM_W t.writePermDomain⟩ else t) := by
  induction dst generalizing t with
  | nil => simp [processDestinations]
  | cons d dst ih =>
    have hrest := ih fun w ⟨e, he, hid⟩ => hone w ⟨e, List.mem_cons_of_mem _ he, hid⟩
    have hany : src.any (fun vm => d.dstVm == vm) = true ↔ d.dstVm ∈ src := by simp
    rw [processDestinations]
    obtain ⟨w, hid, hmodem, hdev⟩ | ⟨hmodem, hnot⟩ := modem_cases d.dstVm
    · rw [if_neg (by simp [hmodem])]
      by_cases hboth : d.dstVm ∈ src
      · rw [if_pos (hany.mpr hboth), hrest]
        by_cases hv : d.dstVm = v.id
        · rw [← hv]
          simp [hboth]
        · rw [wanted_cons_other hv, wanted_cons_other hv]
          simp [hv]
      · have hwv : w = v := hone w ⟨d, List.mem_cons_self .., hid⟩ (hid ▸ hboth)
        subst hwv
        have hgain : (∃ e ∈ d :: dst, e.dstVm = w.id) ∧ w.id ∉ src :=
          ⟨⟨d, List.mem_cons_self .., hid⟩, hid ▸ hboth⟩
        rw [if_neg (fun h => hboth (hany.mp h)), hdev]
        dsimp only
        rw [hrest, wanted_cons_self hid, wanted_cons_self hid, if_pos hgain]
        by_cases hmore : ∃ e ∈ dst, e.dstVm = w.id
        · rw [if_pos ⟨hmore, hid ▸ hboth⟩]
        · rw [if_neg (fun h => hmore h.1), wanted_absent hmore, wanted_absent hmore]
    · rw [if_pos hmodem, hrest, wanted_cons_other (hnot v), wanted_cons_other (hnot v)]
      simp [hnot v]

theorem target_cases (hlen : r.dst.length ≤ AC_VM_LAST) (hone : r.OneVm) :
    (∃ v, r.Gains v ∧ r.target = .ok ⟨v.device, .APPS_S_DOMAIN, r.requested v AC_PERM_R,
        r.requested v AC_PERM_W⟩) ∨
      (∃ v, r.Loses v ∧ r.target = .ok ⟨v.device, .APPS_NS_DOMAIN, .NO_DOMAIN, .NO_DOMAIN⟩) ∨
      ((∀ v, ¬ r.Gains v ∧ ¬ r.Loses v) ∧ r.target = .ok .initial) := by
  by_cases hchange : ∃ v, r.Gains v ∨ r.Loses v
  · obtain ⟨v, hv⟩ := hchange
    have hsrc := processSources_one (v := v) hlen
      (fun w hw hd => hone w v (.inr ⟨hw, hd⟩) hv) .initial
    have hdst := processDestinations_one (v := v) fun w (hd : ∃ d ∈ r.dst, d.dstVm = w.id)
      (hw : w.id ∉ r.src) => hone w v (.inl ⟨hd, hw⟩) hv
    rcases hv with hgain | hlose
    · refine .inl ⟨v, hgain, ?_⟩
      rw [Request.target, hsrc, if_neg (fun h => hgain.2 h.1)]
      dsimp only
      rw [hdst, if_pos ⟨hgain.1, hgain.2⟩]
      rfl
    · refine .inr (.inl ⟨v, hlose, ?_⟩)
      rw [Request.target, hsrc, if_pos ⟨hlose.1, hlose.2⟩]
      dsimp only
      rw [hdst, if_neg (fun h => h.2 hlose.1)]
      rfl
  · have hnone : ∀ v, ¬ r.Gains v ∧ ¬ r.Loses v := fun v =>
      ⟨fun h => hchange ⟨v, .inl h⟩, fun h => hchange ⟨v, .inr h⟩⟩
    refine .inr (.inr ⟨hnone, ?_⟩)
    have hsrc := processSources_one (v := .MSS_MSA) hlen
      (fun w hw hd => absurd ⟨hw, hd⟩ (hnone w).2) .initial
    have hdst := processDestinations_one (v := .MSS_MSA) fun w (hd : ∃ d ∈ r.dst, d.dstVm = w.id)
      (hw : w.id ∉ r.src) => absurd ⟨hd, hw⟩ (hnone w).1
    rw [Request.target, hsrc, if_neg fun h => (hnone .MSS_MSA).2 ⟨h.1, h.2⟩]
    dsimp only
    rw [hdst, if_neg fun h => (hnone .MSS_MSA).1 ⟨h.1, h.2⟩]

/-! ## Requests that pass the validation -/

structure Request.Valid (r : Request) : Prop where
  mem_length : 0 < r.mem.length ∧ r.mem.length ≤ QTI_VM_MAX_LIST_SIZE
  src_length : 0 < r.src.length ∧ r.src.length < QTI_VM_LAST
  dst_length : 0 < r.dst.length ∧ r.dst.length < QTI_VM_LAST
  mem_aligned : ∀ m ∈ r.mem, m.memAddr &&& (SIZE4K - 1) = 0 ∧ m.memSize &&& (SIZE4K - 1) = 0
  mem_range : ∀ m ∈ r.mem, m.memSize ≠ 0 ∧ m.memAddr.toNat + m.memSize.toNat < 2 ^ 64
  src_vm : ∀ vm ∈ r.src, vm.toNat < QTI_VM_LAST
  dst_vm : ∀ d ∈ r.dst, d.dstVm.toNat < QTI_VM_LAST

theorem valid_of_validate (h : qtiMemAssignValidateParam memTypeOk r = true) : r.Valid := by
  simp only [qtiMemAssignValidateParam, Bool.and_eq_true, List.all_eq_true, Bool.not_eq_true',
    Bool.or_eq_false_iff, beq_eq_false_iff_ne, decide_eq_false_iff_not, bne_eq_false_iff_eq] at h
  obtain ⟨⟨⟨⟨⟨⟨⟨⟨hs0, hs⟩, hd0⟩, hd⟩, hm0⟩, hm⟩, hmem⟩, hsrc⟩, hdst⟩ := h
  exact {
    mem_length := ⟨Nat.pos_of_ne_zero hm0, Nat.le_of_not_lt hm⟩
    src_length := ⟨Nat.pos_of_ne_zero hs0, Nat.lt_of_not_le hs⟩
    dst_length := ⟨Nat.pos_of_ne_zero hd0, Nat.lt_of_not_le hd⟩
    mem_aligned := fun m hm => ⟨(hmem m hm).1.1.1.1, (hmem m hm).1.1.2⟩
    mem_range := fun m hm => ⟨(hmem m hm).1.1.1.2, Nat.lt_of_not_le (hmem m hm).1.2⟩
    src_vm := fun vm hvm => Nat.lt_of_not_le (hsrc vm hvm)
    dst_vm := fun d hd => Nat.lt_of_not_le (hdst d hd) }

theorem Request.Valid.proper (h : r.Valid) : ∀ m ∈ r.mem, Proper m.range := by
  intro m hm heq
  have haligned := (h.mem_aligned m hm).1
  rw [show m.memAddr = XPU_INVALID_ADDR from heq] at haligned
  exact absurd haligned (by decide)

/-! ## One request -/

/-- `mem_assign()` where it returns. -/
def assign (s : List MpuRanges) (r : Request) : Option (List MpuRanges × Int) :=
  match memAssign s r with
  | .ok (ret, s') => some (s', ret)
  | .error _ => none

theorem assign_eq_some : assign s r = some (s', ret) ↔ memAssign s r = .ok (ret, s') := by
  rw [assign]
  cases memAssign s r with
  | error e => simp
  | ok x => simp [Prod.ext_iff, and_comm]

theorem assign_cases (h : assign s r = some (s', ret)) :
    (s' = s ∧ ∃ e, r.target = .error e) ∨ ∃ t, r.target = .ok t ∧ assignRegions t r.mem s = .ok s' := by
  rw [assign_eq_some, memAssign] at h
  cases ht : r.target with
  | error e =>
    simp only [ht, Except.ok.injEq, Prod.mk.injEq] at h
    exact .inl ⟨h.2.symm, e, rfl⟩
  | ok t =>
    cases ha : assignRegions t r.mem s with
    | error e => exact absurd h (by simp [ht, ha])
    | ok s₁ =>
      simp only [ht, ha, Except.ok.injEq, Prod.mk.injEq] at h
      exact .inr ⟨t, rfl, h.2 ▸ ha⟩

theorem assign_source (h : assign s r = some (s', ret)) {device : DeviceType} {mpu : List Rg}
    (hmpu : mpu ∈ mpusOf device s') : ∃ old, old ∈ mpusOf device s := by
  obtain ⟨rfl, _⟩ | ⟨t, _, ht⟩ := assign_cases h
  · exact ⟨mpu, hmpu⟩
  obtain ⟨hdev, hother⟩ := assignRegions_ok ht
  by_cases hd : device = t.device
  · subst hd
    obtain ⟨old, hold, _⟩ := forall₂_source hdev hmpu
    exact ⟨old, hold⟩
  · rw [hother device hd] at hmpu
    exact ⟨mpu, hmpu⟩

inductive Request.Effect (s : List MpuRanges) (r : Request) (s' : List MpuRanges) : Prop
  | gain {v : ModemVm} (hgain : r.Gains v)
      (hregions : assignRegions ⟨v.device, .APPS_S_DOMAIN, r.requested v AC_PERM_R,
        r.requested v AC_PERM_W⟩ r.mem s = .ok s')
  | lose {v : ModemVm} (hlose : r.Loses v)
      (hregions : assignRegions ⟨v.device, .APPS_NS_DOMAIN, .NO_DOMAIN, .NO_DOMAIN⟩ r.mem s = .ok s')
  | other (hnone : ∀ v, ¬ r.Gains v ∧ ¬ r.Loses v)
      (hregions : assignRegions .initial r.mem s = .ok s')

theorem assign_effect (hvalid : r.Valid) (hone : r.OneVm) (h : assign s r = some (s', ret)) :
    r.Effect s s' := by
  have hlen : r.dst.length ≤ AC_VM_LAST := Nat.le_of_lt hvalid.dst_length.2
  have hrun : ∀ {t}, r.target = .ok t → assignRegions t r.mem s = .ok s' := by
    intro t ht
    obtain ⟨_, e, he⟩ | ⟨t', ht', hrun⟩ := assign_cases h
    · exact absurd (ht.symm.trans he) (by simp)
    · exact Except.ok.inj (ht.symm.trans ht') ▸ hrun
  obtain ⟨v, hgain, ht⟩ | ⟨v, hlose, ht⟩ | ⟨hnone, ht⟩ := target_cases hlen hone
  · exact .gain hgain (hrun ht)
  · exact .lose hlose (hrun ht)
  · exact .other hnone (hrun ht)

def OncePerMpu (s : List MpuRanges) : Prop :=
  ∀ device, ∀ mpu ∈ mpusOf device s, (heldRanges mpu).Nodup

theorem oncePerMpu_init (board : List MpuRanges) : OncePerMpu (xpuMasterMpuInit board) := by
  intro device mpu hmpu
  rw [mpusOf_init] at hmpu
  obtain ⟨old, _, rfl⟩ := List.mem_map.mp hmpu
  rw [heldRanges_init]
  exact Multiset.nodup_zero

theorem OncePerMpu.assign (hs : OncePerMpu s) (hvalid : r.Valid) (h : assign s r = some (s', ret)) :
    OncePerMpu s' := by
  obtain ⟨rfl, _⟩ | ⟨t, _, ht⟩ := assign_cases h
  · exact hs
  obtain ⟨hdev, hother⟩ := assignRegions_ok ht
  intro device mpu hmpu
  by_cases hd : device = t.device
  · subst hd
    obtain ⟨old, hold, hupd⟩ := forall₂_source hdev hmpu
    refine updateAll_invariant (I := fun u => (heldRanges u).Nodup) hupd (hs _ old hold) ?_
    intro m hm u v hu huv
    exact huv.nodup (hvalid.proper m hm) hu
  · rw [hother device hd] at hmpu
    exact hs device mpu hmpu

structure Programmed (s : List MpuRanges) (r : Request) (s' : List MpuRanges) (v : ModemVm) :
    Prop where
  gained : r.Gains v → ∀ m ∈ r.mem, ∀ mpu ∈ mpusOf v.device s',
    Covers mpu m.range (r.requested v AC_PERM_R).bits (r.requested v AC_PERM_W).bits
  lost : r.Loses v → ∀ m ∈ r.mem, ∀ mpu ∈ mpusOf v.device s', ∀ rg ∈ mpu, ∀ addr,
    m.range.1 ≤ addr → addr < m.range.2 → ¬ rg.grants addr
  other : ¬ r.Gains v → ¬ r.Loses v → mpusOf v.device s' = mpusOf v.device s

/-- The memory that a request takes back from a VM was given as a whole: an RG of the VM that gives
access to a part of it has the range of a region of the request. -/
def Request.ReturnsWhole (s : List MpuRanges) (r : Request) : Prop :=
  ∀ v, r.Loses v → ∀ mpu ∈ mpusOf v.device s, ∀ rg ∈ mpu, ∀ m ∈ r.mem, ∀ addr,
    m.range.1 ≤ addr → addr < m.range.2 → rg.grants addr → ∃ m' ∈ r.mem, rg.range = m'.range

theorem Request.Gains.not_loses (h : r.Gains v) : ¬ r.Loses v :=
  fun hl => h.2 hl.1

theorem ModemVm.device_injective {w : ModemVm} (h : v.device = w.device) : v = w := by
  revert h
  cases v <;> cases w <;> decide

theorem ModemVm.device_ne_none (v : ModemVm) : v.device ≠ .none := by
  cases v <;> decide

theorem Request.OneVm.other (hone : r.OneVm) {w : ModemVm} (hv : r.Gains v ∨ r.Loses v)
    (hwv : w ≠ v) : ¬ r.Gains w ∧ ¬ r.Loses w :=
  ⟨fun hg => hwv (hone w v (.inl hg) hv), fun hl => hwv (hone w v (.inr hl) hv)⟩

theorem programmed_gain (hone : r.OneVm) (hvalid : r.Valid) (hgain : r.Gains v)
    (h : assignRegions ⟨v.device, .APPS_S_DOMAIN, r.requested v AC_PERM_R,
      r.requested v AC_PERM_W⟩ r.mem s = .ok s')
    (w : ModemVm) : Programmed s r s' w := by
  obtain ⟨hdev, hother⟩ := assignRegions_ok h
  by_cases hwv : w = v
  · subst hwv
    refine ⟨fun _ m hm mpu hmpu => ?_, fun hl => absurd hl hgain.not_loses, fun hg => absurd hgain hg⟩
    obtain ⟨old, _, hupd⟩ := forall₂_source hdev hmpu
    exact updateAll_covers hupd (fun hd => nomatch hd) hvalid.proper m hm
  · have hnone := hone.other (.inl hgain) hwv
    refine ⟨fun hg => absurd hg hnone.1, fun hl => absurd hl hnone.2, fun _ _ => ?_⟩
    exact hother _ fun hd => hwv (ModemVm.device_injective hd)

theorem programmed_lose (hone : r.OneVm) (hvalid : r.Valid) (hlose : r.Loses v)
    (hwhole : r.ReturnsWhole s) (honce : OncePerMpu s)
    (h : assignRegions ⟨v.device, .APPS_NS_DOMAIN, .NO_DOMAIN, .NO_DOMAIN⟩ r.mem s = .ok s')
    (w : ModemVm) : Programmed s r s' w := by
  obtain ⟨hdev, hother⟩ := assignRegions_ok h
  by_cases hwv : w = v
  · subst hwv
    refine ⟨fun hg => absurd hlose hg.not_loses, ?_, fun _ hl => absurd hlose hl⟩
    intro _ m hm mpu hmpu rg hrg addr hlo hhi hgrants
    obtain ⟨old, hold, hupd⟩ := forall₂_source hdev hmpu
    obtain ⟨hin, hne⟩ := updateAll_grants hupd rfl rfl hvalid.proper (honce _ old hold) hrg hgrants
    obtain ⟨m', hm', heq⟩ := hwhole w hlose old hold rg hin m hm addr hlo hhi hgrants
    exact hne m' hm' heq
  · have hnone := hone.other (.inr hlose) hwv
    refine ⟨fun hg => absurd hg hnone.1, fun hl => absurd hl hnone.2, fun _ _ => ?_⟩
    exact hother _ fun hd => hwv (ModemVm.device_injective hd)

/-- **A request does what it asks for.** In every state that requests lead to from the tables of
`xpu_master_mpu_init()`, a request that changes the access of one modem VM at most, and that takes back
only memory that was given as a whole, leaves in the tables what it asks for. -/
theorem mem_assign_programs {memTypeOk : Mem → Bool} {board s s' : List MpuRanges}
    {t : List (Request × Int)} {r : Request}
    (hrun : Traced (Performs assign fun _ r => qtiMemAssignValidateParam memTypeOk r = true)
      (xpuMasterMpuInit board) t s)
    (hvalidate : qtiMemAssignValidateParam memTypeOk r = true) (hone : r.OneVm)
    (hwhole : r.ReturnsWhole s) (h : memAssign s r = .ok (0, s')) (v : ModemVm) :
    Programmed s r s' v := by
  have hvalid := valid_of_validate hvalidate
  have honce : OncePerMpu s :=
    hrun.invariant (I := fun _ s => OncePerMpu s) (oncePerMpu_init board)
      fun _ _ _ _ hu hstep => hu.assign (valid_of_validate hstep.1) hstep.2
  cases assign_effect hvalid hone (assign_eq_some.mpr h) with
  | gain hgain hregions => exact programmed_gain hone hvalid hgain hregions v
  | lose hlose hregions => exact programmed_lose hone hvalid hlose hwhole honce hregions v
  | other hnone hregions =>
    refine ⟨fun hg => absurd hg (hnone v).1, fun hl => absurd hl (hnone v).2, fun _ _ => ?_⟩
    exact (assignRegions_ok hregions).2 _ v.device_ne_none

def givePage : Request := ⟨[⟨0x80000000, 0x1000⟩], [AC_VM_HLOS], [⟨AC_VM_MSS_MSA, 6⟩]⟩

def takePage : Request := ⟨[⟨0x80000000, 0x1000⟩], [AC_VM_MSS_MSA], [⟨AC_VM_HLOS, 6⟩]⟩

theorem mem_assign_programs_page :
    ∃ t s s', Traced (Performs assign fun _ r => qtiMemAssignValidateParam (fun _ => true) r = true)
        (xpuMasterMpuInit msmMpuRanges) t s ∧ memAssign s takePage = .ok (0, s') ∧
      ∀ v, Programmed s takePage s' v := by
  obtain ⟨t, s, ret, s', hrun, hstep, hq⟩ := @execute_next _ _ _ assign
    (fun _ r => qtiMemAssignValidateParam (fun _ => true) r = true) _
    (fun _ s ret _ => decide (ret = 0 ∧ ∀ mpu ∈ mpusOf .DEVICE_MODEM s, ∀ rg ∈ mpu,
      (rg.permR &&& DomainType.MSA_DOMAIN.bits = 0 ∧ rg.permW &&& DomainType.MSA_DOMAIN.bits = 0) ∨
        ∃ m ∈ takePage.mem, rg.range = m.range))
    (xpuMasterMpuInit msmMpuRanges) [givePage] takePage (by decide +kernel)
  obtain ⟨rfl, hrgs⟩ := of_decide_eq_true hq
  have hmem : memAssign s takePage = .ok (0, s') := assign_eq_some.mp hstep
  refine ⟨t, s, s', hrun, hmem, fun v => ?_⟩
  refine mem_assign_programs hrun (by decide) (by decide) ?_ hmem v
  intro v hl mpu hmpu rg hrg m _ addr _ _ hgrants
  cases v with
  | MSS_NAV => exact absurd hl (by decide)
  | MSS_MSA =>
    rcases hrgs mpu hmpu rg hrg with ⟨hr, hw⟩ | hex
    · exact absurd hgrants.1 (not_or.mpr ⟨not_not.mpr hr, not_not.mpr hw⟩)
    · exact hex

def givePageToBoth : Request :=
  ⟨[⟨0x80000000, 0x1000⟩], [AC_VM_HLOS], [⟨AC_VM_MSS_MSA, 6⟩, ⟨AC_VM_MSS_NAV, 4⟩]⟩

/-- A request for both VMs returns 0 and programs the MPUs of the last one only. -/
theorem first_vm_forgotten :
    ∃ t s s', Traced (Performs assign fun _ r => qtiMemAssignValidateParam (fun _ => true) r = true)
        (xpuMasterMpuInit msmMpuRanges) t s ∧
      qtiMemAssignValidateParam (fun _ => true) givePageToBoth = true ∧
      memAssign s givePageToBoth = .ok (0, s') ∧ ¬ Programmed s givePageToBoth s' .MSS_MSA := by
  obtain ⟨t, s, ret, s', hrun, hstep, hq⟩ := @execute_next _ _ _ assign
    (fun _ r => qtiMemAssignValidateParam (fun _ => true) r = true) _
    (fun _ _ ret s' => decide (ret = 0 ∧ ∃ m ∈ givePageToBoth.mem, ∃ mpu ∈ mpusOf .DEVICE_MODEM s',
      ¬ Covers mpu m.range (givePageToBoth.requested .MSS_MSA AC_PERM_R).bits
        (givePageToBoth.requested .MSS_MSA AC_PERM_W).bits))
    (xpuMasterMpuInit msmMpuRanges) [] givePageToBoth (by decide +kernel)
  obtain ⟨rfl, m, hm, mpu, hmpu, hnot⟩ := of_decide_eq_true hq
  refine ⟨t, s, s', hrun, by decide, assign_eq_some.mp hstep, fun hprog => hnot ?_⟩
  exact hprog.gained (by decide) m hm mpu hmpu

/-! ## The RGs in use after a history -/

def Request.after (v : ModemVm) (A : Finset Range) (r : Request) : Finset Range :=
  if r.Gains v then A ∪ (r.mem.map Mem.range).toFinset
  else if r.Loses v then A \ (r.mem.map Mem.range).toFinset
  else A

/-- The ranges that are assigned to a VM after a history: assigned by a request and not taken back
since. -/
def assigned (v : ModemVm) (history : List (Request × Int)) : Finset Range :=
  history.foldl (fun A x => x.1.after v A) ∅

def Request.ReturnsHeld (s : List MpuRanges) (r : Request) : Prop :=
  ∀ v, r.Loses v → (r.mem.map Mem.range).Nodup ∧
    ∀ m ∈ r.mem, ∀ mpu ∈ mpusOf v.device s, ∃ rg ∈ mpu, rg.range = m.range

/-- The requests of a history that the tables keep up with. -/
def Request.Tracked (memTypeOk : Mem → Bool) (s : List MpuRanges) (r : Request) : Prop :=
  qtiMemAssignValidateParam memTypeOk r = true ∧ r.OneVm ∧ r.ReturnsHeld s

/-- Every MPU of a VM holds the ranges that are assigned to the VM, each once. -/
def HoldsAssigned (history : List (Request × Int)) (s : List MpuRanges) : Prop :=
  ∀ v, (∀ range ∈ assigned v history, Proper range) ∧
    ∀ mpu ∈ mpusOf v.device s, heldRanges mpu = (assigned v history).val

theorem assigned_snoc (v : ModemVm) (history : List (Request × Int)) (r : Request) (ret : Int) :
    assigned v (history ++ [(r, ret)]) = r.after v (assigned v history) := by
  rw [assigned, List.foldl_append]
  rfl

theorem Request.Valid.after_proper (h : r.Valid) {A : Finset Range} (hA : ∀ range ∈ A, Proper range) :
    ∀ range ∈ r.after v A, Proper range := by
  intro range hmem
  rw [Request.after] at hmem
  split at hmem
  · rcases Finset.mem_union.mp hmem with hmem | hmem
    · exact hA range hmem
    · obtain ⟨m, hm, rfl⟩ := List.mem_map.mp (List.mem_toFinset.mp hmem)
      exact h.proper m hm
  · split at hmem
    · exact hA range (Finset.mem_sdiff.mp hmem).1
    · exact hA range hmem

theorem Request.after_other {A : Finset Range} (hg : ¬ r.Gains v) (hl : ¬ r.Loses v) :
    r.after v A = A := by
  rw [Request.after, if_neg hg, if_neg hl]

theorem after_assign (hvalid : r.Valid) (hone : r.OneVm) (hheld : r.ReturnsHeld s)
    (h : assign s r = some (s', ret)) {A : Finset Range}
    (hA : ∀ mpu ∈ mpusOf v.device s, heldRanges mpu = A.val) :
    ∀ mpu ∈ mpusOf v.device s', heldRanges mpu = (r.after v A).val := by
  intro mpu hmpu
  -- a VM that the request does not change keeps its MPUs
  have hkeep : ∀ t, assignRegions t r.mem s = .ok s' → v.device ≠ t.device →
      ¬ r.Gains v ∧ ¬ r.Loses v → heldRanges mpu = (r.after v A).val := by
    intro t ht hne hnone
    rw [(assignRegions_ok ht).2 _ hne] at hmpu
    rw [Request.after_other hnone.1 hnone.2]
    exact hA mpu hmpu
  cases assign_effect hvalid hone h with
  | @gain w hgain hregions =>
    by_cases hvw : v = w
    · subst hvw
      obtain ⟨old, hold, hupd⟩ := forall₂_source (assignRegions_ok hregions).1 hmpu
      rw [Request.after, if_pos hgain]
      exact updateAll_heldRanges_gain hupd (fun hd => nomatch hd) hvalid.proper (hA old hold)
    · exact hkeep _ hregions (fun hd => hvw (ModemVm.device_injective hd)) (hone.other (.inl hgain) hvw)
  | @lose w hlose hregions =>
    by_cases hvw : v = w
    · subst hvw
      obtain ⟨old, hold, hupd⟩ := forall₂_source (assignRegions_ok hregions).1 hmpu
      obtain ⟨honce, hrgs⟩ := hheld v hlose
      rw [Request.after, if_neg (fun hg => hg.not_loses hlose), if_pos hlose]
      refine updateAll_heldRanges_lose hupd rfl hvalid.proper honce (fun m hm => ?_) (hA old hold)
      have hin := (mem_heldRanges (hvalid.proper m hm)).mpr (hrgs m hm old hold)
      rwa [hA old hold] at hin
    · exact hkeep _ hregions (fun hd => hvw (ModemVm.device_injective hd)) (hone.other (.inr hlose) hvw)
  | other hnone hregions => exact hkeep _ hregions v.device_ne_none (hnone v)

theorem HoldsAssigned.step {history : List (Request × Int)} (hs : HoldsAssigned history s)
    (hr : r.Tracked memTypeOk s) (h : assign s r = some (s', ret)) :
    HoldsAssigned (history ++ [(r, ret)]) s' := by
  obtain ⟨hvalidate, hone, hheld⟩ := hr
  have hvalid := valid_of_validate hvalidate
  intro v
  rw [assigned_snoc]
  obtain ⟨hproper, hranges⟩ := hs v
  exact ⟨hvalid.after_proper hproper, after_assign hvalid hone hheld h hranges⟩

theorem holdsAssigned_init (board : List MpuRanges) : HoldsAssigned [] (xpuMasterMpuInit board) := by
  refine fun v => ⟨by simp [assigned], fun mpu hmpu => ?_⟩
  rw [mpusOf_init] at hmpu
  obtain ⟨old, _, rfl⟩ := List.mem_map.mp hmpu
  exact heldRanges_init old

/-- **The RGs in use are the regions assigned.** After every history of requests that change the access
of one modem VM at most, and that take back regions that are listed once and held, each MPU of a VM has
as many RGs in use as regions are assigned to the VM, one for each of them; and a next such request for
regions that are not assigned leaves the MPUs of a VM that it takes them from. -/
theorem rgs_are_assigned_regions {memTypeOk : Mem → Bool} {board s : List MpuRanges}
    {history : List (Request × Int)}
    (hrun : Traced (Performs assign (Request.Tracked memTypeOk · ·)) (xpuMasterMpuInit board) history s)
    (v : ModemVm) :
    (∀ mpu ∈ mpusOf v.device s,
      (mpu.filter fun rg => !rg.free).length = (assigned v history).card ∧
        ∀ range ∈ assigned v history, (mpu.filter fun rg => rg.range = range).length = 1) ∧
    ∀ r s' ret, r.Tracked memTypeOk s → assign s r = some (s', ret) → r.Loses v →
      (∀ m ∈ r.mem, m.range ∉ assigned v history) → mpusOf v.device s' = mpusOf v.device s := by
  have hinv : HoldsAssigned history s :=
    hrun.invariant (I := HoldsAssigned) (holdsAssigned_init board)
      fun _ _ _ _ hu hstep => hu.step hstep.1 hstep.2
  obtain ⟨hproper, hranges⟩ := hinv v
  refine ⟨fun mpu hmpu => ⟨?_, fun range hrange => ?_⟩, ?_⟩
  · rw [← card_heldRanges, hranges mpu hmpu]
    rfl
  · rw [← count_heldRanges (hproper range hrange), hranges mpu hmpu]
    exact Multiset.count_eq_one_of_mem (assigned v history).nodup hrange
  · intro r s' ret hr h hlose hnew
    obtain ⟨hvalidate, hone, hheld⟩ := hr
    have hvalid := valid_of_validate hvalidate
    obtain ⟨m, hm⟩ := List.exists_mem_of_length_pos hvalid.mem_length.1
    -- each MPU would hold a region that is not assigned, so there is none
    have hempty : mpusOf v.device s = [] := by
      refine List.eq_nil_iff_forall_not_mem.mpr fun mpu hmpu => hnew m hm ?_
      have hin := (mem_heldRanges (hvalid.proper m hm)).mpr ((hheld v hlose).2 m hm mpu hmpu)
      rwa [hranges mpu hmpu] at hin
    rw [hempty, List.eq_nil_iff_forall_not_mem]
    intro mpu hmpu
    obtain ⟨old, hold⟩ := assign_source h hmpu
    exact absurd (hempty ▸ hold) List.not_mem_nil

instance (s : List MpuRanges) (r : Request) : Decidable (r.ReturnsHeld s) :=
  inferInstanceAs (Decidable (∀ _, _ → _))

instance (memTypeOk : Mem → Bool) (s : List MpuRanges) (r : Request) :
    Decidable (r.Tracked memTypeOk s) :=
  inferInstanceAs (Decidable (_ ∧ _))

theorem rgs_are_assigned_regions_two :
    ∃ history s, assigned .MSS_MSA history = {(0x90000000, 0x90001000)} ∧
      ∀ mpu ∈ mpusOf .DEVICE_MODEM s, (mpu.filter fun rg => !rg.free).length = 1 := by
  obtain ⟨history, s, hrun, hq⟩ := @execute_traced _ _ _ assign
    (Request.Tracked (fun _ => true) · ·) _
    (fun t _ => decide (assigned .MSS_MSA t = {(0x90000000, 0x90001000)}))
    (xpuMasterMpuInit msmMpuRanges)
    [givePage, { givePage with mem := [⟨0x90000000, 0x1000⟩] }, takePage] (by decide +kernel)
  have hassigned := of_decide_eq_true hq
  refine ⟨history, s, hassigned, fun mpu hmpu => ?_⟩
  have hcount := ((rgs_are_assigned_regions hrun .MSS_MSA).1 mpu hmpu).1
  rw [hassigned] at hcount
  exact hcount

/-- A page that nobody was given is taken back: an RG of every MPU of the modem is in use for it. -/
theorem return_takes_rg :
    ∃ history s, Traced (Performs assign fun _ r => qtiMemAssignValidateParam (fun _ => true) r = true)
        (xpuMasterMpuInit msmMpuRanges) history s ∧ assigned .MSS_MSA history = ∅ ∧
      mpusOf .DEVICE_MODEM s ≠ mpusOf .DEVICE_MODEM (xpuMasterMpuInit msmMpuRanges) ∧
      ∃ mpu ∈ mpusOf .DEVICE_MODEM s,
        (mpu.filter fun rg => !rg.free).length ≠ (assigned .MSS_MSA history).card := by
  obtain ⟨history, s, hrun, hq⟩ := @execute_traced _ _ _ assign
    (fun _ r => qtiMemAssignValidateParam (fun _ => true) r = true) _
    (fun t s => decide (assigned .MSS_MSA t = ∅ ∧
      mpusOf .DEVICE_MODEM s ≠ mpusOf .DEVICE_MODEM (xpuMasterMpuInit msmMpuRanges) ∧
      ∃ mpu ∈ mpusOf .DEVICE_MODEM s,
        (mpu.filter fun rg => !rg.free).length ≠ (assigned .MSS_MSA t).card))
    (xpuMasterMpuInit msmMpuRanges) [takePage] (by decide +kernel)
  exact ⟨history, s, hrun, of_decide_eq_true hq⟩

end TrustedFirmware.Qti
