import TrustedFirmware.Spmc.Handles
import TrustedFirmware.Spmc.Execution

/-! # Accepted descriptors

FFA_SUCCESS with a handle answers the last fragment of an object whose stored descriptor is
well formed, whichever version it was sent in. The checks leave the identity of endpoints of
the normal world, the alignment of addresses and their overflow to nobody. -/
namespace TrustedFirmware.Spmc
open ByteMemory RecordTiling
set_option autoImplicit false

variable {P : Platform} {s s' : State} {r : Reply} {c : Call} {objs objs' pre post : List Obj}
  {o : Obj} {v u next next' low high : ℕ}

def compAddr (d : Bytes) : ℕ := Emad.compMrdOffset d (v11Emad d 0)

structure AcceptedDescriptor (P : Platform) (d : Bytes) (descSize : ℕ) : Prop where
  distinct : ((List.range (Mtd.emadCount d)).map fun i => Emad.endpointId d (v11Emad d i)).Nodup
  known : ∀ i < Mtd.emadCount d, ffaIsSecureWorldId (Emad.endpointId d (v11Emad d i)) = true →
    Emad.endpointId d (v11Emad d i) ∈ P.spIds
  pages : CompMrd.totalPageCount d (compAddr d) =
    ((CompMrd.ranges d (compAddr d)).map Prod.snd).sum
  /-- The header, the endpoint descriptors, the composite descriptor and the constituents follow
  each other and end with the descriptor. -/
  header : 48 ≤ v11Emad d 0
  emads : ∀ i < Mtd.emadCount d, v11Emad d i + 16 ≤ v11Emad d (i + 1)
  comp : v11Emad d (Mtd.emadCount d) ≤ compAddr d
  offsets : ∀ i < Mtd.emadCount d, Emad.compMrdOffset d (v11Emad d i) = compAddr d
  size : compAddr d + 16 + 16 * CompMrd.addressRangeCount d (compAddr d) = descSize

theorem AcceptedDescriptor.end_ge {d : Bytes} {n : ℕ} (h : AcceptedDescriptor P d n) :
    48 + 16 * Mtd.emadCount d ≤ v11Emad d (Mtd.emadCount d) := by
  have hstep : ∀ k, k ≤ Mtd.emadCount d → 48 + 16 * k ≤ v11Emad d k := by
    intro k
    induction k with
    | zero => exact fun _ => h.header
    | succ k ih =>
      intro hk
      have hk' := ih (by omega)
      have hnext := h.emads k (by omega)
      omega
  exact hstep _ (Nat.le_refl _)

theorem emads_v11 (d : Bytes) :
    emads d (makeFfaVersion 1 1) = (List.range (Mtd.emadCount d)).map (v11Emad d) := by
  rw [emads, firstEmad_of_ne _ v11_ne, emadStride_of_ne _ v11_ne]
  rfl

theorem compOffset_v11 (d : Bytes) : compOffset d (makeFfaVersion 1 1) = compAddr d := by
  rw [compOffset, firstEmad_of_ne _ v11_ne, compAddr, v11Emad, Nat.mul_zero, Nat.add_zero]

theorem endpoints_v11 (d : Bytes) : endpoints d (makeFfaVersion 1 1) =
    (List.range (Mtd.emadCount d)).map fun i => Emad.endpointId d (v11Emad d i) := by
  rw [endpoints, emads_v11, List.map_map]
  rfl

theorem Layout.accepted {d : Bytes} {n : ℕ} (h : Layout P (makeFfaVersion 1 1) d n) :
    AcceptedDescriptor P d n := by
  have hfirst := h.start.first_le
  have hstride := h.start.stride_ge
  have hbehind := h.behind
  have hsize := h.size_eq
  rw [firstEmad_of_ne _ v11_ne, if_neg v11_ne] at hfirst
  rw [emadStride_of_ne _ v11_ne] at hstride
  rw [firstEmad_of_ne _ v11_ne, emadStride_of_ne _ v11_ne, compOffset_v11] at hbehind
  rw [compOffset_v11] at hsize
  have hmem : ∀ i < Mtd.emadCount d, v11Emad d i ∈ emads d (makeFfaVersion 1 1) := by
    intro i hi
    rw [emads_v11]
    exact List.mem_map.mpr ⟨i, List.mem_range.mpr hi, rfl⟩
  refine ⟨?_, ?_, ?_, ?_, ?_, ?_, ?_, ?_⟩
  · rw [← endpoints_v11]
    exact h.distinct
  · intro i hi
    exact h.known _ (List.mem_map.mpr ⟨_, hmem i hi, rfl⟩)
  · have hp := h.pages
    rw [regionRanges, compOffset_v11] at hp
    exact hp
  · rw [v11Emad, Nat.mul_zero, Nat.add_zero]
    exact hfirst
  · intro i _
    rw [v11Emad, v11Emad, Nat.mul_succ]
    omega
  · rw [v11Emad, Nat.mul_comm]
    exact hbehind
  · intro i hi
    rw [h.offsets _ (hmem i hi), compOffset_v11]
  · omega

theorem split_handle (h : ℕ) : h = h % 2 ^ 32 + h / 2 ^ 32 * 2 ^ 32 := by omega

theorem Settled.accepts (h : Settled P v u pre post o r objs') (hr : r = .successHandle low high) :
    ∃ x ∈ objs', Mtd.handle x.desc = low + high * 2 ^ 32 ∧ x.descFilled = x.descSize := by
  cases h with
  | gone he => exact absurd (he.symm.trans hr) (by simp)
  | pending he live partly => exact absurd (he.symm.trans hr) (by simp)
  | accepted he hu live full clear =>
    have heq := he.symm.trans hr
    simp only [Reply.successHandle.injEq] at heq
    refine ⟨o, List.mem_append_right _ List.mem_cons_self, ?_, full⟩
    rw [← heq.1, ← heq.2]
    exact split_handle _
  | @moved o' he hu layout whole live full unused handle ranges clear =>
    have heq := he.symm.trans hr
    simp only [Reply.successHandle.injEq] at heq
    refine ⟨o', List.mem_append_right _ List.mem_cons_self, ?_, full⟩
    rw [← heq.1, ← heq.2, handle]
    exact split_handle _
  | dropped he h => exact absurd (he.symm.trans hr) (by simp)

theorem event_handle (c : Call) (low high : ℕ) : event c (.successHandle low high) = .other := by
  cases c with
  | memRetrieveReq b => cases b <;> rfl
  | _ => rfl

theorem Change.accepts (h : Change P v u c r next objs next' objs')
    (hr : r = .successHandle low high) :
    ∃ x ∈ objs', Mtd.handle x.desc = low + high * 2 ^ 32 ∧ x.descFilled = x.descSize := by
  have hother : event c r = .other := by
    rw [hr]
    exact event_handle c low high
  cases h with
  | same hev hne =>
    rw [hr] at hne
    cases hne
  | sent hc handle unused size filledTo content settled => exact settled.accepts hr
  | filled hc found partly handle unused size filledTo content settled => exact settled.accepts hr
  | failed hc found partly he => exact absurd (he.symm.trans hr) (by simp)
  | viewed hc hns hev hne found full =>
    rw [hr] at hne
    cases hne
  | retrieved hc hev => exact absurd (hev.symm.trans hother) (by simp)
  | relinquished hc hev => exact absurd (hev.symm.trans hother) (by simp)
  | reclaimed hc hev => exact absurd (hev.symm.trans hother) (by simp)

theorem accepted_descriptor {b : Boot} {t : List (Call × Reply)} (hrun : Run P b.state t s)
    (hstep : spmcSmcHandler P s c = some (s', .successHandle low high)) :
    (∃ o ∈ liveObjects s'.store, Mtd.handle o.desc = low + high * 2 ^ 32 ∧ o.descFilled = o.descSize) ∧
      ∀ o ∈ liveObjects s'.store, o.descFilled = o.descSize →
        AcceptedDescriptor P o.desc o.descSize := by
  obtain ⟨objs, hinv, -⟩ := hrun.issued
  obtain ⟨objs', hinv', hchange, -⟩ := smcHandler_step hinv (fun _ _ _ _ => trivial) hstep
  rw [hinv'.stored.liveObjects_eq]
  exact ⟨hchange.accepts rfl, fun o ho hf => ((hinv'.live o ho).full hf).accepted⟩

theorem accepted_descriptor_v10 : ∃ t s s', Run onePartition (bootV11 512 (by decide)).state t s ∧
    spmcSmcHandler onePartition s (.memSend false false 96 96 0 0
      (descriptorV10 [0x8001] [(0x1000, 1), (0x8000, 2)])) =
        some (s', .successHandle 0xffffffc0 0) ∧
    (∃ o ∈ liveObjects s'.store, Mtd.handle o.desc = 0xffffffc0 + 0 * 2 ^ 32 ∧
      o.descFilled = o.descSize) ∧ ∀ o ∈ liveObjects s'.store, o.descFilled = o.descSize →
        AcceptedDescriptor onePartition o.desc o.descSize := by
  obtain ⟨t, s, r, s', hrun, hstep, hq⟩ := @execute_step onePartition
    (fun _ r _ => decide (r = .successHandle 0xffffffc0 0)) (bootV11 512 (by decide)).state
    (setUp 0x10000) (.memSend false false 96 96 0 0
      (descriptorV10 [0x8001] [(0x1000, 1), (0x8000, 2)])) (by decide +kernel)
  have hr := of_decide_eq_true hq
  subst hr
  exact ⟨t, s, s', hrun, hstep, accepted_descriptor hrun hstep⟩

/-- An address that is not page aligned, a range that wraps, and an endpoint that is no partition
are accepted. -/
theorem accepted_counterexample : ∃ t s s', Run onePartition (bootV11 512 (by decide)).state t s ∧
    spmcSmcHandler onePartition s (.memSend false false 112 112 0 0
      (descriptorV11 0 [0x8001, 5] [(0xfffffffffffff001, 1)])) =
        some (s', .successHandle 0xffffffc0 0) ∧
    ∃ o ∈ liveObjects s'.store,
      (∃ x ∈ CompMrd.ranges o.desc (compAddr o.desc), x.1 % 4096 ≠ 0) ∧
      (∃ x ∈ CompMrd.ranges o.desc (compAddr o.desc), 2 ^ 64 ≤ x.1 + 4096 * x.2) ∧
      ∃ i < Mtd.emadCount o.desc, Emad.endpointId o.desc (v11Emad o.desc i) ∉
        onePartition.spIds := by
  obtain ⟨t, s, r, s', hrun, hstep, hq⟩ := @execute_step onePartition
    (fun _ r s' => decide (r = .successHandle 0xffffffc0 0 ∧ ∃ o ∈ liveObjects s'.store,
      (∃ x ∈ CompMrd.ranges o.desc (compAddr o.desc), x.1 % 4096 ≠ 0) ∧
      (∃ x ∈ CompMrd.ranges o.desc (compAddr o.desc), 2 ^ 64 ≤ x.1 + 4096 * x.2) ∧
      ∃ i < Mtd.emadCount o.desc, Emad.endpointId o.desc (v11Emad o.desc i) ∉
        onePartition.spIds)) (bootV11 512 (by decide)).state (setUp 0x10001)
    (.memSend false false 112 112 0 0 (descriptorV11 0 [0x8001, 5] [(0xfffffffffffff001, 1)]))
    (by decide +kernel)
  obtain ⟨hr, hex⟩ := of_decide_eq_true hq
  subst hr
  exact ⟨t, s, s', hrun, hstep, hex⟩

end TrustedFirmware.Spmc
