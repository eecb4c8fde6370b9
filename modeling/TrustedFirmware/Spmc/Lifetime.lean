import Mathlib.Data.List.Nodup
import TrustedFirmware.Spmc.Execution
import TrustedFirmware.Spmc.Handles

/-! # The lifetime of a memory object

Once all of its descriptor has been received an object stays as it is, whoever calls whatever, until the
normal world reclaims it; its handle then names no object any more. -/
namespace TrustedFirmware.Spmc
open ByteMemory
set_option autoImplicit false

variable {P : Platform} {s s' : State} {r : Reply} {c : Call} {objs objs' : List Obj} {o : Obj}
  {v u n k next next' : ℕ}

def ReclaimedIn (t : List (Call × Reply)) (k : ℕ) : Prop :=
  ∃ a ∈ t, event a.1 a.2 = .reclaimed k ∧ a.1.secureOrigin = false

theorem reclaimedIn_snoc {t : List (Call × Reply)} : ReclaimedIn (t ++ [(c, r)]) k ↔
    ReclaimedIn t k ∨ event c r = .reclaimed k ∧ c.secureOrigin = false := by
  simp only [ReclaimedIn, List.mem_append, List.mem_singleton, or_and_right, exists_or, exists_eq_left]

theorem reclaimed_handle (h : event c r = .reclaimed k) : c.handle = some k := by
  cases c with
  | memReclaim => cases r <;> simp_all [event, Call.handle]
  | memRetrieveReq b => cases b <;> cases r <;> simp [event] at h
  | _ => cases r <;> simp [event] at h

/-- A call that does not reclaim a complete object keeps it, and one that does comes from the normal
world and takes its handle away. -/
theorem Change.keeps_full (h : Change P v u c r next objs next' objs')
    (hfresh : c.isSend = true → next ∉ handles objs) (hd : (handles objs).Nodup) (ho : o ∈ objs)
    (hfull : o.descFilled = o.descSize) :
    (event c r ≠ .reclaimed (Mtd.handle o.desc) ∧ ∃ y ∈ objs', y.body = o.body) ∨
      event c r = .reclaimed (Mtd.handle o.desc) ∧ c.secureOrigin = false ∧
        Mtd.handle o.desc ∉ handles objs' := by
  by_cases hsub : subject c next = some (Mtd.handle o.desc)
  swap
  · have hmem : o ∈ others (subject c next) objs := List.mem_filter.mpr ⟨ho, decide_eq_true hsub⟩
    rw [← h.others_eq] at hmem
    exact .inl ⟨fun hev => hsub (subject_of_handle (reclaimed_handle hev)), o,
      (List.mem_filter.mp hmem).1, rfl⟩
  -- The call names the object, which is the only one with its handle.
  have hself : ∀ {k pre x post}, Found objs k pre x post → c.handle = some k →
      k = Mtd.handle o.desc ∧ x = o := by
    intro k pre x post found hc
    obtain rfl := Option.some.inj ((subject_of_handle hc).symm.trans hsub)
    exact ⟨rfl, List.inj_on_of_nodup_map hd found.mem ho found.handle⟩
  cases h with
  | same hev => exact .inl ⟨by rw [hev]; simp, o, ho, rfl⟩
  | sent hc =>
    have hnext : subject c next = some next := by rw [hc]; rfl
    refine absurd (mem_handles.mpr ⟨o, ho, rfl⟩) ?_
    rw [← Option.some.inj (hnext.symm.trans hsub)]
    exact hfresh (by rw [hc]; rfl)
  | filled hc found partly =>
    obtain ⟨-, rfl⟩ := hself found (by rw [hc]; rfl)
    exact absurd hfull partly
  | failed hc found partly =>
    obtain ⟨-, rfl⟩ := hself found (by rw [hc]; rfl)
    exact absurd hfull partly
  | retrieved hc hev found =>
    obtain ⟨-, rfl⟩ := hself found hc
    exact .inl ⟨by rw [hev]; simp, _, List.mem_append_right _ List.mem_cons_self, rfl⟩
  | viewed hc _ hev _ found =>
    obtain ⟨-, rfl⟩ := hself found hc
    exact .inl ⟨by rw [hev]; simp, _, List.mem_append_right _ List.mem_cons_self, rfl⟩
  | relinquished hc hev found =>
    obtain ⟨-, rfl⟩ := hself found hc
    exact .inl ⟨by rw [hev]; simp, _, List.mem_append_right _ List.mem_cons_self, rfl⟩
  | reclaimed hc hev found _ _ hns =>
    obtain ⟨rfl, -⟩ := hself found hc
    exact .inr ⟨hev, hns, (found.nodup hd).1⟩

/-- A handle that has been issued and is not in use is not issued again. -/
theorem Change.keeps_gone (h : Change P v u c r next objs next' objs') (hi : Issued n next objs)
    (hn : c.isSend = true → n < 2 ^ 64) {i : ℕ} (hin : i < n) (hgone : handleAt i ∉ handles objs) :
    handleAt i ∉ handles objs' := by
  intro hmem
  rcases h.handles_cases (fun hc => hi.fresh (hn hc)) hi.nodup with ⟨-, hsub⟩ | ⟨hc, -, hsub⟩
  · exact hgone (hsub.subset hmem)
  · rcases List.mem_cons.mp (hsub.subset hmem) with heq | hold
    · have hlt := hn hc
      have := handleAt_inj (by omega) hlt (heq.trans hi.next)
      omega
    · exact hgone hold

/-- **An accepted object does not change** until it is reclaimed, and from then on no object has its
handle. -/
theorem accepted_object_lifetime {b : Boot} {t t' : List (Call × Reply)} (hrun : Run P b.state t s)
    (hrest : Run P s t' s') (hsends : sends t + sends t' ≤ 2 ^ 64) (ho : o ∈ liveObjects s.store)
    (hfull : o.descFilled = o.descSize) :
    (¬ ReclaimedIn t' (Mtd.handle o.desc) → ∃ y ∈ liveObjects s'.store, y.body = o.body) ∧
      (ReclaimedIn t' (Mtd.handle o.desc) → Mtd.handle o.desc ∉ handles (liveObjects s'.store)) := by
  have hinv : ∃ objs n, Inv P (fun _ => True) s' objs ∧ n ≤ sends t + sends t' ∧
      Issued n s'.store.nextHandle objs ∧ (∃ i < n, Mtd.handle o.desc = handleAt i) ∧
      (¬ ReclaimedIn t' (Mtd.handle o.desc) ∧ (∃ y ∈ objs, y.body = o.body) ∨
        ReclaimedIn t' (Mtd.handle o.desc) ∧ Mtd.handle o.desc ∉ handles objs) := by
    induction hrest with
    | nil =>
      obtain ⟨objs, hinv, -, hissued⟩ := hrun.issued
      obtain ⟨n, hn, hi⟩ := hissued (by omega)
      rw [hinv.stored.liveObjects_eq] at ho
      exact ⟨objs, n, hinv, by omega, hi, hi.old _ (mem_handles.mpr ⟨o, ho, rfl⟩),
        .inl ⟨by simp [ReclaimedIn], o, ho, rfl⟩⟩
    | @snoc t' u u' c r run _ hstep ih =>
      rw [sends_snoc] at hsends ⊢
      obtain ⟨objs, n, hinv, hn, hi, ⟨i, hin, hk⟩, h⟩ := ih (by omega)
      obtain ⟨objs', hinv', hchange, -⟩ := smcHandler_step hinv (fun _ _ _ _ => trivial) hstep
      have hroom : c.isSend = true → n < 2 ^ 64 := fun hc => by
        rw [if_pos hc] at hsends
        omega
      obtain ⟨n', hle, hn', hi'⟩ := hchange.issued hi hroom
      refine ⟨objs', n', hinv', by omega, hi', ⟨i, by omega, hk⟩, ?_⟩
      rw [reclaimedIn_snoc]
      rcases h with ⟨hnot, y, hy, hbody⟩ | ⟨hrec, hgone⟩
      · have hdesc : y.desc = o.desc := congrArg (fun x => x.2.2) hbody
        have hyfull : y.descFilled = y.descSize :=
          (congrArg (fun x => x.2.1) hbody).trans (hfull.trans (congrArg Prod.fst hbody).symm)
        have hkeeps := hchange.keeps_full (fun hc => hi.fresh (hroom hc)) hi.nodup hy hyfull
        rw [hdesc] at hkeeps
        rcases hkeeps with ⟨hev, y', hy', hbody'⟩ | ⟨hev, hns, hgone⟩
        · exact .inl ⟨not_or.mpr ⟨hnot, fun h => hev h.1⟩, y', hy', hbody'.trans hbody⟩
        · exact .inr ⟨.inr ⟨hev, hns⟩, hgone⟩
      · refine .inr ⟨.inl hrec, ?_⟩
        rw [hk] at hgone ⊢
        exact hchange.keeps_gone hi hroom hin hgone
  obtain ⟨objs, n, hinv, -, -, -, h⟩ := hinv
  rw [hinv.stored.liveObjects_eq]
  rcases h with ⟨hnot, hkept⟩ | ⟨hrec, hgone⟩
  · exact ⟨fun _ => hkept, fun hrec => absurd hrec hnot⟩
  · exact ⟨fun hnot => absurd hrec hnot, fun _ => hgone⟩

theorem accepted_object_lifetime_reclaimed : ∃ t s o t' s',
    Run onePartition (bootV11 256 (by decide)).state t s ∧ o ∈ liveObjects s.store ∧
    Run onePartition s t' s' ∧ ReclaimedIn t' (Mtd.handle o.desc) ∧
    Mtd.handle o.desc ∉ handles (liveObjects s'.store) := by
  obtain ⟨t, s, hrun, hq⟩ := @execute_run onePartition (fun t s => decide (sends t ≤ 1) &&
      ((liveObjects s.store).any fun o => o.descFilled == o.descSize) &&
      (spmcSmcHandler onePartition s (.memReclaim false 0xffffffc0 0 0)).any
        fun x => (liveObjects x.1.store).isEmpty) (bootV11 256 (by decide)).state
    (setUp 0x10001 ++ [.memSend false false 96 96 0 0 (descriptorV11 0 [0x8001] [(0x1000, 1)])])
    (by decide +kernel)
  simp only [Bool.and_eq_true, decide_eq_true_eq, List.any_eq_true, beq_iff_eq, Option.any_eq_true,
    List.isEmpty_iff] at hq
  obtain ⟨⟨hsends, o, ho, hfull⟩, ⟨s', r⟩, hstep, hempty⟩ := hq
  have hrest : Run onePartition s [(.memReclaim false 0xffffffc0 0 0, r)] s' := .snoc .nil trivial hstep
  have hlast : sends [((.memReclaim false 0xffffffc0 0 0 : Call), r)] = 0 := rfl
  have hlife := accepted_object_lifetime hrun hrest (by omega) ho hfull
  -- Nothing is left, so the object has been reclaimed.
  have hkept : ¬ ∃ y ∈ liveObjects s'.store, y.body = o.body := by
    rintro ⟨y, hy, -⟩
    rw [hempty] at hy
    cases hy
  have hrec := not_imp_comm.mp hlife.1 hkept
  exact ⟨t, s, o, _, s', hrun, ho, hrest, hrec, hlife.2 hrec⟩

end TrustedFirmware.Spmc
