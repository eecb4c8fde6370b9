import TrustedFirmware.Spmd.FfaVersion

/-! # What the normal world sees after FFA_VERSION

The answer to a forwarded request goes back through `spmd_smc_switch_state`,
which takes the result value for a function identifier. Two kinds of results are
then mistaken for something else: the value of FFA_NORMAL_WORLD_RESUME, and, for
a normal world of version 1.2 or later, any value with bit 30 set, which the error
FFA_ERROR_NOT_SUPPORTED of a malformed answer is. The second overwrites X8 to X17
of the caller, with zeros or with the SPMC's registers. -/
namespace TrustedFirmware.Spmd
open El3Runtime Smccc
set_option autoImplicit false

/-! ## The claim's view of a call -/

/-- The answer of the SPMC to the message for a request. -/
def answer (spmc : Spmc) (s : Dispatcher) (x1 x2 : Reg) : GpRegs × Reg :=
  spmc (versionMessage s (x1.setWidth 32) (x2.setWidth 32))

def versionResult (spmc : Spmc) (s : Dispatcher) (x1 x2 : Reg) : BitVec 32 :=
  match versionDecision s false x1 x2 with
  | .answer ret => ret
  | .forward => answerResult (answer spmc s x1 x2).1 (answer spmc s x1 x2).2

/-- The caller resumes with the result in X0, zeros in X1 to X7 and its own X8 to X17. -/
def ReturnsFrame (before after : GpRegs) (result : BitVec 32) : Prop :=
  after 0 = result.setWidth 64 ∧ (∀ i : Fin 31, 1 ≤ i.val → i.val ≤ 7 → after i = 0) ∧
    ∀ i : Fin 31, 8 ≤ i.val → i.val ≤ 17 → after i = before i

def nsView (s : Dispatcher) : GpRegs × BitVec 32 := (s.nonSecure, s.nonsecureFfaVersion)

/-- Two answers that agree on what determines the result: the return code, the function
identifier, the message type and the version. -/
def SameAnswer (a b : GpRegs × Reg) : Prop :=
  a.2 = b.2 ∧ a.1 0 = b.1 0 ∧ a.1 2 = b.1 2 ∧ a.1 3 = b.1 3

/-- The normal world's version once the answer is known. -/
def nsVersionAfter (spmc : Spmc) (s : Dispatcher) (x1 x2 : Reg) : BitVec 32 :=
  let a := answer spmc s x1 x2
  if spmdFfaVersionResponseIsValid a.1 a.2 then
    (spmdTrySetNonsecureFfaVersion s (x2.setWidth 32 &&& FFA_VERSION_QUERY_TYPE_MASK)
      (x1.setWidth 32) (answerResult a.1 a.2)).nonsecureFfaVersion
  else s.nonsecureFfaVersion

def Widened (spmc : Spmc) (s : Dispatcher) (x1 x2 : Reg) : Prop :=
  (versionResult spmc s x1 x2).getLsbD 30 = true ∧
    makeFfaVersion 1 2 ≤ nsVersionAfter spmc s x1 x2

instance (spmc : Spmc) (s : Dispatcher) (x1 x2 : Reg) : Decidable (Widened spmc s x1 x2) :=
  inferInstanceAs (Decidable (_ ∧ _))

def widenedReg (spmc : Spmc) (s : Dispatcher) (x1 x2 : Reg) (i : Fin 31) : Reg :=
  if spmcVersion s < makeFfaVersion 1 2 then 0 else (answer spmc s x1 x2).1 i

/-- The condition under which the caller's frame is kept. -/
def FrameKept (spmc : Spmc) (s : Dispatcher) (x1 x2 : Reg) : Prop :=
  versionDecision s false x1 x2 = .forward →
    versionResult spmc s x1 x2 ≠ FFA_NORMAL_WORLD_RESUME ∧
    (Widened spmc s x1 x2 → ∀ i : Fin 31, 8 ≤ i.val → i.val ≤ 17 →
      widenedReg spmc s x1 x2 i = s.nonSecure i)

/-- The SPMC's X8 to X17 reach the caller. -/
def PassesThrough (spmc : Spmc) (s : Dispatcher) (x1 x2 : Reg) : Prop :=
  versionDecision s false x1 x2 = .forward ∧
    versionResult spmc s x1 x2 ≠ FFA_NORMAL_WORLD_RESUME ∧ Widened spmc s x1 x2 ∧
    ¬ spmcVersion s < makeFfaVersion 1 2

/-! ## The registers that a forwarded call leaves -/

theorem trySet_frame (s : Dispatcher) (q r v : BitVec 32) :
    (spmdTrySetNonsecureFfaVersion s q r v).nonSecure = s.nonSecure ∧
    spmcVersion (spmdTrySetNonsecureFfaVersion s q r v) = spmcVersion s := by
  unfold spmdTrySetNonsecureFfaVersion
  split_ifs <;> exact ⟨rfl, rfl⟩

theorem cc_iff (v : BitVec 32) : (v >>> FUNCID_CC_SHIFT) &&& 1 = SMC_64 ↔ v.getLsbD 30 = true := by
  have h := BitVec.and_one_eq_setWidth_ofBool_getLsbD (x := v >>> FUNCID_CC_SHIFT)
  change (v >>> FUNCID_CC_SHIFT) &&& 1#32 = SMC_64 ↔ _
  rw [h, BitVec.getLsbD_ushiftRight, FUNCID_CC_SHIFT, Nat.add_zero]
  cases v.getLsbD 30 <;> decide

theorem spmc_not_1_0 {s : Dispatcher} (h : makeFfaVersion 1 1 ≤ spmcVersion s) :
    ¬ (s.majorVersion = 1 ∧ s.minorVersion = 0) := by
  rintro ⟨hM, hm⟩
  rw [spmcVersion, hM, hm] at h
  exact absurd h (by decide)

def forwardedReg (spmc : Spmc) (s : Dispatcher) (x1 x2 : Reg) (i : Fin 31) : Reg :=
  if versionResult spmc s x1 x2 = FFA_NORMAL_WORLD_RESUME then s.nonSecure i
  else if i.val = 0 then (versionResult spmc s x1 x2).setWidth 64
  else if i.val ≤ 7 then 0
  else if i.val ≤ 17 ∧ Widened spmc s x1 x2 then widenedReg spmc s x1 x2 i
  else s.nonSecure i

theorem switchState_reg (sel2 : Bool) (s : Dispatcher) (fid : BitVec 32) (handle : GpRegs)
    (hint : Bool) (version : BitVec 32) (h5 : handle 5 = 0) (h6 : handle 6 = 0)
    (h7 : handle 7 = 0) (i : Fin 31) :
    (spmdSmcSwitchState sel2 s fid true 0 0 0 0 handle hint version).nonSecure i =
      if fid = FFA_NORMAL_WORLD_RESUME then s.nonSecure i
      else if i.val = 0 then fid.setWidth 64
      else if i.val ≤ 7 then 0
      else if i.val ≤ 17 ∧ fid.getLsbD 30 = true ∧
          makeFfaVersion 1 2 ≤ s.nonsecureFfaVersion then
        if version < makeFfaVersion 1 2 then 0 else handle i
      else s.nonSecure i := by
  simp only [spmdSmcSwitchState, cc_iff, Bool.not_true, Bool.and_false, Bool.false_and, if_true,
    Bool.false_eq_true, if_false, h5, h6, h7]
  by_cases hres : fid = FFA_NORMAL_WORLD_RESUME
  · rw [if_pos hres, if_pos hres]
  rw [if_neg hres, if_neg hres]
  by_cases hw : fid.getLsbD 30 = true ∧ makeFfaVersion 1 2 ≤ s.nonsecureFfaVersion
  · rw [if_pos hw]
    simp only [hw, and_true]
    by_cases hv : version < makeFfaVersion 1 2
    · rw [if_pos hv, if_pos hv, smcRet, writeGpFrom_get]
      fin_cases i <;> rfl
    · rw [if_neg hv, if_neg hv, smcRet, writeGpFrom_get]
      fin_cases i <;> rfl
  · rw [if_neg hw]
    simp only [hw, and_false, if_false]
    rw [smcRet, writeGpFrom_get]
    fin_cases i <;> rfl

theorem forward_eq (sel2 : Bool) (spmc : Spmc) (s : Dispatcher) (x1 x2 : Reg) (hint : Bool)
    (hspmc : makeFfaVersion 1 1 ≤ spmcVersion s)
    (hf : versionDecision s false x1 x2 = .forward) :
    nsView (spmdFfaVersionHandler sel2 spmc s false x1 x2 hint) =
      (forwardedReg spmc s x1 x2, nsVersionAfter spmc s x1 x2) := by
  obtain ⟨back, rc, ha⟩ : ∃ back rc, answer spmc s x1 x2 = (back, rc) := ⟨_, _, rfl⟩
  have hret : versionResult spmc s x1 x2 = answerResult back rc := by
    rw [versionResult, hf, ha]
  have ha' : spmc (versionMessage s (x1.setWidth 32) (x2.setWidth 32)) = (back, rc) := ha
  simp only [spmdFfaVersionHandler, hf, spmdForwardFfaVersion, if_neg (spmc_not_1_0 hspmc), ha',
    ← hret]
  -- the dispatcher after the negotiation, before the switch
  generalize ht : (if spmdFfaVersionResponseIsValid back rc then
      spmdTrySetNonsecureFfaVersion s (x2.setWidth 32 &&& FFA_VERSION_QUERY_TYPE_MASK)
        (x1.setWidth 32) (versionResult spmc s x1 x2)
      else s) = t
  have hns : t.nonSecure = s.nonSecure := by
    rw [← ht]; split_ifs
    · exact (trySet_frame _ _ _ _).1
    · rfl
  have hver : spmcVersion t = spmcVersion s := by
    rw [← ht]; split_ifs
    · exact (trySet_frame _ _ _ _).2
    · rfl
  have hnv : t.nonsecureFfaVersion = nsVersionAfter spmc s x1 x2 := by
    rw [← ht, nsVersionAfter, ha, ← hret]; split_ifs <;> rfl
  refine Prod.ext ?_ hnv
  funext i
  change (spmdSmcSwitchState sel2 { t with secure := writeGpFrom back 5 [0, 0, 0] } _ true 0 0 0 0
    (writeGpFrom back 5 [0, 0, 0]) hint (spmcVersion t)).nonSecure i = _
  rw [switchState_reg _ _ _ _ _ _ rfl rfl rfl, hver]
  change (if _ then t.nonSecure i else if _ then _ else if _ then _ else
    if i.val ≤ 17 ∧ _ ∧ makeFfaVersion 1 2 ≤ t.nonsecureFfaVersion then _ else t.nonSecure i) = _
  rw [hns, hnv]
  simp only [forwardedReg, Widened, widenedReg, ha]
  -- X5 to X7 of the SPMC's registers were cleared, the ones above are the SPMC's
  by_cases h7 : i.val ≤ 7
  · simp [h7]
  · have hb : writeGpFrom back 5 [0, 0, 0] i = back i := by
      rw [writeGpFrom_get, if_neg (by simp only [List.length_cons, List.length_nil]; omega)]
    rw [hb]

/-! ## The frame and the two runs -/

theorem local_eq (sel2 : Bool) (spmc : Spmc) (s : Dispatcher) (x1 x2 : Reg) (hint : Bool)
    {ret : BitVec 32} (hd : versionDecision s false x1 x2 = .answer ret) :
    spmdFfaVersionHandler sel2 spmc s false x1 x2 hint =
      { s with nonSecure := smcRet s.nonSecure [ret.setWidth 64, 0, 0, 0, 0, 0, 0, 0] } := by
  simp only [spmdFfaVersionHandler, hd]
  rfl

theorem local_frame (g : GpRegs) (ret : BitVec 32) :
    ReturnsFrame g (smcRet g [ret.setWidth 64, 0, 0, 0, 0, 0, 0, 0]) ret := by
  refine ⟨rfl, ?_, ?_⟩
  · intro i h1 h7
    rw [smcRet, writeGpFrom_get]
    fin_cases i <;> first | rfl | exact absurd h1 (by decide) | exact absurd h7 (by decide)
  · intro i h8 _
    rw [smcRet, writeGpFrom_get, if_neg (by simp only [List.length_cons, List.length_nil]; omega)]

theorem x0_ne_resume {g : GpRegs} (hfid : (g 0).setWidth 32 &&& ~~~(1#32 <<< FUNCID_SVE_HINT_SHIFT) =
    FFA_VERSION) : g 0 ≠ FFA_NORMAL_WORLD_RESUME.setWidth 64 := by
  intro h
  rw [h] at hfid
  exact absurd hfid (by decide)

theorem forwardedReg_high {spmc : Spmc} {s : Dispatcher} {x1 x2 : Reg}
    (hres : versionResult spmc s x1 x2 ≠ FFA_NORMAL_WORLD_RESUME) {i : Fin 31} (h8 : 8 ≤ i.val)
    (h17 : i.val ≤ 17) :
    forwardedReg spmc s x1 x2 i =
      if Widened spmc s x1 x2 then widenedReg spmc s x1 x2 i else s.nonSecure i := by
  rw [forwardedReg, if_neg hres, if_neg (by omega), if_neg (by omega)]
  simp only [h17, true_and]

theorem forward_frame_iff {spmc : Spmc} {s : Dispatcher} {x1 x2 : Reg}
    (hf : versionDecision s false x1 x2 = .forward)
    (hfid : (s.nonSecure 0).setWidth 32 &&& ~~~(1#32 <<< FUNCID_SVE_HINT_SHIFT) = FFA_VERSION) :
    ReturnsFrame s.nonSecure (forwardedReg spmc s x1 x2) (versionResult spmc s x1 x2) ↔
      FrameKept spmc s x1 x2 := by
  by_cases hres : versionResult spmc s x1 x2 = FFA_NORMAL_WORLD_RESUME
  · constructor
    · rintro ⟨h0, -, -⟩
      rw [forwardedReg, if_pos hres, hres] at h0
      exact absurd h0 (x0_ne_resume hfid)
    · intro hk
      exact absurd hres (hk hf).1
  constructor
  · rintro ⟨-, -, h8⟩ -
    refine ⟨hres, ?_⟩
    intro hw i hi hi'
    have h := h8 i hi hi'
    rw [forwardedReg_high hres hi hi', if_pos hw] at h
    exact h
  · intro hk
    refine ⟨?_, ?_, ?_⟩
    · simp [forwardedReg, hres]
    · intro i h1 h7
      rw [forwardedReg, if_neg hres, if_neg (by omega), if_pos h7]
    · intro i h8 h17
      rw [forwardedReg_high hres h8 h17]
      by_cases hw : Widened spmc s x1 x2
      · rw [if_pos hw]
        exact (hk hf).2 hw i h8 h17
      · rw [if_neg hw]

theorem sameAnswer_valid {a b : GpRegs × Reg} (h : SameAnswer a b) :
    spmdFfaVersionResponseIsValid a.1 a.2 = spmdFfaVersionResponseIsValid b.1 b.2 ∧
    answerResult a.1 a.2 = answerResult b.1 b.2 := by
  obtain ⟨hrc, h0, h2, h3⟩ := h
  have hv : spmdFfaVersionResponseIsValid a.1 a.2 = spmdFfaVersionResponseIsValid b.1 b.2 := by
    simp only [spmdFfaVersionResponseIsValid, hrc, h0, h2]
  exact ⟨hv, by rw [answerResult, answerResult, hv, h3]⟩

theorem same_result {spmc spmc' : Spmc} {s : Dispatcher} {x1 x2 : Reg}
    (h : SameAnswer (answer spmc s x1 x2) (answer spmc' s x1 x2)) :
    versionResult spmc s x1 x2 = versionResult spmc' s x1 x2 ∧
    nsVersionAfter spmc s x1 x2 = nsVersionAfter spmc' s x1 x2 := by
  obtain ⟨hv, hr⟩ := sameAnswer_valid h
  constructor
  · unfold versionResult
    rw [hr]
  · simp only [nsVersionAfter, hv, hr]

theorem forwardedReg_eq_iff {spmc spmc' : Spmc} {s : Dispatcher} {x1 x2 : Reg}
    (hf : versionDecision s false x1 x2 = .forward)
    (h : SameAnswer (answer spmc s x1 x2) (answer spmc' s x1 x2)) :
    forwardedReg spmc s x1 x2 = forwardedReg spmc' s x1 x2 ↔
      (PassesThrough spmc s x1 x2 → ∀ i : Fin 31, 8 ≤ i.val → i.val ≤ 17 →
        (answer spmc s x1 x2).1 i = (answer spmc' s x1 x2).1 i) := by
  obtain ⟨hr, hn⟩ := same_result h
  have hw : Widened spmc s x1 x2 ↔ Widened spmc' s x1 x2 := by
    rw [Widened, Widened, hr, hn]
  constructor
  · rintro he ⟨-, hres, hwide, hver⟩ i h8 h17
    have hi := congrFun he i
    rw [forwardedReg_high hres h8 h17, forwardedReg_high (hr ▸ hres) h8 h17, if_pos hwide,
      if_pos (hw.mp hwide), widenedReg, widenedReg, if_neg hver, if_neg hver] at hi
    exact hi
  · intro hsame
    funext i
    unfold forwardedReg
    rw [← hr]
    split_ifs with hres h0 h7 hwide hwide' hwide'
    · rfl
    · rfl
    · rfl
    · -- a widened answer: zeros, or the registers that both SPMCs left
      rw [widenedReg, widenedReg]
      split_ifs with hver
      · rfl
      · exact hsame ⟨hf, hres, hwide.2, hver⟩ i (by omega) hwide.1
    · exact absurd ⟨hwide.1, hw.mp hwide.2⟩ hwide'
    · exact absurd ⟨hwide'.1, hw.mpr hwide'.2⟩ hwide
    · rfl

/-- **FFA_VERSION and the normal world.** For every non-secure call and every answer of an SPMC of
version 1.1 or later, the caller's frame is kept exactly under `FrameKept`, and two runs whose
answers determine the same result look alike exactly when the SPMC's X8 to X17 do not pass through,
or are equal. -/
theorem version_frame_iff (sel2 : Bool) (spmc : Spmc) (s : Dispatcher) (x1 x2 : Reg) (hint : Bool)
    (hspmc : makeFfaVersion 1 1 ≤ spmcVersion s)
    (hfid : (s.nonSecure 0).setWidth 32 &&& ~~~(1#32 <<< FUNCID_SVE_HINT_SHIFT) = FFA_VERSION) :
    (ReturnsFrame s.nonSecure (spmdFfaVersionHandler sel2 spmc s false x1 x2 hint).nonSecure
      (versionResult spmc s x1 x2) ↔ FrameKept spmc s x1 x2) ∧
    (∀ spmc', SameAnswer (answer spmc s x1 x2) (answer spmc' s x1 x2) →
      (nsView (spmdFfaVersionHandler sel2 spmc s false x1 x2 hint) =
        nsView (spmdFfaVersionHandler sel2 spmc' s false x1 x2 hint) ↔
      (PassesThrough spmc s x1 x2 → ∀ i : Fin 31, 8 ≤ i.val → i.val ≤ 17 →
        (answer spmc s x1 x2).1 i = (answer spmc' s x1 x2).1 i))) := by
  cases hd : versionDecision s false x1 x2 with
  | answer ret =>
    have hr : versionResult spmc s x1 x2 = ret := by rw [versionResult, hd]
    refine ⟨?_, ?_⟩
    · rw [local_eq sel2 spmc s x1 x2 hint hd, hr]
      refine ⟨fun _ hf => ?_, fun _ => local_frame _ _⟩
      rw [hd] at hf
      cases hf
    · intro spmc' _
      rw [local_eq sel2 spmc s x1 x2 hint hd, local_eq sel2 spmc' s x1 x2 hint hd]
      refine ⟨fun _ hp => ?_, fun _ => rfl⟩
      rw [PassesThrough, hd] at hp
      cases hp.1
  | forward =>
    have he := forward_eq sel2 spmc s x1 x2 hint hspmc hd
    refine ⟨?_, ?_⟩
    · have hns : (spmdFfaVersionHandler sel2 spmc s false x1 x2 hint).nonSecure =
          forwardedReg spmc s x1 x2 := congrArg Prod.fst he
      rw [hns]
      exact forward_frame_iff hd hfid
    · intro spmc' hsame
      rw [he, forward_eq sel2 spmc' s x1 x2 hint hspmc hd, ← forwardedReg_eq_iff hd hsame,
        Prod.mk.injEq]
      exact ⟨fun h => h.1, fun h => ⟨h, (same_result hsame).2⟩⟩

/-! ## An SPMC and a normal world of version 1.2 -/

/-- A caller with the given value in X8. -/
def caller (x8 : Reg) : GpRegs :=
  fun i => if i = 0 then FFA_VERSION.setWidth 64 else if i = 8 then x8 else 0

def dispatcher12 : Dispatcher :=
  ⟨makeFfaVersion 1 2, false, 1, 2, 0x8000, .on, fun _ => 0, caller 0⟩

/-- A well-formed answer with version 1.2. -/
def goodSpmc : Spmc := fun _ =>
  (fun i => if i = 0 then FFA_MSG_SEND_DIRECT_RESP_SMC32 else if i = 2 then 0x80000009
    else if i = 3 then 0x10002 else 7, 0)

def badSpmc (x8 : Reg) : Spmc := fun _ => (fun i => if i = 8 then x8 else 0, 0)

theorem version_frame_good :
    ReturnsFrame (caller 0) (spmdFfaVersionHandler true goodSpmc dispatcher12 false 0x10002 0
      false).nonSecure 0x10002 := by
  refine (version_frame_iff true goodSpmc dispatcher12 0x10002 0 false (by decide)
    (by decide)).1.mpr ?_
  intro _
  refine ⟨by decide, ?_⟩
  rintro ⟨hbit, -⟩
  exact absurd hbit (by decide)

/-- A malformed answer: the caller's X8 is replaced by the SPMC's, and two runs that differ in that
register alone are told apart. -/
theorem error_answer_leaks :
    ¬ ReturnsFrame (caller 0) (spmdFfaVersionHandler true (badSpmc 1) dispatcher12 false 0x10002 0
        false).nonSecure (versionResult (badSpmc 1) dispatcher12 0x10002 0) ∧
    SameAnswer (answer (badSpmc 0) dispatcher12 0x10002 0)
      (answer (badSpmc 1) dispatcher12 0x10002 0) ∧
    nsView (spmdFfaVersionHandler true (badSpmc 0) dispatcher12 false 0x10002 0 false) ≠
      nsView (spmdFfaVersionHandler true (badSpmc 1) dispatcher12 false 0x10002 0 false) := by
  refine ⟨?_, ⟨rfl, rfl, rfl, rfl⟩, ?_⟩
  · rintro ⟨-, -, h8⟩
    exact absurd (h8 8 (by decide) (by decide)) (by decide)
  · intro h
    exact absurd (congrFun (congrArg Prod.fst h) 8) (by decide)

end TrustedFirmware.Spmd
