import TrustedFirmware.RuntimeSvc.Descriptors
import TrustedFirmware.Foundations.Words
import TrustedFirmware.Common

/-! # Dispatching an SMC

The AArch64 part of `common/runtime_svc.c`: the lookup of the handler, the flags
that describe the caller, `sync_handler` and the SMC classes of
`handler_sync_exception`.

`sync_handler` clears the SVE hint bit of the function identifier and computes
the flags from the cleared identifier. The flags thus never carry the hint, and
a service that asks `is_sve_hint_set` is always told that the caller has live SVE
state. -/
namespace TrustedFirmware.RuntimeSvc
open El3Runtime BitFields Smccc
set_option autoImplicit false

/-! ## Flags -/

def SCR_NS_BIT : Reg := BitVec.twoPow 64 0
def SCR_NSE_SHIFT : ℕ := 62
def SCR_NSE_BIT : Reg := BitVec.twoPow 64 SCR_NSE_SHIFT
def SMC_UNK : Reg := BitVec.ofInt 64 (-1)
def SMC_FROM_SECURE : Reg := 0
def SMC_FROM_NON_SECURE : Reg := 1
def SMC_FROM_REALM : Reg := 0x21
def SMC_FROM_MASK : Reg := 0x21

/-- `MASK(FUNCID_SVE_HINT)`. -/
def sveHintMask : Reg := mask FUNCID_SVE_HINT_SHIFT FUNCID_SVE_HINT_WIDTH

/-- `rmm` is the build option `ENABLE_RMM`. -/
def getFlags (rmm : Bool) (smcFid : BitVec 32) (scrEl3 : Reg) : Reg :=
  let flags := scrEl3 &&& SCR_NS_BIT
  let flags := if rmm then
      flags ||| (((scrEl3 &&& SCR_NSE_BIT) >>> SCR_NSE_SHIFT) <<< 5)
    else flags
  flags ||| (smcFid.setWidth 64 &&& sveHintMask)

def callerSecState (flags : Reg) : Reg := flags &&& SMC_FROM_MASK

def isSveHintSet (flags : Reg) : Bool :=
  (flags &&& (1 <<< FUNCID_SVE_HINT_SHIFT)) != 0

/-! ## The handler -/

structure HandlerCall (H : Type) where
  handler : H
  smcFid : BitVec 32
  x1 : Reg
  x2 : Reg
  x3 : Reg
  x4 : Reg
  cookie : Reg
  ctx : CpuContext
  flags : Reg

/-- What an exception did: the context it left and the handlers it called, in order. -/
structure Effect (H : Type) where
  ctx : CpuContext
  calls : List (HandlerCall H)

/-- `assertion` stands for a failed assertion, `notSmc` for the exception classes that other parts
of the firmware handle. -/
inductive Outcome (H : Type) where
  | done (e : Effect H)
  | assertion
  | notSmc

inductive Lookup (H : Type) where
  | found (h : H)
  | missing
  | assertion

structure Firmware (H : Type) where
  rmm : Bool
  aarch32Regs : Bool
  descs : List (RtSvcDesc H)
  indices : Indices
  exec : HandlerCall H → CpuContext

variable {H : Type}

def getHandlerForSmcFid (fw : Firmware H) (smcFid : BitVec 32) : Lookup H :=
  let idx := (getUniqueOenFromSmcFid smcFid).toNat
  if idx < MAX_RT_SVCS then
    let index := (fw.indices idx).toNat
    match fw.descs[index]? with
    | none => .missing
    | some d =>
      match d.handle with
      | some h => .found h
      | none => .assertion
  else .assertion

def smcUnknown (ctx : CpuContext) : CpuContext := { ctx with gpregs := writeGp ctx.gpregs 0 SMC_UNK }

/-- `smc_fid &= ~MASK(FUNCID_SVE_HINT)`. -/
def clearHint (smcFid : BitVec 32) : BitVec 32 := smcFid &&& (~~~ sveHintMask).setWidth 32

def syncHandler (fw : Firmware H) (ctx : CpuContext) (smcFid : BitVec 32) (scrEl3 : Reg) :
    Outcome H :=
  if (extract FUNCID_TYPE_SHIFT 1 (smcFid.setWidth 64)).toNat = SMC_TYPE_FAST ∧
      extract FUNCID_FC_RESERVED_SHIFT FUNCID_FC_RESERVED_WIDTH (smcFid.setWidth 64) ≠ 0 then
    .done ⟨smcUnknown ctx, []⟩
  else
    let smcFid := clearHint smcFid
    match getHandlerForSmcFid fw smcFid with
    | .missing => .done ⟨smcUnknown ctx, []⟩
    | .assertion => .assertion
    | .found h =>
      let c : HandlerCall H :=
        ⟨h, smcFid, ctx.gpregs 1, ctx.gpregs 2, ctx.gpregs 3, ctx.gpregs 4, 0, ctx,
          getFlags fw.rmm smcFid scrEl3⟩
      .done ⟨fw.exec c, [c]⟩

def ESR_EC_SHIFT : ℕ := 26
def ESR_EC_WIDTH : ℕ := 6
def EC_AARCH32_SMC : ℕ := 0x13
def EC_AARCH64_SMC : ℕ := 0x17

/-- The SMC classes of `handler_sync_exception`. -/
def handlerSyncException (fw : Firmware H) (ctx : CpuContext) (esrEl3 : Reg) : Outcome H :=
  let smcFid := (ctx.gpregs 0).setWidth 32
  let excClass := (extract ESR_EC_SHIFT ESR_EC_WIDTH esrEl3).toNat
  if excClass = EC_AARCH64_SMC then syncHandler fw ctx smcFid ctx.scrEl3
  else if fw.aarch32Regs = true ∧ excClass = EC_AARCH32_SMC then
    if extract FUNCID_CC_SHIFT 1 (smcFid.setWidth 64) ≠ 0 then .done ⟨smcUnknown ctx, []⟩
    else syncHandler fw ctx smcFid ctx.scrEl3
  else .notSmc

/-! ## What the flags say -/

inductive SecState where
  | secure
  | nonSecure
  | realm
  deriving DecidableEq, Repr

def SecState.code : SecState → Reg
  | .secure => SMC_FROM_SECURE
  | .nonSecure => SMC_FROM_NON_SECURE
  | .realm => SMC_FROM_REALM

/-- `SCR_EL3` as saved when a caller of this security state traps. A realm exists only in a build
with the RMM, and only there is the NSE bit looked at. -/
def ScrEncodes (rmm : Bool) (caller : SecState) (scr : Reg) : Prop :=
  scr.getLsbD 0 = decide (caller ≠ .secure) ∧
  (rmm = true → scr.getLsbD 62 = decide (caller = .realm)) ∧
  (caller = .realm → rmm = true)

theorem sveHintMask_eq : sveHintMask = BitVec.twoPow 64 16 := by decide

theorem getLsbD_clearHint (fid : BitVec 32) (i : ℕ) :
    (clearHint fid).getLsbD i = (fid.getLsbD i && decide (i ≠ 16)) := by
  rw [clearHint, BitVec.getLsbD_and, BitVec.getLsbD_setWidth, sveHintMask_eq, BitVec.getLsbD_not,
    BitVec.getLsbD_twoPow]
  by_cases hi : i < 32
  · by_cases h16 : i = 16
    · subst h16; simp
    · have hne : ¬ 16 = i := fun h => h16 h.symm
      simp [hi, h16, hne, show i < 64 by omega]
  · simp [BitVec.getLsbD_of_ge fid i (by omega)]

theorem getFlags_eq (rmm : Bool) (fid : BitVec 32) (scr : Reg) :
    getFlags rmm fid scr =
      (if scr.getLsbD 0 then 1#64 else 0#64) |||
      (if rmm && scr.getLsbD 62 then 0x20#64 else 0#64) |||
      (if fid.getLsbD 16 then 0x10000#64 else 0#64) := by
  have hfid : (fid.setWidth 64).getLsbD 16 = fid.getLsbD 16 := by
    rw [BitVec.getLsbD_setWidth]; simp
  unfold getFlags
  rw [sveHintMask_eq, SCR_NS_BIT, SCR_NSE_BIT, SCR_NSE_SHIFT, and_bit, and_bit, and_bit, hfid]
  cases rmm <;> cases scr.getLsbD 0 <;> cases scr.getLsbD 62 <;> cases fid.getLsbD 16 <;> decide

theorem callerSecState_getFlags {rmm : Bool} {caller : SecState} {scr : Reg} (fid : BitVec 32)
    (h : ScrEncodes rmm caller scr) : callerSecState (getFlags rmm fid scr) = caller.code := by
  obtain ⟨h0, h62, hr⟩ := h
  have hnse : (rmm && scr.getLsbD 62) = decide (caller = .realm) := by
    cases rmm with
    | false => cases caller <;> simp at hr ⊢
    | true => simpa using h62 rfl
  rw [getFlags_eq, h0, hnse]
  cases caller <;> cases fid.getLsbD 16 <;> decide

theorem isSveHintSet_getFlags (rmm : Bool) (fid : BitVec 32) (scr : Reg) :
    isSveHintSet (getFlags rmm fid scr) = fid.getLsbD 16 := by
  rw [getFlags_eq]
  cases rmm <;> cases scr.getLsbD 0 <;> cases scr.getLsbD 62 <;> cases fid.getLsbD 16 <;> decide

theorem isSveHintSet_cleared (rmm : Bool) (fid : BitVec 32) (scr : Reg) :
    isSveHintSet (getFlags rmm (clearHint fid) scr) = false := by
  rw [isSveHintSet_getFlags, getLsbD_clearHint]; simp

variable {fw : Firmware H} {ind : Indices} {rcs : ℕ → Int} {fid : BitVec 32} {d : RtSvcDesc H}

/-! ## Which descriptor serves a function identifier -/

def Covers (d : RtSvcDesc H) (fid : BitVec 32) : Prop :=
  d.callType.toNat = fid.toNat / 2 ^ 31 ∧
  d.startOen.toNat ≤ fid.toNat / 2 ^ 24 % 64 ∧ fid.toNat / 2 ^ 24 % 64 ≤ d.endOen.toNat

def LastCovering (descs : List (RtSvcDesc H)) (rcs : ℕ → Int) (fid : BitVec 32) (i : ℕ)
    (d : RtSvcDesc H) : Prop :=
  descs[i]? = some d ∧ Active rcs i d ∧ Covers d fid ∧
  ∀ j e, i < j → descs[j]? = some e → Active rcs j e → ¬ Covers e fid

def NoneCovers (descs : List (RtSvcDesc H)) (rcs : ℕ → Int) (fid : BitVec 32) : Prop :=
  ∀ j e, descs[j]? = some e → Active rcs j e → ¬ Covers e fid

/-- A fast call with a non-zero reserved bit. -/
def ReservedSet (fid : BitVec 32) : Prop :=
  fid.toNat / 2 ^ 31 = 1 ∧ fid.toNat / 2 ^ 17 % 2 ^ 7 ≠ 0

instance (fid : BitVec 32) : Decidable (ReservedSet fid) := by
  unfold ReservedSet; infer_instance

theorem getSmcType_toNat (fid : BitVec 32) : (getSmcType fid).toNat = fid.toNat / 2 ^ 31 := by
  have hm : FUNCID_TYPE_MASK.toNat = 2 ^ 1 - 1 := by decide
  rw [getSmcType, BitVec.toNat_and, BitVec.toNat_ushiftRight, hm, Nat.and_two_pow_sub_one_eq_mod,
    Nat.shiftRight_eq_div_pow, FUNCID_TYPE_SHIFT]
  have := fid.isLt
  omega

theorem getSmcOen_toNat (fid : BitVec 32) : (getSmcOen fid).toNat = fid.toNat / 2 ^ 24 % 64 := by
  have hm : FUNCID_OEN_MASK.toNat = 2 ^ 6 - 1 := by decide
  rw [getSmcOen, BitVec.toNat_and, BitVec.toNat_ushiftRight, hm, Nat.and_two_pow_sub_one_eq_mod,
    Nat.shiftRight_eq_div_pow, FUNCID_OEN_SHIFT]

theorem getUniqueOenFromSmcFid_toNat (fid : BitVec 32) :
    (getUniqueOenFromSmcFid fid).toNat = fid.toNat / 2 ^ 31 * 64 + fid.toNat / 2 ^ 24 % 64 := by
  rw [getUniqueOenFromSmcFid, getUniqueOen_toNat _ _ (getSmcOen_lt fid) (getSmcType_lt fid),
    getSmcType_toNat, getSmcOen_toNat]

theorem getUniqueOen_clearHint (fid : BitVec 32) :
    getUniqueOenFromSmcFid (clearHint fid) = getUniqueOenFromSmcFid fid := by
  have h : ∀ k, 16 < k → clearHint fid >>> k = fid >>> k := by
    intro k hk
    apply BitVec.eq_of_getLsbD_eq
    intro i _
    rw [BitVec.getLsbD_ushiftRight, BitVec.getLsbD_ushiftRight, getLsbD_clearHint]
    simp [show k + i ≠ 16 by omega]
  rw [getUniqueOenFromSmcFid, getUniqueOenFromSmcFid, getSmcOen, getSmcOen, getSmcType, getSmcType,
    h _ (by decide), h _ (by decide)]

theorem inRange_iff_covers (hv : validateRtSvcDesc d = 0) (fid : BitVec 32) :
    InRange d (getUniqueOenFromSmcFid fid).toNat ↔ Covers d fid := by
  obtain ⟨hse, he, hc⟩ := validateRtSvcDesc_eq_zero hv
  have hs : d.startOen.toNat < 64 := by omega
  rw [InRange, startIdx, endIdx, idx_toNat _ _ hs hc, idx_toNat _ _ he hc,
    getUniqueOenFromSmcFid_toNat, Covers]
  constructor
  · rintro ⟨h1, h2⟩
    have : fid.toNat / 2 ^ 24 % 64 < 64 := Nat.mod_lt _ (by decide)
    omega
  · rintro ⟨h1, h2, h3⟩
    rw [h1]
    omega

/-! ## The lookup finds the last covering descriptor -/

theorem owner_of_init (h : runtimeSvcInit fw.descs rcs ind = some fw.indices) (fid : BitVec 32) :
    (NoneCovers fw.descs rcs fid ∧
        fw.descs[(fw.indices (getUniqueOenFromSmcFid fid).toNat).toNat]? = none) ∨
    (∃ i d, LastCovering fw.descs rcs fid i d ∧
        (fw.indices (getUniqueOenFromSmcFid fid).toNat).toNat = i) := by
  by_cases hne : fw.descs = []
  · left
    rw [hne]
    exact ⟨fun j e he => by simp at he, by simp⟩
  obtain ⟨ho, hval, hlen⟩ := init_owner h hne (getUniqueOenFromSmcFid fid).toNat
  have cov : ∀ j e, fw.descs[j]? = some e →
      (InRange e (getUniqueOenFromSmcFid fid).toNat ↔ Covers e fid) :=
    fun j e he => inRange_iff_covers (hval e (List.mem_of_getElem? he)) fid
  rcases ho with ⟨i, d, hi, hd, ha, hr, hv, hlast⟩ | ⟨hno, hv⟩
  · refine Or.inr ⟨i, d, ⟨hd, ha, (cov i d hd).mp hr, ?_⟩, ?_⟩
    · intro j e hij he hae hce
      exact hlast j e hij (List.getElem?_eq_some_iff.mp he).1 he hae ((cov j e he).mpr hce)
    · rw [hv, BitVec.toNat_ofNat, Nat.mod_eq_of_lt (by omega)]
  · refine Or.inl ⟨?_, ?_⟩
    · intro j e he hae hce
      exact hno j e (List.getElem?_eq_some_iff.mp he).1 he hae ((cov j e he).mpr hce)
    · rw [hv]
      exact List.getElem?_eq_none (by simp; omega)

theorem lastCovering_unique {descs : List (RtSvcDesc H)} {i j : ℕ} {e : RtSvcDesc H}
    (hi : LastCovering descs rcs fid i d) (hj : LastCovering descs rcs fid j e) : i = j ∧ d = e := by
  obtain ⟨hd, had, hcd, hld⟩ := hi
  obtain ⟨he, hae, hce, hle⟩ := hj
  have hij : i = j := by
    rcases Nat.lt_trichotomy i j with h | h | h
    · exact absurd hce (hld j e h he hae)
    · exact h
    · exact absurd hcd (hle i d h hd had)
  subst hij
  rw [hd] at he
  exact ⟨rfl, Option.some.inj he⟩

theorem uniqueOen_lt (fid : BitVec 32) : (getUniqueOenFromSmcFid fid).toNat < MAX_RT_SVCS := by
  rw [getUniqueOenFromSmcFid_toNat, MAX_RT_SVCS]
  have := fid.isLt
  omega

theorem getHandlerForSmcFid_missing (h : runtimeSvcInit fw.descs rcs ind = some fw.indices)
    (hno : NoneCovers fw.descs rcs fid) : getHandlerForSmcFid fw fid = .missing := by
  rcases owner_of_init h fid with ⟨-, hnone⟩ | ⟨i, d, ⟨hd, ha, hc, -⟩, -⟩
  · simp only [getHandlerForSmcFid, if_pos (uniqueOen_lt fid), hnone]
  · exact absurd hc (hno i d hd ha)

theorem getHandlerForSmcFid_last (h : runtimeSvcInit fw.descs rcs ind = some fw.indices) {i : ℕ}
    (hl : LastCovering fw.descs rcs fid i d) :
    getHandlerForSmcFid fw fid = match d.handle with
      | some hd => .found hd
      | none => .assertion := by
  rcases owner_of_init h fid with ⟨hno, -⟩ | ⟨j, e, hj, hidx⟩
  · exact absurd hl.2.2.1 (hno i d hl.1 hl.2.1)
  · obtain ⟨rfl, rfl⟩ := lastCovering_unique hl hj
    simp only [getHandlerForSmcFid, if_pos (uniqueOen_lt fid), hidx, hl.1]

theorem getHandlerForSmcFid_clearHint (fw : Firmware H) (fid : BitVec 32) :
    getHandlerForSmcFid fw (clearHint fid) = getHandlerForSmcFid fw fid := by
  unfold getHandlerForSmcFid
  rw [getUniqueOen_clearHint]

/-! ## The whole dispatch -/

/-- The call is answered with SMC_UNK by design. -/
def Rejected (descs : List (RtSvcDesc H)) (rcs : ℕ → Int) (fid : BitVec 32) : Prop :=
  ReservedSet fid ∨ NoneCovers descs rcs fid

/-- What an SMC of function identifier `fid` should do. -/
def DispatchSpec (fw : Firmware H) (rcs : ℕ → Int) (ctx : CpuContext) (caller : SecState)
    (fid : BitVec 32) (o : Outcome H) : Prop :=
  (Rejected fw.descs rcs fid →
    o = .done ⟨{ ctx with gpregs := writeGp ctx.gpregs 0 SMC_UNK }, []⟩) ∧
  (¬ Rejected fw.descs rcs fid → ∃ i d c, LastCovering fw.descs rcs fid i d ∧
    d.handle = some c.handler ∧ o = .done ⟨fw.exec c, [c]⟩ ∧
    (∀ k, c.smcFid.getLsbD k = (fid.getLsbD k && decide (k ≠ 16))) ∧
    callerSecState c.flags = caller.code ∧ isSveHintSet c.flags = fid.getLsbD 16)

theorem fid_fields (fid : BitVec 32) :
    ((extract FUNCID_TYPE_SHIFT 1 (fid.setWidth 64)).toNat = SMC_TYPE_FAST ∧
      extract FUNCID_FC_RESERVED_SHIFT FUNCID_FC_RESERVED_WIDTH (fid.setWidth 64) ≠ 0) ↔
    ReservedSet fid := by
  have hw : (fid.setWidth 64).toNat = fid.toNat := by
    rw [BitVec.toNat_setWidth, Nat.mod_eq_of_lt (by have := fid.isLt; omega)]
  have hz : ∀ v : BitVec 64, v ≠ 0 ↔ v.toNat ≠ 0 := by
    intro v
    rw [not_iff_not, ← BitVec.toNat_inj]; rfl
  rw [hz, extract_toNat _ _ _ (by decide), extract_toNat _ _ _ (by decide), hw, ReservedSet,
    FUNCID_TYPE_SHIFT, FUNCID_FC_RESERVED_SHIFT, FUNCID_FC_RESERVED_WIDTH, SMC_TYPE_FAST]
  have := fid.isLt
  omega

def theCall (fw : Firmware H) (ctx : CpuContext) (fid : BitVec 32) (scr : Reg) (h : H) :
    HandlerCall H :=
  ⟨h, clearHint fid, ctx.gpregs 1, ctx.gpregs 2, ctx.gpregs 3, ctx.gpregs 4, 0, ctx,
    getFlags fw.rmm (clearHint fid) scr⟩

theorem syncHandler_rejected (h : runtimeSvcInit fw.descs rcs ind = some fw.indices)
    (hr : Rejected fw.descs rcs fid) (ctx : CpuContext) (scr : Reg) :
    syncHandler fw ctx fid scr = .done ⟨smcUnknown ctx, []⟩ := by
  unfold syncHandler
  by_cases hres : ReservedSet fid
  · rw [if_pos ((fid_fields fid).mpr hres)]
  · rw [if_neg (fun hc => hres ((fid_fields fid).mp hc))]
    have hl : getHandlerForSmcFid fw (clearHint fid) = .missing := by
      rw [getHandlerForSmcFid_clearHint]
      exact getHandlerForSmcFid_missing h (hr.resolve_left hres)
    simp only [hl]

theorem syncHandler_served (h : runtimeSvcInit fw.descs rcs ind = some fw.indices)
    (hr : ¬ ReservedSet fid) {i : ℕ} (hl : LastCovering fw.descs rcs fid i d) (ctx : CpuContext)
    (scr : Reg) :
    syncHandler fw ctx fid scr = match d.handle with
      | some hd => .done ⟨fw.exec (theCall fw ctx fid scr hd), [theCall fw ctx fid scr hd]⟩
      | none => .assertion := by
  unfold syncHandler
  rw [if_neg (fun hc => hr ((fid_fields fid).mp hc))]
  have hg := getHandlerForSmcFid_last h hl
  rw [← getHandlerForSmcFid_clearHint] at hg
  simp only [hg]
  cases d.handle with
  | some hd => rfl
  | none => rfl

def HandlerPresent (descs : List (RtSvcDesc H)) (rcs : ℕ → Int) (fid : BitVec 32) : Prop :=
  ∀ i d, LastCovering descs rcs fid i d → d.handle ≠ none

theorem exists_lastCovering (h : runtimeSvcInit fw.descs rcs ind = some fw.indices)
    (hr : ¬ Rejected fw.descs rcs fid) : ∃ i d, LastCovering fw.descs rcs fid i d := by
  rcases owner_of_init h fid with ⟨hno, -⟩ | ⟨i, d, hl, -⟩
  · exact absurd (Or.inr hno) hr
  · exact ⟨i, d, hl⟩

/-- **Dispatch of an SMC from AArch64.** The specification is met exactly when the call is to be
rejected, or the caller left the hint bit clear and the serving descriptor has a handler. -/
theorem dispatch_iff (fw : Firmware H) (rcs : ℕ → Int) (ind : Indices) (ctx : CpuContext)
    (caller : SecState) (esr : Reg) (hinit : runtimeSvcInit fw.descs rcs ind = some fw.indices)
    (hscr : ScrEncodes fw.rmm caller ctx.scrEl3)
    (hesr : (extract ESR_EC_SHIFT ESR_EC_WIDTH esr).toNat = EC_AARCH64_SMC) :
    DispatchSpec fw rcs ctx caller ((ctx.gpregs 0).setWidth 32) (handlerSyncException fw ctx esr) ↔
      (Rejected fw.descs rcs ((ctx.gpregs 0).setWidth 32) ∨
        (((ctx.gpregs 0).setWidth 32).getLsbD 16 = false ∧
          HandlerPresent fw.descs rcs ((ctx.gpregs 0).setWidth 32))) := by
  have hentry : handlerSyncException fw ctx esr =
      syncHandler fw ctx ((ctx.gpregs 0).setWidth 32) ctx.scrEl3 := by
    simp only [handlerSyncException, if_pos hesr]
  rw [hentry]
  generalize (ctx.gpregs 0).setWidth 32 = fid
  by_cases hr : Rejected fw.descs rcs fid
  · exact ⟨fun _ => Or.inl hr,
      fun _ => ⟨fun _ => syncHandler_rejected hinit hr ctx ctx.scrEl3, fun hn => absurd hr hn⟩⟩
  have hres : ¬ ReservedSet fid := fun h => hr (Or.inl h)
  obtain ⟨i, d, hl⟩ := exists_lastCovering hinit hr
  have hserved := syncHandler_served hinit hres hl ctx ctx.scrEl3
  constructor
  · rintro ⟨-, hspec⟩
    obtain ⟨j, e, c, hj, hc, ho, -, -, hhint⟩ := hspec hr
    obtain ⟨rfl, rfl⟩ := lastCovering_unique hl hj
    simp only [hc] at hserved
    -- the only call made is the one with the flags of the cleared identifier
    have hcall : c = theCall fw ctx fid ctx.scrEl3 c.handler := by
      have hh := ho.symm.trans hserved
      injection hh with hh
      injection hh with _ hh
      exact List.head_eq_of_cons_eq hh
    right
    refine ⟨?_, ?_⟩
    · rw [← hhint, hcall]
      exact isSveHintSet_cleared fw.rmm fid ctx.scrEl3
    · intro k f hk hnone
      obtain ⟨-, rfl⟩ := lastCovering_unique hl hk
      rw [hc] at hnone
      exact Option.some_ne_none _ hnone
  · rintro (hrej | ⟨hbit, hpresent⟩)
    · exact absurd hrej hr
    refine ⟨fun h => absurd h hr, fun _ => ?_⟩
    obtain ⟨h, hh⟩ := Option.ne_none_iff_exists'.mp (hpresent i d hl)
    simp only [hh] at hserved
    refine ⟨i, d, theCall fw ctx fid ctx.scrEl3 h, hl, hh, hserved, ?_, ?_, ?_⟩
    · exact getLsbD_clearHint fid
    · exact callerSecState_getFlags _ hscr
    · rw [hbit]
      exact isSveHintSet_cleared fw.rmm fid ctx.scrEl3

/-- A standard service for fast calls, as `DECLARE_RT_SVC(std_svc, ...)` declares it. -/
def stdSvc : RtSvcDesc Unit := ⟨4, 4, 1, true, some ()⟩

def stdSvcFirmware : Firmware Unit :=
  ⟨true, false, [stdSvc], fillIndices 0 68 1 (fun _ => BitVec.ofInt 8 (-1)), fun c => c.ctx⟩

def nsCaller (x0 : Reg) : CpuContext := ⟨fun i => if i = 0 then x0 else 0, 1⟩

theorem stdSvc_init : runtimeSvcInit stdSvcFirmware.descs (fun _ => 0) (fun _ => 0) =
    some stdSvcFirmware.indices := rfl

theorem stdSvc_last (fid : BitVec 32) (h : Covers stdSvc fid) :
    LastCovering stdSvcFirmware.descs (fun _ => 0) fid 0 stdSvc := by
  refine ⟨rfl, Or.inr rfl, h, ?_⟩
  intro j e hj he
  have hlen : j < 1 := (List.getElem?_eq_some_iff.mp he).1
  omega

theorem dispatch_psci_version :
    DispatchSpec stdSvcFirmware (fun _ => 0) (nsCaller 0x84000000) .nonSecure 0x84000000
      (handlerSyncException stdSvcFirmware (nsCaller 0x84000000) 0x5e000000) := by
  have hl := stdSvc_last 0x84000000 (by unfold Covers; decide)
  have hpresent : HandlerPresent stdSvcFirmware.descs (fun _ => 0) 0x84000000 := by
    intro i d hd
    obtain ⟨-, rfl⟩ := lastCovering_unique hl hd
    decide
  refine (dispatch_iff stdSvcFirmware (fun _ => 0) (fun _ => 0) (nsCaller 0x84000000) .nonSecure
    0x5e000000 stdSvc_init ⟨by decide, fun _ => by decide, fun h => by cases h⟩ (by decide)).mpr
    (Or.inr ⟨by decide, hpresent⟩)

/-- The same call with the hint bit set: the service is told that it is clear. -/
theorem hint_lost :
    ¬ DispatchSpec stdSvcFirmware (fun _ => 0) (nsCaller 0x84010000) .nonSecure 0x84010000
      (handlerSyncException stdSvcFirmware (nsCaller 0x84010000) 0x5e000000) := by
  rintro ⟨-, hspec⟩
  have hl := stdSvc_last 0x84010000 (by unfold Covers; decide)
  have hr : ¬ Rejected stdSvcFirmware.descs (fun _ => 0) 0x84010000 := by
    rintro (h | h)
    · exact absurd h (by decide)
    · exact h 0 stdSvc hl.1 hl.2.1 hl.2.2.1
  obtain ⟨i, d, c, -, -, ho, -, -, hhint⟩ := hspec hr
  have hrun : handlerSyncException stdSvcFirmware (nsCaller 0x84010000) 0x5e000000 =
      .done ⟨nsCaller 0x84010000, [theCall stdSvcFirmware (nsCaller 0x84010000) 0x84010000 1 ()]⟩ :=
    rfl
  rw [hrun] at ho
  injection ho with ho
  injection ho with _ ho
  rw [← List.head_eq_of_cons_eq ho] at hhint
  exact absurd hhint (by decide)

end TrustedFirmware.RuntimeSvc
