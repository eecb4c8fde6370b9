import TrustedFirmware.Drtm.Accepted
import TrustedFirmware.Foundations.Words

/-! # What a launch maps

The launch once more, with the dynamic regions of the EL3 translation context and with the DMA
protection as state. The mapped ranges and those `plat_drtm_validate_ns_region()` has accepted are
recorded. A launch is a line of stages, so its outcome is described by what holds where it stops
(`Meets`); without the state it is the launch of `Drtm.Launch`. -/
namespace TrustedFirmware.Drtm.Mapped
open Staged
set_option autoImplicit false

structure Range where
  base : UInt64
  size : UInt64
  deriving DecidableEq, Repr

structure Ctx where
  /-- The dynamic regions, the last one added first. -/
  regions : List Range
  mapped : List Range
  accepted : List Range
  /-- `active_prot.type` -/
  activeProt : Int

abbrev Launch (α : Type) : Type := ExceptT Stop (StateM Ctx) α

def PROTECT_NONE : Int := -1
def PROTECT_MEM_ALL : Int := 0
def ARM_DRTM_MIN_EVENT_LOG_SIZE : ℕ := 0x10000

/-- `sizeof(struct_drtm_dl_args)` -/
def DL_ARGS_SIZE : UInt64 := 88

/-- `sizeof(drtm_memory_region_descriptor_table_t) + sizeof(drtm_mem_region_t)`, which is also what
`drtm_setup()` stores as `dlme_prot_regions_size`. -/
def PROT_TABLE_SIZE : ℕ := 8 + 16

/-- `ALIGNED_UP(x, DRTM_PAGE_SIZE)` -/
def alignedUp (x : UInt64) : UInt64 := (x + 4095) &&& ~~~4095

/-! ## The stages -/

def stage {α : Type} (x : Except Stop α) : Launch α := fun s => (x, s)

/-- `plat_drtm_validate_ns_region()`, whose answer is `rc` -/
def platDrtmValidateNsRegion (r : Range) (rc : Int) : Launch Unit := do
  stage (check (rc == 0) (.ret INVALID_PARAMETERS))
  modify fun s => { s with accepted := r :: s.accepted }

/-- `mmap_add_dynamic_region_alloc_va()` -/
def mmapAddDynamicRegion (r : Range) (rc : Int) : Launch Unit := do
  stage (check (rc == 0) (.ret INTERNAL_ERROR))
  modify fun s => { s with regions := r :: s.regions, mapped := r :: s.mapped }

/-- `mmap_remove_dynamic_region()` -/
def mmapRemoveDynamicRegion (r : Range) (rc : Int) : Launch Unit := do
  stage (check (rc == 0) .panic)
  modify fun s => { s with regions := s.regions.erase r }

variable {D : Type}

def argsRange (x1 : UInt64) : Range := ⟨x1, alignedUp DL_ARGS_SIZE⟩
def dlmeRange (a : DlArgs) : Range := ⟨a.dlmePaddr, alignedUp (a.dlmePaddr + a.dlmeSize - a.dlmePaddr)⟩
def imageRange (a : DlArgs) : Range := ⟨a.dlmePaddr + a.dlmeImgOff, pageAlignUp a.dlmeImgSize⟩
def dataRange (a : DlArgs) : Range :=
  ⟨a.dlmePaddr + a.dlmeDataOff, alignedUp (a.dlmeSize - a.dlmeDataOff)⟩

def drtmDlCheckArgs (P : Platform) (e : Env D) (x1 : UInt64) : Launch DlArgs := do
  stage (check (x1 % DRTM_PAGE_SIZE == 0) (.ret INVALID_PARAMETERS))
  platDrtmValidateNsRegion (argsRange x1) e.validateArgs
  mmapAddDynamicRegion (argsRange x1) e.mapArgs
  let a := e.args
  mmapRemoveDynamicRegion (argsRange x1) e.unmapArgs
  stage (check (ARM_DRTM_PARAMS_MIN_VERSION ≤ a.version && a.version ≤ ARM_DRTM_PARAMS_MAX_VERSION)
    (.ret NOT_SUPPORTED))
  stage (check (drtmDlCheckFeaturesSanity P a.features == 0)
    (.ret (drtmDlCheckFeaturesSanity P a.features)))
  stage (check (drtmDlCheckRegions P a) (.ret INVALID_PARAMETERS))
  platDrtmValidateNsRegion ⟨a.dlmePaddr, a.dlmeSize⟩ e.validateDlme
  stage (check (drtmDlCheckDceNwd a) (.ret INVALID_PARAMETERS))
  mmapAddDynamicRegion (dlmeRange a) e.mapDlme
  mmapRemoveDynamicRegion (dlmeRange a) e.unmapDlme
  return a

def drtmDmaProtEngage (e : Env D) (aDmaProtType : UInt32) : Launch Unit := do
  stage (check ((← get).activeProt == PROTECT_NONE) (.ret DENIED))
  stage (check (aDmaProtType == 0) .panic)
  stage (check (e.smmus.all (· == 0)) (.ret INTERNAL_ERROR))
  modify fun s => { s with activeProt := PROTECT_MEM_ALL }

def drtmTakeMeasurements (P : Platform) (e : Env D) (a : DlArgs) : Launch (List (Record D)) := do
  let pcrSchema := (DL_ARGS_GET_PCR_SCHEMA a).toUInt8
  stage (check e.eventLogInit .panic)
  let log ← stage (measureChecked e (fun _ => 0) 1 .dce [])
  let log ← stage (measureChecked e (fun _ => pcrSchema) 1 .pcrSchema17 log)
  let log ← stage (measureChecked e (stringBytes "ARM_DRTM") 8 .separator17 log)
  let log ← stage (measureChecked e (fun _ => pcrSchema) 1 .pcrSchema18 log)
  stage (check (!P.enableAssertions || a.dceNwdSize == 0) .panic)
  let log ← stage (measureChecked e (fun _ => 0) 1 .dcePubkey log)
  mmapAddDynamicRegion (imageRange a) e.mapImage
  let log ← stage (measureChecked e (imageBytes e a) a.dlmeImgSize.toUInt32 .dlme log)
  mmapRemoveDynamicRegion (imageRange a) e.unmapImage
  let (log, _) := drtmEventLogMeasureAndRecord e (wordBytes a.dlmeImgEpOff) 8 .dlmeEp log
  stage (measureChecked e (stringBytes "ARM_DRTM") 8 .separator18 log)

/-- `drtm_dma_prot_serialise_table()`: what it stores in `*size_out`, if it does. -/
def drtmDmaProtSerialiseTable : Launch (Option ℕ) := do
  if (← get).activeProt == PROTECT_NONE then return none
  stage (check ((← get).activeProt == PROTECT_MEM_ALL) .panic)
  return some PROT_TABLE_SIZE

/-- `drtm_dl_prepare_dlme_data()`; `logSize` is what `event_log_get_cur_size()` answers. A read of
`serialised_bytes_actual` before it was set counts as a panic. -/
def drtmDlPrepareDlmeData (P : Platform) (e : Env D) (logSize : ℕ) (a : DlArgs) : Launch Unit := do
  stage (check (!(a.dlmeSize - a.dlmeDataOff < P.dlmeDataMinSize)) .panic)
  mmapAddDynamicRegion (dataRange a) e.mapData
  let serialised ← drtmDmaProtSerialiseTable
  stage (check serialised.isSome .panic)
  stage (check (!P.enableAssertions || serialised == some PROT_TABLE_SIZE) .panic)
  stage (check (!P.enableAssertions || logSize ≤ ARM_DRTM_MIN_EVENT_LOG_SIZE) .panic)
  mmapRemoveDynamicRegion (dataRange a) e.unmapData

/-- `err_undo_dma_prot`: `drtm_dma_prot_disengage()` enters remediation. -/
def undo : Stop → Stop
  | .ret _ => .remediation
  | x => x

def errUndoDmaProt {α : Type} (m : Launch α) : Launch α := fun s =>
  match m s with
  | (.error x, t) => (.error (undo x), t)
  | r => r

def drtmDynamicLaunch (P : Platform) (e : Env D) (logSize : ℕ) (x1 : UInt64) :
    Launch (Launched D) := do
  stage (drtmDlCheckCores e)
  stage (drtmDlCheckCallerEl e)
  let args ← drtmDlCheckArgs P e x1
  stage (check (e.sdeiRegisteredEvents == 0) (.ret DENIED))
  drtmDmaProtEngage e (DL_ARGS_GET_DMA_PROT_TYPE args)
  let log ← errUndoDmaProt (drtmTakeMeasurements P e args)
  errUndoDmaProt (drtmDlPrepareDlmeData P e logSize args)
  return ⟨args.dlmePaddr, args.dlmeDataOff, DL_ARGS_GET_DLME_ENTRY_POINT args, log⟩

/-! ## Where a launch stops -/

/-- `m` ends in a state with `Q` of its result, or stops in one with `E`. -/
def Meets {α : Type} (m : Launch α) (s : Ctx) (E : Stop → Ctx → Prop) (Q : α → Ctx → Prop) : Prop :=
  match m s with
  | (.ok a, t) => Q a t
  | (.error x, t) => E x t

variable {α β : Type} {s : Ctx} {E : Stop → Ctx → Prop} {Q : β → Ctx → Prop}

theorem meets_bind {m : Launch α} {f : α → Launch β} :
    Meets (m >>= f) s E Q ↔ Meets m s E fun a t => Meets (f a) t E Q := by
  have hrun : (m >>= f) s = match m s with
      | (.ok a, t) => f a t
      | (.error x, t) => (.error x, t) := by
    change (match m s with | (r, t) => ExceptT.bindCont f r t) = _
    rcases m s with ⟨r, t⟩
    cases r <;> rfl
  unfold Meets
  rw [hrun]
  rcases m s with ⟨r, t⟩
  cases r <;> rfl

theorem meets_pure {a : β} : Meets (pure a) s E Q ↔ Q a s := Iff.rfl

theorem meets_get {Q : Ctx → Ctx → Prop} : Meets (get : Launch Ctx) s E Q ↔ Q s s := Iff.rfl

theorem meets_modify {f : Ctx → Ctx} {Q : Unit → Ctx → Prop} :
    Meets (modify f : Launch Unit) s E Q ↔ Q () (f s) := Iff.rfl

theorem meets_check {b : Bool} {x : Stop} {Q : Unit → Ctx → Prop} :
    Meets (stage (check b x)) s E Q ↔ (b = false → E x s) ∧ (b = true → Q () s) := by
  cases b with
  | false => exact ⟨fun h => ⟨fun _ => h, nofun⟩, fun h => h.1 rfl⟩
  | true => exact ⟨fun h => ⟨nofun, fun _ => h⟩, fun h => h.2 rfl⟩

theorem measureChecked_fails {e : Env D} {dataBase : ℕ → UInt8} {dataSize : UInt32} {m : Measurement}
    {log : List (Record D)} (h : ¬ Succeeds e m) :
    measureChecked e dataBase dataSize m log = .error .panic := by
  have hrc := (measureAndRecord_eq e dataBase dataSize m log).2
  exact if_pos (mt hrc.mp h)

theorem meets_measureChecked {e : Env D} {dataBase : ℕ → UInt8} {dataSize : UInt32} {m : Measurement}
    {log : List (Record D)} {Q : List (Record D) → Ctx → Prop} :
    Meets (stage (measureChecked e dataBase dataSize m log)) s E Q ↔
      (¬ Succeeds e m → E .panic s) ∧
        (Succeeds e m → Q (log ++ [entry e dataBase dataSize.toNat m]) s) := by
  by_cases hs : Succeeds e m
  · simp [Meets, stage, measureChecked_eq_ok.mpr ⟨hs, rfl⟩, hs]
  · simp [Meets, stage, measureChecked_fails hs, hs]

theorem meets_errUndoDmaProt {m : Launch β} :
    Meets (errUndoDmaProt m) s E Q ↔ Meets m s (fun x t => E (undo x) t) Q := by
  unfold Meets errUndoDmaProt
  rcases m s with ⟨r, t⟩
  cases r <;> rfl

theorem Meets.weaken {E' : Stop → Ctx → Prop} {Q' : β → Ctx → Prop} {m : Launch β} (h : Meets m s E Q)
    (hE : ∀ x t, E x t → E' x t) (hQ : ∀ a t, Q a t → Q' a t) : Meets m s E' Q' := by
  revert h
  unfold Meets
  rcases m s with ⟨r, t⟩
  cases r with
  | ok a => exact hQ a t
  | error x => exact hE x t

theorem meets_validate {r : Range} {rc : Int} {Q : Unit → Ctx → Prop} :
    Meets (platDrtmValidateNsRegion r rc) s E Q ↔
      (rc ≠ 0 → E (.ret INVALID_PARAMETERS) s) ∧
        (rc = 0 → Q () { s with accepted := r :: s.accepted }) := by
  simp [platDrtmValidateNsRegion, meets_bind, meets_check, meets_modify]

theorem meets_add {r : Range} {rc : Int} {Q : Unit → Ctx → Prop} :
    Meets (mmapAddDynamicRegion r rc) s E Q ↔
      (rc ≠ 0 → E (.ret INTERNAL_ERROR) s) ∧
        (rc = 0 → Q () { s with regions := r :: s.regions, mapped := r :: s.mapped }) := by
  simp [mmapAddDynamicRegion, meets_bind, meets_check, meets_modify]

theorem meets_remove {r : Range} {rc : Int} {Q : Unit → Ctx → Prop} :
    Meets (mmapRemoveDynamicRegion r rc) s E Q ↔
      (rc ≠ 0 → E .panic s) ∧ (rc = 0 → Q () { s with regions := s.regions.erase r }) := by
  simp [mmapRemoveDynamicRegion, meets_bind, meets_check, meets_modify]

theorem meets_serialiseTable {Q : Option ℕ → Ctx → Prop} :
    Meets drtmDmaProtSerialiseTable s E Q ↔
      (s.activeProt = PROTECT_NONE → Q none s) ∧
        (s.activeProt ≠ PROTECT_NONE → s.activeProt ≠ PROTECT_MEM_ALL → E .panic s) ∧
          (s.activeProt = PROTECT_MEM_ALL → Q (some PROT_TABLE_SIZE) s) := by
  unfold drtmDmaProtSerialiseTable
  simp only [meets_bind, meets_get]
  by_cases hnone : s.activeProt = PROTECT_NONE
  · have hall : s.activeProt ≠ PROTECT_MEM_ALL := by rw [hnone]; decide
    simp [hnone, meets_pure, hnone ▸ hall]
  · simp [hnone, meets_bind, meets_get, meets_check, meets_pure, -bind_pure_comp]

/-! ## The ranges -/

def Range.Has (r : Range) (pa : ℕ) : Prop := r.base.toNat ≤ pa ∧ pa < r.base.toNat + r.size.toNat

def Covered (ranges : List Range) (r : Range) : Prop := ∀ pa, r.Has pa → ∃ q ∈ ranges, q.Has pa

theorem clearLow_toNat (y : UInt64) : (y &&& ~~~4095).toNat = y.toNat / 4096 * 4096 := by
  have hpower : (4096#64).toNat.isPowerOfTwo := ⟨12, rfl⟩
  have h := Alignment.toNat_high (x := y.toBitVec) hpower
  exact h

theorem alignedUp_toNat (x : UInt64) :
    (alignedUp x).toNat = (x.toNat + 4095) % 2 ^ 64 / 4096 * 4096 := by
  rw [alignedUp, clearLow_toNat, UInt64.toNat_add]
  rfl

theorem pageAlignUp_toNat {x : UInt64} (h : x.toNat + 4096 ≤ 2 ^ 64) :
    (pageAlignUp x).toNat = (x.toNat + 4095) / 4096 * 4096 := by
  have hlow : (x &&& 0xFFF).toNat = x.toNat % 4096 :=
    Alignment.toNat_low (x := x.toBitVec) (b := 4096#64) ⟨12, rfl⟩
  unfold pageAlignUp
  by_cases hzero : x &&& 0xFFF = 0
  · rw [hzero] at hlow
    rw [if_neg (not_not.mpr hzero)]
    have h0 : UInt64.toNat 0 = 0 := rfl
    omega
  · have hne : (x &&& 0xFFF).toNat ≠ 0 := fun h0 => hzero (UInt64.toNat_inj.mp h0)
    rw [if_pos hzero, UInt64.toNat_add, clearLow_toNat]
    have h4096 : UInt64.toNat 4096 = 4096 := rfl
    omega

def dlmeAccepted (a : DlArgs) : Range := ⟨a.dlmePaddr, a.dlmeSize⟩

/-- Rounding up the size of the DLME region adds nothing that was not accepted: there is nothing to
round, or the sum wraps to a size of 0, or the last page is that of the arguments. -/
def Fits (a : DlArgs) (x1 : UInt64) : Prop :=
  a.dlmeSize.toNat % 4096 = 0 ∨ 2 ^ 64 - 4096 < a.dlmeSize.toNat ∨
    x1.toNat = (a.dlmePaddr.toNat + a.dlmeSize.toNat) / 4096 * 4096

section

variable {P : Platform} {a : DlArgs} {x1 : UInt64}

theorem dlmeRange_eq : dlmeRange a = ⟨a.dlmePaddr, alignedUp a.dlmeSize⟩ := by
  have hsize : a.dlmePaddr + a.dlmeSize - a.dlmePaddr = a.dlmeSize := by
    rw [UInt64.add_comm, UInt64.add_sub_cancel]
  rw [dlmeRange, hsize]

theorem covered_dlme_iff (ha : Placed P a) (hx1 : x1.toNat % 4096 = 0) :
    Covered [dlmeAccepted a, argsRange x1] (dlmeRange a) ↔ Fits a x1 := by
  have hend := ha.dlme
  have hpage := ha.dlme_aligned
  have hsize := alignedUp_toNat a.dlmeSize
  have hargs : (argsRange x1).base.toNat = x1.toNat ∧ (argsRange x1).size.toNat = 4096 := ⟨rfl, rfl⟩
  simp only [Covered, List.mem_cons, List.not_mem_nil, or_false, exists_eq_or_imp, exists_eq_left,
    dlmeRange_eq, Range.Has, dlmeAccepted, Fits, hargs]
  constructor
  · intro h
    by_contra hfits
    -- The first byte behind the accepted range.
    have hpast := h (a.dlmePaddr.toNat + a.dlmeSize.toNat) (by omega)
    omega
  · intro hfits pa hpa
    omega

theorem data_in_dlme (ha : Placed P a) (hwrap : a.dlmeSize.toNat ≤ 2 ^ 64 - 4096) {pa : ℕ}
    (h : (dataRange a).Has pa) : (dlmeRange a).Has pa := by
  have hend := ha.dlme
  have hoff := ha.data
  have hpage := ha.dlme_aligned
  have hdata := ha.data_aligned
  have hsize := alignedUp_toNat a.dlmeSize
  have hdataSize := alignedUp_toNat (a.dlmeSize - a.dlmeDataOff)
  rw [UInt64.toNat_sub_of_le _ _ (UInt64.le_iff_toNat_le.mpr hoff.le)] at hdataSize
  simp only [Range.Has, dlmeRange_eq, dataRange, UInt64.toNat_add] at h ⊢
  omega

theorem image_in_accepted (ha : Placed P a) {pa : ℕ} (h : (imageRange a).Has pa) :
    (dlmeAccepted a).Has pa := by
  have hend := ha.dlme
  have himg := ha.image
  have hoff := ha.data
  have hpage := ha.image_aligned
  have hdata := ha.data_aligned
  simp only [Range.Has, dlmeAccepted, imageRange, UInt64.toNat_add] at h ⊢
  rw [pageAlignUp_toNat (by omega)] at h
  omega

end

/-! ## Every exit -/

def Safe (t : Ctx) : Prop := ∀ r ∈ t.mapped, Covered t.accepted r

/-- The checks of `drtm_dl_check_args()` in front of the mapping of the DLME region, and that mapping,
succeed. -/
structure DlmeMapped (P : Platform) (e : Env D) (x1 : UInt64) : Prop where
  x1_aligned : x1 % DRTM_PAGE_SIZE = 0
  validateArgs : e.validateArgs = 0
  mapArgs : e.mapArgs = 0
  unmapArgs : e.unmapArgs = 0
  version : (ARM_DRTM_PARAMS_MIN_VERSION ≤ e.args.version &&
    e.args.version ≤ ARM_DRTM_PARAMS_MAX_VERSION) = true
  features : drtmDlCheckFeaturesSanity P e.args.features = 0
  regions : drtmDlCheckRegions P e.args = true
  validateDlme : e.validateDlme = 0
  dceNwd : drtmDlCheckDceNwd e.args = true
  mapDlme : e.mapDlme = 0

/-- What is shown of a state in which the launch stops: the mappings are within the accepted ranges
exactly under `C`, and an answer to the caller leaves the regions as they were. -/
def Stopped (C : Prop) (base : List Range) (x : Stop) (t : Ctx) : Prop :=
  (Safe t ↔ C) ∧ ∀ x0, x = .ret x0 → t.regions = base

variable {P : Platform} {e : Env D} {x1 : UInt64} {base : List Range} {p : Int}

theorem safe_args {regions : List Range} (more : List Range) :
    Safe ⟨regions, [argsRange x1], more ++ [argsRange x1], p⟩ := by
  intro r hr pa hpa
  obtain rfl := List.mem_singleton.mp hr
  exact ⟨_, by simp, hpa⟩

theorem safe_cons {r : Range} {regions mapped accepted : List Range} :
    Safe ⟨regions, r :: mapped, accepted, p⟩ ↔
      Covered accepted r ∧ Safe ⟨regions, mapped, accepted, p⟩ := List.forall_mem_cons

theorem DlmeMapped.placed (h : DlmeMapped P e x1) : Placed P e.args := placed_of_checkRegions h.regions

theorem DlmeMapped.safe_iff (h : DlmeMapped P e x1) {regions : List Range} :
    Safe ⟨regions, [dlmeRange e.args, argsRange x1], [dlmeAccepted e.args, argsRange x1], p⟩ ↔
      Fits e.args x1 := by
  have hx1 : x1.toNat % 4096 = 0 := by
    have hpage := congrArg UInt64.toNat h.x1_aligned
    rwa [UInt64.toNat_mod] at hpage
  rw [safe_cons, covered_dlme_iff h.placed hx1]
  exact and_iff_left (safe_args [dlmeAccepted e.args])

theorem checkArgs_meets {C : Prop} (hnot : ¬ DlmeMapped P e x1 → C)
    (hdlme : DlmeMapped P e x1 → (C ↔ Fits e.args x1)) :
    Meets (drtmDlCheckArgs P e x1) ⟨base, [], [], p⟩ (Stopped C base) fun a t =>
      a = e.args ∧ DlmeMapped P e x1 ∧ e.unmapDlme = 0 ∧
        t = ⟨base, [dlmeRange a, argsRange x1], [dlmeAccepted a, argsRange x1], p⟩ := by
  have early {x : Stop} {t : Ctx} (hn : ¬ DlmeMapped P e x1) (hs : Safe t)
      (hr : ∀ x0, x = .ret x0 → t.regions = base) : Stopped C base x t :=
    ⟨iff_of_true hs (hnot hn), hr⟩
  have hnone : Safe ⟨base, [], [], p⟩ := by simp [Safe]
  unfold drtmDlCheckArgs
  simp only [meets_bind, meets_check, meets_validate, meets_add, meets_remove, meets_pure, beq_iff_eq,
    beq_eq_false_iff_ne, List.erase_cons_head]
  refine ⟨fun h => early (fun hd => h hd.x1_aligned) hnone fun _ _ => rfl, fun hx1 => ?_⟩
  refine ⟨fun h => early (fun hd => h hd.validateArgs) (by simp [Safe]) fun _ _ => rfl, fun hva => ?_⟩
  refine ⟨fun h => early (fun hd => h hd.mapArgs) (by simp [Safe]) fun _ _ => rfl, fun hma => ?_⟩
  refine ⟨fun h => early (fun hd => h hd.unmapArgs) (safe_args []) nofun, fun hua => ?_⟩
  refine ⟨fun h => early (fun hd => by simp [hd.version] at h) (safe_args []) fun _ _ => rfl, fun hv => ?_⟩
  refine ⟨fun h => early (fun hd => h hd.features) (safe_args []) fun _ _ => rfl, fun hf => ?_⟩
  refine ⟨fun h => early (fun hd => by simp [hd.regions] at h) (safe_args []) fun _ _ => rfl, fun hr => ?_⟩
  refine ⟨fun h => early (fun hd => h hd.validateDlme) (safe_args []) fun _ _ => rfl, fun hvd => ?_⟩
  refine ⟨fun h => early (fun hd => by simp [hd.dceNwd] at h) (safe_args [_]) fun _ _ => rfl, fun hd => ?_⟩
  refine ⟨fun h => early (fun hd => h hd.mapDlme) (safe_args [_]) fun _ _ => rfl, fun hmd => ?_⟩
  have hmapped : DlmeMapped P e x1 := ⟨hx1, hva, hma, hua, hv, hf, hr, hvd, hd, hmd⟩
  refine ⟨fun _ => ⟨?_, nofun⟩, fun hud => ⟨trivial, hmapped, hud, rfl⟩⟩
  rw [hdlme hmapped]
  exact hmapped.safe_iff

theorem DlmeMapped.safe_image_iff (h : DlmeMapped P e x1) {regions : List Range} :
    Safe ⟨regions, [imageRange e.args, dlmeRange e.args, argsRange x1],
      [dlmeAccepted e.args, argsRange x1], p⟩ ↔ Fits e.args x1 := by
  rw [safe_cons, h.safe_iff]
  exact and_iff_right fun pa hpa => ⟨_, List.mem_cons_self, image_in_accepted h.placed hpa⟩

theorem takeMeasurements_meets (h : DlmeMapped P e x1) :
    Meets (drtmTakeMeasurements P e e.args)
      ⟨base, [dlmeRange e.args, argsRange x1], [dlmeAccepted e.args, argsRange x1], p⟩
      (fun _ t => Safe t ↔ Fits e.args x1) fun _ t =>
        t = ⟨base, [imageRange e.args, dlmeRange e.args, argsRange x1],
          [dlmeAccepted e.args, argsRange x1], p⟩ := by
  unfold drtmTakeMeasurements
  simp only [meets_bind, meets_check, meets_measureChecked, meets_add, meets_remove,
    List.erase_cons_head, h.safe_iff, h.safe_image_iff]
  simp

theorem prepareDlmeData_meets {logSize : ℕ} (h : DlmeMapped P e x1)
    (hwrap : e.args.dlmeSize.toNat ≤ 2 ^ 64 - 4096) :
    Meets (drtmDlPrepareDlmeData P e logSize e.args)
      ⟨base, [imageRange e.args, dlmeRange e.args, argsRange x1],
        [dlmeAccepted e.args, argsRange x1], p⟩
      (fun _ t => Safe t ↔ Fits e.args x1) fun _ t => Safe t ↔ Fits e.args x1 := by
  have hdata {regions : List Range} :
      Safe ⟨regions, [dataRange e.args, imageRange e.args, dlmeRange e.args, argsRange x1],
        [dlmeAccepted e.args, argsRange x1], p⟩ ↔ Fits e.args x1 := by
    rw [safe_cons, h.safe_image_iff]
    refine and_iff_right_of_imp fun hfits pa hpa => ?_
    have hcovered := (safe_cons.mp (h.safe_iff.mpr hfits : Safe ⟨base, _, _, p⟩)).1
    exact hcovered pa (data_in_dlme h.placed hwrap hpa)
  unfold drtmDlPrepareDlmeData
  simp only [meets_bind, meets_check, meets_add, meets_remove, meets_serialiseTable,
    List.erase_cons_head, h.safe_image_iff, hdata]
  simp

def MapsSafely (P : Platform) (e : Env D) (x1 : UInt64) : Prop :=
  drtmDlCheckCores e = .ok () → drtmDlCheckCallerEl e = .ok () → DlmeMapped P e x1 → Fits e.args x1

theorem meets_stage {x : Except Stop β} :
    Meets (stage x) s E Q ↔ (∀ y, x = .error y → E y s) ∧ ∀ a, x = .ok a → Q a s := by
  cases x with
  | ok a => simp [Meets, stage]
  | error y => simp [Meets, stage]

theorem launch_meets {logSize : ℕ} (hzero : alignedUp e.args.dlmeSize = 0 → e.unmapDlme ≠ 0) :
    Meets (drtmDynamicLaunch P e logSize x1) ⟨base, [], [], p⟩ (Stopped (MapsSafely P e x1) base)
      fun _ t => Safe t ↔ MapsSafely P e x1 := by
  have hnone : Safe ⟨base, [], [], p⟩ := by simp [Safe]
  unfold drtmDynamicLaunch
  rw [meets_bind, meets_stage]
  refine ⟨fun y hy => ⟨iff_of_true hnone fun hc => ?_, fun _ _ => rfl⟩, fun _ hcores => ?_⟩
  · simp [hy] at hc
  rw [meets_bind, meets_stage]
  refine ⟨fun y hy => ⟨iff_of_true hnone fun _ hc => ?_, fun _ _ => rfl⟩, fun _ hcaller => ?_⟩
  · simp [hy] at hc
  have hiff (hd : DlmeMapped P e x1) : MapsSafely P e x1 ↔ Fits e.args x1 :=
    ⟨fun h => h hcores hcaller hd, fun h _ _ _ => h⟩
  rw [meets_bind]
  refine (checkArgs_meets (fun hn _ _ hd => absurd hd hn) hiff).weaken (fun _ _ h => h) ?_
  rintro a t ⟨rfl, hd, hud, rfl⟩
  have hwrap : e.args.dlmeSize.toNat ≤ 2 ^ 64 - 4096 := by
    have hlt := e.args.dlmeSize.toNat_lt
    have hsize := alignedUp_toNat e.args.dlmeSize
    by_contra hlarge
    have hnothing : (alignedUp e.args.dlmeSize).toNat = 0 := by omega
    exact hzero (UInt64.toNat_inj.mp hnothing) hud
  have hstop (x : Stop) : Stopped (MapsSafely P e x1) base x
      ⟨base, [dlmeRange e.args, argsRange x1], [dlmeAccepted e.args, argsRange x1], p⟩ :=
    ⟨hd.safe_iff.trans (hiff hd).symm, fun _ _ => rfl⟩
  simp only [drtmDmaProtEngage, meets_bind, meets_check, meets_get, meets_modify, hstop,
    meets_errUndoDmaProt, implies_true, true_and, meets_pure]
  -- Behind the DMA protection no error is answered to the caller.
  have hundo {x : Stop} {t : Ctx} (h : Safe t ↔ Fits e.args x1) :
      Stopped (MapsSafely P e x1) base (undo x) t := by
    refine ⟨h.trans (hiff hd).symm, ?_⟩
    cases x <;> exact nofun
  intro _ _ _ _
  refine (takeMeasurements_meets hd).weaken (fun _ _ => hundo) ?_
  rintro log t rfl
  exact (prepareDlmeData_meets hd hwrap).weaken (fun _ _ => hundo) fun _ _ h => h.trans (hiff hd).symm

/-- A region of size 0 is not found by `mmap_remove_dynamic_region()`, hence `hzero`. -/
theorem mapped_accepted_iff (P : Platform) (e : Env D) (logSize : ℕ) (x1 : UInt64)
    (base : List Range) (p : Int) (hzero : alignedUp e.args.dlmeSize = 0 → e.unmapDlme ≠ 0) :
    (Safe (drtmDynamicLaunch P e logSize x1 ⟨base, [], [], p⟩).2 ∧
      ∀ x0, (drtmDynamicLaunch P e logSize x1 ⟨base, [], [], p⟩).1 = .error (.ret x0) →
        (drtmDynamicLaunch P e logSize x1 ⟨base, [], [], p⟩).2.regions = base) ↔
      MapsSafely P e x1 := by
  have h : Meets (drtmDynamicLaunch P e logSize x1) ⟨base, [], [], p⟩ _ _ := launch_meets hzero
  revert h
  unfold Meets
  rcases drtmDynamicLaunch P e logSize x1 ⟨base, [], [], p⟩ with ⟨r, t⟩
  cases r with
  | ok a => exact fun h => ⟨fun hs => h.mp hs.1, fun hc => ⟨h.mpr hc, nofun⟩⟩
  | error x =>
    intro h
    refine ⟨fun hs => h.1.mp hs.1, fun hc => ⟨h.1.mpr hc, fun x0 hx => ?_⟩⟩
    exact h.2 x0 (Except.error.inj hx)

theorem mapped_accepted_page :
    Safe (drtmDynamicLaunch samplePlatform (sampleEnv 4096 0) 0 0x1000 ⟨[], [], [], PROTECT_NONE⟩).2 :=
  ((mapped_accepted_iff samplePlatform (sampleEnv 4096 0) 0 0x1000 [] PROTECT_NONE
    fun h => absurd h (by decide)).mpr fun _ _ _ => .inl (by decide)).1

def unevenEnv : Env (List UInt8) :=
  { sampleEnv 4096 0 with args := { sampleArgs 4096 with dlmeSize := 0x101001 } }

theorem uneven_maps_beyond :
    ¬ Safe (drtmDynamicLaunch samplePlatform unevenEnv 0 0x1000 ⟨[], [], [], PROTECT_NONE⟩).2 := by
  have hmapped : (⟨0x100000000, 0x102000⟩ : Range) ∈ (drtmDynamicLaunch samplePlatform unevenEnv 0 0x1000
      ⟨[], [], [], PROTECT_NONE⟩).2.mapped := by decide +kernel
  have haccepted : (drtmDynamicLaunch samplePlatform unevenEnv 0 0x1000
      ⟨[], [], [], PROTECT_NONE⟩).2.accepted = [⟨0x100000000, 0x101001⟩, ⟨0x1000, 0x1000⟩] := by
    decide +kernel
  intro hsafe
  have hcovered := hsafe _ hmapped 0x100101001 (by unfold Range.Has; decide)
  rw [haccepted] at hcovered
  simp [Range.Has] at hcovered

end TrustedFirmware.Drtm.Mapped
