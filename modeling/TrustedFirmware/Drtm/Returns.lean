import TrustedFirmware.Drtm.Mappings

/-! # A launch that answers

Without the state the launch is that of `Drtm.Launch`. With all services succeeding it stops in front
of the DLME only with an answer to the caller, but for one assertion on the arguments: a size of the
normal world DCE passes the check and is asserted to be 0 by the measurements. -/
namespace TrustedFirmware.Drtm.Mapped
open Staged
set_option autoImplicit false

variable {D : Type}

structure ServicesSucceed (e : Env D) (logSize : ℕ) : Prop where
  eventLogInit : e.eventLogInit = true
  measure : ∀ m, Succeeds e m
  logSize_le : logSize ≤ ARM_DRTM_MIN_EVENT_LOG_SIZE
  mapArgs : e.mapArgs = 0
  unmapArgs : e.unmapArgs = 0
  mapDlme : e.mapDlme = 0
  unmapDlme : e.unmapDlme = 0
  mapImage : e.mapImage = 0
  unmapImage : e.unmapImage = 0
  mapData : e.mapData = 0
  unmapData : e.unmapData = 0
  smmus : e.smmus.all (· == 0) = true

def Answered (x : Stop) (_ : Ctx) : Prop := ∃ x0, x = .ret x0

variable {P : Platform} {e : Env D} {logSize : ℕ} {x1 : UInt64} {s : Ctx}

theorem answered_ret (x0 : Int) : Answered (.ret x0) s := ⟨x0, rfl⟩

theorem not_answered_undo (x : Stop) : ¬ Answered (undo x) s := by
  cases x <;> exact nofun

/-! ## Without the state -/

/-- With the state left out, `m` started under the protection `p` is `x`; it ends under `q`. -/
def Erases {α : Type} (p q : Int) (m : Launch α) (x : Except Stop α) : Prop :=
  ∀ s : Ctx, s.activeProt = p →
    Meets m s (fun y _ => x = .error y) fun a t => x = .ok a ∧ t.activeProt = q

section

variable {α β : Type} {p q r : Int}

theorem Erases.bind {m : Launch α} {x : Except Stop α} {f : α → Launch β} {g : α → Except Stop β}
    (hm : Erases p q m x) (hf : ∀ a, Erases q r (f a) (g a)) : Erases p r (m >>= f) (x >>= g) := by
  intro s hs
  rw [meets_bind]
  refine (hm s hs).weaken ?_ ?_
  · rintro y t rfl
    rfl
  · rintro a t ⟨rfl, ht⟩
    exact hf a t ht

theorem erases_stage (x : Except Stop α) : Erases p p (stage x) x := by
  intro s hs
  rw [meets_stage]
  exact ⟨fun _ hy => hy, fun _ ha => ⟨ha, hs⟩⟩

theorem erases_pure (a : α) : Erases p p (pure a) (pure a) := fun _ hs => ⟨rfl, hs⟩

theorem erases_then_modify {b : Bool} {x : Stop} {f : Ctx → Ctx}
    (hf : ∀ s : Ctx, s.activeProt = p → (f s).activeProt = q) :
    Erases p q (stage (check b x) >>= fun _ => modify f) (check b x) := by
  intro s hs
  rw [meets_bind, meets_stage]
  exact ⟨fun _ hy => hy, fun _ ha => ⟨ha, hf s hs⟩⟩

theorem erases_validate {g : Range} {rc : Int} :
    Erases p p (platDrtmValidateNsRegion g rc) (check (rc == 0) (.ret INVALID_PARAMETERS)) :=
  erases_then_modify fun _ h => h

theorem erases_add {g : Range} {rc : Int} :
    Erases p p (mmapAddDynamicRegion g rc) (check (rc == 0) (.ret INTERNAL_ERROR)) :=
  erases_then_modify fun _ h => h

theorem erases_remove {g : Range} {rc : Int} :
    Erases p p (mmapRemoveDynamicRegion g rc) (check (rc == 0) .panic) :=
  erases_then_modify fun _ h => h

theorem erases_errUndoDmaProt {m : Launch α} {x : Except Stop α} (hm : Erases p q m x) :
    Erases p q (errUndoDmaProt m) (Drtm.errUndoDmaProt x) := by
  intro s hs
  rw [meets_errUndoDmaProt]
  refine (hm s hs).weaken ?_ ?_
  · rintro y t rfl
    cases y <;> rfl
  · rintro a t ⟨rfl, ht⟩
    exact ⟨rfl, ht⟩

end

theorem erases_checkArgs {p : Int} : Erases p p (drtmDlCheckArgs P e x1) (Drtm.drtmDlCheckArgs P e x1) := by
  unfold drtmDlCheckArgs Drtm.drtmDlCheckArgs
  refine (erases_stage _).bind fun _ => ?_
  refine erases_validate.bind fun _ => ?_
  refine erases_add.bind fun _ => ?_
  refine erases_remove.bind fun _ => ?_
  refine (erases_stage _).bind fun _ => ?_
  refine (erases_stage _).bind fun _ => ?_
  refine (erases_stage _).bind fun _ => ?_
  refine erases_validate.bind fun _ => ?_
  refine (erases_stage _).bind fun _ => ?_
  refine erases_add.bind fun _ => ?_
  refine erases_remove.bind fun _ => ?_
  exact erases_pure _

theorem erases_takeMeasurements {p : Int} {a : DlArgs} :
    Erases p p (drtmTakeMeasurements P e a) (Drtm.drtmTakeMeasurements P e a) := by
  unfold drtmTakeMeasurements Drtm.drtmTakeMeasurements
  refine (erases_stage _).bind fun _ => ?_
  refine (erases_stage _).bind fun _ => ?_
  refine (erases_stage _).bind fun _ => ?_
  refine (erases_stage _).bind fun _ => ?_
  refine (erases_stage _).bind fun _ => ?_
  refine (erases_stage _).bind fun _ => ?_
  refine (erases_stage _).bind fun _ => ?_
  refine erases_add.bind fun _ => ?_
  refine (erases_stage _).bind fun _ => ?_
  refine erases_remove.bind fun _ => ?_
  exact erases_stage _

theorem erases_engage {p : Int} (hp : e.protectionActive = (p != PROTECT_NONE)) {t : UInt32} :
    Erases p PROTECT_MEM_ALL (drtmDmaProtEngage e t) (Drtm.drtmDmaProtEngage e t) := by
  intro s hs
  have hactive : (s.activeProt == PROTECT_NONE) = !e.protectionActive := by
    rw [hp, hs, bne, Bool.not_not]
  unfold drtmDmaProtEngage Drtm.drtmDmaProtEngage
  rw [meets_bind, meets_get, hactive]
  refine Erases.bind (erases_stage _) (fun _ => ?_) s hs
  refine (erases_stage _).bind fun _ => ?_
  exact erases_then_modify fun _ _ => rfl

theorem erases_prepareDlmeData (hdata : e.dlmeDataAssertions = decide (logSize ≤ ARM_DRTM_MIN_EVENT_LOG_SIZE))
    {a : DlArgs} :
    Erases PROTECT_MEM_ALL PROTECT_MEM_ALL (drtmDlPrepareDlmeData P e logSize a)
      (Drtm.drtmDlPrepareDlmeData P e a) := by
  unfold drtmDlPrepareDlmeData Drtm.drtmDlPrepareDlmeData
  refine (erases_stage _).bind fun _ => ?_
  refine erases_add.bind fun _ => ?_
  intro s hs
  have hnone : PROTECT_MEM_ALL ≠ PROTECT_NONE := by decide
  rw [meets_bind, meets_serialiseTable, hs]
  refine ⟨fun h => absurd h hnone, fun _ h => absurd rfl h, fun _ => ?_⟩
  simp only [Option.isSome_some, beq_self_eq_true, Bool.or_true]
  rw [hdata, meets_bind, meets_check, meets_bind, meets_check]
  refine ⟨nofun, fun _ => ⟨nofun, fun _ => ?_⟩⟩
  exact Erases.bind (erases_stage _) (fun _ => erases_remove) s hs

/-- The launch of `Drtm.Launch` is this one without the state: the protection is active as the state
says, and the assertions on the DLME data come down to the one on the event log. -/
theorem launch_erases (hp : e.protectionActive = (s.activeProt != PROTECT_NONE))
    (hdata : e.dlmeDataAssertions = decide (logSize ≤ ARM_DRTM_MIN_EVENT_LOG_SIZE)) :
    (drtmDynamicLaunch P e logSize x1 s).1 = Drtm.drtmDynamicLaunch P e x1 := by
  have h : Erases s.activeProt PROTECT_MEM_ALL (drtmDynamicLaunch P e logSize x1)
      (Drtm.drtmDynamicLaunch P e x1) := by
    unfold drtmDynamicLaunch Drtm.drtmDynamicLaunch
    refine (erases_stage _).bind fun _ => ?_
    refine (erases_stage _).bind fun _ => ?_
    refine erases_checkArgs.bind fun a => ?_
    refine (erases_stage _).bind fun _ => ?_
    refine (erases_engage hp).bind fun _ => ?_
    refine (erases_errUndoDmaProt erases_takeMeasurements).bind fun log => ?_
    refine (erases_errUndoDmaProt (erases_prepareDlmeData hdata)).bind fun _ => ?_
    exact erases_pure _
  have hmeets := h s rfl
  revert hmeets
  unfold Meets
  rcases drtmDynamicLaunch P e logSize x1 s with ⟨r, t⟩
  cases r with
  | ok a => exact fun hr => hr.1.symm
  | error y => exact fun hr => hr.symm

/-! ## Each function -/

theorem checkArgs_answers (hs : ServicesSucceed e logSize) {Q : DlArgs → Ctx → Prop} :
    Meets (drtmDlCheckArgs P e x1) s Answered Q ↔
      (Drtm.drtmDlCheckArgs P e x1 = .ok e.args → Q e.args { s with
        mapped := dlmeRange e.args :: argsRange x1 :: s.mapped
        accepted := dlmeAccepted e.args :: argsRange x1 :: s.accepted }) := by
  have hpure : (pure e.args : Except Stop DlArgs) = .ok e.args := rfl
  unfold drtmDlCheckArgs Drtm.drtmDlCheckArgs
  simp [meets_bind, meets_check, meets_validate, meets_add, meets_remove, meets_pure, answered_ret,
    ok_bind_iff, check_ok_iff, hs.mapArgs, hs.unmapArgs, hs.mapDlme, hs.unmapDlme, hpure,
    dlmeAccepted, -bind_pure_comp]

theorem engage_answers (hs : ServicesSucceed e logSize) {Q : Unit → Ctx → Prop} :
    Meets (drtmDmaProtEngage e 0) s Answered Q ↔
      (s.activeProt = PROTECT_NONE → Q () { s with activeProt := PROTECT_MEM_ALL }) := by
  unfold drtmDmaProtEngage
  simp [meets_bind, meets_get, meets_check, meets_modify, answered_ret, hs.smmus]

theorem takeMeasurements_answers (hs : ServicesSucceed e logSize) {a : DlArgs} {T : Int → Prop} :
    Meets (drtmTakeMeasurements P e a) s (fun x t => Answered (undo x) t) (fun _ t => T t.activeProt) ↔
      (P.enableAssertions = true → a.dceNwdSize = 0) ∧ T s.activeProt := by
  have hassert : (!P.enableAssertions || a.dceNwdSize == 0) = true ↔
      (P.enableAssertions = true → a.dceNwdSize = 0) := by
    cases P.enableAssertions <;> simp
  rw [← hassert]
  unfold drtmTakeMeasurements
  cases !P.enableAssertions || a.dceNwdSize == 0 <;>
    simp [meets_bind, meets_check, meets_measureChecked, meets_add, meets_remove, hs.eventLogInit,
      hs.measure, hs.mapImage, hs.unmapImage, not_answered_undo]

theorem prepareDlmeData_answers (hs : ServicesSucceed e logSize) {a : DlArgs} (ha : Placed P a)
    (hall : s.activeProt = PROTECT_MEM_ALL) :
    Meets (drtmDlPrepareDlmeData P e logSize a) s (fun x t => Answered (undo x) t) fun _ _ => True := by
  have hroom : ¬ a.dlmeSize - a.dlmeDataOff < P.dlmeDataMinSize := by
    rw [UInt64.lt_iff_toNat_lt, UInt64.toNat_sub_of_le _ _ (UInt64.le_iff_toNat_le.mpr ha.data.le), not_lt]
    exact ha.room
  have hnone : PROTECT_MEM_ALL ≠ PROTECT_NONE := by decide
  unfold drtmDlPrepareDlmeData
  simp [meets_bind, meets_check, meets_add, meets_remove, meets_serialiseTable, hroom, hs.mapData,
    hs.unmapData, hs.logSize_le, hall, hnone]

/-! ## The launch -/

def ReachesMeasurements (P : Platform) (e : Env D) (x1 : UInt64) (s : Ctx) : Prop :=
  drtmDlCheckCores e = .ok () ∧ drtmDlCheckCallerEl e = .ok () ∧
    Drtm.drtmDlCheckArgs P e x1 = .ok e.args ∧ e.sdeiRegisteredEvents = 0 ∧ s.activeProt = PROTECT_NONE

theorem protType_of_features {a : DlArgs} (hP : P.dmaProtectionType = 0)
    (h : drtmDlCheckFeaturesSanity P a.features = 0) : DL_ARGS_GET_DMA_PROT_TYPE a = 0 := by
  by_contra hne
  have hrefused : INVALID_PARAMETERS ≠ 0 := by decide
  have htype : a.features >>> 3 &&& 7 ≠ P.dmaProtectionType := by rwa [hP]
  unfold drtmDlCheckFeaturesSanity at h
  simp only [htype, ne_eq, not_false_eq_true, if_true, ite_eq_iff, hrefused, and_false, false_or] at h

theorem checks_answer {b c : Bool} {x y : Int} {z : Stop}
    (h : (check b (.ret x) >>= fun _ => check c (.ret y)) = .error z) : Answered z s := by
  cases b with
  | false => exact ⟨x, (Except.error.inj h).symm⟩
  | true =>
    cases c with
    | false => exact ⟨y, (Except.error.inj h).symm⟩
    | true => exact absurd h nofun

theorem measured_answers (hs : ServicesSucceed e logSize) {a : DlArgs} (ha : Placed P a)
    (hall : s.activeProt = PROTECT_MEM_ALL) {α : Type} {f : List (Record D) → α} :
    Meets (do
        let log ← errUndoDmaProt (drtmTakeMeasurements P e a)
        errUndoDmaProt (drtmDlPrepareDlmeData P e logSize a)
        return f log) s Answered (fun _ _ => True) ↔
      (P.enableAssertions = true → a.dceNwdSize = 0) := by
  simp only [meets_bind, meets_errUndoDmaProt, meets_pure]
  constructor
  · intro h
    have hmeasured : Meets (drtmTakeMeasurements P e a) s (fun x t => Answered (undo x) t) fun _ _ => True :=
      h.weaken (fun _ _ hx => hx) fun _ _ _ => trivial
    exact ((takeMeasurements_answers hs (T := fun _ => True)).mp hmeasured).1
  · intro h
    refine ((takeMeasurements_answers hs (T := fun p => p = PROTECT_MEM_ALL)).mpr ⟨h, hall⟩).weaken
      (fun _ _ hx => hx) fun _ _ ht => ?_
    exact prepareDlmeData_answers hs ha ht

theorem launch_meets_answers (hP : P.dmaProtectionType = 0) (hs : ServicesSucceed e logSize) :
    Meets (drtmDynamicLaunch P e logSize x1) s Answered (fun _ _ => True) ↔
      (ReachesMeasurements P e x1 s → P.enableAssertions = true → e.args.dceNwdSize = 0) := by
  have hcores {Q : Unit → Ctx → Prop} : Meets (stage (drtmDlCheckCores e)) s Answered Q ↔
      (drtmDlCheckCores e = .ok () → Q () s) := by
    rw [meets_stage]
    exact ⟨fun h => h.2 (), fun h => ⟨fun _ hy => checks_answer hy, fun _ => h⟩⟩
  have hcaller {Q : Unit → Ctx → Prop} : Meets (stage (drtmDlCheckCallerEl e)) s Answered Q ↔
      (drtmDlCheckCallerEl e = .ok () → Q () s) := by
    rw [meets_stage]
    exact ⟨fun h => h.2 (), fun h => ⟨fun _ hy => checks_answer hy, fun _ => h⟩⟩
  unfold drtmDynamicLaunch
  rw [meets_bind, hcores]
  simp only [ReachesMeasurements, and_imp]
  refine imp_congr_right fun _ => ?_
  rw [meets_bind, hcaller]
  refine imp_congr_right fun _ => ?_
  rw [meets_bind, checkArgs_answers hs]
  refine imp_congr_right fun hargs => ?_
  obtain ⟨-, hfeatures, hregions⟩ := checkArgs_ok hargs
  rw [meets_bind, meets_check, and_iff_right fun _ => answered_ret _, beq_iff_eq]
  refine imp_congr_right fun _ => ?_
  rw [meets_bind, protType_of_features hP hfeatures, engage_answers hs]
  refine imp_congr_right fun _ => ?_
  exact measured_answers hs (placed_of_checkRegions hregions) rfl

/-- `drtm_setup()` panics unless the protection is complete, which is type 0: hence `hP`. -/
theorem launch_answers_iff (P : Platform) (e : Env D) (logSize : ℕ) (x1 : UInt64) (s : Ctx)
    (hP : P.dmaProtectionType = 0) (hs : ServicesSucceed e logSize) :
    (∀ x, (drtmDynamicLaunch P e logSize x1 s).1 = .error x → ∃ x0, x = .ret x0) ↔
      (ReachesMeasurements P e x1 s → P.enableAssertions = true → e.args.dceNwdSize = 0) := by
  rw [← launch_meets_answers hP hs]
  unfold Meets
  rcases drtmDynamicLaunch P e logSize x1 s with ⟨r, t⟩
  cases r with
  | ok a => exact iff_of_true nofun trivial
  | error x => exact ⟨fun h => h x rfl, fun h y hy => Except.error.inj hy ▸ h⟩

theorem sampleEnv_succeeds (size : UInt64) (byte : UInt8) : ServicesSucceed (sampleEnv size byte) 0 where
  eventLogInit := rfl
  measure _ := ⟨rfl, rfl⟩
  logSize_le := Nat.zero_le _
  mapArgs := rfl
  unmapArgs := rfl
  mapDlme := rfl
  unmapDlme := rfl
  mapImage := rfl
  unmapImage := rfl
  mapData := rfl
  unmapData := rfl
  smmus := rfl

theorem launch_answers_page :
    samplePlatform.dmaProtectionType = 0 ∧ ServicesSucceed (sampleEnv 4096 0) 0 ∧
      ∀ x, (drtmDynamicLaunch samplePlatform (sampleEnv 4096 0) 0 0x1000 ⟨[], [], [], PROTECT_NONE⟩).1 =
        .error x → ∃ x0, x = .ret x0 :=
  ⟨rfl, sampleEnv_succeeds 4096 0, (launch_answers_iff samplePlatform (sampleEnv 4096 0) 0 0x1000 _ rfl
    (sampleEnv_succeeds 4096 0)).mpr fun _ _ => rfl⟩

def dceEnv : Env (List UInt8) :=
  { sampleEnv 4096 0 with args := { sampleArgs 4096 with dceNwdSize := 1 } }

theorem dce_size_asserts :
    ServicesSucceed dceEnv 0 ∧
      (drtmDynamicLaunch samplePlatform dceEnv 0 0x1000 ⟨[], [], [], PROTECT_NONE⟩).1 = .error .panic :=
  ⟨{ sampleEnv_succeeds 4096 0 with }, rfl⟩

end TrustedFirmware.Drtm.Mapped
