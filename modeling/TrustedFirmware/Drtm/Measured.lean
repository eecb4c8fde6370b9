import Mathlib.Tactic
import TrustedFirmware.Drtm.Launch

/-! # What is in the log when the DLME runs

Every measurement but one is followed by a check of its own result, so a launch that reaches the DLME
has logged it. The measurement of the entry point is not, and the size of the image passes through a
32-bit parameter; these two are what can go wrong. -/
namespace TrustedFirmware.Drtm
open Staged
set_option autoImplicit false

variable {D : Type}

variable {e : Env D} {log : List (Record D)} {P : Platform}

/-! ## One measurement -/

def Succeeds (e : Env D) (m : Measurement) : Prop :=
  e.eventLogMeasure m = 0 ∧ e.eventLogWritePcrEvent2 m = 0

instance (e : Env D) (m : Measurement) : Decidable (Succeeds e m) :=
  inferInstanceAs (Decidable (_ ∧ _))

def entry (e : Env D) (dataBase : ℕ → UInt8) (size : ℕ) (m : Measurement) : Record D :=
  ⟨m.pcr, m.eventType, e.hash ((List.range size).map dataBase), m.eventName⟩

theorem measureAndRecord_eq (e : Env D) (dataBase : ℕ → UInt8) (dataSize : UInt32) (m : Measurement)
    (log : List (Record D)) :
    (drtmEventLogMeasureAndRecord e dataBase dataSize m log).1 =
        log ++ (if Succeeds e m then [entry e dataBase dataSize.toNat m] else []) ∧
      ((drtmEventLogMeasureAndRecord e dataBase dataSize m log).2 = 0 ↔ Succeeds e m) := by
  unfold drtmEventLogMeasureAndRecord
  by_cases hm : e.eventLogMeasure m = 0
  · rw [if_neg (not_not.mpr hm)]
    by_cases hw : e.eventLogWritePcrEvent2 m = 0
    · have hs : Succeeds e m := ⟨hm, hw⟩
      simp [hw, hs, entry]
    · have hs : ¬ Succeeds e m := fun h => hw h.2
      simp [hw, hs]
  · have hs : ¬ Succeeds e m := fun h => hm h.1
    simp [hm, hs]

theorem measureChecked_eq_ok {dataBase : ℕ → UInt8} {dataSize : UInt32} {m : Measurement}
    {log' : List (Record D)} :
    measureChecked e dataBase dataSize m log = .ok log' ↔
      Succeeds e m ∧ log' = log ++ [entry e dataBase dataSize.toNat m] := by
  obtain ⟨hlog, hrc⟩ := measureAndRecord_eq e dataBase dataSize m log
  unfold measureChecked
  dsimp only
  by_cases hs : Succeeds e m
  · rw [if_pos hs] at hlog
    simp [hrc.mpr hs, hs, hlog, eq_comm]
  · simp [hs, mt hrc.mp hs]

/-! ## The log -/

/-- The image, all `dlme_img_size` bytes of it. -/
def image (e : Env D) : List UInt8 := (List.range e.args.dlmeImgSize.toNat).map (imageBytes e e.args)

theorem drtmTakeMeasurements_log {a : DlArgs} (h : drtmTakeMeasurements P e a = .ok log) :
    (∀ m, m ≠ .dlmeEp → Succeeds e m) ∧
    log = [entry e (fun _ => 0) 1 .dce, entry e (fun _ => (DL_ARGS_GET_PCR_SCHEMA a).toUInt8) 1 .pcrSchema17,
        entry e (stringBytes "ARM_DRTM") 8 .separator17,
        entry e (fun _ => (DL_ARGS_GET_PCR_SCHEMA a).toUInt8) 1 .pcrSchema18,
        entry e (fun _ => 0) 1 .dcePubkey,
        entry e (imageBytes e a) (a.dlmeImgSize.toNat % 2 ^ 32) .dlme] ++
      (if Succeeds e .dlmeEp then [entry e (wordBytes a.dlmeImgEpOff) 8 .dlmeEp] else []) ++
      [entry e (stringBytes "ARM_DRTM") 8 .separator18] := by
  rw [drtmTakeMeasurements] at h
  simp only [ok_bind_iff, check_ok_iff, measureChecked_eq_ok] at h
  obtain ⟨-, -, l1, ⟨h1, rfl⟩, l2, ⟨h2, rfl⟩, l3, ⟨h3, rfl⟩, l4, ⟨h4, rfl⟩, -, -, l5, ⟨h5, rfl⟩, -, -,
    l6, ⟨h6, rfl⟩, -, -, h7, hlog⟩ := h
  rw [(measureAndRecord_eq e _ _ _ _).1] at hlog
  refine ⟨?_, ?_⟩
  · intro m hm
    cases m with
    | dce => exact h1
    | pcrSchema17 => exact h2
    | separator17 => exact h3
    | pcrSchema18 => exact h4
    | dcePubkey => exact h5
    | dlme => exact h6
    | dlmeEp => exact absurd rfl hm
    | separator18 => exact h7
  · have hsize : a.dlmeImgSize.toUInt32.toNat = a.dlmeImgSize.toNat % 2 ^ 32 := UInt64.toNat_toUInt32 _
    rw [hlog, hsize]
    simp

theorem drtmDynamicLaunch_log {x1 : UInt64} {r : Launched D} (h : drtmDynamicLaunch P e x1 = .ok r) :
    drtmTakeMeasurements P e e.args = .ok r.log := by
  rw [drtmDynamicLaunch] at h
  simp only [ok_bind_iff, check_ok_iff] at h
  obtain ⟨-, -, -, -, args, hargs, -, -, -, -, log, hlog, -, -, hr⟩ := h
  have hcopy : args = e.args := by
    rw [drtmDlCheckArgs] at hargs
    simp only [ok_bind_iff, check_ok_iff] at hargs
    obtain ⟨-, -, -, -, -, -, -, -, -, -, -, -, -, -, -, -, -, -, -, -, -, -, ha⟩ := hargs
    exact (Except.ok.inj ha).symm
  cases hr
  rw [hcopy] at hlog
  cases ht : drtmTakeMeasurements P e e.args with
  | ok log' =>
    rw [ht] at hlog
    exact hlog
  | error s =>
    rw [ht] at hlog
    cases s <;> cases hlog

/-! ## Completeness -/

def Recorded (log : List (Record D)) (m : Measurement) : Prop :=
  (m.pcr, m.eventType) ∈ log.map fun r => (r.pcr, r.eventType)

def dlmeDigests (log : List (Record D)) : List D :=
  (log.filter fun r => r.pcr = Measurement.dlme.pcr ∧ r.eventType = Measurement.dlme.eventType).map
    Record.digest

def Complete (e : Env D) (log : List (Record D)) : Prop :=
  (∀ m, Recorded log m) ∧ dlmeDigests log = [e.hash (image e)]

theorem launched_dlmeDigests (h : drtmTakeMeasurements P e e.args = .ok log) :
    dlmeDigests log =
      [e.hash ((List.range (e.args.dlmeImgSize.toNat % 2 ^ 32)).map (imageBytes e e.args))] := by
  obtain ⟨-, rfl⟩ := drtmTakeMeasurements_log h
  by_cases hep : Succeeds e .dlmeEp
  · simp [dlmeDigests, hep, entry, Measurement.pcr, Measurement.eventType, DRTM_EVENT_TYPE]
  · simp [dlmeDigests, hep, entry, Measurement.pcr, Measurement.eventType, DRTM_EVENT_TYPE]

theorem recorded_iff (h : drtmTakeMeasurements P e e.args = .ok log) :
    (∀ m, Recorded log m) ↔ Succeeds e .dlmeEp := by
  obtain ⟨-, rfl⟩ := drtmTakeMeasurements_log h
  refine ⟨?_, ?_⟩
  · intro hall
    by_contra hep
    have hrec := hall .dlmeEp
    simp [Recorded, hep, entry, Measurement.pcr, Measurement.eventType, DRTM_EVENT_TYPE] at hrec
  · intro hep m
    cases m <;> simp [Recorded, hep, entry, Measurement.pcr, Measurement.eventType, DRTM_EVENT_TYPE]

def Measurable (e : Env D) : Prop := e.args.dlmeImgSize.toNat < 2 ^ 32 ∧ Succeeds e .dlmeEp

theorem length_image (e : Env D) : (image e).length = e.args.dlmeImgSize.toNat := by
  rw [image, List.length_map, List.length_range]

theorem launched_complete_iff (hinj : Function.Injective e.hash)
    (h : drtmTakeMeasurements P e e.args = .ok log) : Complete e log ↔ Measurable e := by
  rw [Complete, recorded_iff h, launched_dlmeDigests h, Measurable, and_comm]
  refine and_congr_left fun _ => ?_
  rw [List.cons_eq_cons, and_iff_left rfl, hinj.eq_iff]
  refine ⟨?_, ?_⟩
  · intro heq
    have hlen := congrArg List.length heq
    rw [length_image, List.length_map, List.length_range] at hlen
    rw [← hlen]
    exact Nat.mod_lt _ (by decide)
  · intro hlt
    rw [Nat.mod_eq_of_lt hlt, image]

/-- **The measured launch.** Whenever control goes to the DLME, all measurements are in the log and
the digest of the image covers all its bytes exactly if the image is smaller than 4 GiB and the event
log library did not fail on the entry point; and two such launches of different images log different
digests. -/
theorem launch_measured_iff (P : Platform) (e : Env D) (x1 : UInt64) (r : Launched D)
    (hinj : Function.Injective e.hash) (h : drtmDynamicLaunch P e x1 = .ok r) :
    (Complete e r.log ↔ Measurable e) ∧
    ∀ (P' : Platform) (e' : Env D) (x1' : UInt64) (r' : Launched D), e'.hash = e.hash →
      drtmDynamicLaunch P' e' x1' = .ok r' → Measurable e → Measurable e' → image e ≠ image e' →
      dlmeDigests r.log ≠ dlmeDigests r'.log := by
  have hlog := drtmDynamicLaunch_log h
  refine ⟨launched_complete_iff hinj hlog, ?_⟩
  intro P' e' x1' r' hhash h' hm hm' hne heq
  have hinj' : Function.Injective e'.hash := hhash ▸ hinj
  have hc := ((launched_complete_iff hinj hlog).mpr hm).2
  have hc' := ((launched_complete_iff hinj' (drtmDynamicLaunch_log h')).mpr hm').2
  rw [hc, hc', hhash] at heq
  exact hne (hinj (List.singleton_inj.mp heq))

/-! ## Two launches -/

def samplePlatform : Platform := ⟨0x20000, false, 0, 1, true⟩

def sampleArgs (size : UInt64) : DlArgs :=
  ⟨1, 1, 0x100000000, size + 0x100000, 0, 0, size, size, 0, 0⟩

/-- Nothing fails, and the hash is as ideal as can be. -/
def sampleEnv (size : UInt64) (byte : UInt8) : Env (List UInt8) :=
  { hash := id, eventLogMeasure := fun _ => 0, eventLogWritePcrEvent2 := fun _ => 0
    eventLogInit := true, mem := fun _ => byte, args := sampleArgs size, onBootPe := true
    lastOnCpu := true, spsrEl3 := 8, validateArgs := 0, validateDlme := 0, mapArgs := 0
    unmapArgs := 0, mapDlme := 0, unmapDlme := 0, mapImage := 0, unmapImage := 0, mapData := 0
    unmapData := 0, sdeiRegisteredEvents := 0, protectionActive := false, smmus := [0]
    dlmeDataAssertions := true }

theorem launch_measured_iff_page :
    ∃ r, drtmDynamicLaunch samplePlatform (sampleEnv 4096 0) 0x1000 = .ok r ∧
      Complete (sampleEnv 4096 0) r.log := by
  have hok : (drtmDynamicLaunch samplePlatform (sampleEnv 4096 0) 0x1000).isOk = true := by
    decide +kernel
  cases h : drtmDynamicLaunch samplePlatform (sampleEnv 4096 0) 0x1000 with
  | error s =>
    rw [h] at hok
    cases hok
  | ok r =>
    refine ⟨r, rfl, ?_⟩
    exact ((launch_measured_iff samplePlatform (sampleEnv 4096 0) 0x1000 r Function.injective_id h).1).mpr
      ⟨by decide, rfl, rfl⟩

/-- Two images of 4 GiB that differ in every byte: the logs are the same. -/
theorem large_image_unmeasured :
    ∃ r r', drtmDynamicLaunch samplePlatform (sampleEnv 0x100000000 0) 0x1000 = .ok r ∧
      drtmDynamicLaunch samplePlatform (sampleEnv 0x100000000 1) 0x1000 = .ok r' ∧
      (∀ i, imageBytes (sampleEnv 0x100000000 0) (sampleArgs 0x100000000) i ≠
        imageBytes (sampleEnv 0x100000000 1) (sampleArgs 0x100000000) i) ∧
      r.log = r'.log ∧ dlmeDigests r.log = [[]] := by
  have hok : ((drtmDynamicLaunch samplePlatform (sampleEnv 0x100000000 0) 0x1000).toOption.any fun r =>
      (drtmDynamicLaunch samplePlatform (sampleEnv 0x100000000 1) 0x1000).toOption.any fun r' =>
        decide (r.log = r'.log ∧ dlmeDigests r.log = [[]])) = true := by
    decide +kernel
  cases h : drtmDynamicLaunch samplePlatform (sampleEnv 0x100000000 0) 0x1000 with
  | error s =>
    rw [h] at hok
    cases hok
  | ok r =>
    cases h' : drtmDynamicLaunch samplePlatform (sampleEnv 0x100000000 1) 0x1000 with
    | error s =>
      rw [h, h'] at hok
      cases hok
    | ok r' =>
      rw [h, h'] at hok
      have hlogs : r.log = r'.log ∧ dlmeDigests r.log = [[]] := by
        simpa [Except.toOption] using hok
      exact ⟨r, r', rfl, rfl, fun i => by simp [imageBytes, sampleEnv], hlogs⟩

end TrustedFirmware.Drtm
