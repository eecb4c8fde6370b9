import TrustedFirmware.Common
import TrustedFirmware.Foundations.Programs

/-! # The DRTM dynamic launch

`drtm_dynamic_launch()` with the check of its arguments and the measurements. Sizes and addresses are
64-bit words; `drtm_event_log_measure_and_record()` takes its size as a 32-bit word. The event log
library, the platform hooks and the mapping functions are answers of the environment, one for each
call; the memory does not change during a launch, which runs on the only PE that is on and with DMA
blocked. A call of `panic()` or a failed assertion stops the launch. -/
namespace TrustedFirmware.Drtm
open Staged Utils
set_option autoImplicit false

def DRTM_PAGE_SIZE : UInt64 := 4096
def ARM_DRTM_PARAMS_MIN_VERSION : UInt16 := 1
def ARM_DRTM_PARAMS_MAX_VERSION : UInt16 := 2

def NOT_SUPPORTED : Int := -1
def INVALID_PARAMETERS : Int := -2
def DENIED : Int := -3
def INTERNAL_ERROR : Int := -5
def SECONDARY_PE_NOT_OFF : Int := -10

structure DlArgs where
  version : UInt16
  features : UInt32
  dlmePaddr : UInt64
  dlmeSize : UInt64
  dlmeImgOff : UInt64
  dlmeImgEpOff : UInt64
  dlmeImgSize : UInt64
  dlmeDataOff : UInt64
  dceNwdPaddr : UInt64
  dceNwdSize : UInt64
  deriving DecidableEq, Repr

def DL_ARGS_GET_DMA_PROT_TYPE (a : DlArgs) : UInt32 := (a.features >>> 3) &&& 7
def DL_ARGS_GET_PCR_SCHEMA (a : DlArgs) : UInt32 := (a.features >>> 1) &&& 3
def DL_ARGS_GET_DLME_ENTRY_POINT (a : DlArgs) : UInt64 := a.dlmePaddr + a.dlmeImgOff + a.dlmeImgEpOff

/-! ## The environment -/

/-- The calls of `drtm_event_log_measure_and_record()`. -/
inductive Measurement where
  | dce
  | pcrSchema17
  | separator17
  | pcrSchema18
  | dcePubkey
  | dlme
  | dlmeEp
  | separator18
  deriving DecidableEq, Repr

def Measurement.pcr : Measurement → ℕ
  | dce | pcrSchema17 | separator17 => 17
  | pcrSchema18 | dcePubkey | dlme | dlmeEp | separator18 => 18

def DRTM_EVENT_TYPE (n : ℕ) : ℕ := 0x9000 + n

def Measurement.eventType : Measurement → ℕ
  | pcrSchema17 | pcrSchema18 => DRTM_EVENT_TYPE 1
  | dce => DRTM_EVENT_TYPE 2
  | dcePubkey => DRTM_EVENT_TYPE 3
  | dlme => DRTM_EVENT_TYPE 4
  | dlmeEp => DRTM_EVENT_TYPE 5
  | separator17 | separator18 => DRTM_EVENT_TYPE 10

def Measurement.eventName : Measurement → Option String
  | separator17 | separator18 => some "ARM_DRTM"
  | _ => none

structure Record (D : Type) where
  pcr : ℕ
  eventType : ℕ
  digest : D
  eventName : Option String
  deriving DecidableEq, Repr

structure Platform where
  dlmeDataMinSize : UInt64
  dlmeImgAuthSupported : Bool
  /-- `__builtin_ctz(plat_dma_prot_feat->dma_protection_support)` -/
  dmaProtectionType : UInt32
  tpmBasedHashSupport : UInt32
  enableAssertions : Bool

structure Env (D : Type) where
  hash : List UInt8 → D
  /-- Return values of `event_log_measure()` and `event_log_write_pcr_event2()`. -/
  eventLogMeasure : Measurement → Int
  eventLogWritePcrEvent2 : Measurement → Int
  eventLogInit : Bool
  mem : UInt64 → UInt8
  args : DlArgs
  onBootPe : Bool
  lastOnCpu : Bool
  spsrEl3 : UInt64
  /-- `plat_drtm_validate_ns_region()` for the arguments and for the DLME region. -/
  validateArgs : Int
  validateDlme : Int
  /-- Mapping and unmapping the arguments, the DLME region, the image and the DLME data. -/
  mapArgs : Int
  unmapArgs : Int
  mapDlme : Int
  unmapDlme : Int
  mapImage : Int
  unmapImage : Int
  mapData : Int
  unmapData : Int
  sdeiRegisteredEvents : ℕ
  /-- The DMA protection: engaged before; result of `smmuv3_ns_set_abort_all()` on the SMMUs. -/
  protectionActive : Bool
  smmus : List Int
  /-- The assertions on the sizes of the DLME data. -/
  dlmeDataAssertions : Bool

/-- Why a launch does not reach the DLME. -/
inductive Stop where
  | ret (x0 : Int)
  | panic
  /-- `drtm_enter_remediation()` -/
  | remediation
  deriving DecidableEq, Repr

variable {D : Type}

/-! ## Measuring -/

def drtmEventLogMeasureAndRecord (e : Env D) (dataBase : ℕ → UInt8) (dataSize : UInt32)
    (m : Measurement) (log : List (Record D)) : List (Record D) × Int :=
  if e.eventLogMeasure m ≠ 0 then (log, e.eventLogMeasure m)
  else
    let digest := e.hash ((List.range dataSize.toNat).map dataBase)
    if e.eventLogWritePcrEvent2 m ≠ 0 then (log, e.eventLogWritePcrEvent2 m)
    else (log ++ [⟨m.pcr, m.eventType, digest, m.eventName⟩], 0)

def measureChecked (e : Env D) (dataBase : ℕ → UInt8) (dataSize : UInt32) (m : Measurement)
    (log : List (Record D)) : Except Stop (List (Record D)) :=
  let (log, rc) := drtmEventLogMeasureAndRecord e dataBase dataSize m log
  if rc ≠ 0 then .error .panic else .ok log

def stringBytes (s : String) (i : ℕ) : UInt8 := (s.toUTF8.data.toList).getD i 0

def wordBytes (w : UInt64) (i : ℕ) : UInt8 := (w >>> (8 * i).toUInt64).toUInt8

def imageBytes (e : Env D) (a : DlArgs) (i : ℕ) : UInt8 := e.mem (a.dlmePaddr + a.dlmeImgOff + i.toUInt64)

/-- `drtm_take_measurements()`; the log on success. -/
def drtmTakeMeasurements (P : Platform) (e : Env D) (a : DlArgs) :
    Except Stop (List (Record D)) := do
  let pcrSchema := (DL_ARGS_GET_PCR_SCHEMA a).toUInt8
  check e.eventLogInit .panic
  let log ← measureChecked e (fun _ => 0) 1 .dce []
  let log ← measureChecked e (fun _ => pcrSchema) 1 .pcrSchema17 log
  let log ← measureChecked e (stringBytes "ARM_DRTM") 8 .separator17 log
  let log ← measureChecked e (fun _ => pcrSchema) 1 .pcrSchema18 log
  check (!P.enableAssertions || a.dceNwdSize == 0) .panic
  let log ← measureChecked e (fun _ => 0) 1 .dcePubkey log
  check (e.mapImage == 0) (.ret INTERNAL_ERROR)
  -- The size is converted to the 32-bit parameter.
  let log ← measureChecked e (imageBytes e a) a.dlmeImgSize.toUInt32 .dlme log
  check (e.unmapImage == 0) .panic
  -- The result of this call is not assigned; `CHECK_RC` sees the value of the call before.
  let (log, _) := drtmEventLogMeasureAndRecord e (wordBytes a.dlmeImgEpOff) 8 .dlmeEp log
  let log ← measureChecked e (stringBytes "ARM_DRTM") 8 .separator18 log
  return log

/-! ## Checking the arguments -/

def drtmDlCheckFeaturesSanity (P : Platform) (val : UInt32) : Int :=
  let dlmeImgAuth := (val >>> 6) &&& 1
  if (val >>> 1) &&& 3 = 1 ∧ dlmeImgAuth ≠ 1 then INVALID_PARAMETERS
  else if dlmeImgAuth = 1 ∧ !P.dlmeImgAuthSupported then INVALID_PARAMETERS
  else if (val >>> 3) &&& 7 ≠ P.dmaProtectionType then INVALID_PARAMETERS
  else if val &&& 1 ≠ P.tpmBasedHashSupport then INVALID_PARAMETERS
  else 0

/-- The checks of `drtm_dl_check_args()` on the regions; all sums are modulo 2^64. -/
def drtmDlCheckRegions (P : Platform) (a : DlArgs) : Bool :=
  let dlmeStart := a.dlmePaddr
  let dlmeEnd := a.dlmePaddr + a.dlmeSize
  let dlmeImgStart := a.dlmePaddr + a.dlmeImgOff
  let dlmeImgEp := dlmeImgStart + a.dlmeImgEpOff
  let dlmeImgEnd := dlmeImgStart + a.dlmeImgSize
  let dlmeDataStart := a.dlmePaddr + a.dlmeDataOff
  let dlmeDataEnd := dlmeEnd
  (a.dlmeImgOff < a.dlmeSize && a.dlmeDataOff < a.dlmeSize) &&
  dlmeStart % DRTM_PAGE_SIZE == 0 &&
  (dlmeStart < dlmeEnd && dlmeStart ≤ dlmeImgStart && dlmeImgStart < dlmeImgEnd &&
    dlmeStart ≤ dlmeDataStart && dlmeDataStart < dlmeDataEnd) &&
  !(dlmeImgStart < dlmeDataEnd && dlmeDataStart < dlmeImgEnd) &&
  dlmeImgStart % DRTM_PAGE_SIZE == 0 &&
  (dlmeImgStart ≤ dlmeImgEp && dlmeImgEp < dlmeImgEnd) &&
  dlmeImgEp % 4 == 0 &&
  dlmeDataStart % DRTM_PAGE_SIZE == 0 &&
  !(dlmeDataEnd - dlmeDataStart < P.dlmeDataMinSize)

def drtmDlCheckDceNwd (a : DlArgs) : Bool :=
  a.dceNwdPaddr == 0 ||
    (!checkU64Overflow a.dceNwdPaddr a.dceNwdSize &&
      a.dceNwdPaddr < a.dceNwdPaddr + a.dceNwdSize &&
      !(a.dceNwdPaddr < a.dlmePaddr + a.dlmeSize && a.dlmePaddr < a.dceNwdPaddr + a.dceNwdSize))

/-- `drtm_dl_check_args()`; the copy of the arguments on success. -/
def drtmDlCheckArgs (P : Platform) (e : Env D) (x1 : UInt64) : Except Stop DlArgs := do
  check (x1 % DRTM_PAGE_SIZE == 0) (.ret INVALID_PARAMETERS)
  check (e.validateArgs == 0) (.ret INVALID_PARAMETERS)
  check (e.mapArgs == 0) (.ret INTERNAL_ERROR)
  let a := e.args
  check (e.unmapArgs == 0) .panic
  check (ARM_DRTM_PARAMS_MIN_VERSION ≤ a.version && a.version ≤ ARM_DRTM_PARAMS_MAX_VERSION)
    (.ret NOT_SUPPORTED)
  check (drtmDlCheckFeaturesSanity P a.features == 0) (.ret (drtmDlCheckFeaturesSanity P a.features))
  check (drtmDlCheckRegions P a) (.ret INVALID_PARAMETERS)
  check (e.validateDlme == 0) (.ret INVALID_PARAMETERS)
  check (drtmDlCheckDceNwd a) (.ret INVALID_PARAMETERS)
  check (e.mapDlme == 0) (.ret INTERNAL_ERROR)
  check (e.unmapDlme == 0) .panic
  return a

/-! ## The launch -/

def drtmDlCheckCores (e : Env D) : Except Stop Unit := do
  check e.onBootPe (.ret DENIED)
  check e.lastOnCpu (.ret SECONDARY_PE_NOT_OFF)

/-- `drtm_dl_check_caller_el()`: not from EL3 (`MODE_EL3`), and from AArch64 (`MODE_RW_64`). -/
def drtmDlCheckCallerEl (e : Env D) : Except Stop Unit := do
  check ((e.spsrEl3 >>> 2) &&& 3 != 3) (.ret DENIED)
  check ((e.spsrEl3 >>> 4) &&& 1 == 0) (.ret DENIED)

/-- `drtm_dma_prot_engage()`; the only type implemented is `PROTECT_MEM_ALL`. -/
def drtmDmaProtEngage (e : Env D) (aDmaProtType : UInt32) : Except Stop Unit := do
  check (!e.protectionActive) (.ret DENIED)
  check (aDmaProtType == 0) .panic
  check (e.smmus.all (· == 0)) (.ret INTERNAL_ERROR)

/-- `drtm_dl_prepare_dlme_data()`, as far as it can fail. -/
def drtmDlPrepareDlmeData (P : Platform) (e : Env D) (a : DlArgs) : Except Stop Unit := do
  check (!(a.dlmeSize - a.dlmeDataOff < P.dlmeDataMinSize)) .panic
  check (e.mapData == 0) (.ret INTERNAL_ERROR)
  check (!P.enableAssertions || e.dlmeDataAssertions) .panic
  check (e.unmapData == 0) .panic

/-- Control goes to the DLME at its entry point, with `x0` and `x1`. -/
structure Launched (D : Type) where
  x0 : UInt64
  x1 : UInt64
  entryPoint : UInt64
  log : List (Record D)

/-- After an error behind the DMA protection, `drtm_dma_prot_disengage()` enters remediation. -/
def errUndoDmaProt {α : Type} : Except Stop α → Except Stop α
  | .error (.ret _) => .error .remediation
  | r => r

def drtmDynamicLaunch (P : Platform) (e : Env D) (x1 : UInt64) : Except Stop (Launched D) := do
  drtmDlCheckCores e
  drtmDlCheckCallerEl e
  let args ← drtmDlCheckArgs P e x1
  check (e.sdeiRegisteredEvents == 0) (.ret DENIED)
  drtmDmaProtEngage e (DL_ARGS_GET_DMA_PROT_TYPE args)
  let log ← errUndoDmaProt (drtmTakeMeasurements P e args)
  errUndoDmaProt (drtmDlPrepareDlmeData P e args)
  return ⟨args.dlmePaddr, args.dlmeDataOff, DL_ARGS_GET_DLME_ENTRY_POINT args, log⟩

end TrustedFirmware.Drtm
