import TrustedFirmware.Common

/-! # FFA_VERSION in the SPM dispatcher

The version negotiation of `services/std_svc/spmd/spmd_main.c` for an SPMC below
EL3: the version globals, the framework message that forwards a request to the
SPMC, and the generic switch to the other security state that returns the answer.
The save and restore of system registers is not part of the model. -/
namespace TrustedFirmware.Spmd
open El3Runtime Smccc
set_option autoImplicit false

scoped instance neZero31 : NeZero 31 := ⟨by decide⟩

/-! ## Constants -/

def FFA_VERSION_MAJOR_SHIFT : ℕ := 16
def FFA_VERSION_MAJOR_MASK : BitVec 32 := 0x7FFF
def FFA_VERSION_MINOR_MASK : BitVec 32 := 0xFFFF
def FFA_VERSION_BIT31_MASK : BitVec 32 := 0x80000000
def FFA_VERSION_MAJOR : BitVec 32 := 1
def FFA_VERSION_MINOR : BitVec 32 := 3
def FFA_VERSION_NULL : BitVec 32 := 0
def FFA_VERSION_QUERY_TYPE_MASK : BitVec 32 := 0x3
def FFA_VERSION_QUERY_TYPE_NEGOTIATE : BitVec 32 := 0
def FFA_VERSION_QUERY_TYPE_COMPATIBILITY : BitVec 32 := 1
def FFA_VERSION_QUERY_TYPE_GET_NEGOTIATED : BitVec 32 := 2
def FFA_ERROR_NOT_SUPPORTED : BitVec 32 := BitVec.ofInt 32 (-1)
def SMC_ARCH_CALL_INVAL_PARAM : BitVec 32 := BitVec.ofInt 32 (-3)
def FFA_VERSION : BitVec 32 := 0x84000063
def FFA_MSG_SEND_DIRECT_REQ_SMC32 : Reg := 0x8400006F
def FFA_MSG_SEND_DIRECT_RESP_SMC32 : Reg := 0x84000070
def FFA_NORMAL_WORLD_RESUME : BitVec 32 := 0x8400007C
def FFA_FWK_MSG_BIT : Reg := 0x80000000
def SPMD_FWK_MSG_FFA_VERSION_REQ : Reg := 0x8
def SPMD_FWK_MSG_FFA_VERSION_RESP : Reg := 0x9
def SPMD_DIRECT_MSG_ENDPOINT_ID : Reg := 0xFFFF
def FFA_DIRECT_MSG_SOURCE_SHIFT : ℕ := 16

def makeFfaVersion (major minor : BitVec 32) : BitVec 32 :=
  ((major &&& FFA_VERSION_MAJOR_MASK) <<< FFA_VERSION_MAJOR_SHIFT) |||
    (minor &&& FFA_VERSION_MINOR_MASK)

/-! ## State -/

inductive SpmcState where
  | reset
  | off
  | onPending
  | on
  deriving DecidableEq, Repr

/-- The globals of the dispatcher, the SPMC's attributes and state on this CPU, and the general
purpose registers of the two contexts. -/
structure Dispatcher where
  nonsecureFfaVersion : BitVec 32
  nonsecureFfaVersionLocked : Bool
  majorVersion : BitVec 32
  minorVersion : BitVec 32
  spmcId : BitVec 16
  state : SpmcState
  secure : GpRegs
  nonSecure : GpRegs

def spmcVersion (s : Dispatcher) : BitVec 32 := makeFfaVersion s.majorVersion s.minorVersion

/-! ## Negotiation -/

def spmdFfaVersionsAreCompatible (caller callee : BitVec 32) : Bool :=
  ((caller >>> FFA_VERSION_MAJOR_SHIFT) &&& FFA_VERSION_MAJOR_MASK) ==
      ((callee >>> FFA_VERSION_MAJOR_SHIFT) &&& FFA_VERSION_MAJOR_MASK) &&
    decide ((caller &&& FFA_VERSION_MINOR_MASK) ≤ (callee &&& FFA_VERSION_MINOR_MASK))

def spmdSpmcUsesLegacyVersionNegotiation (s : Dispatcher) : Bool :=
  decide (spmcVersion s < makeFfaVersion 1 3)

def spmdFfaVersionResponseIsCompatible (requested returned : BitVec 32) : Bool :=
  returned != FFA_VERSION_NULL && (returned &&& FFA_VERSION_BIT31_MASK) == 0 &&
    spmdFfaVersionsAreCompatible requested returned

def spmdTrySetNonsecureFfaVersion (s : Dispatcher) (queryType requested returned : BitVec 32) : Dispatcher :=
  if queryType ≠ FFA_VERSION_QUERY_TYPE_NEGOTIATE then s
  else if !spmdFfaVersionResponseIsCompatible requested returned then s
  else if !spmdSpmcUsesLegacyVersionNegotiation s || !s.nonsecureFfaVersionLocked then
    { s with nonsecureFfaVersion := requested }
  else s

/-! ## Messages and returns -/

/-- `SMC_RET8` and `SMC_RET18`: the registers from X0 on take the given values. -/
def smcRet (g : GpRegs) (vs : List Reg) : GpRegs := writeGpFrom g 0 vs

def spmdBuildSpmcMessage (g : GpRegs) (spmcId : BitVec 16) (targetFunc x3 x4 : Reg) : GpRegs :=
  smcRet g [FFA_MSG_SEND_DIRECT_REQ_SMC32,
    (SPMD_DIRECT_MSG_ENDPOINT_ID <<< FFA_DIRECT_MSG_SOURCE_SHIFT) ||| spmcId.setWidth 64,
    FFA_FWK_MSG_BIT ||| targetFunc, x3, x4, 0, 0, 0]

/-- Copies X8 to X17 of `src` into `dst`. -/
def copyX8ToX17 (dst src : GpRegs) : GpRegs :=
  writeGpFrom dst 8 [src 8, src 9, src 10, src 11, src 12, src 13, src 14, src 15, src 16, src 17]

def spmdFfaVersionResponseIsValid (g : GpRegs) (rc : Reg) : Bool :=
  rc == 0 && g 0 == FFA_MSG_SEND_DIRECT_RESP_SMC32 &&
    g 2 == (FFA_FWK_MSG_BIT ||| SPMD_FWK_MSG_FFA_VERSION_RESP)

/-- `spmd_smc_switch_state`. The registers of the other state become those of the outgoing
context. `sel2` is SPMD_SPM_AT_SEL2, `hint` is `is_sve_hint_set(flags)`. -/
def spmdSmcSwitchState (sel2 : Bool) (s : Dispatcher) (smcFid : BitVec 32) (secureOrigin : Bool)
    (x1 x2 x3 x4 : Reg) (handle : GpRegs) (hint : Bool) (secureFfaVersion : BitVec 32) : Dispatcher :=
  let versionIn := if secureOrigin then secureFfaVersion else s.nonsecureFfaVersion
  let versionOut := if secureOrigin then s.nonsecureFfaVersion else secureFfaVersion
  let smcFid := if sel2 && !secureOrigin && hint then smcFid ||| (1#32 <<< FUNCID_SVE_HINT_SHIFT) else smcFid
  let out := if secureOrigin then s.nonSecure else s.secure
  let head := [smcFid.setWidth 64, x1, x2, x3, x4, handle 5, handle 6, handle 7]
  let out :=
    if smcFid = FFA_NORMAL_WORLD_RESUME then out
    else if (smcFid >>> FUNCID_CC_SHIFT) &&& 1 = SMC_64 ∧ makeFfaVersion 1 2 ≤ versionOut then
      if versionIn < makeFfaVersion 1 2 then smcRet out (head ++ List.replicate 10 0)
      else smcRet out (head ++ [handle 8, handle 9, handle 10, handle 11, handle 12, handle 13,
        handle 14, handle 15, handle 16, handle 17])
    else smcRet out head
  if secureOrigin then { s with nonSecure := out } else { s with secure := out }

/-! ## The handler -/

/-- The answer of an SPMC to the message it is entered with: its registers and the value that
`spmd_spm_core_sync_entry` returns. -/
abbrev Spmc := GpRegs → GpRegs × Reg

/-- The message that forwards a request: X8 to X17 are the caller's. -/
def versionMessage (s : Dispatcher) (inputVersion inputFlags : BitVec 32) : GpRegs :=
  copyX8ToX17 (spmdBuildSpmcMessage s.secure s.spmcId SPMD_FWK_MSG_FFA_VERSION_REQ
    (inputVersion.setWidth 64) (inputFlags.setWidth 64)) s.nonSecure

/-- The result that an answer stands for. -/
def answerResult (back : GpRegs) (rc : Reg) : BitVec 32 :=
  if spmdFfaVersionResponseIsValid back rc then (back 3).setWidth 32 else FFA_ERROR_NOT_SUPPORTED

/-- `spmd_forward_ffa_version` of a non-secure request, for an SPMC below EL3. -/
def spmdForwardFfaVersion (sel2 : Bool) (spmc : Spmc) (s : Dispatcher) (x1 x2 : Reg) (hint : Bool) :
    Dispatcher :=
  let inputVersion := x1.setWidth 32
  let inputFlags := x2.setWidth 32
  let queryType := inputFlags &&& FFA_VERSION_QUERY_TYPE_MASK
  if s.majorVersion = 1 ∧ s.minorVersion = 0 then
    let ret := spmcVersion s
    let s := spmdTrySetNonsecureFfaVersion s queryType inputVersion ret
    { s with nonSecure := smcRet s.nonSecure [ret.setWidth 64, 0, 0, 0, 0, 0, 0, 0] }
  else
    let (back, rc) := spmc (versionMessage s inputVersion inputFlags)
    let ret := answerResult back rc
    let s := if spmdFfaVersionResponseIsValid back rc then
        spmdTrySetNonsecureFfaVersion s queryType inputVersion ret
      else s
    let s := { s with secure := writeGpFrom back 5 [0, 0, 0] }
    spmdSmcSwitchState sel2 s ret true 0 0 0 0 s.secure hint (spmcVersion s)

inductive Decision where
  | answer (ret : BitVec 32)
  | forward

/-- The decision part of `spmd_ffa_version_handler`. -/
def versionDecision (s : Dispatcher) (secureOrigin : Bool) (x1 x2 : Reg) : Decision :=
  let inputVersion := x1.setWidth 32
  let inputFlags := x2.setWidth 32
  let queryType := inputFlags &&& FFA_VERSION_QUERY_TYPE_MASK
  if inputVersion &&& FFA_VERSION_BIT31_MASK ≠ 0 ∨
      queryType > FFA_VERSION_QUERY_TYPE_GET_NEGOTIATED then .answer SMC_ARCH_CALL_INVAL_PARAM
  else if s.state = .reset then .answer FFA_ERROR_NOT_SUPPORTED
  else if queryType = FFA_VERSION_QUERY_TYPE_NEGOTIATE then
    if secureOrigin then .answer (spmcVersion s) else .forward
  else if queryType = FFA_VERSION_QUERY_TYPE_COMPATIBILITY then
    if secureOrigin then .answer (makeFfaVersion FFA_VERSION_MAJOR FFA_VERSION_MINOR)
    else if spmdFfaVersionsAreCompatible inputVersion (spmcVersion s) then .answer (spmcVersion s)
    else if spmdSpmcUsesLegacyVersionNegotiation s then .answer (spmcVersion s)
    else .forward
  else .answer (if secureOrigin then spmcVersion s else s.nonsecureFfaVersion)

def spmdFfaVersionHandler (sel2 : Bool) (spmc : Spmc) (s : Dispatcher) (secureOrigin : Bool)
    (x1 x2 : Reg) (hint : Bool) : Dispatcher :=
  match versionDecision s secureOrigin x1 x2 with
  | .forward => spmdForwardFfaVersion sel2 spmc s x1 x2 hint
  | .answer ret =>
    let vs : List Reg := [ret.setWidth 64, 0, 0, 0, 0, 0, 0, 0]
    if secureOrigin then { s with secure := smcRet s.secure vs }
    else { s with nonSecure := smcRet s.nonSecure vs }

end TrustedFirmware.Spmd
