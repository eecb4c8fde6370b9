import TrustedFirmware.Spmc.Retrieval

/-! # Runs of calls

The part of `spmc_smc_handler()` that concerns memory management: version negotiation,
the dispatch to the handlers, and the calls that change a mailbox between them. A run
starts after `spmc_setup()` and `initalize_ns_ep_descs()`. -/
namespace TrustedFirmware.Spmc
open ByteMemory
set_option autoImplicit false

inductive Call where
  | version (secureOrigin : Bool) (requested : UInt32)
  | memSend (secureOrigin lend : Bool) (totalLength : UInt64) (fragmentLength : UInt32)
      (address : UInt64) (pageCount : UInt32) (tx : Bytes)
  | memFragTx (secureOrigin : Bool) (handleLow handleHigh : UInt64)
      (fragmentLength senderId : UInt32) (tx : Bytes)
  | memRetrieveReq (secureOrigin : Bool) (totalLength fragmentLength : UInt32) (address : UInt64)
      (pageCount : UInt32) (tx : Bytes)
  | memFragRx (secureOrigin : Bool) (handleLow handleHigh fragmentOffset senderId : UInt32)
  | memRelinquish (secureOrigin : Bool) (tx : Bytes)
  | memReclaim (secureOrigin : Bool) (handleLow handleHigh memFlags : UInt32)
  | rxRelease (secureOrigin : Bool)
  /-- FFA_RXTX_MAP, FFA_RXTX_UNMAP and FFA_PARTITION_INFO_GET may leave the caller's mailbox in
  any state. -/
  | mailbox (secureOrigin : Bool) (m : Mailbox)
  /-- FFA_FEATURES sets whether the partition wants the NS bit. -/
  | features (nsBitRequested : Bool)

def Call.secureOrigin : Call → Bool
  | version b _ => b
  | memSend b _ _ _ _ _ _ => b
  | memFragTx b _ _ _ _ _ => b
  | memRetrieveReq b _ _ _ _ _ => b
  | memFragRx b _ _ _ _ => b
  | memRelinquish b _ => b
  | memReclaim b _ _ _ => b
  | rxRelease b => b
  | mailbox b _ => b
  | features _ => true

/-! ## Version negotiation -/

def ffaVersionHandler (s : State) (secureOrigin : Bool) (requested : ℕ) : State × Reply :=
  let spmcVersion := makeFfaVersion FFA_VERSION_SPMC_MAJOR FFA_VERSION_SPMC_MINOR
  let e := s.endpoint secureOrigin
  if spmcFfaVersionIsValid requested = false then (s, .version FFA_ERROR_NOT_SUPPORTED)
  else if e.ffaVersionNegotiated then
    (s, .version (if e.ffaVersion = FFA_VERSION_NULL then FFA_ERROR_NOT_SUPPORTED
      else e.ffaVersion))
  else if spmcFfaVersionsAreCompatible requested spmcVersion then
    (s.setEndpoint secureOrigin { e with ffaVersion := requested }, .version spmcVersion)
  else (s, .version spmcVersion)

/-- Any other call ends the negotiation. -/
def spmcCompleteFfaVersionNegotiation (s : State) (secureOrigin : Bool) : State :=
  s.setEndpoint secureOrigin { s.endpoint secureOrigin with ffaVersionNegotiated := true }

/-! ## Dispatch -/

def rxReleaseHandler (s : State) (secureOrigin : Bool) : State × Reply :=
  let m := (s.endpoint secureOrigin).mailbox
  if m.state ≠ .full then (s, .error FFA_ERROR_DENIED)
  else (s.setMailbox secureOrigin { m with state := .empty }, .success)

def dispatch (P : Platform) (s : State) : Call → Option (State × Reply)
  | .version b requested => some (ffaVersionHandler s b requested.toNat)
  | .memSend b lend total fragment address pages tx =>
    spmcFfaMemSend P s b lend total.toNat fragment.toNat address.toNat pages.toNat tx
  | .memFragTx b low high fragment sender tx =>
    spmcFfaMemFragTx P s b (memHandle low.toNat high.toNat) fragment.toNat sender.toNat tx
  | .memRetrieveReq b total fragment address pages tx =>
    spmcFfaMemRetrieveReq P s b total.toNat fragment.toNat address.toNat pages.toNat tx
  | .memFragRx b low high offset sender =>
    spmcFfaMemFragRx s b low.toNat high.toNat offset.toNat sender.toNat
  | .memRelinquish b tx => spmcFfaMemRelinquish P s b tx
  | .memReclaim b low high flags => spmcFfaMemReclaim P s b low.toNat high.toNat flags.toNat
  | .rxRelease b => some (rxReleaseHandler s b)
  | .mailbox b m => some (s.setMailbox b m, .success)
  | .features b => some (s.setEndpoint true { s.endpoint true with nsBitRequested := b }, .success)

def Call.isVersion : Call → Bool
  | version _ _ => true
  | _ => false

def spmcSmcHandler (P : Platform) (s : State) (c : Call) : Option (State × Reply) :=
  if c.isVersion then dispatch P s c
  else
    let s := spmcCompleteFfaVersionNegotiation s c.secureOrigin
    if (s.endpoint c.secureOrigin).ffaVersion = FFA_VERSION_NULL then
      some (s, .error FFA_ERROR_NOT_SUPPORTED)
    else dispatch P s c

/-! ## Runs -/

/-- What `spmc_setup()` finds: the platform's datastore and the version in the manifest. -/
structure Boot where
  present : Bool
  dataSize : ℕ
  dataSize_lt : dataSize < 2 ^ 64
  spVersion : ℕ
  spVersion_valid : spmcFfaVersionIsValid spVersion = true
  spVersion_compatible : spmcFfaVersionsAreCompatible spVersion
    (makeFfaVersion FFA_VERSION_SPMC_MAJOR FFA_VERSION_SPMC_MINOR) = true

def emptyMailbox : Mailbox := ⟨.empty, 0, fun _ => 0, 0, 0⟩

def Boot.state (b : Boot) : State where
  store :=
    { present := b.present, data := fun _ => 0, dataSize := b.dataSize, allocated := 0
      nextHandle := 0xffffffc0, written := [] }
  ns := ⟨FFA_VERSION_NULL, false, false, emptyMailbox⟩
  sp := ⟨b.spVersion, false, false, emptyMailbox⟩

/-- A run of calls that return, with what they return, where each call meets a condition on the
state it is made in. -/
inductive RunWhen (P : Platform) (C : State → Call → Prop) (s₀ : State) :
    List (Call × Reply) → State → Prop
  | nil : RunWhen P C s₀ [] s₀
  | snoc {t : List (Call × Reply)} {s s' : State} {c : Call} {r : Reply} (run : RunWhen P C s₀ t s)
      (cond : C s c) (step : spmcSmcHandler P s c = some (s', r)) :
      RunWhen P C s₀ (t ++ [(c, r)]) s'

def Run (P : Platform) (s₀ : State) (t : List (Call × Reply)) (s : State) : Prop :=
  RunWhen P (fun _ _ => True) s₀ t s

end TrustedFirmware.Spmc
