import TrustedFirmware.Spmc.Conversion

/-! # The memory management handlers

FFA_MEM_SHARE, FFA_MEM_LEND, FFA_MEM_FRAG_TX, FFA_MEM_RETRIEVE_REQ, FFA_MEM_FRAG_RX,
FFA_MEM_RELINQUISH and FFA_MEM_RECLAIM, each as what it does while it holds the locks of
the datastore and of the caller's mailbox. The caller's transmit buffer is an argument of
the call. `none` is a failed `assert()` or a `panic()`. -/
namespace TrustedFirmware.Spmc
open ByteMemory
set_option autoImplicit false

inductive MailboxState where
  | empty
  | full
  deriving DecidableEq

/-- `struct mailbox`; FFA_RXTX_MAP takes at most 31 pages. -/
structure Mailbox where
  state : MailboxState
  rxtxPageCount : Fin 32
  rx : Bytes
  lastRxFragmentOffset : ℕ
  nextRxFragmentOffset : ℕ

scoped instance neZero32 : NeZero 32 := ⟨by decide⟩

def Mailbox.bufSize (m : Mailbox) : ℕ := m.rxtxPageCount.val * 4096

structure Endpoint where
  ffaVersion : ℕ
  ffaVersionNegotiated : Bool
  nsBitRequested : Bool
  mailbox : Mailbox

structure State where
  store : Datastore
  ns : Endpoint
  sp : Endpoint

namespace State

def endpoint (s : State) (secureOrigin : Bool) : Endpoint := if secureOrigin then s.sp else s.ns

def setEndpoint (s : State) (secureOrigin : Bool) (e : Endpoint) : State :=
  if secureOrigin then { s with sp := e } else { s with ns := e }

def setMailbox (s : State) (secureOrigin : Bool) (m : Mailbox) : State :=
  s.setEndpoint secureOrigin { s.endpoint secureOrigin with mailbox := m }

end State

inductive Reply where
  | error (code : Int)
  | success
  | version (value : Int)
  | successHandle (low high : ℕ)
  | memFragRx (low high filled sender : ℕ)
  | memRetrieveResp (total copied : ℕ)
  | memFragTx (low high copied sender : ℕ)
  deriving DecidableEq

def memHandle (low high : ℕ) : ℕ := (low ||| high <<< 32) % 2 ^ 64

/-! ## Receiving a descriptor -/

/-- The label `err_arg` of `spmc_ffa_fill_desc()`. -/
def fillFail (s : Datastore) (obj : ℕ) (ret : Int) : Option (Datastore × Reply) :=
  some (spmcShmemObjFree s obj, .error ret)

def fillBegin (P : Platform) (s : Datastore) (obj handle : ℕ) : Option (Datastore × Reply) :=
  let ret := P.plat_spmc_shmem_begin (s.obj obj).desc
  if ret ≠ 0 then fillFail s obj ret
  else some (s, .successHandle (handle % 2 ^ 32) (handle / 2 ^ 32))

/-- The conversion into the new object `v11Obj`, which then takes the place of `obj`. -/
def fillConverted (P : Platform) (s : Datastore) (obj v11Obj handle : ℕ) :
    Option (Datastore × Reply) :=
  match spmcShmConvertShmemObjFromV10 s v11Obj obj with
  -- `ret` is still the 0 of the checks before
  | (s, false) => fillFail (spmcShmemObjFree s v11Obj) obj 0
  | (s, true) =>
    match spmcShmemObjLookup (spmcShmemObjFree s obj) (Mtd.handle (s.obj obj).desc) with
    | none => some (spmcShmemObjFree s obj, .error FFA_ERROR_INVALID_PARAMETER)
    | some found => fillBegin P (spmcShmemObjFree s obj) found handle

def fillConvert (P : Platform) (s : Datastore) (obj handle : ℕ) : Option (Datastore × Reply) :=
  let v11DescSize := spmcShmGetV11DescriptorSize (s.obj obj).desc
  if v11DescSize > UINT32_MAX then fillFail s obj FFA_ERROR_NO_MEMORY
  else match spmcShmemObjAlloc s v11DescSize with
    | none => fillFail s obj FFA_ERROR_NO_MEMORY
    | some (v11Obj, s) =>
      fillConverted P ((s.put v11Obj 0 8 v11DescSize).setDescFilled v11Obj v11DescSize) obj v11Obj
        handle

def fillAccept (P : Platform) (s : Datastore) (obj ffaVersion : ℕ) : Option (Datastore × Reply) :=
  match spmcShmemCheckObj P (s.obj obj) ffaVersion with
  | none => none
  | some ret =>
    if ret ≠ 0 then fillFail s obj ret
    else match spmcShmemCheckStateObj s obj ffaVersion with
      | none => none
      | some ret =>
        if ret ≠ 0 then fillFail s obj ret
        else if ffaVersion = makeFfaVersion 1 0 then
          fillConvert P s obj (Mtd.handle (s.obj obj).desc)
        else fillBegin P s obj (Mtd.handle (s.obj obj).desc)

def fillMore (P : Platform) (s : Datastore) (obj fragmentLength ffaVersion : ℕ) :
    Option (Datastore × Reply) :=
  let s := s.setDescFilled obj ((s.obj obj).descFilled + fragmentLength)
  let o := s.obj obj
  if o.descFilled ≠ o.descSize then
    some (s, .memFragRx (Mtd.handle o.desc % 2 ^ 32) (Mtd.handle o.desc / 2 ^ 32) o.descFilled
      (Mtd.senderId o.desc * 2 ^ 16))
  else fillAccept P s obj ffaVersion

def fillFirst (P : Platform) (s : Datastore) (obj fragmentLength mtdFlag ffaVersion : ℕ) :
    Option (Datastore × Reply) :=
  let o := s.obj obj
  let ret := spmcValidateMtdStart o.desc ffaVersion fragmentLength o.descSize
  if ret ≠ 0 then fillFail s obj ret
  else
    let s := s.put obj (32 + 8) 8 s.nextHandle
    let s := { s with nextHandle := (s.nextHandle + 1) % 2 ^ 64 }
    let s := s.put obj (32 + 4) 4 (Mtd.flags o.desc ||| mtdFlag)
    fillMore P s obj fragmentLength ffaVersion

def spmcFfaFillDesc (P : Platform) (s : Datastore) (rxtxPageCount : ℕ) (tx : Bytes)
    (obj fragmentLength mtdFlag ffaVersion : ℕ) : Option (Datastore × Reply) :=
  let o := s.obj obj
  if rxtxPageCount = 0 then fillFail s obj FFA_ERROR_INVALID_PARAMETER
  else if fragmentLength > rxtxPageCount * 4096 then fillFail s obj FFA_ERROR_INVALID_PARAMETER
  else if fragmentLength > o.descSize - o.descFilled then
    fillFail s obj FFA_ERROR_INVALID_PARAMETER
  else
    let s := s.copyIn obj (32 + o.descFilled) tx fragmentLength
    let d := (s.obj obj).desc
    if ffaIsSecureWorldId (Mtd.senderId d) then fillFail s obj FFA_ERROR_DENIED
    else if o.descFilled = 0 ∧ Mtd.memoryRegionAttributes d &&& FFA_MEM_ATTR_NS_BIT ≠ 0 then
      fillFail s obj FFA_ERROR_INVALID_PARAMETER
    else
      let s := s.put obj (32 + 2) 2 (Mtd.memoryRegionAttributes d ||| FFA_MEM_ATTR_NS_BIT)
      if Mtd.flags d ≠ 0 ∧ mtdFlag ≠ 0 ∧ Mtd.flags d ≠ mtdFlag then
        fillFail s obj FFA_ERROR_INVALID_PARAMETER
      else if o.descFilled = 0 then fillFirst P s obj fragmentLength mtdFlag ffaVersion
      else fillMore P s obj fragmentLength ffaVersion

/-- The smallest descriptor of a version; `none` for a version the SPMC does not know. -/
def minDescSize (ffaVersion : ℕ) : Option ℕ :=
  if ffaVersion = makeFfaVersion 1 0 then some 32
  else if spmcCompatibleVersion ffaVersion 1 1 then some 48
  else none

/-- FFA_MEM_SHARE and FFA_MEM_LEND. -/
def spmcFfaMemSend (P : Platform) (s : State) (secureOrigin lend : Bool)
    (totalLength fragmentLength address pageCount : ℕ) (tx : Bytes) : Option (State × Reply) :=
  let e := s.endpoint secureOrigin
  let mtdFlag := if lend then FFA_MTD_FLAG_TYPE_LEND_MEMORY else FFA_MTD_FLAG_TYPE_SHARE_MEMORY
  if address ≠ 0 ∨ pageCount ≠ 0 then some (s, .error FFA_ERROR_INVALID_PARAMETER)
  else if secureOrigin then some (s, .error FFA_ERROR_INVALID_PARAMETER)
  else match minDescSize e.ffaVersion with
    | none => some (s, .error FFA_ERROR_INVALID_PARAMETER)
    | some min =>
      if fragmentLength < min then some (s, .error FFA_ERROR_INVALID_PARAMETER)
      else match spmcShmemObjAlloc s.store totalLength with
        | none => some (s, .error FFA_ERROR_NO_MEMORY)
        | some (obj, store) =>
          (spmcFfaFillDesc P store e.mailbox.rxtxPageCount.val tx obj fragmentLength mtdFlag
            e.ffaVersion).map fun r => ({ s with store := r.1 }, r.2)

def spmcFfaMemFragTx (P : Platform) (s : State) (secureOrigin : Bool)
    (handle fragmentLength senderId : ℕ) (tx : Bytes) : Option (State × Reply) :=
  let e := s.endpoint secureOrigin
  match spmcShmemObjLookup s.store handle with
  | none => some (s, .error FFA_ERROR_INVALID_PARAMETER)
  | some obj =>
    let o := s.store.obj obj
    if senderId ≠ Mtd.senderId o.desc * 2 ^ 16 then some (s, .error FFA_ERROR_INVALID_PARAMETER)
    else if o.descFilled = o.descSize then some (s, .error FFA_ERROR_INVALID_PARAMETER)
    else
      (spmcFfaFillDesc P s.store e.mailbox.rxtxPageCount.val tx obj fragmentLength 0
        e.ffaVersion).map fun r => ({ s with store := r.1 }, r.2)

end TrustedFirmware.Spmc
