import TrustedFirmware.Spmc.Handlers

/-! # Retrieving, relinquishing and reclaiming

The receiver's side of the handlers, the dispatcher that completes the version
negotiation before any of them, and the runs of calls. -/
namespace TrustedFirmware.Spmc
open ByteMemory
set_option autoImplicit false

/-! ## The request -/

/-- The first loop over the endpoint descriptors of a request: each lies inside it. -/
def requestEmadsInside (req : Bytes) (ffaVersion totalLength : ℕ) : ℕ → ℕ → Option Bool
  | 0, _ => some true
  | n + 1, i =>
    match spmcShmemObjGetEmad req i ffaVersion with
    | none => none
    | some (e, emadSize) =>
      if emadSize < 16 ∨ emadSize > totalLength ∨ e > totalLength - emadSize then some false
      else requestEmadsInside req ffaVersion totalLength n (i + 1)

def endpointListed (d : Bytes) (endpointId : ℕ) : ℕ → ℕ → Option Bool
  | 0, _ => some false
  | n + 1, j =>
    match spmcShmemObjGetEmad d j (makeFfaVersion 1 1) with
    | none => none
    | some (e, _) =>
      if endpointId = Emad.endpointId d e then some true else endpointListed d endpointId n (j + 1)

def requestEmadsListed (req : Bytes) (ffaVersion : ℕ) (d : Bytes) : ℕ → ℕ → Option Bool
  | 0, _ => some true
  | n + 1, i =>
    match spmcShmemObjGetEmad req i ffaVersion with
    | none => none
    | some (e, _) =>
      match endpointListed d (Emad.endpointId req e) (Mtd.emadCount d) 0 with
      | none => none
      | some false => some false
      | some true => requestEmadsListed req ffaVersion d n (i + 1)

/-- The checks on the endpoint descriptors of a request. -/
def retrieveCheckEmads (o : Obj) (req : Bytes) (ffaVersion totalLength : ℕ) : Option Int :=
  match requestEmadsInside req ffaVersion totalLength (Mtd.emadCount req) 0 with
  | none => none
  | some false => some FFA_ERROR_INVALID_PARAMETER
  | some true =>
    match requestEmadsListed req ffaVersion o.desc (Mtd.emadCount req) 0 with
    | none => none
    | some false => some FFA_ERROR_INVALID_PARAMETER
    | some true => some 0

/-- The caller is an endpoint of the transaction. -/
def retrieveCheckCaller (P : Platform) (o : Obj) (req : Bytes) (ffaVersion totalLength : ℕ) :
    Option Int :=
  if Mtd.emadCount req = 0 then retrieveCheckEmads o req ffaVersion totalLength
  else match spmcShmemObjValidateId o P.spId with
    | none => none
    | some false => some FFA_ERROR_INVALID_PARAMETER
    | some true => retrieveCheckEmads o req ffaVersion totalLength

def retrieveCheckFields (o : Obj) (req : Bytes) : Int :=
  let reqFlags := Mtd.flags req
  if o.descFilled ≠ o.descSize then FFA_ERROR_INVALID_PARAMETER
  else if Mtd.emadCount req ≠ 0 ∧ Mtd.senderId req ≠ Mtd.senderId o.desc then
    FFA_ERROR_INVALID_PARAMETER
  else if Mtd.emadCount req ≠ 0 ∧ Mtd.tag req ≠ Mtd.tag o.desc then FFA_ERROR_INVALID_PARAMETER
  else if Mtd.emadCount req ≠ 0 ∧ Mtd.emadCount req ≠ Mtd.emadCount o.desc then
    FFA_ERROR_INVALID_PARAMETER
  else if Mtd.memoryRegionAttributes req &&& FFA_MEM_ATTR_NS_BIT ≠ 0 then
    FFA_ERROR_INVALID_PARAMETER
  else if reqFlags ≠ 0 ∧
      reqFlags &&& FFA_MTD_FLAG_TYPE_MASK ≠ Mtd.flags o.desc &&& FFA_MTD_FLAG_TYPE_MASK then
    FFA_ERROR_INVALID_PARAMETER
  else if reqFlags ≠ 0 ∧ reqFlags ≠ FFA_MTD_FLAG_TYPE_SHARE_MEMORY ∧
      reqFlags ≠ FFA_MTD_FLAG_TYPE_LEND_MEMORY then
    FFA_ERROR_INVALID_PARAMETER
  else 0

/-- The validation of the request held in the snapshot object `req`. -/
def retrieveCheck (P : Platform) (s : Datastore) (secureOrigin : Bool) (ffaVersion : ℕ)
    (req : Bytes) (totalLength : ℕ) : Option Int :=
  if (secureOrigin = true ∧ Mtd.emadCount req = 0) ∨
      (secureOrigin = false ∧ Mtd.emadCount req ≠ 0) then
    some FFA_ERROR_INVALID_PARAMETER
  else match spmcShmemObjLookup s (Mtd.handle req) with
    | none => some FFA_ERROR_INVALID_PARAMETER
    | some obj =>
      let ret := retrieveCheckFields (s.obj obj) req
      if ret ≠ 0 then some ret
      else retrieveCheckCaller P (s.obj obj) req ffaVersion totalLength

/-! ## The response -/

def clearNsBit (attributes : ℕ) : ℕ := attributes &&& (0xffff - FFA_MEM_ATTR_NS_BIT)

def spmcFfaMemRetrieveUpdateNsBit (resp : Bytes) (e : Endpoint) (secureOrigin : Bool) : Bytes :=
  let attributes := Mtd.memoryRegionAttributes resp
  if secureOrigin = true ∧ e.ffaVersion < makeFfaVersion 1 1 ∧ e.nsBitRequested = false then
    store resp 2 2 (clearNsBit attributes)
  else if secureOrigin = false then
    if e.ffaVersion > makeFfaVersion 1 0 then store resp 2 2 (attributes ||| FFA_MEM_ATTR_NS_BIT)
    else store resp 2 2 (clearNsBit attributes)
  else resp

def retrievePopulate (s : Datastore) (e : Endpoint) (secureOrigin : Bool) (obj : ℕ)
    (reqHasEmads : Bool) : Option (Datastore × Except Int Populated) :=
  let bufSize := e.mailbox.bufSize
  let o := s.obj obj
  if reqHasEmads = false then
    if secureOrigin then none
    else spmcPopulateFfaHypDescriptor s e.mailbox.rx obj bufSize e.ffaVersion
  else if e.ffaVersion = makeFfaVersion 1 0 then
    some (spmcPopulateFfaV10Descriptor s e.mailbox.rx obj bufSize 0)
  else
    let copySize := min o.descSize bufSize
    some (s, .ok ⟨blit e.mailbox.rx 0 o.desc copySize, copySize, o.descSize⟩)

/-- The part of `spmc_ffa_mem_retrieve_req()` behind the release of the snapshot. -/
def retrieveRespond (s : State) (secureOrigin : Bool) (handle : ℕ) (reqHasEmads : Bool) :
    Option (State × Reply) :=
  let e := s.endpoint secureOrigin
  match spmcShmemObjLookup s.store handle with
  | none => some (s, .error FFA_ERROR_INVALID_PARAMETER)
  | some obj =>
    match retrievePopulate s.store e secureOrigin obj reqHasEmads with
    | none => none
    | some (store, .error ret) => some ({ s with store := store }, .error ret)
    | some (store, .ok r) =>
      let mailbox := { e.mailbox with
        rx := spmcFfaMemRetrieveUpdateNsBit r.rx e secureOrigin
        lastRxFragmentOffset := 0
        nextRxFragmentOffset := r.copySize }
      match spmcShmemObjLookup store handle with
      | none =>
        some (({ s with store := store }).setMailbox secureOrigin mailbox,
          .error FFA_ERROR_INVALID_PARAMETER)
      | some obj =>
        let store :=
          if reqHasEmads then store.setInUse obj ((store.obj obj).inUse + 1) else store
        some (({ s with store := store }).setMailbox secureOrigin { mailbox with state := .full },
          .memRetrieveResp r.descSize r.copySize)

def roundUp16 (value : ℕ) : ℕ := (value + 15) / 16 * 16

/-- The size of the header that a request starts with. -/
def requestHeader (ffaVersion : ℕ) : ℕ := if ffaVersion = makeFfaVersion 1 0 then 32 else 48

/-- The checks on the request in the object `snapshot`, which is then released. -/
def retrieveFromSnapshot (P : Platform) (s : State) (secureOrigin : Bool) (snapshot totalLength : ℕ) :
    Option (State × Reply) :=
  let req := (s.store.obj snapshot).desc
  match retrieveCheck P s.store secureOrigin (s.endpoint secureOrigin).ffaVersion req
    totalLength with
  | none => none
  | some ret =>
    let s := { s with store := spmcShmemObjFree s.store snapshot }
    if ret ≠ 0 then some (s, .error ret)
    else retrieveRespond s secureOrigin (Mtd.handle req) (Mtd.emadCount req != 0)

def spmcFfaMemRetrieveReq (P : Platform) (s : State) (secureOrigin : Bool)
    (totalLength fragmentLength address pageCount : ℕ) (tx : Bytes) : Option (State × Reply) :=
  let e := s.endpoint secureOrigin
  if address ≠ 0 ∨ pageCount ≠ 0 then some (s, .error FFA_ERROR_INVALID_PARAMETER)
  else if e.mailbox.rxtxPageCount = 0 then some (s, .error FFA_ERROR_INVALID_PARAMETER)
  else if e.mailbox.state ≠ .empty then some (s, .error FFA_ERROR_DENIED)
  else if fragmentLength ≠ totalLength then some (s, .error FFA_ERROR_INVALID_PARAMETER)
  else if totalLength < requestHeader e.ffaVersion then
    some (s, .error FFA_ERROR_INVALID_PARAMETER)
  else if totalLength > e.mailbox.bufSize then
    some (s, .error FFA_ERROR_INVALID_PARAMETER)
  else match spmcShmemObjAlloc s.store (roundUp16 totalLength) with
    | none => some (s, .error FFA_ERROR_NO_MEMORY)
    | some (snapshot, store) =>
      retrieveFromSnapshot P { s with store := store.copyIn snapshot 32 tx totalLength } secureOrigin
        snapshot totalLength

/-! ## Further fragments -/

/-- A fragment at `fragmentOffset` of the caller's response, `actual` in the stored descriptor. -/
def fragRxPopulate (s : Datastore) (e : Endpoint) (secureOrigin : Bool)
    (obj fragmentOffset actual : ℕ) : Option (Datastore × Except Int Populated) :=
  let bufSize := e.mailbox.bufSize
  let o := s.obj obj
  if secureOrigin = false ∧ fragmentOffset = 0 then
    spmcPopulateFfaHypDescriptor s e.mailbox.rx obj bufSize e.ffaVersion
  else if e.ffaVersion = makeFfaVersion 1 0 then
    some (spmcPopulateFfaV10Descriptor s e.mailbox.rx obj bufSize actual)
  else
    let copySize := min (o.descSize - actual) bufSize
    some (s, .ok ⟨blit e.mailbox.rx 0 (shift o.desc actual) copySize, copySize, o.descSize⟩)

/-- Where a fragment starts in the stored descriptor: a hypervisor's response is shifted, in 32-bit
arithmetic. -/
def actualFragmentOffset (o : Obj) (secureOrigin : Bool) (fragmentOffset : ℕ) : ℕ :=
  if secureOrigin then fragmentOffset else (fragmentOffset + o.hypShift) % 2 ^ 32

def spmcFfaMemFragRx (s : State) (secureOrigin : Bool)
    (handleLow handleHigh fragmentOffset senderId : ℕ) : Option (State × Reply) :=
  let e := s.endpoint secureOrigin
  match spmcShmemObjLookup s.store (memHandle handleLow handleHigh) with
  | none => some (s, .error FFA_ERROR_INVALID_PARAMETER)
  | some obj =>
    let o := s.store.obj obj
    let actual := actualFragmentOffset o secureOrigin fragmentOffset
    if o.descFilled ≠ o.descSize then some (s, .error FFA_ERROR_INVALID_PARAMETER)
    else if senderId ≠ 0 ∧ senderId ≠ Mtd.senderId o.desc * 2 ^ 16 then
      some (s, .error FFA_ERROR_INVALID_PARAMETER)
    else if actual ≥ o.descSize then some (s, .error FFA_ERROR_INVALID_PARAMETER)
    else if e.mailbox.rxtxPageCount = 0 then some (s, .error FFA_ERROR_INVALID_PARAMETER)
    else if e.mailbox.state ≠ .empty then some (s, .error FFA_ERROR_DENIED)
    else if fragmentOffset ≠ e.mailbox.lastRxFragmentOffset ∧
        fragmentOffset ≠ e.mailbox.nextRxFragmentOffset then
      some (s, .error FFA_ERROR_INVALID_PARAMETER)
    else match fragRxPopulate s.store e secureOrigin obj fragmentOffset actual with
      | none => none
      | some (store, .error ret) =>
        some (({ s with store := store }).setMailbox secureOrigin { e.mailbox with state := .full },
          .error ret)
      | some (store, .ok r) =>
        some (({ s with store := store }).setMailbox secureOrigin { e.mailbox with
            state := .full
            rx := r.rx
            lastRxFragmentOffset := fragmentOffset
            nextRxFragmentOffset := (fragmentOffset + r.copySize) % 2 ^ 32 },
          .memFragTx handleLow handleHigh r.copySize senderId)

/-! ## Relinquish and reclaim -/

/-- The request is `struct ffa_mem_relinquish_descriptor` in the transmit buffer. -/
def spmcFfaMemRelinquish (P : Platform) (s : State) (secureOrigin : Bool) (tx : Bytes) :
    Option (State × Reply) :=
  let e := s.endpoint secureOrigin
  let endpointCount := load tx 12 4
  let endpointId := load tx 16 2
  if secureOrigin = false then some (s, .error FFA_ERROR_INVALID_PARAMETER)
  else if e.mailbox.rxtxPageCount = 0 then some (s, .error FFA_ERROR_INVALID_PARAMETER)
  else if load tx 8 4 ≠ 0 then some (s, .error FFA_ERROR_INVALID_PARAMETER)
  else if endpointCount = 0 then some (s, .error FFA_ERROR_INVALID_PARAMETER)
  else match spmcShmemObjLookup s.store (load tx 0 8) with
    | none => some (s, .error FFA_ERROR_INVALID_PARAMETER)
    | some obj =>
      let o := s.store.obj obj
      if endpointCount ≠ 1 then some (s, .error FFA_ERROR_INVALID_PARAMETER)
      else if endpointId ≠ P.spId then some (s, .error FFA_ERROR_INVALID_PARAMETER)
      else match spmcShmemObjValidateId o P.spId with
        | none => none
        | some false => some (s, .error FFA_ERROR_INVALID_PARAMETER)
        | some true =>
          if o.inUse = 0 then some (s, .error FFA_ERROR_INVALID_PARAMETER)
          else some ({ s with store := s.store.setInUse obj (o.inUse - 1) }, .success)

def spmcFfaMemReclaim (P : Platform) (s : State) (secureOrigin : Bool)
    (handleLow handleHigh memFlags : ℕ) : Option (State × Reply) :=
  if secureOrigin then some (s, .error FFA_ERROR_INVALID_PARAMETER)
  else if memFlags ≠ 0 then some (s, .error FFA_ERROR_INVALID_PARAMETER)
  else match spmcShmemObjLookup s.store (memHandle handleLow handleHigh) with
    | none => some (s, .error FFA_ERROR_INVALID_PARAMETER)
    | some obj =>
      let o := s.store.obj obj
      if o.inUse ≠ 0 then some (s, .error FFA_ERROR_DENIED)
      else if o.descFilled ≠ o.descSize then some (s, .error FFA_ERROR_INVALID_PARAMETER)
      else
        let ret := P.plat_spmc_shmem_reclaim o.desc
        if ret ≠ 0 then some (s, .error ret)
        else some ({ s with store := spmcShmemObjFree s.store obj }, .success)

end TrustedFirmware.Spmc
