import TrustedFirmware.Foundations.ByteMemory

/-! # The secure firmware communication protocol

`drivers/arm/sfcp/sfcp_core` as it is built without cryptography. A node initialises a message or
a reply in a buffer, sends it over the link its routing table names, and receives by polling. The
node the message goes to keeps the role of receiver in the reply and in an error packet.

The link layer is a parameter: what is pending on each link, and its answer to a send. The
functions of `sfcp_encryption_stub.c` are inlined: no trusted subnet is found, no packet is a
handshake, and a packet that uses cryptography is not decrypted. -/
namespace TrustedFirmware.Sfcp
open ByteMemory
set_option autoImplicit false

/-! ## Packets -/

inductive PacketType
  | MSG_NEEDS_REPLY | MSG_NO_REPLY | REPLY | PROTOCOL_ERROR_REPLY
  deriving DecidableEq

/-- `hal` stands for the errors of the link layer. -/
inductive SfcpError
  | CRYPTOGRAPHY_NOT_SUPPORTED | INVALID_TRUSTED_SUBNET_ID | BUFFER_TOO_SMALL | INVALID_NODE
  | MESSAGE_TOO_SMALL | PAYLOAD_TOO_LARGE | INVALID_SENDER_ID | NO_MSG_AVAILABLE
  | NO_REPLY_AVAILABLE | INVALID_PROTOCOL_VERSION | INVALID_PACKET_SIZE | INVALID_APPLICATION_ID
  | INVALID_CLIENT_ID | INVALID_CRYPTO_MODE | INVALID_SEQUENCE_NUMBER | SEND_MSG_AGAIN
  | PROTOCOL_ERROR | hal (error : ℕ)
  deriving DecidableEq

inductive ProtocolError
  | UNSUPPORTED | FORWARDING_UNSUPPORTED | INVALID_CONTEXT | TRY_AGAIN_LATER | DECRYPTION_FAILED
  deriving DecidableEq

def ProtocolError.code : ProtocolError → ℕ
  | .UNSUPPORTED => 1
  | .FORWARDING_UNSUPPORTED => 2
  | .INVALID_CONTEXT => 5
  | .TRY_AGAIN_LATER => 6
  | .DECRYPTION_FAILED => 13

def PROTOCOL_VERSION : UInt8 := 0b10

def HEADER_SIZE : ℕ := 4

/-- Sequence number, mode, trusted subnet and tag. -/
def CRYPTOGRAPHY_METADATA_SIZE : ℕ := 2 + 4 + 1 + 16

def PACKET_SIZE_ERROR_REPLY : ℕ := 8

def idExtensionOffset (usesCrypto : Bool) : ℕ :=
  HEADER_SIZE + if usesCrypto then CRYPTOGRAPHY_METADATA_SIZE else 0

def packetSizeWithoutPayload (usesCrypto usesIdExtension : Bool) : ℕ :=
  idExtensionOffset usesCrypto + if usesIdExtension then 4 else 0

def PacketType.bits : PacketType → UInt8
  | .MSG_NEEDS_REPLY => 0b00
  | .MSG_NO_REPLY => 0b01
  | .REPLY => 0b10
  | .PROTOCOL_ERROR_REPLY => 0b11

def setAllMetadataFields (type : PacketType) (usesCrypto usesId : Bool) : UInt8 :=
  (type.bits &&& 0b11) <<< 6 ||| (usesCrypto.toUInt8 &&& 1) <<< 5 ||| (usesId.toUInt8 &&& 1) <<< 4 |||
    (PROTOCOL_VERSION &&& 0b111)

def packetTypeField (metadata : UInt8) : PacketType :=
  match (metadata >>> 6) &&& 0b11 with
  | 0b00 => .MSG_NEEDS_REPLY
  | 0b01 => .MSG_NO_REPLY
  | 0b10 => .REPLY
  | _ => .PROTOCOL_ERROR_REPLY

def usesCryptographyField (metadata : UInt8) : Bool := (metadata >>> 5) &&& 1 = 1

def usesIdExtensionField (metadata : UInt8) : Bool := (metadata >>> 4) &&& 1 = 1

def protocolVersionField (metadata : UInt8) : UInt8 := metadata &&& 0b111

structure Parsed where
  sender : UInt8
  receiver : UInt8
  messageId : UInt8
  usesCryptography : Bool
  usesIdExtension : Bool
  applicationId : UInt16
  clientId : UInt16
  payload : Option ℕ
  payloadLen : ℕ
  needsReply : Bool
  packetType : PacketType
  deriving DecidableEq

def parsePacket (packet : Bytes) (packetSize : ℕ) : Except SfcpError Parsed :=
  if protocolVersionField (packet 0) ≠ PROTOCOL_VERSION then .error .INVALID_PROTOCOL_VERSION
  else if packetSize < HEADER_SIZE then .error .INVALID_PACKET_SIZE
  else
    let type := packetTypeField (packet 0)
    let crypto := usesCryptographyField (packet 0)
    let ext := usesIdExtensionField (packet 0)
    let size := packetSizeWithoutPayload crypto ext
    let ids := idExtensionOffset crypto
    if type = .PROTOCOL_ERROR_REPLY then
      if packetSize ≠ PACKET_SIZE_ERROR_REPLY then .error .INVALID_PACKET_SIZE
      else .ok ⟨packet 1, packet 2, packet 3, crypto, ext, 0, .ofNat (load packet 4 2), none, 0, false, type⟩
    else if packetSize < size then .error .INVALID_PACKET_SIZE
    else
      .ok ⟨packet 1, packet 2, packet 3, crypto, ext,
        if ext then .ofNat (load packet (ids + 2) 2) else 0, if ext then .ofNat (load packet ids 2) else 0,
        if packetSize - size > 0 then some size else none, packetSize - size,
        type == .MSG_NEEDS_REPLY, type⟩

def packetRequiresForwarding (p : Parsed) (myNodeId : UInt8) : Bool :=
  ((p.packetType == .MSG_NO_REPLY || p.packetType == .MSG_NEEDS_REPLY) && p.receiver != myNodeId) ||
    (p.packetType == .REPLY && p.sender != myNodeId)

def setHeader (buf : Bytes) (metadata sender receiver messageId : UInt8) : Bytes :=
  fun i =>
    if i = 0 then metadata else if i = 1 then sender else if i = 2 then receiver
    else if i = 3 then messageId else buf i

structure Packet where
  size : ℕ
  data : Bytes

def generateProtocolErrorPacket (packet : Bytes) (sender receiver : UInt8) (clientId : UInt16)
    (messageId : UInt8) (error : ProtocolError) : Packet :=
  let header := setHeader packet (setAllMetadataFields .PROTOCOL_ERROR_REPLY false false) sender receiver
    messageId
  ⟨PACKET_SIZE_ERROR_REPLY, store (store header 4 2 clientId.toNat) 6 2 error.code⟩

/-! ## Sending -/

/-- `SFCP_NUMBER_NODES`, the id of the node and its routing table. A node id has eight bits, and the
loop over the nodes ends only if there are fewer than 256. -/
structure Node where
  numberNodes : ℕ
  myNodeId : UInt8
  routingTables : List UInt8
  fewNodes : numberNodes ≤ 255

def Node.getRoute (n : Node) (nodeId : UInt8) : UInt8 := n.routingTables.getD nodeId.toNat 0

structure ReplyMetadata where
  receiver : UInt8
  usesCryptography : Bool
  clientId : UInt16
  applicationId : UInt16
  messageId : UInt8
  trustedSubnetId : UInt8

structure MsgMetadata where
  sender : UInt8
  usesCryptography : Bool
  clientId : UInt16
  applicationId : UInt16
  messageId : UInt8
  trustedSubnetId : UInt8

/-- What `sfcp_init_msg` leaves: the buffer, the payload in it, the metadata and the message ids. -/
structure InitMsg where
  msg : Bytes
  payload : ℕ
  payloadLen : ℕ
  metadata : ReplyMetadata
  messageIds : UInt8 → UInt8

/-- The header and the ids of a packet, as `sfcp_init_msg` and `sfcp_init_reply` write them. -/
def writePacket (buf : Bytes) (type : PacketType) (crypto ext : Bool) (sender receiver messageId : UInt8)
    (clientId applicationId : UInt16) : Bytes :=
  let header := setHeader buf (setAllMetadataFields type crypto ext) sender receiver messageId
  let ids := idExtensionOffset crypto
  if ext then store (store header ids 2 clientId.toNat) (ids + 2) 2 applicationId.toNat else header

def initMsg (n : Node) (messageIds : UInt8 → UInt8) (buf : Bytes) (bufSize : ℕ) (receiver : UInt8)
    (applicationId clientId : UInt16) (needsReply manuallySpecifyTsId : Bool) (trustedSubnetId : UInt8) :
    Except SfcpError InitMsg :=
  let ext := applicationId != 0 || clientId != 0
  if manuallySpecifyTsId then .error .CRYPTOGRAPHY_NOT_SUPPORTED
  else if trustedSubnetId ≠ 0 then .error .INVALID_TRUSTED_SUBNET_ID
  else if bufSize < packetSizeWithoutPayload false ext then .error .BUFFER_TOO_SMALL
  else if n.numberNodes ≤ receiver.toNat ∨ receiver = n.myNodeId then .error .INVALID_NODE
  else
    let messageId := messageIds receiver
    .ok ⟨writePacket buf (if needsReply then .MSG_NEEDS_REPLY else .MSG_NO_REPLY) false ext n.myNodeId
        receiver messageId clientId applicationId,
      packetSizeWithoutPayload false ext, bufSize - packetSizeWithoutPayload false ext,
      ⟨receiver, false, clientId, applicationId, messageId, trustedSubnetId⟩,
      Function.update messageIds receiver (messageId + 1)⟩

structure InitReply where
  reply : Bytes
  payload : ℕ
  payloadLen : ℕ

def initReply (n : Node) (buf : Bytes) (bufSize : ℕ) (metadata : MsgMetadata) : Except SfcpError InitReply :=
  let ext := metadata.clientId != 0 || metadata.applicationId != 0
  let crypto := metadata.usesCryptography
  if bufSize < packetSizeWithoutPayload crypto ext then .error .BUFFER_TOO_SMALL
  else if crypto then .error .CRYPTOGRAPHY_NOT_SUPPORTED
  else
    .ok ⟨writePacket buf .REPLY crypto ext metadata.sender n.myNodeId metadata.messageId metadata.clientId
        metadata.applicationId,
      packetSizeWithoutPayload crypto ext, bufSize - packetSizeWithoutPayload crypto ext⟩

/-- The link and the packet that are given to the link layer, if it takes them. -/
def sendMsgReply (n : Node) (halSend : Except ℕ Unit) (packet : Bytes) (packetSize payloadSize : ℕ)
    (isMsg : Bool) : Except SfcpError (UInt8 × Packet) :=
  let crypto := usesCryptographyField (packet 0)
  let size := packetSizeWithoutPayload crypto (usesIdExtensionField (packet 0))
  let link := n.getRoute (if isMsg then packet 2 else packet 1)
  if packetSize < HEADER_SIZE then .error .MESSAGE_TOO_SMALL
  else if packetSize < size then .error .MESSAGE_TOO_SMALL
  else if payloadSize > packetSize - size then .error .PAYLOAD_TOO_LARGE
  else if crypto then .error .CRYPTOGRAPHY_NOT_SUPPORTED
  else if link = 0 then .error .INVALID_NODE
  else
    match halSend with
    | .error e => .error (.hal e)
    | .ok () => .ok (link, ⟨size + payloadSize, packet⟩)

def sendMsg (n : Node) (halSend : Except ℕ Unit) (msg : Bytes) (msgSize payloadSize : ℕ) :
    Except SfcpError (UInt8 × Packet) := sendMsgReply n halSend msg msgSize payloadSize true

def sendReply (n : Node) (halSend : Except ℕ Unit) (reply : Bytes) (replySize payloadSize : ℕ) :
    Except SfcpError (UInt8 × Packet) := sendMsgReply n halSend reply replySize payloadSize false

/-! ## Receiving -/

structure Pending where
  size : ℕ
  data : Except ℕ Bytes

def Packet.pending (p : Packet) : Pending := ⟨p.size, .ok p.data⟩

abbrev Inbox := UInt8 → Except ℕ (Option Pending)

def notAvailableError (isMsg : Bool) : SfcpError :=
  if isMsg then .NO_MSG_AVAILABLE else .NO_REPLY_AVAILABLE

structure Received where
  remoteId : UInt8
  link : UInt8
  size : ℕ
  buf : Bytes

def receiveMsgReplyFromNode (n : Node) (inbox : Inbox) (buf : Bytes) (bufSize : ℕ) (isMsg : Bool)
    (remoteId : UInt8) : Except SfcpError Received :=
  let link := n.getRoute remoteId
  if link = 0 then .error .INVALID_NODE
  else
    match inbox link with
    | .error e => .error (.hal e)
    | .ok none => .error (notAvailableError isMsg)
    | .ok (some p) =>
      if p.size > bufSize then .error .BUFFER_TOO_SMALL
      else
        match p.data with
        | .error e => .error (.hal e)
        | .ok data => .ok ⟨remoteId, link, p.size, blit buf 0 data p.size⟩

/-- The loop over `count` nodes from `node` on. -/
def receiveLoop (n : Node) (inbox : Inbox) (buf : Bytes) (bufSize : ℕ) (isMsg : Bool) :
    ℕ → ℕ → Except SfcpError Received
  | _, 0 => .error (notAvailableError isMsg)
  | node, count + 1 =>
    if UInt8.ofNat node = n.myNodeId then receiveLoop n inbox buf bufSize isMsg (node + 1) count
    else
      match receiveMsgReplyFromNode n inbox buf bufSize isMsg (.ofNat node) with
      | .ok r => .ok r
      | .error e =>
        if e = notAvailableError isMsg then receiveLoop n inbox buf bufSize isMsg (node + 1) count
        else .error e

def receiveMsgReply (n : Node) (inbox : Inbox) (buf : Bytes) (bufSize : ℕ) (anyRemote : Bool)
    (remoteId : UInt8) (isMsg : Bool) : Except SfcpError Received :=
  if bufSize < packetSizeWithoutPayload true true then .error .BUFFER_TOO_SMALL
  else if anyRemote = false ∧ remoteId = n.myNodeId then .error .INVALID_NODE
  else if anyRemote then receiveLoop n inbox buf bufSize isMsg 0 n.numberNodes
  else receiveLoop n inbox buf bufSize isMsg remoteId.toNat 1

/-- The end of both functions under `error_reply`: a message that needs a reply is answered. -/
def errorReply {α : Type} (halSend : Except ℕ Unit) (stack : Bytes) (link : UInt8) (p : Parsed)
    (refusal : ProtocolError × SfcpError) : Except SfcpError α × Option (UInt8 × Packet) :=
  if p.needsReply then
    match halSend with
    | .error e => (.error (.hal e), none)
    | .ok () =>
      (.error refusal.2, some (link,
        generateProtocolErrorPacket stack p.sender p.receiver p.clientId p.messageId refusal.1))
  else (.error refusal.2, none)

/-- The checks of `sfcp_receive_msg`. -/
def msgRefusal (n : Node) (received : UInt8) (applicationId : UInt16) (p : Parsed) :
    Option (ProtocolError × SfcpError) :=
  if packetRequiresForwarding p n.myNodeId then some (.FORWARDING_UNSUPPORTED, .NO_MSG_AVAILABLE)
  else if p.packetType ≠ .MSG_NEEDS_REPLY ∧ p.packetType ≠ .MSG_NO_REPLY then
    some (.INVALID_CONTEXT, .NO_MSG_AVAILABLE)
  else if p.sender ≠ received ∨ p.receiver ≠ n.myNodeId then some (.UNSUPPORTED, .INVALID_NODE)
  else if p.usesIdExtension = false ∧ applicationId ≠ 0 then some (.UNSUPPORTED, .INVALID_APPLICATION_ID)
  else if p.usesIdExtension = true ∧ p.applicationId ≠ applicationId then
    some (.TRY_AGAIN_LATER, .NO_MSG_AVAILABLE)
  else if p.usesCryptography then some (.DECRYPTION_FAILED, .CRYPTOGRAPHY_NOT_SUPPORTED)
  else none

structure ReceivedMsg where
  buf : Bytes
  clientId : UInt16
  payload : Option ℕ
  payloadLen : ℕ
  metadata : MsgMetadata

/-- The result, and the error packet that was sent, with its link. -/
def receiveMsg (n : Node) (inbox : Inbox) (halSend : Except ℕ Unit) (stack buf : Bytes) (bufSize : ℕ)
    (anySender : Bool) (sender : UInt8) (applicationId : UInt16) :
    Except SfcpError ReceivedMsg × Option (UInt8 × Packet) :=
  if anySender = true ∧ sender ≠ 0 then (.error .INVALID_SENDER_ID, none)
  else
    match receiveMsgReply n inbox buf bufSize anySender sender true with
    | .error e => (.error e, none)
    | .ok r =>
      match parsePacket r.buf r.size with
      | .error e => (.error e, none)
      | .ok p =>
        match msgRefusal n r.remoteId applicationId p with
        | some refusal => errorReply halSend stack r.link p refusal
        | none =>
          (.ok ⟨r.buf, p.clientId, p.payload, p.payloadLen,
            ⟨r.remoteId, p.usesCryptography, p.clientId, applicationId, p.messageId, 0⟩⟩, none)

def protocolErrorToSfcpError (protocolError : ℕ) : SfcpError :=
  if protocolError = ProtocolError.TRY_AGAIN_LATER.code then .SEND_MSG_AGAIN else .PROTOCOL_ERROR

/-- The checks of `sfcp_receive_reply` that are answered. -/
def replyRefusal (n : Node) (p : Parsed) : Option (ProtocolError × SfcpError) :=
  if packetRequiresForwarding p n.myNodeId then some (.FORWARDING_UNSUPPORTED, .NO_REPLY_AVAILABLE)
  else if p.packetType ≠ .PROTOCOL_ERROR_REPLY ∧ p.packetType ≠ .REPLY then
    some (.TRY_AGAIN_LATER, .NO_REPLY_AVAILABLE)
  else none

structure ReceivedReply where
  buf : Bytes
  payload : Option ℕ
  payloadLen : ℕ

def acceptReply (n : Node) (r : Received) (p : Parsed) (metadata : ReplyMetadata) :
    Except SfcpError ReceivedReply :=
  if p.sender ≠ n.myNodeId ∨ p.receiver ≠ r.remoteId then .error .INVALID_NODE
  else if p.usesIdExtension = false ∧ metadata.clientId ≠ 0 then .error .INVALID_CLIENT_ID
  else if p.packetType = .PROTOCOL_ERROR_REPLY then
    if p.clientId = metadata.clientId then .error (protocolErrorToSfcpError (load r.buf 6 2))
    else .error .NO_REPLY_AVAILABLE
  else if p.usesIdExtension = true ∧ p.clientId ≠ metadata.clientId then .error .NO_REPLY_AVAILABLE
  else if p.usesIdExtension = true ∧ p.applicationId ≠ metadata.applicationId then
    .error .INVALID_APPLICATION_ID
  else if p.usesCryptography ≠ metadata.usesCryptography then .error .INVALID_CRYPTO_MODE
  else if p.messageId ≠ metadata.messageId then .error .INVALID_SEQUENCE_NUMBER
  else if p.usesCryptography then .error .CRYPTOGRAPHY_NOT_SUPPORTED
  else .ok ⟨r.buf, p.payload, p.payloadLen⟩

def receiveReply (n : Node) (inbox : Inbox) (halSend : Except ℕ Unit) (stack buf : Bytes) (bufSize : ℕ)
    (metadata : ReplyMetadata) : Except SfcpError ReceivedReply × Option (UInt8 × Packet) :=
  match receiveMsgReply n inbox buf bufSize false metadata.receiver false with
  | .error e => (.error e, none)
  | .ok r =>
    match parsePacket r.buf r.size with
    | .error e => (.error e, none)
    | .ok p =>
      match replyRefusal n p with
      | some refusal => errorReply halSend stack r.link p refusal
      | none => (acceptReply n r p metadata, none)

end TrustedFirmware.Sfcp
