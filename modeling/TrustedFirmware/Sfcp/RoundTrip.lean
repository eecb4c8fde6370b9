import TrustedFirmware.Sfcp.Packets

/-! # A message and its reply

Both over links that deliver what was sent. The message comes back whole when the receiver names
the sender. When it polls all nodes, the loop ends at the first node without a route, so a node
with a smaller id can hide the message. -/
namespace TrustedFirmware.Sfcp
open ByteMemory
set_option autoImplicit false

def payloadBytes (buf : Bytes) (payload : Option ℕ) (len : ℕ) : List UInt8 :=
  match payload with
  | none => []
  | some at_ => readBytes buf at_ len

/-- A payload of `len` bytes, the buffer it is sent from and the buffer it is received into. -/
structure Transfer where
  payload : Bytes
  len : ℕ
  buf : Bytes
  bufSize : ℕ
  receiveBuf : Bytes
  receiveSize : ℕ

structure Transfer.Fits (t : Transfer) (clientId applicationId : UInt16) : Prop where
  send : headSize clientId applicationId + t.len ≤ t.bufSize
  receive : headSize clientId applicationId + t.len ≤ t.receiveSize
  longest : packetSizeWithoutPayload true true ≤ t.receiveSize

/-- Node `a` sends to node `b` and waits for the reply. The inboxes are what else is pending. -/
structure Exchange where
  a : Node
  b : Node
  messageIds : UInt8 → UInt8
  clientId : UInt16
  applicationId : UInt16
  needsReply : Bool
  anySender : Bool
  msg : Transfer
  reply : Transfer
  inboxA : Inbox
  inboxB : Inbox
  distinct : a.myNodeId ≠ b.myNodeId
  knownA : a.myNodeId.toNat < b.numberNodes
  knownB : b.myNodeId.toNat < a.numberNodes
  routeA : a.getRoute b.myNodeId ≠ 0
  routeB : b.getRoute a.myNodeId ≠ 0
  msgFits : msg.Fits clientId applicationId
  replyFits : reply.Fits clientId applicationId

namespace Exchange

def initMsg (x : Exchange) : Except SfcpError InitMsg :=
  Sfcp.initMsg x.a x.messageIds x.msg.buf x.msg.bufSize x.b.myNodeId x.applicationId x.clientId x.needsReply
    false 0

def sendMsg (x : Exchange) (m : InitMsg) : Except SfcpError (UInt8 × Packet) :=
  Sfcp.sendMsg x.a (.ok ()) (blit m.msg m.payload x.msg.payload x.msg.len) x.msg.bufSize x.msg.len

/-- The packet arrives on the link between the nodes. -/
def receiveMsg (x : Exchange) (stack : Bytes) (p : Packet) :
    Except SfcpError ReceivedMsg × Option (UInt8 × Packet) :=
  Sfcp.receiveMsg x.b (Function.update x.inboxB (x.b.getRoute x.a.myNodeId) (.ok (some p.pending))) (.ok ())
    stack x.msg.receiveBuf x.msg.receiveSize x.anySender (if x.anySender then 0 else x.a.myNodeId)
    x.applicationId

def sendReply (x : Exchange) (i : InitReply) : Except SfcpError (UInt8 × Packet) :=
  Sfcp.sendReply x.b (.ok ()) (blit i.reply i.payload x.reply.payload x.reply.len) x.reply.bufSize x.reply.len

def receiveReply (x : Exchange) (stack : Bytes) (p : Packet) (metadata : ReplyMetadata) :
    Except SfcpError ReceivedReply × Option (UInt8 × Packet) :=
  Sfcp.receiveReply x.a (Function.update x.inboxA (x.a.getRoute x.b.myNodeId) (.ok (some p.pending))) (.ok ())
    stack x.reply.receiveBuf x.reply.receiveSize metadata

/-- The reply to `r` reaches the caller that holds `metadata`. -/
def ReplyReturned (x : Exchange) (stack : Bytes) (metadata : ReplyMetadata) (r : ReceivedMsg) : Prop :=
  ∃ i p s, initReply x.b x.reply.buf x.reply.bufSize r.metadata = .ok i ∧
    x.sendReply i = .ok (x.b.getRoute x.a.myNodeId, p) ∧
    x.receiveReply stack p metadata = (.ok s, none) ∧
    payloadBytes s.buf s.payload s.payloadLen = readBytes x.reply.payload 0 x.reply.len

/-- What was sent is returned on the other side, and so is the reply to it. -/
def Returned (x : Exchange) (stack : Bytes) : Prop :=
  ∃ m p r, x.initMsg = .ok m ∧ x.sendMsg m = .ok (x.a.getRoute x.b.myNodeId, p) ∧
    x.receiveMsg stack p = (.ok r, none) ∧
    (r.metadata.sender = x.a.myNodeId ∧ r.clientId = x.clientId ∧
      r.metadata.applicationId = x.applicationId ∧
      payloadBytes r.buf r.payload r.payloadLen = readBytes x.msg.payload 0 x.msg.len) ∧
    x.ReplyReturned stack m.metadata r

/-- The nodes that are polled before `a` have a route of their own, with nothing pending on it. -/
def PassedOver (x : Exchange) : Prop :=
  ∀ j < x.a.myNodeId, j ≠ x.b.myNodeId → x.b.getRoute j ≠ 0 ∧
    x.b.getRoute j ≠ x.b.getRoute x.a.myNodeId ∧ x.inboxB (x.b.getRoute j) = .ok none

theorem silent_iff (x : Exchange) (p : Pending) :
    Silent x.b (Function.update x.inboxB (x.b.getRoute x.a.myNodeId) (.ok (some p))) x.a.myNodeId ↔
      x.PassedOver := by
  refine forall_congr' fun j => forall_congr' fun hj => forall_congr' fun hb => and_congr_right fun _ => ?_
  by_cases hlink : x.b.getRoute j = x.b.getRoute x.a.myNodeId
  · rw [hlink, Function.update_self]
    exact ⟨nofun, fun h => absurd rfl h.1⟩
  · rw [Function.update_of_ne hlink]
    exact ⟨fun h => ⟨hlink, h⟩, fun h => h.2⟩

end Exchange

/-! ## One transfer -/

section Transfers
variable {n : Node} {type : PacketType} {sender receiver messageId : UInt8} {clientId applicationId : UInt16}
  {d : Bytes} {t : Transfer}

theorem Transfer.Fits.head (h : t.Fits clientId applicationId) :
    ¬ t.bufSize < headSize clientId applicationId := by
  have := h.send
  omega

theorem sendMsgReply_ok {isMsg : Bool} (h : Encodes d type sender receiver messageId clientId applicationId)
    (hfit : t.Fits clientId applicationId) (hroute : n.getRoute (if isMsg then receiver else sender) ≠ 0) :
    sendMsgReply n (.ok ()) d t.bufSize t.len isMsg =
      .ok (n.getRoute (if isMsg then receiver else sender), ⟨headSize clientId applicationId + t.len, d⟩) := by
  have hhead : ¬ t.bufSize < HEADER_SIZE :=
    Nat.not_lt.mpr (Nat.le_trans headSize_ge (Nat.not_lt.mp hfit.head))
  have hlen : ¬ t.len > t.bufSize - headSize clientId applicationId := by
    have := hfit.send
    omega
  simp only [sendMsgReply, h.metadata, usesCryptography_set, usesIdExtension_set, h.receiver, h.sender,
    if_neg hhead, if_neg hfit.head, if_neg hlen, Bool.false_eq_true, if_false, if_neg hroute]

def Transfer.arrived (t : Transfer) (d : Bytes) (size : ℕ) : Bytes :=
  blit t.receiveBuf 0 (blit d size t.payload t.len) (size + t.len)

theorem Encodes.arrived (h : Encodes d type sender receiver messageId clientId applicationId) (t : Transfer) :
    Encodes (t.arrived d (headSize clientId applicationId)) type sender receiver messageId clientId
      applicationId := (h.fill t.payload t.len).carry t.receiveBuf t.len

theorem Transfer.arrived_payload (t : Transfer) (d : Bytes) (size : ℕ) :
    payloadBytes (t.arrived d size) (if size + t.len - size > 0 then some size else none)
      (size + t.len - size) = readBytes t.payload 0 t.len := by
  rw [Nat.add_sub_cancel_left]
  split
  next =>
    refine readBytes_congr fun i hi => ?_
    rw [Transfer.arrived, blit_inside (Nat.zero_le _) (by omega), blit_inside (by omega) (by omega)]
    congr 1
    omega
  next hlen =>
    rw [Nat.eq_zero_of_not_pos hlen]
    rfl

/-- What the receiver has in hand when the packet came from node `id`. -/
def Transfer.received (t : Transfer) (n : Node) (id : UInt8) (d : Bytes) (size : ℕ) : Received :=
  ⟨id, n.getRoute id, size + t.len, t.arrived d size⟩

theorem fromNode_arrived {inbox : Inbox} {isMsg : Bool} {id : UInt8} (hroute : n.getRoute id ≠ 0)
    (hfit : t.Fits clientId applicationId) :
    receiveMsgReplyFromNode n (Function.update inbox (n.getRoute id) (.ok (some (Packet.pending
        ⟨headSize clientId applicationId + t.len, blit d (headSize clientId applicationId) t.payload t.len⟩))))
      t.receiveBuf t.receiveSize isMsg id = .ok (t.received n id d (headSize clientId applicationId)) := by
  refine fromNode_ok_iff.mpr ⟨hroute, _, _, Function.update_self .., hfit.receive, rfl, rfl⟩

end Transfers

/-! ## The exchange -/

namespace Exchange
variable (x : Exchange)

/-- The message in the buffer of `a`, before the payload. -/
def written (x : Exchange) : Bytes :=
  writePacket x.msg.buf (if x.needsReply then .MSG_NEEDS_REPLY else .MSG_NO_REPLY) false
    (x.applicationId != 0 || x.clientId != 0) x.a.myNodeId x.b.myNodeId (x.messageIds x.b.myNodeId) x.clientId
    x.applicationId

def metadata (x : Exchange) : ReplyMetadata :=
  ⟨x.b.myNodeId, false, x.clientId, x.applicationId, x.messageIds x.b.myNodeId, 0⟩

theorem written_encodes :
    Encodes x.written (if x.needsReply then .MSG_NEEDS_REPLY else .MSG_NO_REPLY) x.a.myNodeId x.b.myNodeId
      (x.messageIds x.b.myNodeId) x.clientId x.applicationId := writePacket_encodes _

/-- What `sfcp_init_msg` leaves. -/
def started (x : Exchange) : InitMsg :=
  let size := headSize x.clientId x.applicationId
  ⟨x.written, size, x.msg.bufSize - size, x.metadata,
    Function.update x.messageIds x.b.myNodeId (x.messageIds x.b.myNodeId + 1)⟩

theorem initMsg_ok : x.initMsg = .ok x.started := by
  have hnode : ¬ (x.a.numberNodes ≤ x.b.myNodeId.toNat ∨ x.b.myNodeId = x.a.myNodeId) := by
    rintro (h | h)
    · exact absurd x.knownB (Nat.not_lt.mpr h)
    · exact x.distinct h.symm
  unfold Exchange.initMsg Sfcp.initMsg
  simp only [Bool.false_eq_true, if_false, ne_eq, not_true_eq_false, if_neg x.msgFits.head, if_neg hnode]
  rfl

def packet (x : Exchange) : Packet :=
  ⟨headSize x.clientId x.applicationId + x.msg.len,
    blit x.written (headSize x.clientId x.applicationId) x.msg.payload x.msg.len⟩

theorem sendMsg_ok : x.sendMsg x.started = .ok (x.a.getRoute x.b.myNodeId, x.packet) :=
  @sendMsgReply_ok _ _ _ _ _ _ _ _ _ true (x.written_encodes.fill _ _) x.msgFits x.routeA

/-- The message as `sfcp_receive_msg` returns it. -/
def message (x : Exchange) : ReceivedMsg :=
  let size := headSize x.clientId x.applicationId
  ⟨x.msg.arrived x.written size, x.clientId, if size + x.msg.len - size > 0 then some size else none,
    size + x.msg.len - size,
    ⟨x.a.myNodeId, false, x.clientId, x.applicationId, x.messageIds x.b.myNodeId, 0⟩⟩

theorem receiveMsg_message (stack : Bytes) (h : x.anySender = true → x.PassedOver) :
    x.receiveMsg stack x.packet = (.ok x.message, none) := by
  have hreceived : receiveMsgReply x.b
      (Function.update x.inboxB (x.b.getRoute x.a.myNodeId) (.ok (some x.packet.pending)))
      x.msg.receiveBuf x.msg.receiveSize x.anySender (if x.anySender then 0 else x.a.myNodeId) true =
      .ok (x.msg.received x.b x.a.myNodeId x.written (headSize x.clientId x.applicationId)) := by
    refine receiveMsgReply_ok_iff.mpr
      ⟨x.msgFits.longest, x.distinct, fromNode_arrived x.routeB x.msgFits, ?_⟩
    cases hany : x.anySender with
    | true => exact ⟨x.knownA, (x.silent_iff _).mpr (h hany)⟩
    | false => rfl
  have hany : ¬ (x.anySender = true ∧ (if x.anySender then 0 else x.a.myNodeId) ≠ 0) := by
    rintro ⟨hany, hne⟩
    rw [if_pos hany] at hne
    exact hne rfl
  have htype : (if x.needsReply = true then PacketType.MSG_NEEDS_REPLY else .MSG_NO_REPLY) ≠
      .PROTOCOL_ERROR_REPLY := by split <;> exact nofun
  have hparse := (x.written_encodes.arrived x.msg).parse htype (Nat.le_add_right _ x.msg.len)
  have hrefusal : ∀ size, msgRefusal x.b x.a.myNodeId x.applicationId
      (parsed (if x.needsReply then .MSG_NEEDS_REPLY else .MSG_NO_REPLY) x.a.myNodeId x.b.myNodeId
        (x.messageIds x.b.myNodeId) x.clientId x.applicationId size) = none := by
    intro size
    cases x.needsReply <;> simp [msgRefusal, parsed, packetRequiresForwarding] <;> exact fun h _ => h
  unfold Exchange.receiveMsg Sfcp.receiveMsg
  rw [if_neg hany, hreceived]
  simp only [Transfer.received, hparse, hrefusal]
  rfl

theorem receiveMsg_sender {stack : Bytes} {r : ReceivedMsg} (h : x.receiveMsg stack x.packet = (.ok r, none))
    (hsender : r.metadata.sender = x.a.myNodeId) (hany : x.anySender = true) : x.PassedOver := by
  unfold Exchange.receiveMsg at h
  obtain ⟨e, he⟩ | ⟨rec, p, hrec, -, ⟨refusal, hrefused⟩ | ⟨m, hm, hremote⟩⟩ := receiveMsg_cases x.b
    (Function.update x.inboxB (x.b.getRoute x.a.myNodeId) (.ok (some x.packet.pending))) (.ok ()) stack
    x.msg.receiveBuf x.msg.receiveSize x.anySender (if x.anySender then 0 else x.a.myNodeId) x.applicationId
  · cases he.symm.trans h
  · exact absurd (congrArg Prod.fst (hrefused.symm.trans h)) (errorReply_error _ _ _ _ _ _)
  · cases hm.symm.trans h
    have hpoll := (receiveMsgReply_ok_iff.mp hrec).2.2.2
    rw [if_pos hany, ← hremote, hsender] at hpoll
    exact (x.silent_iff _).mp hpoll.2

/-- The reply in the buffer of `b`, before the payload. -/
def writtenReply (x : Exchange) : Bytes :=
  writePacket x.reply.buf .REPLY false (x.applicationId != 0 || x.clientId != 0) x.a.myNodeId x.b.myNodeId
    (x.messageIds x.b.myNodeId) x.clientId x.applicationId

theorem writtenReply_encodes :
    Encodes x.writtenReply .REPLY x.a.myNodeId x.b.myNodeId (x.messageIds x.b.myNodeId) x.clientId
      x.applicationId := writePacket_encodes _

theorem initReply_ok :
    initReply x.b x.reply.buf x.reply.bufSize x.message.metadata =
      .ok ⟨x.writtenReply, headSize x.clientId x.applicationId,
        x.reply.bufSize - headSize x.clientId x.applicationId⟩ := by
  have hext : (x.message.metadata.clientId != 0 || x.message.metadata.applicationId != 0) =
      (x.applicationId != 0 || x.clientId != 0) := Bool.or_comm _ _
  have hcrypto : x.message.metadata.usesCryptography = false := rfl
  unfold initReply
  simp only [hext, hcrypto, if_neg x.replyFits.head, Bool.false_eq_true, if_false]
  rfl

def replyPacket (x : Exchange) : Packet :=
  ⟨headSize x.clientId x.applicationId + x.reply.len,
    blit x.writtenReply (headSize x.clientId x.applicationId) x.reply.payload x.reply.len⟩

/-- The reply as `sfcp_receive_reply` returns it. -/
def replied (x : Exchange) : ReceivedReply :=
  let size := headSize x.clientId x.applicationId
  ⟨x.reply.arrived x.writtenReply size, if size + x.reply.len - size > 0 then some size else none,
    size + x.reply.len - size⟩

theorem receiveReply_replied (stack : Bytes) :
    x.receiveReply stack x.replyPacket x.metadata = (.ok x.replied, none) := by
  have hreceived : receiveMsgReply x.a
      (Function.update x.inboxA (x.a.getRoute x.b.myNodeId) (.ok (some x.replyPacket.pending)))
      x.reply.receiveBuf x.reply.receiveSize false x.metadata.receiver false =
      .ok (x.reply.received x.a x.b.myNodeId x.writtenReply (headSize x.clientId x.applicationId)) := by
    refine receiveMsgReply_ok_iff.mpr
      ⟨x.replyFits.longest, x.distinct.symm, fromNode_arrived x.routeA x.replyFits, ?_⟩
    rfl
  have hparse := (x.writtenReply_encodes.arrived x.reply).parse (nofun) (Nat.le_add_right _ x.reply.len)
  have hrefusal : ∀ size, replyRefusal x.a
      (parsed .REPLY x.a.myNodeId x.b.myNodeId (x.messageIds x.b.myNodeId) x.clientId x.applicationId size) =
      none := by
    intro size
    simp [replyRefusal, parsed, packetRequiresForwarding]
  unfold Exchange.receiveReply Sfcp.receiveReply
  rw [hreceived]
  simp only [Transfer.received, hparse, hrefusal]
  simp [acceptReply, parsed, metadata, replied]

theorem reply_returned (stack : Bytes) : x.ReplyReturned stack x.metadata x.message := by
  refine ⟨_, x.replyPacket, x.replied, x.initReply_ok, ?_, x.receiveReply_replied stack, ?_⟩
  · exact @sendMsgReply_ok _ _ _ _ _ _ _ _ _ false (x.writtenReply_encodes.fill _ _) x.replyFits x.routeB
  · exact x.reply.arrived_payload _ _

theorem returned_iff (stack : Bytes) : x.Returned stack ↔ (x.anySender = true → x.PassedOver) := by
  constructor
  · rintro ⟨m, p, r, hinit, hsend, hreceive, ⟨hsender, -⟩, -⟩ hany
    cases x.initMsg_ok.symm.trans hinit
    cases x.sendMsg_ok.symm.trans hsend
    exact x.receiveMsg_sender hreceive hsender hany
  · intro h
    refine ⟨x.started, x.packet, x.message, x.initMsg_ok, x.sendMsg_ok, x.receiveMsg_message stack h,
      ⟨rfl, rfl, rfl, ?_⟩, x.reply_returned stack⟩
    exact x.msg.arrived_payload _ _

/-- Nodes 1 and 2 of three. Node 2 has no link to node 0 and polls all nodes. -/
def unlinkedNode : Exchange where
  a := ⟨3, 1, [0, 0, 5], Nat.le_add_right 3 252⟩
  b := ⟨3, 2, [0, 7, 0], Nat.le_add_right 3 252⟩
  messageIds := fun _ => 0
  clientId := 0
  applicationId := 0
  needsReply := true
  anySender := true
  msg := ⟨fun _ => 9, 2, fun _ => 0, 40, fun _ => 0, 40⟩
  reply := ⟨fun _ => 9, 2, fun _ => 0, 40, fun _ => 0, 40⟩
  inboxA := fun _ => .ok none
  inboxB := fun _ => .ok none
  distinct := by decide
  knownA := by decide
  knownB := by decide
  routeA := by decide
  routeB := by decide
  msgFits := ⟨by decide, by decide, by decide⟩
  replyFits := ⟨by decide, by decide, by decide⟩

theorem unlinked_node_hides_message :
    (unlinkedNode.receiveMsg (fun _ => 0) unlinkedNode.packet).1 = .error .INVALID_NODE ∧
      ¬ unlinkedNode.Returned fun _ => 0 := by
  refine ⟨rfl, ?_⟩
  rintro ⟨m, p, r, hinit, hsend, hreceive, -⟩
  cases unlinkedNode.initMsg_ok.symm.trans hinit
  cases unlinkedNode.sendMsg_ok.symm.trans hsend
  cases congrArg Prod.fst hreceive

end Exchange

end TrustedFirmware.Sfcp
