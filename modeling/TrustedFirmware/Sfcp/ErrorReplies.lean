import TrustedFirmware.Sfcp.Packets

/-! # Who learns of a protocol error

An error packet carries the client id and the message id of the message it answers, but never the
flag of the id extension. The receiver tests that flag first, so a caller with a client id other
than 0 never gets its error; and the message id is not compared at all. -/
namespace TrustedFirmware.Sfcp
open ByteMemory
set_option autoImplicit false

/-- Nothing but `p` is pending. -/
def Only (inbox : Inbox) (p : Packet) : Prop := ∀ l q, inbox l = .ok (some q) → q = p.pending

/-- Node `n` receives `p` as a message or as a reply, and answers it with the packet `e`. -/
inductive Answers (n : Node) (p e : Packet) : Prop
  | msg {inbox : Inbox} {halSend : Except ℕ Unit} {stack buf : Bytes} {bufSize : ℕ} {any : Bool} {sender : UInt8}
      {applicationId : UInt16} {link : UInt8} (only : Only inbox p)
      (answer : (receiveMsg n inbox halSend stack buf bufSize any sender applicationId).2 = some (link, e))
  | reply {inbox : Inbox} {halSend : Except ℕ Unit} {stack buf : Bytes} {bufSize : ℕ} {metadata : ReplyMetadata}
      {link : UInt8} (only : Only inbox p)
      (answer : (receiveReply n inbox halSend stack buf bufSize metadata).2 = some (link, e))

def Packet.protocolError (e : Packet) : ℕ := load e.data 6 2

/-- On node `a` the packet `e` arrives from node `receiver`, and the caller that waits with `metadata` is
told its error. -/
def Reported (a : Node) (receiver : UInt8) (e : Packet) (stack buf : Bytes) (bufSize : ℕ)
    (metadata : ReplyMetadata) : Prop :=
  (receiveReply a (Function.update (fun _ => .ok none) (a.getRoute receiver) (.ok (some e.pending))) (.ok ())
    stack buf bufSize metadata).1 = .error (protocolErrorToSfcpError e.protocolError)

def ReplyMetadata.SameMessage (waiting own : ReplyMetadata) : Prop :=
  waiting.receiver = own.receiver ∧ waiting.clientId = own.clientId ∧ waiting.messageId = own.messageId

/-- The message has no client id, and no caller without one waits for another message of that node. Or the
message has one, and the caller is not its own. -/
def ReplyMetadata.Unambiguous (waiting own : ReplyMetadata) : Prop :=
  if own.clientId = 0 then
    waiting.receiver = own.receiver → waiting.clientId = 0 → waiting.messageId = own.messageId
  else ¬ waiting.SameMessage own

/-! ## The answer -/

section Answer
variable {n : Node} {inbox : Inbox} {halSend : Except ℕ Unit} {stack buf : Bytes} {bufSize : ℕ} {p e : Packet}

theorem errorReply_sent {α : Type} {link link' : UInt8} {q : Parsed} {refusal : ProtocolError × SfcpError}
    (h : (errorReply (α := α) halSend stack link q refusal).2 = some (link', e)) :
    q.needsReply = true ∧
      e = generateProtocolErrorPacket stack q.sender q.receiver q.clientId q.messageId refusal.1 := by
  unfold errorReply at h
  split at h
  next hneeds =>
    split at h
    · cases h
    · cases h
      exact ⟨hneeds, rfl⟩
  next => cases h

theorem receiveReply_sent {metadata : ReplyMetadata} {link : UInt8}
    (h : (receiveReply n inbox halSend stack buf bufSize metadata).2 = some (link, e)) :
    ∃ r q refusal, receiveMsgReply n inbox buf bufSize false metadata.receiver false = .ok r ∧
      parsePacket r.buf r.size = .ok q ∧
      (errorReply (α := ReceivedReply) halSend stack r.link q refusal).2 = some (link, e) := by
  unfold receiveReply at h
  split at h
  · cases h
  next r hr =>
  split at h
  · cases h
  next q hq =>
  split at h
  next refusal _ => exact ⟨r, q, refusal, hr, hq, h⟩
  next => cases h

theorem received_only {any isMsg : Bool} {remote : UInt8} {r : Received} (only : Only inbox p)
    (h : receiveMsgReply n inbox buf bufSize any remote isMsg = .ok r) :
    r.size = p.size ∧ r.buf = blit buf 0 p.data p.size := by
  obtain ⟨-, -, hfrom, -⟩ := receiveMsgReply_ok_iff.mp h
  obtain ⟨-, q, data, hq, -, hdata, hr⟩ := fromNode_ok_iff.mp hfrom
  cases only _ _ hq
  cases hdata
  rw [hr]
  exact ⟨rfl, rfl⟩

/-- The ids of an answer are those the packet parses to. -/
theorem Answers.packet (h : Answers n p e) :
    ∃ buf q stack error, parsePacket (blit buf 0 p.data p.size) p.size = .ok q ∧
      e = generateProtocolErrorPacket stack q.sender q.receiver q.clientId q.messageId error := by
  cases h with
  | @msg inbox halSend stack buf bufSize any sender applicationId link only answer =>
    obtain ⟨_, he⟩ | ⟨r, q, hr, hq, ⟨refusal, hrefused⟩ | ⟨m, hm, -⟩⟩ := receiveMsg_cases n inbox halSend stack
      buf bufSize any sender applicationId
    · rw [he] at answer
      cases answer
    · rw [hrefused] at answer
      obtain ⟨hsize, hbuf⟩ := received_only only hr
      rw [hsize, hbuf] at hq
      exact ⟨buf, q, stack, _, hq, (errorReply_sent answer).2⟩
    · rw [hm] at answer
      cases answer
  | @reply inbox halSend stack buf bufSize metadata link only answer =>
    obtain ⟨r, q, refusal, hr, hq, hsent⟩ := receiveReply_sent answer
    obtain ⟨hsize, hbuf⟩ := received_only only hr
    rw [hsize, hbuf] at hq
    exact ⟨buf, q, stack, _, hq, (errorReply_sent hsent).2⟩

end Answer

/-! ## The caller -/

theorem receiveMsgReply_one {n : Node} {inbox : Inbox} {buf : Bytes} {bufSize : ℕ} {isMsg : Bool} {id : UInt8}
    (hsize : packetSizeWithoutPayload true true ≤ bufSize) (hmy : id ≠ n.myNodeId) :
    receiveMsgReply n inbox buf bufSize false id isMsg =
      receiveMsgReplyFromNode n inbox buf bufSize isMsg id := by
  unfold receiveMsgReply
  simp only [if_neg (Nat.not_lt.mpr hsize), true_and, if_neg hmy, Bool.false_eq_true, if_false, receiveLoop,
    UInt8.ofNat_toNat]
  split
  next r hr => exact hr.symm
  next e he =>
    split
    next hna => rw [he, hna]
    next => exact he.symm

theorem generated_parses (buf stack : Bytes) (sender receiver : UInt8) (clientId : UInt16) (messageId : UInt8)
    (error : ProtocolError) :
    let e := generateProtocolErrorPacket stack sender receiver clientId messageId error
    parsePacket (blit buf 0 e.data e.size) e.size =
        .ok ⟨sender, receiver, messageId, false, false, 0, clientId, none, 0, false, .PROTOCOL_ERROR_REPLY⟩ ∧
      load (blit buf 0 e.data e.size) 6 2 = e.protocolError := by
  intro e
  have hload : ∀ a, a + 2 ≤ 8 → load (blit buf 0 e.data e.size) a 2 = load e.data a 2 := by
    intro a ha
    exact load_blit_inside (Nat.zero_le a) ((Nat.zero_add e.size).symm ▸ ha)
  have hclient : load e.data 4 2 = clientId.toNat :=
    (load_store_outside (by decide)).trans (load_store_id _ 4 clientId)
  refine ⟨?_, hload 6 (by decide)⟩
  have hmeta : blit buf 0 e.data e.size 0 = setAllMetadataFields .PROTOCOL_ERROR_REPLY false false := rfl
  unfold parsePacket
  simp only [hmeta, protocolVersion_set, packetType_set, usesCryptography_set, usesIdExtension_set, ne_eq,
    not_true_eq_false, if_false, if_true, hload 4 (by decide), hclient, UInt16.ofNat_toNat]
  rfl

/-- The two results of a protocol error have no other cause. -/
theorem not_reported {α : Type} {e : SfcpError} {v : ℕ}
    (h : (.error e : Except SfcpError α) = .error (protocolErrorToSfcpError v)) (h1 : e ≠ .SEND_MSG_AGAIN)
    (h2 : e ≠ .PROTOCOL_ERROR) : False := by
  have he := Except.error.inj h
  unfold protocolErrorToSfcpError at he
  split at he
  · exact h1 he
  · exact h2 he

theorem receiveReply_of_error {n : Node} {inbox : Inbox} {halSend : Except ℕ Unit} {stack buf : Bytes}
    {bufSize : ℕ} {metadata : ReplyMetadata} {err : SfcpError}
    (h : receiveMsgReply n inbox buf bufSize false metadata.receiver false = .error err) :
    (receiveReply n inbox halSend stack buf bufSize metadata).1 = .error err := by
  unfold receiveReply
  rw [h]

/-- An error packet is accepted on its addresses and the client id alone. -/
theorem acceptReply_reports_iff {n : Node} {r : Received} {p : Parsed} {metadata : ReplyMetadata}
    (htype : p.packetType = .PROTOCOL_ERROR_REPLY) (hext : p.usesIdExtension = false) :
    acceptReply n r p metadata = .error (protocolErrorToSfcpError (load r.buf 6 2)) ↔
      (p.sender = n.myNodeId ∧ p.receiver = r.remoteId) ∧ metadata.clientId = 0 ∧ p.clientId = 0 := by
  unfold acceptReply
  by_cases hnode : p.sender ≠ n.myNodeId ∨ p.receiver ≠ r.remoteId
  · rw [if_pos hnode]
    refine ⟨fun h => (not_reported h (nofun) (nofun)).elim, fun h => ?_⟩
    exact absurd hnode (by simp [h.1.1, h.1.2])
  rw [if_neg hnode]
  have hnodes : p.sender = n.myNodeId ∧ p.receiver = r.remoteId := by
    simpa only [ne_eq, not_or, not_not] using hnode
  by_cases hzero : metadata.clientId = 0
  · rw [if_neg fun h => h.2 hzero, if_pos htype, hzero]
    split
    next hclient => exact iff_of_true rfl ⟨hnodes, rfl, hclient⟩
    next hclient =>
      refine ⟨fun h => (not_reported h (nofun) (nofun)).elim, fun h => ?_⟩
      exact absurd h.2.2 hclient
  · rw [if_pos ⟨hext, hzero⟩]
    refine ⟨fun h => (not_reported h (nofun) (nofun)).elim, fun h => ?_⟩
    exact absurd h.2.1 hzero

section Caller
variable {a : Node} {receiver messageId : UInt8} {clientId : UInt16} {error : ProtocolError}
  {stack stack' buf : Bytes} {bufSize : ℕ} {waiting : ReplyMetadata}

theorem reported_iff (hroute : a.getRoute receiver ≠ 0) (hmy : receiver ≠ a.myNodeId)
    (hsize : packetSizeWithoutPayload true true ≤ bufSize) :
    Reported a receiver (generateProtocolErrorPacket stack' a.myNodeId receiver clientId messageId error) stack
        buf bufSize waiting ↔
      waiting.receiver = receiver ∧ waiting.clientId = 0 ∧ clientId = 0 := by
  unfold Reported
  by_cases hself : waiting.receiver = a.myNodeId
  · have h : ∀ inbox, receiveMsgReply a inbox buf bufSize false waiting.receiver false = .error .INVALID_NODE := by
      intro inbox
      unfold receiveMsgReply
      rw [if_neg (Nat.not_lt.mpr hsize), if_pos ⟨rfl, hself⟩]
    rw [receiveReply_of_error (h _)]
    refine ⟨fun h => (not_reported h (nofun) (nofun)).elim, fun h => ?_⟩
    exact absurd (h.1.symm.trans hself) hmy
  by_cases hlink : a.getRoute waiting.receiver = a.getRoute receiver
  · -- the packet is on the link that is polled
    obtain ⟨hparse, hload⟩ := generated_parses buf stack' a.myNodeId receiver clientId messageId error
    set e := generateProtocolErrorPacket stack' a.myNodeId receiver clientId messageId error
    have he : e.size ≤ bufSize := Nat.le_trans (show 8 ≤ 31 by decide) hsize
    have hreceived : receiveMsgReply a
        (Function.update (fun _ => .ok none) (a.getRoute receiver) (.ok (some e.pending))) buf bufSize false
        waiting.receiver false =
        .ok ⟨waiting.receiver, a.getRoute waiting.receiver, e.size, blit buf 0 e.data e.size⟩ := by
      rw [receiveMsgReply_one hsize hself]
      refine fromNode_ok_iff.mpr ⟨hlink ▸ hroute, e.pending, e.data, ?_, he, rfl, rfl⟩
      rw [hlink, Function.update_self]
    unfold receiveReply
    rw [hreceived]
    simp only [hparse, replyRefusal, packetRequiresForwarding]
    rw [← hload]
    refine (acceptReply_reports_iff rfl rfl).trans ?_
    exact ⟨fun h => ⟨h.1.2.symm, h.2⟩, fun h => ⟨⟨rfl, h.1.symm⟩, h.2⟩⟩
  · -- nothing is pending on the link that is polled
    have h : ∃ err, receiveMsgReply a
        (Function.update (fun _ => .ok none) (a.getRoute receiver) (.ok (some (Packet.pending
          (generateProtocolErrorPacket stack' a.myNodeId receiver clientId messageId error))))) buf bufSize
        false waiting.receiver false = .error err ∧ err ≠ .SEND_MSG_AGAIN ∧ err ≠ .PROTOCOL_ERROR := by
      rw [receiveMsgReply_one hsize hself]
      unfold receiveMsgReplyFromNode
      dsimp only
      rw [Function.update_of_ne hlink]
      split
      · exact ⟨_, rfl, nofun, nofun⟩
      · exact ⟨_, rfl, nofun, nofun⟩
    obtain ⟨err, herr, h1, h2⟩ := h
    rw [receiveReply_of_error herr]
    refine ⟨fun h => (not_reported h h1 h2).elim, fun h => ?_⟩
    exact absurd (congrArg a.getRoute h.1) hlink

end Caller

/-! ## Both ends -/

section Ends
variable {a n : Node} {messageIds : UInt8 → UInt8} {buf payload : Bytes} {bufSize len : ℕ} {receiver : UInt8}
  {applicationId clientId : UInt16} {needsReply manual : Bool} {trustedSubnetId : UInt8} {m : InitMsg}

theorem initMsg_inv
    (h : initMsg a messageIds buf bufSize receiver applicationId clientId needsReply manual trustedSubnetId =
      .ok m) :
    receiver ≠ a.myNodeId ∧ m.payload = headSize clientId applicationId ∧
      m.metadata = ⟨receiver, false, clientId, applicationId, messageIds receiver, trustedSubnetId⟩ ∧
      Encodes m.msg (if needsReply then .MSG_NEEDS_REPLY else .MSG_NO_REPLY) a.myNodeId receiver
        (messageIds receiver) clientId applicationId := by
  unfold initMsg at h
  dsimp only at h
  split at h
  · cases h
  split at h
  · cases h
  split at h
  · cases h
  split at h
  · cases h
  next hnode =>
  cases h
  exact ⟨fun h => hnode (Or.inr h), rfl, rfl, writePacket_encodes _⟩

theorem sendMsg_inv {halSend : Except ℕ Unit} {d : Bytes} {link : UInt8} {p : Packet} {type : PacketType}
    {messageId : UInt8} (hd : Encodes d type a.myNodeId receiver messageId clientId applicationId)
    (h : sendMsg a halSend d bufSize len = .ok (link, p)) :
    a.getRoute receiver ≠ 0 ∧ p = ⟨headSize clientId applicationId + len, d⟩ := by
  unfold sendMsg sendMsgReply at h
  simp only [hd.metadata, usesCryptography_set, usesIdExtension_set, hd.receiver, if_true] at h
  split at h
  · cases h
  split at h
  · cases h
  split at h
  · cases h
  split at h
  · cases h
  split at h
  · cases h
  next hroute =>
  split at h
  · cases h
  · cases h
    exact ⟨hroute, rfl⟩

end Ends

/-! ## A client that waits in vain -/

def callingNode : Node := ⟨3, 1, [0, 0, 5], by decide⟩

def answeringNode : Node := ⟨3, 2, [0, 7, 0], by decide⟩

def clientMsg : InitMsg :=
  ⟨writePacket (fun _ => 0) .MSG_NEEDS_REPLY false true 1 2 4 5 0, 8, 32, ⟨2, false, 5, 0, 4, 0⟩,
    Function.update (fun _ => 4) 2 5⟩

def clientPacket : Packet := ⟨8, blit clientMsg.msg 8 (fun _ => 0) 0⟩

/-- Node 2 was asked for messages to another application. -/
def refusedPacket : Packet := generateProtocolErrorPacket (fun _ => 0) 1 2 5 4 .TRY_AGAIN_LATER

theorem clientPacket_answered : Answers answeringNode clientPacket refusedPacket := by
  refine @Answers.msg _ _ _ (fun _ => .ok (some clientPacket.pending)) (.ok ()) (fun _ => 0) (fun _ => 0) 40
    false 1 3 7 ?_ ?_
  · intro l q h
    exact (Option.some.inj (Except.ok.inj h)).symm
  · rfl

theorem clientMsg_sent :
    initMsg callingNode (fun _ => 4) (fun _ => 0) 40 2 0 5 true false 0 = .ok clientMsg ∧
      sendMsg callingNode (.ok ()) (blit clientMsg.msg clientMsg.payload (fun _ => 0) 0) 40 0 =
        .ok (5, clientPacket) := ⟨rfl, rfl⟩

end TrustedFirmware.Sfcp
