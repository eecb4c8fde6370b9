import TrustedFirmware.Sfcp.Protocol

/-! # Polling and packets

What polling finds, and what a packet that was written parses to. The loop over the nodes stops at
the first node that answers with anything but "not available" (`receiveMsgReply_ok_iff`). A packet
is known by its header and its ids (`Encodes`), which neither the payload nor the transfer
touches. -/
namespace TrustedFirmware.Sfcp
open ByteMemory
set_option autoImplicit false

section Polling
variable {n : Node} {inbox : Inbox} {buf : Bytes} {bufSize : ℕ} {isMsg : Bool} {r : Received}

theorem fromNode_ok_iff {id : UInt8} :
    receiveMsgReplyFromNode n inbox buf bufSize isMsg id = .ok r ↔
      n.getRoute id ≠ 0 ∧ ∃ p data, inbox (n.getRoute id) = .ok (some p) ∧ p.size ≤ bufSize ∧
        p.data = .ok data ∧ r = ⟨id, n.getRoute id, p.size, blit buf 0 data p.size⟩ := by
  unfold receiveMsgReplyFromNode
  dsimp only
  constructor
  · intro h
    split at h
    · cases h
    next hroute =>
    split at h
    · cases h
    · cases h
    next p hp =>
    split at h
    · cases h
    next hsize =>
    split at h
    · cases h
    next data hdata =>
    cases h
    exact ⟨hroute, p, data, hp, Nat.not_lt.mp hsize, hdata, rfl⟩
  · rintro ⟨hroute, p, data, hp, hsize, hdata, rfl⟩
    simp only [if_neg hroute, hp, gt_iff_lt, if_neg (Nat.not_lt.mpr hsize), hdata]

theorem fromNode_unavailable_iff {id : UInt8} :
    receiveMsgReplyFromNode n inbox buf bufSize isMsg id = .error (notAvailableError isMsg) ↔
      n.getRoute id ≠ 0 ∧ inbox (n.getRoute id) = .ok none := by
  have hne : ∀ e, notAvailableError isMsg ≠ .hal e := by
    intro e
    cases isMsg <;> exact nofun
  unfold receiveMsgReplyFromNode
  dsimp only
  constructor
  · intro h
    split at h
    · cases isMsg <;> cases h
    next hroute =>
    split at h
    · exact absurd (Except.error.inj h).symm (hne _)
    next hp => exact ⟨hroute, hp⟩
    split at h
    · cases isMsg <;> cases h
    split at h
    · exact absurd (Except.error.inj h).symm (hne _)
    · cases h
  · rintro ⟨hroute, hp⟩
    simp only [if_neg hroute, hp]

/-- Of `count` nodes from `start` on, one answers with `r` and those before it have nothing. -/
def FirstAnswer (n : Node) (inbox : Inbox) (buf : Bytes) (bufSize : ℕ) (isMsg : Bool) (start count : ℕ)
    (r : Received) : Prop :=
  ∃ k, start ≤ k ∧ k < start + count ∧ UInt8.ofNat k ≠ n.myNodeId ∧
    receiveMsgReplyFromNode n inbox buf bufSize isMsg (.ofNat k) = .ok r ∧
    ∀ j, start ≤ j → j < k → UInt8.ofNat j ≠ n.myNodeId →
      receiveMsgReplyFromNode n inbox buf bufSize isMsg (.ofNat j) = .error (notAvailableError isMsg)

theorem receiveLoop_ok_iff {start count : ℕ} :
    receiveLoop n inbox buf bufSize isMsg start count = .ok r ↔
      FirstAnswer n inbox buf bufSize isMsg start count r := by
  induction count generalizing start with
  | zero =>
    constructor
    · exact nofun
    · rintro ⟨k, h1, h2, -⟩
      omega
  | succ count ih =>
    -- the nodes behind `start`, when `start` itself is passed over
    have later : (UInt8.ofNat start ≠ n.myNodeId →
        receiveMsgReplyFromNode n inbox buf bufSize isMsg (.ofNat start) =
          .error (notAvailableError isMsg)) →
        (receiveLoop n inbox buf bufSize isMsg (start + 1) count = .ok r ↔
          FirstAnswer n inbox buf bufSize isMsg start (count + 1) r) := by
      intro hpass
      refine ih.trans (exists_congr fun k => ?_)
      constructor
      · rintro ⟨h1, h2, h3, h4, h5⟩
        refine ⟨by omega, by omega, h3, h4, fun j hj hjk hmy => ?_⟩
        obtain rfl | hj := Nat.eq_or_lt_of_le hj
        · exact hpass hmy
        · exact h5 j hj hjk hmy
      · rintro ⟨h1, h2, h3, h4, h5⟩
        refine ⟨?_, by omega, h3, h4, fun j hj => h5 j (by omega)⟩
        refine Nat.lt_of_le_of_ne h1 fun he => ?_
        subst he
        rw [hpass h3] at h4
        cases h4
    rw [receiveLoop]
    split
    next hmy => exact later fun h => absurd hmy h
    next hmy =>
    split
    next r' hr =>
      constructor
      · rintro ⟨⟩
        exact ⟨start, Nat.le_refl _, by omega, hmy, hr, fun j h1 h2 => by omega⟩
      · rintro ⟨k, h1, -, -, h4, h5⟩
        obtain rfl | hk := Nat.eq_or_lt_of_le h1
        · rw [← hr, h4]
        · have hs := h5 start (Nat.le_refl _) hk hmy
          rw [hr] at hs
          cases hs
    next e he =>
      split
      next hna => exact later fun _ => hna ▸ he
      next hna =>
        constructor
        · exact nofun
        · rintro ⟨k, h1, -, -, h4, h5⟩
          obtain rfl | hk := Nat.eq_or_lt_of_le h1
          · rw [he] at h4
            cases h4
          · have hs := h5 start (Nat.le_refl _) hk hmy
            rw [he] at hs
            exact absurd (Except.error.inj hs) hna

/-- The nodes that are asked before `id`, when the message may come from any node. -/
def Silent (n : Node) (inbox : Inbox) (id : UInt8) : Prop :=
  ∀ j < id, j ≠ n.myNodeId → n.getRoute j ≠ 0 ∧ inbox (n.getRoute j) = .ok none

theorem receiveMsgReply_ok_iff {any : Bool} {remote : UInt8} :
    receiveMsgReply n inbox buf bufSize any remote isMsg = .ok r ↔
      packetSizeWithoutPayload true true ≤ bufSize ∧ r.remoteId ≠ n.myNodeId ∧
        receiveMsgReplyFromNode n inbox buf bufSize isMsg r.remoteId = .ok r ∧
        if any then r.remoteId.toNat < n.numberNodes ∧ Silent n inbox r.remoteId
        else r.remoteId = remote := by
  have hN := n.fewNodes
  have hid : ∀ {id : UInt8}, receiveMsgReplyFromNode n inbox buf bufSize isMsg id = .ok r →
      r.remoteId = id := by
    intro id h
    obtain ⟨-, p, data, -, -, -, rfl⟩ := fromNode_ok_iff.mp h
    rfl
  unfold receiveMsgReply
  cases any with
  | true =>
    simp only [Bool.true_eq_false, false_and, if_false, if_true]
    split
    next hs => exact ⟨nofun, fun h => absurd h.1 (Nat.not_le.mpr hs)⟩
    next hs =>
    rw [receiveLoop_ok_iff]
    constructor
    · rintro ⟨k, -, hk, hmy, hr, hbefore⟩
      have hkid : (UInt8.ofNat k).toNat = k := by
        rw [UInt8.toNat_ofNat']
        omega
      rw [hid hr]
      refine ⟨Nat.not_lt.mp hs, hmy, hr, by omega, fun j hj hjmy => ?_⟩
      have hjk : j.toNat < k := hkid ▸ UInt8.lt_iff_toNat_lt.mp hj
      have h := hbefore j.toNat (Nat.zero_le _) hjk
      rw [UInt8.ofNat_toNat] at h
      exact fromNode_unavailable_iff.mp (h hjmy)
    · rintro ⟨-, hmy, hr, hlt, hbefore⟩
      refine ⟨r.remoteId.toNat, Nat.zero_le _, by omega, ?_⟩
      rw [UInt8.ofNat_toNat]
      refine ⟨hmy, hr, fun j _ hj hjmy => ?_⟩
      have hj256 : (UInt8.ofNat j).toNat = j := by
        rw [UInt8.toNat_ofNat']
        omega
      refine fromNode_unavailable_iff.mpr (hbefore _ ?_ hjmy)
      rw [UInt8.lt_iff_toNat_lt, hj256]
      exact hj
  | false =>
    simp only [true_and, Bool.false_eq_true, if_false]
    split
    next hs => exact ⟨nofun, fun h => absurd h.1 (Nat.not_le.mpr hs)⟩
    next hs =>
    split
    next hmy => exact ⟨nofun, fun ⟨_, h1, _, h2⟩ => absurd (h2.trans hmy) h1⟩
    next hmy =>
    rw [receiveLoop_ok_iff]
    constructor
    · rintro ⟨k, h1, h2, -, hr, -⟩
      obtain rfl : k = remote.toNat := by omega
      rw [UInt8.ofNat_toNat] at hr
      rw [hid hr]
      exact ⟨Nat.not_lt.mp hs, hmy, hr, rfl⟩
    · rintro ⟨-, -, hr, hremote⟩
      refine ⟨remote.toNat, Nat.le_refl _, by omega, ?_⟩
      rw [UInt8.ofNat_toNat, ← hremote]
      exact ⟨hremote ▸ hmy, hr, fun j h1 h2 => by omega⟩

/-- A call that ends before the packet is parsed sends nothing. -/
theorem receiveMsg_cases (n : Node) (inbox : Inbox) (halSend : Except ℕ Unit) (stack buf : Bytes) (bufSize : ℕ)
    (any : Bool) (sender : UInt8) (applicationId : UInt16) :
    (∃ e, receiveMsg n inbox halSend stack buf bufSize any sender applicationId = (.error e, none)) ∨
    ∃ r p, receiveMsgReply n inbox buf bufSize any sender true = .ok r ∧ parsePacket r.buf r.size = .ok p ∧
      ((∃ refusal, receiveMsg n inbox halSend stack buf bufSize any sender applicationId =
        errorReply halSend stack r.link p refusal) ∨
      ∃ m, receiveMsg n inbox halSend stack buf bufSize any sender applicationId = (.ok m, none) ∧
        m.metadata.sender = r.remoteId) := by
  unfold receiveMsg
  split
  · exact Or.inl ⟨_, rfl⟩
  split
  · exact Or.inl ⟨_, rfl⟩
  next r hr =>
  split
  · exact Or.inl ⟨_, rfl⟩
  next p hp =>
  refine Or.inr ⟨r, p, hr, hp, ?_⟩
  split
  next refusal _ => exact Or.inl ⟨refusal, rfl⟩
  next => exact Or.inr ⟨_, rfl, rfl⟩

theorem errorReply_error {α : Type} (halSend : Except ℕ Unit) (stack : Bytes) (link : UInt8) (p : Parsed)
    (refusal : ProtocolError × SfcpError) (a : α) : (errorReply halSend stack link p refusal).1 ≠ .ok a := by
  unfold errorReply
  split
  · split <;> exact nofun
  · exact nofun

end Polling

/-! ## Fields -/

section Fields
variable (type : PacketType) (crypto ext : Bool)

theorem protocolVersion_set : protocolVersionField (setAllMetadataFields type crypto ext) = PROTOCOL_VERSION := by
  cases type <;> cases crypto <;> cases ext <;> decide

theorem packetType_set : packetTypeField (setAllMetadataFields type crypto ext) = type := by
  cases type <;> cases crypto <;> cases ext <;> decide

theorem usesCryptography_set : usesCryptographyField (setAllMetadataFields type crypto ext) = crypto := by
  cases type <;> cases crypto <;> cases ext <;> decide

theorem usesIdExtension_set : usesIdExtensionField (setAllMetadataFields type crypto ext) = ext := by
  cases type <;> cases crypto <;> cases ext <;> decide

end Fields

theorem load_store_id (d : Bytes) (a : ℕ) (v : UInt16) : load (store d a 2 v.toNat) a 2 = v.toNat := by
  rw [load_store_self]
  exact Nat.mod_eq_of_lt v.toNat_lt

structure Encodes (d : Bytes) (type : PacketType) (sender receiver messageId : UInt8)
    (clientId applicationId : UInt16) : Prop where
  metadata : d 0 = setAllMetadataFields type false (applicationId != 0 || clientId != 0)
  sender : d 1 = sender
  receiver : d 2 = receiver
  messageId : d 3 = messageId
  ids : (applicationId != 0 || clientId != 0) = true →
    load d 4 2 = clientId.toNat ∧ load d 6 2 = applicationId.toNat

abbrev headSize (clientId applicationId : UInt16) : ℕ :=
  packetSizeWithoutPayload false (applicationId != 0 || clientId != 0)

section Encoding
variable {d : Bytes} {type : PacketType} {sender receiver messageId : UInt8} {clientId applicationId : UInt16}

theorem headSize_ge : HEADER_SIZE ≤ headSize clientId applicationId := Nat.le_add_right _ _

theorem headSize_ids (h : (applicationId != 0 || clientId != 0) = true) :
    headSize clientId applicationId = 8 := by
  rw [headSize, h]
  rfl

theorem writePacket_encodes (buf : Bytes) :
    Encodes (writePacket buf type false (applicationId != 0 || clientId != 0) sender receiver messageId
      clientId applicationId) type sender receiver messageId clientId applicationId := by
  unfold writePacket
  split
  next hext =>
    refine ⟨?_, ?_, ?_, ?_, fun _ => ⟨?_, ?_⟩⟩
    · rw [hext]
      rfl
    · rfl
    · rfl
    · rfl
    · exact (load_store_outside (by decide)).trans (load_store_id _ 4 clientId)
    · exact load_store_id _ 6 applicationId
  next hext =>
    exact ⟨rfl, rfl, rfl, rfl, fun h => absurd h hext⟩

theorem Encodes.congr {d' : Bytes} (h : Encodes d type sender receiver messageId clientId applicationId)
    (heq : ∀ i < headSize clientId applicationId, d' i = d i) :
    Encodes d' type sender receiver messageId clientId applicationId := by
  have hhead : ∀ i < 4, d' i = d i := fun i hi => heq i (Nat.lt_of_lt_of_le hi headSize_ge)
  refine ⟨?_, ?_, ?_, ?_, fun hext => ?_⟩
  · rw [hhead 0 (by decide), h.metadata]
  · rw [hhead 1 (by decide), h.sender]
  · rw [hhead 2 (by decide), h.receiver]
  · rw [hhead 3 (by decide), h.messageId]
  · rw [headSize_ids hext] at heq
    rw [load_congr fun i _ hi => heq i (by omega), load_congr fun i _ hi => heq i (by omega)]
    exact h.ids hext

theorem Encodes.fill (h : Encodes d type sender receiver messageId clientId applicationId) (payload : Bytes)
    (len : ℕ) :
    Encodes (blit d (headSize clientId applicationId) payload len) type sender receiver messageId clientId
      applicationId :=
  h.congr fun _ hi => blit_outside (Or.inl hi)

theorem Encodes.carry (h : Encodes d type sender receiver messageId clientId applicationId) (buf : Bytes)
    (len : ℕ) :
    Encodes (blit buf 0 d (headSize clientId applicationId + len)) type sender receiver messageId clientId
      applicationId :=
  h.congr fun i hi => blit_inside (Nat.zero_le i) (by omega)

/-- What a packet of `size` bytes parses to. -/
def parsed (type : PacketType) (sender receiver messageId : UInt8) (clientId applicationId : UInt16)
    (size : ℕ) : Parsed :=
  ⟨sender, receiver, messageId, false, applicationId != 0 || clientId != 0, applicationId, clientId,
    if size - headSize clientId applicationId > 0 then some (headSize clientId applicationId) else none,
    size - headSize clientId applicationId, type == .MSG_NEEDS_REPLY, type⟩

theorem Encodes.parse {size : ℕ} (h : Encodes d type sender receiver messageId clientId applicationId)
    (htype : type ≠ .PROTOCOL_ERROR_REPLY) (hsize : headSize clientId applicationId ≤ size) :
    parsePacket d size = .ok (parsed type sender receiver messageId clientId applicationId size) := by
  have happ : (if (applicationId != 0 || clientId != 0) = true then UInt16.ofNat (load d 6 2) else 0) =
      applicationId := by
    split
    next hext => rw [(h.ids hext).2, UInt16.ofNat_toNat]
    next hext => simp_all
  have hclient : (if (applicationId != 0 || clientId != 0) = true then UInt16.ofNat (load d 4 2) else 0) =
      clientId := by
    split
    next hext => rw [(h.ids hext).1, UInt16.ofNat_toNat]
    next hext => simp_all
  have hhead : ¬ size < HEADER_SIZE := Nat.not_lt.mpr (Nat.le_trans headSize_ge hsize)
  simp only [parsePacket, h.metadata, protocolVersion_set, packetType_set, usesCryptography_set,
    usesIdExtension_set, ne_eq, not_true_eq_false, if_false, if_neg hhead, if_neg htype,
    if_neg (Nat.not_lt.mpr hsize), h.sender, h.receiver, h.messageId]
  change Except.ok (Parsed.mk _ _ _ _ _ (if _ then UInt16.ofNat (load d 6 2) else 0)
    (if _ then UInt16.ofNat (load d 4 2) else 0) _ _ _ _) = _
  rw [happ, hclient]
  rfl

end Encoding

end TrustedFirmware.Sfcp
