import KenningRuntime.Capacity

/-! What `protocol_transmit` writes, `protocol_listen` reads back. The sender cuts the payload into
messages, the receiver cuts each message into chunks of its own size. -/
namespace KenningRuntime
open ByteSource LittleEndian

section
variable (cfg : Config) (checksum : ℕ → BitVec 8) (event : TransmitEvent)

/-- A line on which every write succeeds, when no message is being sent. -/
def idleTx (sent : List UInt8) : Tx := ⟨sent, false, []⟩

theorem sendMessage_wire (m : Message) (hp : m.hdr.flags.hasPayload = true) {payload : List UInt8}
    (h : payload.take m.hdr.payloadSize.toNat = m.payload) (sent : List UInt8) (busy : Bool) :
    sendMessage m.hdr payload ⟨sent, busy, []⟩ = (statusOk, ⟨sent ++ m.wire, busy, []⟩) := by
  simp only [sendMessage, protocolWriteData, checkProtocolStatus_ok, ne_eq, not_true_eq_false,
    if_false, hp, if_true, h, Message.wire, List.append_assoc]

/-- Message `i` of an event, when its payload is `part`. -/
def outgoingMessage (i : ℕ) (part : List UInt8) (hpos : 0 < event.payload.length)
    (hpart : part.length < 2^32) : Message where
  hdr := messageHdr cfg checksum event i part.length
  payload := part
  payload_length := by
    simp only [messageHdr, decide_eq_true hpos, if_true, BitVec.toNat_ofNat]
    exact (Nat.mod_eq_of_lt hpart).symm

theorem transmitLoop_succ (left i off : ℕ) (hpos : 0 < event.payload.length) (sent : List UInt8) :
    ∃ m : Message, m.payload = (event.payload.drop off).take cfg.protocolMaxOutgoingMessageSize ∧
      m.hdr = messageHdr cfg checksum event i m.payload.length ∧
      transmitLoop cfg checksum event (left+1) i off (idleTx sent) =
        transmitLoop cfg checksum event left (i+1) (off+m.payload.length)
          (idleTx (sent ++ m.wire)) := by
  have hlt := event.payload_length_lt
  have hlen : ((event.payload.drop off).take cfg.protocolMaxOutgoingMessageSize).length =
      min (event.payload.length-off) cfg.protocolMaxOutgoingMessageSize := by
    rw [List.length_take, List.length_drop, min_comm]
  have hpart : ((event.payload.drop off).take cfg.protocolMaxOutgoingMessageSize).length < 2^32 := by
    rw [hlen]
    omega
  let m := outgoingMessage cfg checksum event i _ hpos hpart
  have hp : m.hdr.flags.hasPayload = true := decide_eq_true hpos
  have htake : (event.payload.drop off).take m.hdr.payloadSize.toNat = m.payload := by
    rw [← Message.payload_length_of_hasPayload hp]
    exact (List.prefix_iff_eq_take.mp (List.take_prefix _ _)).symm
  have hsend : sendMessage (messageHdr cfg checksum event i
      (min (event.payload.length-off) cfg.protocolMaxOutgoingMessageSize)) (event.payload.drop off)
      {idleTx sent with protocolBusy := true} = (statusOk, ⟨sent ++ m.wire, true, []⟩) := by
    rw [← hlen]
    exact sendMessage_wire m hp htake sent true
  refine ⟨m, rfl, rfl, ?_⟩
  simp only [transmitLoop, hsend, ne_eq, not_true_eq_false, if_false]
  rw [← hlen]
  rfl

/-- The loop of `protocol_transmit` writes a complete series, whose payload is what is left to send.
The induction is on the number of messages after message `i`, which starts at byte `off`. -/
theorem transmitLoop_series {left i off : ℕ} (hoff : off < event.payload.length)
    (hleft : (event.payload.length-off-1)/cfg.protocolMaxOutgoingMessageSize = left)
    (hcount : messageCount cfg event = i+left+1) (sent : List UInt8) :
    ∃ m ms, transmitLoop cfg checksum event (left+1) i off (idleTx sent) =
        (statusOk, idleTx (sent ++ wires (m :: ms))) ∧
      m.hdr = messageHdr cfg checksum event i m.payload.length ∧ Series m ms ∧
      payloads (m :: ms) = event.payload.drop off := by
  have hM := cfg.protocolMaxOutgoingMessageSize_pos
  induction left generalizing i off sent with
  | zero =>
    -- The last message: what is left fits into it.
    obtain ⟨m, hpart, hhdr, hround⟩ :=
      transmitLoop_succ cfg checksum event 0 i off (by omega) sent
    have hfit : event.payload.length-off ≤ cfg.protocolMaxOutgoingMessageSize := by
      have hlt := (Nat.div_eq_zero_iff_lt hM).mp hleft
      omega
    have hall : m.payload = event.payload.drop off := by
      rw [hpart, List.take_of_length_le (by rw [List.length_drop]; exact hfit)]
    refine ⟨m, [], ?_, hhdr, .last ?_, ?_⟩
    · rw [hround, transmitLoop]
      simp only [wires_cons, wires_nil, List.append_nil, Message.wire]
    · rw [hhdr, messageHdr, hcount]
      exact decide_eq_true rfl
    · rw [payloads_cons, payloads_nil, List.append_nil, hall]
  | succ left ih =>
    obtain ⟨m, hpart, hhdr, hround⟩ :=
      transmitLoop_succ cfg checksum event (left+1) i off (by omega) sent
    -- A full message, behind which something is left.
    have hmore : cfg.protocolMaxOutgoingMessageSize ≤ event.payload.length-off-1 := by
      by_contra hlt
      rw [Nat.div_eq_of_lt (by omega)] at hleft
      omega
    have hlen : m.payload.length = cfg.protocolMaxOutgoingMessageSize := by
      rw [hpart, List.length_take, List.length_drop]
      omega
    have hdiv := Nat.div_eq_sub_div hM hmore
    have hnext : (event.payload.length-(off+m.payload.length)-1)/cfg.protocolMaxOutgoingMessageSize =
        left := by
      calc (event.payload.length-(off+m.payload.length)-1)/cfg.protocolMaxOutgoingMessageSize
          = (event.payload.length-off-1-cfg.protocolMaxOutgoingMessageSize)/
              cfg.protocolMaxOutgoingMessageSize := by
            rw [hlen, ← Nat.sub_sub, Nat.sub_right_comm]
        _ = (event.payload.length-off-1)/cfg.protocolMaxOutgoingMessageSize-1 := by omega
        _ = left := by omega
    obtain ⟨m', ms, hloop, hhdr', hseries, hpayload⟩ := @ih (i+1) (off+m.payload.length) (by omega)
      hnext (by omega) (sent ++ m.wire)
    refine ⟨m, m' :: ms, ?_, hhdr, .more ?_ ?_ hseries, ?_⟩
    · rw [hround, hloop]
      simp only [wires_cons, Message.wire, List.append_assoc]
    · rw [hhdr, messageHdr, hcount]
      exact decide_eq_false (by omega)
    · rw [Message.SameKind, hhdr, hhdr']
      exact ⟨rfl, rfl⟩
    · rw [payloads_cons, hpayload, hlen, hpart, ← List.drop_drop, List.take_append_drop]

end

theorem listen_transmit (cfg : Config) (checksum : ℕ → BitVec 8) (event : TransmitEvent)
    {t : MessageType} (ht : event.messageType.toNat = t.number) (hpos : 0 < event.payload.length)
    {C : ℕ} {W : Type} (L : Lens W (BufLoader C))
    {loaderCallback : W → MessageType → Option (MsgLoader W)} {w : W}
    (hldr : loaderCallback w t = some ((msgLoaderBuf C).lift L)) (hC : event.payload.length ≤ C)
    (rest : List UInt8) :
    ∃ sent r, protocolTransmit cfg checksum event (idleTx []) = (statusOk, idleTx sent) ∧
      protocolListen cfg loaderCallback w (bytes (sent ++ rest)) = some r ∧
      r.event = .ok {
        messageType := t
        flags := {event.flags with
          first := true, last := messageCount cfg event = 1, hasPayload := true,
          isHostMessage := false}
        isRequest := false
        payloadSize := event.payload.length } ∧
      (L.get r.world).mem.take event.payload.length = event.payload ∧ r.rx = bytes rest := by
  have hcount : messageCount cfg event =
      0+(event.payload.length-1)/cfg.protocolMaxOutgoingMessageSize+1 := by
    rw [messageCount, if_pos hpos, Nat.zero_add]
  obtain ⟨m, ms, hsent, hhdr, hseries, hpayload⟩ :=
    transmitLoop_series cfg checksum event hpos rfl hcount []
  rw [Nat.sub_zero, ← Nat.zero_add (_/_), ← hcount, List.nil_append] at hsent
  rw [List.drop_zero] at hpayload
  have hge : 1 ≤ messageCount cfg event := by
    rw [hcount]
    exact Nat.le_add_left 1 _
  have hlast : decide (0 = messageCount cfg event-1) = decide (messageCount cfg event = 1) :=
    decide_eq_decide.mpr (by omega)
  have hflags : m.hdr.flags = {event.flags with
      first := true, last := messageCount cfg event = 1, hasPayload := true,
      isHostMessage := false} := by
    rw [hhdr, messageHdr, decide_eq_true hpos, hlast]
    rfl
  have htype : m.hdr.messageType? = some t := by
    have hlt := t.number_lt
    rw [MessageHdr.messageType?, MessageType.ofNumber?_eq_some, hhdr, messageHdr, BitVec.toNat_setWidth,
      ht]
    exact Nat.mod_eq_of_lt (by omega)
  -- The first message opens an event, and what follows fits into the buffer.
  have hopens : Opens m.hdr t := ⟨Or.inl (by rw [hhdr]; rfl), by rw [hflags], htype⟩
  obtain ⟨l, hsave, hstored⟩ := saveMessages_fit cfg (bufReset (L.get w)).2 (m :: ms) (by
    rw [BufLoader.room, bufReset_written, Nat.sub_zero, hpayload]
    exact hC)
  rw [bufReset_stored, List.nil_append, hpayload] at hstored
  have hwritten : l.written = event.payload.length := BufLoader.written_of_stored hstored
  obtain ⟨left, hlisten⟩ := protocolListen_series cfg L hopens (by rw [hflags]) hseries hldr
    (bytes rest)
  rw [hsave, if_neg (not_not_intro rfl), ← bytes_append] at hlisten
  refine ⟨wires (m :: ms), _, hsent, hlisten, ?_, ?_, rfl⟩
  · have hrequest : m.hdr.isRequest = false := by rw [hhdr]; rfl
    simp only [bufferEvent, hflags, hrequest, hwritten]
  · rw [Lens.get_set, ← hwritten]
    exact hstored

/-- The header has the packed little-endian layout of `message_hdr_t`, and the bytes of an event that
was transmitted are received as the same event. -/
theorem protocol_round_trip (cfg : Config) (checksum : ℕ → BitVec 8) (event : TransmitEvent)
    {t : MessageType} (ht : event.messageType.toNat = t.number) (hpos : 0 < event.payload.length)
    {C : ℕ} {W : Type} (L : Lens W (BufLoader C))
    {loaderCallback : W → MessageType → Option (MsgLoader W)} {w : W}
    (hldr : loaderCallback w t = some ((msgLoaderBuf C).lift L)) (hC : event.payload.length ≤ C)
    (rest : List UInt8) :
    (∀ h : MessageHdr, h.encode.length = 12 ∧
      word h.encode 0 5 = h.messageType.toNat + 2^38*h.flowControlFlags.toNat ∧
      word h.encode 5 1 = h.checksum.toNat ∧ word h.encode 6 2 = h.flags.rawBytes ∧
      word h.encode 8 4 = h.payloadSize.toNat) ∧
    ∃ sent r, protocolTransmit cfg checksum event (idleTx []) = (statusOk, idleTx sent) ∧
      protocolListen cfg loaderCallback w (bytes (sent ++ rest)) = some r ∧
      r.event = .ok {
        messageType := t
        flags := {event.flags with
          first := true, last := messageCount cfg event = 1, hasPayload := true,
          isHostMessage := false}
        isRequest := false
        payloadSize := event.payload.length } ∧
      (L.get r.world).mem.take event.payload.length = event.payload ∧ r.rx = bytes rest :=
  ⟨fun h => ⟨h.length_encode, h.encode_words⟩,
    listen_transmit cfg checksum event ht hpos L hldr hC rest⟩

/-- Nine bytes of output, in three messages of at most four bytes. -/
def outputEvent : TransmitEvent where
  messageType := 5
  flags := ⟨true, false, false, false, false, false, false, true, 0, 0⟩
  payload := [1, 2, 3, 4, 5, 6, 7, 8, 9]
  payload_length_lt := by decide

theorem protocol_round_trip_nine :
    ∃ sent r, protocolTransmit smallConfig (fun _ => 0) outputEvent (idleTx []) =
        (statusOk, idleTx sent) ∧
      protocolListen smallConfig (oneLoader 16) (emptyBuffer 16 (by decide)) (bytes (sent ++ [42])) =
        some r ∧
      r.world.mem.take 9 = [1, 2, 3, 4, 5, 6, 7, 8, 9] ∧ r.rx = bytes [42] := by
  have hldr : oneLoader 16 (emptyBuffer 16 (by decide)) .output = some _ := rfl
  obtain ⟨-, sent, r, hsent, hlisten, -, hmem, hrx⟩ := protocol_round_trip smallConfig (fun _ => 0)
    outputEvent rfl (by decide) (Lens.whole (BufLoader 16)) hldr (by decide) [42]
  exact ⟨sent, r, hsent, hlisten, hmem, hrx⟩

end KenningRuntime
