import KenningRuntime.BufferReception

/-! Whether the capacity of a buffer loader is respected: an event is received exactly if its payload
fits, but for a payload that is too big and ends with a short chunk. -/
namespace KenningRuntime
open ByteSource

section
variable (cfg : Config) {C : ℕ} {W : Type} (L : Lens W (BufLoader C))

/-- A payload was received if it fits, all of it, and refused as too big if it does not. -/
structure ReceivedWhole (payload : List UInt8) (r : ListenResult W) : Prop where
  status_iff : r.status = statusOk ↔ payload.length ≤ C
  intact : ∀ event, r.event = .ok event →
    event.payloadSize = payload.length ∧ (L.get r.world).mem.take payload.length = payload
  too_big : C < payload.length → r.status = kenningProtocolStatusMsgTooBig

variable {loaderCallback : W → MessageType → Option (MsgLoader W)} {m : Message} {ms : List Message}
  {t : MessageType} {w : W}

theorem protocolListen_flowControl (hf : ¬ (m.hdr.flowControlFlags = flowControlTransmission ∨
    m.hdr.flowControlFlags = flowControlRequest)) (rx : Rx) :
    protocolListen cfg loaderCallback w (bytes m.hdr.encode ++ rx) =
      some ⟨.error kenningProtocolStatusFlowControlError, w,
        protocolSkipData m.hdr.payloadSize.toNat rx⟩ := by
  rw [protocolListen, receiveMessageHeader_encode]
  exact if_pos (not_or.mp hf)

/-- Of one buffer: the series is received whole exactly if it fits or is refused. -/
theorem receivedWhole_iff (h : Opens m.hdr t) (hp : m.hdr.flags.hasPayload = true) (hs : Series m ms)
    (hldr : loaderCallback w t = some ((msgLoaderBuf C).lift L)) (tail : Rx) :
    (∃ r, protocolListen cfg loaderCallback w (bytes (wires (m :: ms)) ++ tail) = some r ∧
        ReceivedWhole L (payloads (m :: ms)) r) ↔
      ((payloads (m :: ms)).length ≤ C ∨
        refuses cfg.messageRecvBufferSize C ((m :: ms).map fun m => m.payload.length) = true) := by
  have hroom : (bufReset (L.get w)).2.room = C := by rw [BufLoader.room, bufReset_written, Nat.sub_zero]
  have hstatus := saveMessages_refuses cfg (bufReset (L.get w)).2 (m :: ms)
  obtain ⟨left, hlisten⟩ := protocolListen_series cfg L h hp hs hldr tail
  rw [hroom] at hstatus
  rw [hlisten]
  by_cases hfit : (payloads (m :: ms)).length ≤ C
  · -- What fits is stored from the start of the buffer on.
    obtain ⟨l, hsave, hstored⟩ := saveMessages_fit cfg (bufReset (L.get w)).2 (m :: ms)
      (by rw [hroom]; exact hfit)
    rw [bufReset_stored, List.nil_append] at hstored
    have hwritten : l.written = (payloads (m :: ms)).length := BufLoader.written_of_stored hstored
    refine ⟨fun _ => Or.inl hfit, ?_⟩
    intro _
    simp only [hsave, ne_eq, not_true_eq_false, if_false]
    refine ⟨_, rfl, ⟨fun _ => hfit, fun _ => rfl⟩, ?_, fun hc => absurd hfit hc.not_ge⟩
    intro event heq
    cases heq
    refine ⟨hwritten, ?_⟩
    rw [Lens.get_set, ← hwritten]
    exact hstored
  · constructor
    · intro hall
      obtain ⟨r, hr, hwhole⟩ := hall
      apply Or.inr
      by_contra href
      rw [Bool.not_eq_true] at href
      -- What is too big and is not refused comes back with `STATUS_OK`.
      rw [hstatus, href, if_neg (show ¬ savedStatus (!false) ≠ statusOk from not_not_intro rfl)] at hr
      obtain rfl := Option.some.inj hr
      exact hfit (hwhole.status_iff.mp rfl)
    · intro href
      rw [hstatus, href.resolve_left hfit]
      refine ⟨_, if_pos msgTooBig_ne, ⟨fun hc => absurd hc msgTooBig_ne, fun hc => absurd hc hfit⟩, ?_,
        fun _ => rfl⟩
      intro event heq
      cases heq

/-- Exactly when a series of messages of one kind, the first with `first` and the final one with
`last`, is received whole if it fits and refused if it does not. A chunk that the loader refuses is
forgotten with the next chunk, so the status is that of the last chunk of a payload. -/
theorem protocolListen_capacity (ht : m.hdr.messageType? = some t) (h1 : m.hdr.flags.first = true)
    (hp : m.hdr.flags.hasPayload = true) (hs : Series m ms)
    (hldr : loaderCallback w t = some ((msgLoaderBuf C).lift L)) (tail : Rx) :
    (∃ r, protocolListen cfg loaderCallback w (bytes (wires (m :: ms)) ++ tail) = some r ∧
        ReceivedWhole L (payloads (m :: ms)) r) ↔
      ((m.hdr.flowControlFlags = flowControlTransmission ∨
          m.hdr.flowControlFlags = flowControlRequest) ∧
        ((payloads (m :: ms)).length ≤ C ∨
          refuses cfg.messageRecvBufferSize C ((m :: ms).map fun m => m.payload.length) = true)) := by
  by_cases hf : m.hdr.flowControlFlags = flowControlTransmission ∨
      m.hdr.flowControlFlags = flowControlRequest
  · rw [receivedWhole_iff cfg L ⟨hf, h1, ht⟩ hp hs hldr tail]
    exact (and_iff_right hf).symm
  · have hne : kenningProtocolStatusFlowControlError ≠ kenningProtocolStatusMsgTooBig := by decide
    refine ⟨?_, fun hc => absurd hc.1 hf⟩
    intro hall
    obtain ⟨r, hr, hwhole⟩ := hall
    rw [wires_cons, bytes_append, List.append_assoc, protocolListen_flowControl cfg hf] at hr
    obtain rfl := Option.some.inj hr
    by_cases hfit : (payloads (m :: ms)).length ≤ C
    · exact absurd (hwhole.status_iff.mpr hfit) flowControlError_ne
    · exact absurd (hwhole.too_big (Nat.lt_of_not_le hfit)) hne

end

/-! The failing input: four bytes are saved, the next four are refused, and the ninth is saved in
their place. -/

def smallConfig : Config where
  messageRecvBufferSize := 4
  protocolMaxOutgoingMessageSize := 4
  responsePayloadSize := 8
  nullWritten := 0
  messageRecvBufferSize_pos := by decide
  protocolMaxOutgoingMessageSize_pos := by decide
  responsePayloadSize_lt := by decide

/-- A request of a type, in one message with the given payload. -/
def requestMessage (t : MessageType) (payload : List UInt8) (h : payload.length < 2^32) : Message where
  hdr := {
    messageType := BitVec.ofNat 38 t.number
    flowControlFlags := flowControlRequest
    checksum := 0
    flags := ⟨false, false, true, true, true, true, false, false, 0, 0⟩
    payloadSize := BitVec.ofNat 32 payload.length }
  payload
  payload_length := by
    rw [if_pos rfl, BitVec.toNat_ofNat, Nat.mod_eq_of_lt h]

def nineBytes : Message := requestMessage .data [1, 2, 3, 4, 5, 6, 7, 8, 9] (by decide)

/-- One buffer for all messages. -/
def oneLoader (C : ℕ) (_ : BufLoader C) (_ : MessageType) : Option (MsgLoader (BufLoader C)) :=
  some ((msgLoaderBuf C).lift (Lens.whole (BufLoader C)))

theorem capacity_masked :
    ¬ ∃ r, protocolListen smallConfig (oneLoader 6) (emptyBuffer 6 (by decide))
        (bytes (wires [nineBytes])) = some r ∧
      ReceivedWhole (Lens.whole (BufLoader 6)) (payloads [nineBytes]) r := by
  intro hall
  obtain ⟨r, hr, hwhole⟩ := hall
  have hok : (protocolListen smallConfig (oneLoader 6) (emptyBuffer 6 (by decide))
      (bytes (wires [nineBytes]))).map ListenResult.status = some statusOk := by decide
  rw [hr] at hok
  have hfit := hwhole.status_iff.mp (Option.some.inj hok)
  exact absurd hfit (by decide)

theorem protocolListen_capacity_nineBytes :
    (∃ r, protocolListen smallConfig (oneLoader 6) (emptyBuffer 6 (by decide))
        (bytes (wires [nineBytes]) ++ []) = some r ∧
      ReceivedWhole (Lens.whole (BufLoader 6)) (payloads [nineBytes]) r) ↔
    ((nineBytes.hdr.flowControlFlags = flowControlTransmission ∨
        nineBytes.hdr.flowControlFlags = flowControlRequest) ∧
      ((payloads [nineBytes]).length ≤ 6 ∨ refuses 4 6 [9] = true)) :=
  protocolListen_capacity smallConfig (Lens.whole (BufLoader 6)) (t := .data) (by decide) (by decide)
    (by decide) (.last (by decide)) rfl []

end KenningRuntime
