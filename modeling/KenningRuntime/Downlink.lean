import KenningRuntime.History
import KenningRuntime.Resynchronisation
import KenningRuntime.Segmentation

/-! A session on one line: the events that are transmitted one after the other are the events that
are received one after the other. -/
namespace KenningRuntime
open ByteSource

section
variable (cfg : Config)

/-- Events that are transmitted one after the other, up to the first that fails. With each of them
comes what is on the stack where the checksums of its messages are. -/
def transmitAll : List ((ℕ → BitVec 8) × TransmitEvent) → Tx → Status × Tx
  | [], tx => (statusOk, tx)
  | (checksum, event) :: sends, tx =>
    match protocolTransmit cfg checksum event tx with
    | (status, tx) => if status ≠ statusOk then (status, tx) else transmitAll sends tx

/-- All that the transmissions put on the line. -/
def sessionWire (sends : List ((ℕ → BitVec 8) × TransmitEvent)) : List UInt8 :=
  sends.flatMap fun send => wires (segments cfg send.1 send.2)

variable {cfg} {checksum : ℕ → BitVec 8} {event : TransmitEvent}

theorem sessionWire_cons (send : (ℕ → BitVec 8) × TransmitEvent)
    (sends : List ((ℕ → BitVec 8) × TransmitEvent)) :
    sessionWire cfg (send :: sends) =
      wires (segments cfg send.1 send.2) ++ sessionWire cfg sends := List.flatMap_cons

theorem sessionWire_append (sends sends' : List ((ℕ → BitVec 8) × TransmitEvent)) :
    sessionWire cfg (sends ++ sends') = sessionWire cfg sends ++ sessionWire cfg sends' :=
  List.flatMap_append

/-- On a line without faults an event goes out whole. -/
theorem protocolTransmit_idle (sent : List UInt8) :
    protocolTransmit cfg checksum event (idleTx sent) =
      (statusOk, idleTx (sent ++ wires (segments cfg checksum event))) := by
  have hidle : (idleTx sent).protocolBusy = false := rfl
  have hfaults : ∀ fault ∈ (idleTx sent).faults.take
      ((segments cfg checksum event).flatMap Message.writes).length, fault = none := by
    intro fault hfault
    rw [idleTx, List.take_nil] at hfault
    exact absurd hfault List.not_mem_nil
  rw [← protocolTransmit32_eq, protocolTransmit32_eq_writeAll cfg checksum event hidle,
    writeAll_succeeds hfaults, flatten_writes]
  simp only [idleTx, List.drop_nil]

theorem transmitAll_idle (sends : List ((ℕ → BitVec 8) × TransmitEvent)) (sent : List UInt8) :
    transmitAll cfg sends (idleTx sent) = (statusOk, idleTx (sent ++ sessionWire cfg sends)) := by
  induction sends generalizing sent with
  | nil => rw [transmitAll, sessionWire, List.flatMap_nil, List.append_nil]
  | cons send sends ih =>
    rw [transmitAll, protocolTransmit_idle]
    simp only [ne_eq, not_true_eq_false, if_false]
    rw [ih, sessionWire_cons, List.append_assoc]

/-! ### The messages of an event -/

/-- The flags of the first message of an event: those of the event, but for the ones that the protocol
sets itself. -/
def firstFlags (cfg : Config) (event : TransmitEvent) : Flags :=
  {event.flags with
    first := true
    last := decide (event.payload.length ≤ cfg.protocolMaxOutgoingMessageSize)
    hasPayload := decide (event.payload.length > 0)
    isHostMessage := false}

theorem messageCount_eq_one :
    1 = messageCount cfg event ↔ event.payload.length ≤ cfg.protocolMaxOutgoingMessageSize := by
  have hmax := cfg.protocolMaxOutgoingMessageSize_pos
  unfold messageCount
  split
  · next hpos =>
    have hdiv : (event.payload.length-1)/cfg.protocolMaxOutgoingMessageSize = 0 ↔
        event.payload.length-1 < cfg.protocolMaxOutgoingMessageSize := by
      rw [Nat.div_eq_zero_iff]
      omega
    omega
  · omega

/-- The messages of an event are one complete series, and start with its header. -/
theorem segments_cons (cfg : Config) (checksum : ℕ → BitVec 8) (event : TransmitEvent) :
    ∃ m ms, segments cfg checksum event = m :: ms ∧ Series m ms ∧
      m.hdr.messageType = event.messageType.setWidth 38 ∧
      m.hdr.flowControlFlags = flowControlTransmission ∧ m.hdr.flags = firstFlags cfg event := by
  have hs := segments_segmented cfg checksum event
  have hlength : (segments cfg checksum event).length = messageCount cfg event := length_segmentsFrom
  have hne := messageCount_ne_zero cfg event
  obtain ⟨m, ms, hcons⟩ : ∃ m ms, segments cfg checksum event = m :: ms := by
    cases hseg : segments cfg checksum event with
    | nil =>
      rw [hseg, List.length_nil] at hlength
      exact absurd hlength.symm hne
    | cons m ms => exact ⟨m, ms, rfl⟩
  rw [hcons] at hs hlength
  -- Every header is that of the event, with the flags that its place in the series asks for.
  have hhdr (i : ℕ) (hi : i < (m :: ms).length) := hs.hdr i _ (List.getElem?_eq_getElem hi)
  have hfirst := hs.hdr 0 m rfl
  have hkind : ∀ m' ∈ ms, m.SameKind m' := by
    intro m' hm'
    obtain ⟨i, hi, rfl⟩ := List.getElem_of_mem hm'
    have hnext := hhdr (i+1) (by rw [List.length_cons]; omega)
    rw [List.getElem_cons_succ] at hnext
    rw [Message.SameKind, hnext, hfirst]
    exact ⟨rfl, rfl⟩
  refine ⟨m, ms, hcons, ?_, by rw [hfirst], by rw [hfirst], ?_⟩
  · rw [series_iff]
    exact ⟨hkind, fun i hi => by rw [hhdr i hi]⟩
  · rw [hfirst, firstFlags, hlength]
    simp only [Nat.zero_add, messageCount_eq_one]
    rfl

/-! ### One event -/

variable {W : Type} {C : MessageType → ℕ} (L : ∀ t, Lens W (BufLoader (C t)))

/-- What a call of `protocol_listen` reports is the event that was transmitted: its type, its flags
but for those that the protocol sets, and its payload, which is in the memory of the loader. Of an event
without payload the size that is reported is what the loader had written before, and is not touched. -/
def Arrives (cfg cfg' : Config) (loaderCallback : W → MessageType → Option (MsgLoader W))
    (event : TransmitEvent) (call : W × ListenResult W) : Prop :=
  ∃ received, call.2.event = .ok received ∧ received.messageType.number = event.messageType.toNat ∧
    received.flags = firstFlags cfg event ∧ received.isRequest = false ∧
    (event.payload ≠ [] → received.payloadSize = event.payload.length ∧
      ((L received.messageType).get call.2.world).mem.take received.payloadSize = event.payload) ∧
    (event.payload = [] → call.2.world = call.1 ∧ received.payloadSize =
      loaderWritten cfg' (loaderCallback call.1 received.messageType) call.1%2^32)

/-- The receiver can take the event: its type exists, and the loader for it is large enough. -/
structure Receivable (loaderCallback : W → MessageType → Option (MsgLoader W))
    (event : TransmitEvent) : Prop where
  messageType : event.messageType.toNat < 14
  loader : ∀ (t : MessageType) (w : W), t.number = event.messageType.toNat → event.payload ≠ [] →
    loaderCallback w t = some ((msgLoaderBuf (C t)).lift (L t)) ∧ event.payload.length ≤ C t

theorem MessageType.exists_number {n : ℕ} (h : n < 14) : ∃ t : MessageType, t.number = n := by
  have hall : ∀ n < 14, (MessageType.ofNumber? n).isSome = true := by decide
  obtain ⟨t, ht⟩ := Option.isSome_iff_exists.mp (hall n h)
  exact ⟨t, (MessageType.ofNumber?_eq_some.mp ht).symm⟩

variable {loaderCallback : W → MessageType → Option (MsgLoader W)}

/-- One call takes the messages of one event, whatever follows them, and reports the event. The sizes
that the receiver is built with need not be those of the sender. -/
theorem protocolListen_segments (cfg cfg' : Config) (checksum : ℕ → BitVec 8) (w : W)
    (h : Receivable L loaderCallback event) (tail : Rx) :
    ∃ r, protocolListen cfg' loaderCallback w (bytes (wires (segments cfg checksum event)) ++ tail) =
      some r ∧ r.rx = tail ∧ Arrives L cfg cfg' loaderCallback event (w, r) := by
  obtain ⟨m, ms, hcons, hseries, htype, hflow, hflags⟩ := segments_cons cfg checksum event
  obtain ⟨t, ht⟩ := MessageType.exists_number h.messageType
  have hopens : Opens m.hdr t := by
    refine ⟨Or.inl hflow, by rw [hflags, firstFlags], ?_⟩
    have hlt := h.messageType
    have hnumber : m.hdr.messageType.toNat = t.number := by
      rw [htype, BitVec.toNat_setWidth, ht]
      omega
    rw [MessageHdr.messageType?, hnumber, MessageType.ofNumber?_number]
  have hrequest : m.hdr.isRequest = false := by
    rw [MessageHdr.isRequest, hflow]
    decide
  have hpayload : payloads (m :: ms) = event.payload := by
    rw [← hcons]
    exact (segments_segmented cfg checksum event).payload
  by_cases hnil : event.payload = []
  · -- An event without payload is one message.
    have hp : m.hdr.flags.hasPayload = false := by
      rw [hflags, firstFlags, hnil]
      rfl
    have hone : ms = [] := by
      cases hseries with
      | last => rfl
      | more hlast =>
        rw [hflags, firstFlags, hnil] at hlast
        simp only [List.length_nil, Nat.zero_le, decide_true, Bool.true_eq_false] at hlast
    have hlisten : protocolListen cfg' loaderCallback w (bytes m.hdr.encode ++ tail) = _ :=
      protocolListen_empty cfg' loaderCallback hopens hp tail
    rw [hcons, hone, wires_of_not_hasPayload hp]
    exact ⟨_, hlisten, rfl, _, rfl, ht, hflags, hrequest, fun hne => absurd hnil hne, fun _ => ⟨rfl, rfl⟩⟩
  · -- Of any other event the messages carry the pieces of the payload.
    have hp : m.hdr.flags.hasPayload = true := by
      rw [hflags, firstFlags]
      exact decide_eq_true (List.length_pos_of_ne_nil hnil)
    obtain ⟨hldr, hfit⟩ := h.loader t w ht hnil
    obtain ⟨l, hsave, hstored⟩ := saveMessages_fit cfg' (bufReset ((L t).get w)).2 (m :: ms) (by
      rw [BufLoader.room, bufReset_written, Nat.sub_zero, hpayload]
      exact hfit)
    rw [bufReset_stored, List.nil_append, hpayload] at hstored
    obtain ⟨left, hlisten⟩ := protocolListen_series cfg' (L t) hopens hp hseries hldr tail
    rw [hsave, if_neg (not_not_intro rfl)] at hlisten
    rw [hcons]
    refine ⟨_, hlisten, rfl, _, rfl, ht, hflags, hrequest, fun _ => ?_, fun h => absurd h hnil⟩
    refine ⟨BufLoader.written_of_stored hstored, ?_⟩
    rw [bufferEvent, Lens.get_set]
    exact hstored

/-! ### Sessions -/

theorem sessionWire_ne_nil {send : (ℕ → BitVec 8) × TransmitEvent}
    {sends : List ((ℕ → BitVec 8) × TransmitEvent)} :
    (bytes (sessionWire cfg (send :: sends)) : Rx) ≠ [] := by
  obtain ⟨m, ms, hcons, -⟩ := segments_cons cfg send.1 send.2
  intro h
  have hlen := congrArg List.length h
  rw [sessionWire_cons, hcons, wires_cons, length_bytes, List.length_append, List.length_append,
    MessageHdr.length_encode, List.length_nil, messageHdrSize] at hlen
  omega

/-- Call after call takes event after event. The induction is on the events that are still on the
line; the loaders may be in any state at the next call. -/
theorem calls_sessionWire (cfg' : Config) {sends : List ((ℕ → BitVec 8) × TransmitEvent)}
    (h : ∀ send ∈ sends, Receivable L loaderCallback send.2) {calls : List (W × ListenResult W)}
    (hcalls : Calls cfg' loaderCallback (bytes (sessionWire cfg sends)) calls []) :
    List.Forall₂ (fun send => Arrives L cfg cfg' loaderCallback send.2) sends calls := by
  induction sends generalizing calls with
  | nil =>
    obtain rfl : calls = [] := Calls.bytes_nil cfg' hcalls
    exact .nil
  | cons send sends ih =>
    generalize hrx : (bytes (sessionWire cfg (send :: sends)) : Rx) = rx at hcalls
    cases hcalls with
    | nil => exact absurd hrx sessionWire_ne_nil
    | @cons _ _ w r calls hne hlisten hcalls =>
      obtain ⟨r', hr', hrest, harrives⟩ := protocolListen_segments L cfg cfg' send.1 w
        (h send List.mem_cons_self) (bytes (sessionWire cfg sends))
      have hr : r' = r := by
        rw [← bytes_append, ← sessionWire_cons, hrx, hlisten] at hr'
        exact (Option.some.inj hr').symm
      rw [hr] at hrest harrives
      rw [hrest] at hcalls
      exact .cons harrives (ih (fun send hs => h send (List.mem_cons_of_mem _ hs)) hcalls)

/-- The calls can be made, whatever states the loaders are in. -/
theorem exists_calls_sessionWire (cfg' : Config) {sends : List ((ℕ → BitVec 8) × TransmitEvent)}
    (h : ∀ send ∈ sends, Receivable L loaderCallback send.2) {worlds : List W}
    (hworlds : worlds.length = sends.length) :
    ∃ calls, Calls cfg' loaderCallback (bytes (sessionWire cfg sends)) calls [] ∧
      calls.map Prod.fst = worlds := by
  induction sends generalizing worlds with
  | nil =>
    obtain rfl : worlds = [] := List.eq_nil_of_length_eq_zero hworlds
    exact ⟨[], .nil [], rfl⟩
  | cons send sends ih =>
    cases worlds with
    | nil => cases hworlds
    | cons w worlds =>
      obtain ⟨r, hr, hrest, -⟩ := protocolListen_segments L cfg cfg' send.1 w
        (h send List.mem_cons_self) (bytes (sessionWire cfg sends))
      obtain ⟨calls, hcalls, hmap⟩ := ih (fun send hs => h send (List.mem_cons_of_mem _ hs))
        (Nat.succ.inj hworlds)
      refine ⟨(w, r) :: calls, .cons sessionWire_ne_nil ?_ (hrest ▸ hcalls), by rw [List.map_cons, hmap]⟩
      rw [sessionWire_cons, bytes_append, hr]

end

/-- A response without payload. -/
def emptyEvent : TransmitEvent where
  messageType := 4
  flags := ⟨false, true, false, false, false, false, false, true, 0, 0⟩
  payload := []
  payload_length_lt := by decide

/-- A receiver with chunks of three bytes. -/
def narrowConfig : Config :=
  {smallConfig with messageRecvBufferSize := 3, messageRecvBufferSize_pos := by decide}

/-- An output of nine bytes between two responses without payload. -/
def threeEvents : List ((ℕ → BitVec 8) × TransmitEvent) :=
  [(fun _ => 0, emptyEvent), (fun _ => 7, outputEvent), (fun _ => 0, emptyEvent)]

end KenningRuntime
