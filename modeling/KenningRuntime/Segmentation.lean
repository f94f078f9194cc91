import KenningRuntime.RoundTrip
import KenningRuntime.Transmission

/-! How `protocol_transmit` (core/kenning_protocol.c) cuts the payload of an event into messages, and
what it writes before the first write that fails. -/
namespace KenningRuntime

section
variable (cfg : Config) (checksum : ℕ → BitVec 8) (event : TransmitEvent)

/-! ### The numbers have 32 bits -/

/-- `message_count`, an `unsigned int`. -/
def messageCount32 : ℕ :=
  if event.payload.length > 0
  then ((event.payload.length-1)/cfg.protocolMaxOutgoingMessageSize+1)%2^32 else 1

/-- The loop of `protocol_transmit` with `bytes_sent` as a `payload_size_t`. -/
def transmitLoop32 : ℕ → ℕ → ℕ → Tx → Status × Tx
  | 0, _, _, tx => (statusOk, tx)
  | left+1, i, bytesSent, tx =>
    let messagePayloadSize :=
      min ((event.payload.length+2^32-bytesSent)%2^32) cfg.protocolMaxOutgoingMessageSize
    match sendMessage (messageHdr cfg checksum event i messagePayloadSize)
        (event.payload.drop bytesSent) {tx with protocolBusy := true} with
    | (status, tx) =>
      -- The flag is reset before the status is looked at.
      let tx := {tx with protocolBusy := false}
      if status ≠ statusOk then (status, tx)
      else transmitLoop32 left (i+1) ((bytesSent+messagePayloadSize)%2^32) tx

def protocolTransmit32 (tx : Tx) : Status × Tx :=
  if tx.protocolBusy then (kenningProtocolStatusBusy, tx)
  else transmitLoop32 cfg checksum event (messageCount32 cfg event) 0 0 tx

variable {cfg checksum event}

theorem messageCount32_eq : messageCount32 cfg event = messageCount cfg event := by
  have hlt := event.payload_length_lt
  rw [messageCount32, messageCount]
  split
  · have hdiv := Nat.div_le_self (event.payload.length-1) cfg.protocolMaxOutgoingMessageSize
    exact Nat.mod_eq_of_lt (by omega)
  · rfl

/-- What is sent is never more than there is, so that nothing wraps. -/
theorem transmitLoop32_eq {left i bytesSent : ℕ} (h : bytesSent ≤ event.payload.length) (tx : Tx) :
    transmitLoop32 cfg checksum event left i bytesSent tx =
      transmitLoop cfg checksum event left i bytesSent tx := by
  have hlt := event.payload_length_lt
  induction left generalizing i bytesSent tx with
  | zero => rfl
  | succ left ih =>
    have hrest : (event.payload.length+2^32-bytesSent)%2^32 = event.payload.length-bytesSent := by
      rw [show event.payload.length+2^32-bytesSent = event.payload.length-bytesSent+2^32 by omega,
        Nat.add_mod_right]
      exact Nat.mod_eq_of_lt (by omega)
    have hsum : (bytesSent+min (event.payload.length-bytesSent) cfg.protocolMaxOutgoingMessageSize)%2^32 =
        bytesSent+min (event.payload.length-bytesSent) cfg.protocolMaxOutgoingMessageSize :=
      Nat.mod_eq_of_lt (by omega)
    rw [transmitLoop32, transmitLoop]
    simp only [hrest, hsum]
    split_ifs
    · rfl
    · exact ih (by omega) _

theorem protocolTransmit32_eq (tx : Tx) :
    protocolTransmit32 cfg checksum event tx = protocolTransmit cfg checksum event tx := by
  rw [protocolTransmit32, protocolTransmit, messageCount32_eq, transmitLoop32_eq (Nat.zero_le _)]

end

/-! ### Writes, one after the other -/

/-- The writes up to the first one that fails, with the status that the caller returns for it. -/
def writeAll : List (List UInt8) → Tx → Status × Tx
  | [], tx => (statusOk, tx)
  | data :: writes, tx =>
    match protocolWriteData data tx with
    | (status, tx) =>
      if checkProtocolStatus status ≠ statusOk then (checkProtocolStatus status, tx)
      else writeAll writes tx

/-- What `send_message` writes of a message. -/
def Message.writes (m : Message) : List (List UInt8) :=
  m.hdr.encode :: if m.hdr.flags.hasPayload then [m.payload] else []

section
variable {writes writes' : List (List UInt8)} {tx : Tx}

theorem writeAll_append :
    writeAll (writes ++ writes') tx =
      if (writeAll writes tx).1 ≠ statusOk then writeAll writes tx
      else writeAll writes' (writeAll writes tx).2 := by
  induction writes generalizing tx with
  | nil => rfl
  | cons data writes ih =>
    rw [List.cons_append, writeAll, writeAll]
    rcases protocolWriteData data tx with ⟨status, tx₁⟩
    simp only
    -- A write that fails ends both, so that only the case of one that succeeds goes on.
    by_cases hs : checkProtocolStatus status = statusOk
    · rw [if_neg (not_not.mpr hs), if_neg (not_not.mpr hs)]
      exact ih
    · rw [if_pos hs, if_pos hs, if_pos hs]

/-- The flag that a message is being sent does not matter to the writes. -/
theorem protocolWriteData_setBusy (data : List UInt8) (busy : Bool) :
    protocolWriteData data {tx with protocolBusy := busy} =
      ((protocolWriteData data tx).1, {(protocolWriteData data tx).2 with protocolBusy := busy}) := by
  obtain ⟨sent, protocolBusy, faults⟩ := tx
  cases faults with
  | nil => rfl
  | cons fault faults =>
    cases fault with
    | none => rfl
    | some fault => rfl

theorem writeAll_setBusy (busy : Bool) :
    writeAll writes {tx with protocolBusy := busy} =
      ((writeAll writes tx).1, {(writeAll writes tx).2 with protocolBusy := busy}) := by
  induction writes generalizing tx with
  | nil => rfl
  | cons data writes ih =>
    rw [writeAll, writeAll, protocolWriteData_setBusy]
    simp only
    split
    · rfl
    · exact ih

theorem writeAll_busy (writes : List (List UInt8)) (tx : Tx) :
    (writeAll writes tx).2.protocolBusy = tx.protocolBusy := by
  have h : writeAll writes tx = _ := writeAll_setBusy tx.protocolBusy
  exact congrArg (fun r => r.2.protocolBusy) h

theorem protocolWriteData_ok {data : List UInt8} (h : ∀ fault ∈ tx.faults.head?, fault = none) :
    protocolWriteData data tx = (statusOk, {tx with
      sent := tx.sent ++ data
      faults := tx.faults.tail }) := by
  obtain ⟨sent, protocolBusy, faults⟩ := tx
  cases faults with
  | nil => rfl
  | cons fault faults =>
    obtain rfl : fault = none := h fault rfl
    rfl

theorem protocolWriteData_error {data : List UInt8} {n : ℕ} {e : LowerError}
    {faults : List (Option (LowerError × ℕ))} (h : tx.faults = some (e, n) :: faults) :
    protocolWriteData data tx = (e.1, {tx with sent := tx.sent ++ data.take n, faults}) := by
  rw [protocolWriteData, h]

theorem writeAll_cons_ok {data : List UInt8} {tx' : Tx}
    (h : protocolWriteData data tx = (statusOk, tx')) :
    writeAll (data :: writes) tx = writeAll writes tx' := by
  rw [writeAll, h]
  exact if_neg (not_not.mpr checkProtocolStatus_ok)

/-- When no write fails, everything is written. -/
theorem writeAll_succeeds (h : ∀ fault ∈ tx.faults.take writes.length, fault = none) :
    writeAll writes tx = (statusOk, {tx with
      sent := tx.sent ++ writes.flatten
      faults := tx.faults.drop writes.length }) := by
  induction writes generalizing tx with
  | nil =>
    rw [writeAll, List.flatten_nil, List.append_nil]
    rfl
  | cons data writes ih =>
    have hfirst : ∀ fault ∈ tx.faults.head?, fault = none := by
      intro fault hf
      apply h
      rw [List.length_cons, List.mem_take_iff_getElem]
      obtain ⟨hpos, hget⟩ := List.getElem?_eq_some_iff.mp (List.head?_eq_getElem? ▸ hf)
      exact ⟨0, by omega, hget⟩
    have hrest : ∀ fault ∈ tx.faults.tail.take writes.length, fault = none := by
      intro fault hf
      apply h
      cases hfaults : tx.faults with
      | nil =>
        rw [hfaults, List.tail_nil, List.take_nil] at hf
        cases hf
      | cons fault' faults =>
        rw [hfaults, List.tail_cons] at hf
        exact List.mem_cons_of_mem _ hf
    rw [writeAll_cons_ok (protocolWriteData_ok hfirst), ih hrest, List.flatten_cons,
      List.append_assoc, List.drop_tail, List.length_cons]

/-- When write `k` fails after `n` bytes, that is all that is written. -/
theorem writeAll_fails {k n : ℕ} {e : LowerError} {faults : List (Option (LowerError × ℕ))}
    {data : List UInt8} (hk : writes[k]? = some data)
    (h : tx.faults = List.replicate k none ++ some (e, n) :: faults) :
    writeAll writes tx = (checkProtocolStatus e, {tx with
      sent := tx.sent ++ (writes.take k).flatten ++ data.take n
      faults }) := by
  -- The induction is on the writes before the one that fails.
  induction k generalizing writes tx with
  | zero =>
    cases writes with
    | nil => cases hk
    | cons data' writes =>
      obtain rfl : data' = data := Option.some.inj hk
      have hne : checkProtocolStatus e ≠ statusOk := fun heq => e.2 (checkProtocolStatus_eq_ok.mp heq)
      rw [List.replicate_zero, List.nil_append] at h
      rw [writeAll, protocolWriteData_error h, List.take_zero, List.flatten_nil, List.append_nil]
      exact if_pos hne
  | succ k ih =>
    cases writes with
    | nil => cases hk
    | cons data' writes =>
      rw [List.replicate_succ, List.cons_append] at h
      have hfirst : ∀ fault ∈ tx.faults.head?, fault = none := by
        rw [h]
        intro fault hf
        exact (Option.some.inj hf).symm
      have htail : tx.faults.tail = List.replicate k none ++ some (e, n) :: faults := by
        rw [h, List.tail_cons]
      rw [writeAll_cons_ok (protocolWriteData_ok hfirst), ih hk htail, List.take_succ_cons,
        List.flatten_cons, List.append_assoc tx.sent]

end

/-! ### The messages of an event -/

section
variable (cfg : Config) (checksum : ℕ → BitVec 8) (event : TransmitEvent)

/-- Message `i` of an event, which starts at byte `off` of the payload. -/
def segment (i off : ℕ) : Message where
  hdr := messageHdr cfg checksum event i
    ((event.payload.drop off).take cfg.protocolMaxOutgoingMessageSize).length
  payload := (event.payload.drop off).take cfg.protocolMaxOutgoingMessageSize
  payload_length := by
    have hlt := event.payload_length_lt
    have hlen := List.length_take_le' cfg.protocolMaxOutgoingMessageSize (event.payload.drop off)
    rw [List.length_drop] at hlen
    simp only [messageHdr, BitVec.toNat_ofNat, decide_eq_true_eq]
    split
    · exact (Nat.mod_eq_of_lt (by omega)).symm
    · omega

/-- The messages from message `i` on. -/
def segmentsFrom : ℕ → ℕ → ℕ → List Message
  | 0, _, _ => []
  | left+1, i, off =>
    segment cfg checksum event i off ::
      segmentsFrom left (i+1) (off+(segment cfg checksum event i off).payload.length)

def segments : List Message := segmentsFrom cfg checksum event (messageCount cfg event) 0 0

variable {cfg checksum event} {left i off : ℕ}

theorem segment_length (cfg : Config) (checksum : ℕ → BitVec 8) (event : TransmitEvent) (i off : ℕ) :
    (segment cfg checksum event i off).payload.length =
      min (event.payload.length-off) cfg.protocolMaxOutgoingMessageSize := by
  rw [segment, List.length_take, List.length_drop, min_comm]

/-- The header has the size of what the message takes from the payload. -/
theorem segment_take (hp : (segment cfg checksum event i off).hdr.flags.hasPayload = true) :
    (event.payload.drop off).take (segment cfg checksum event i off).hdr.payloadSize.toNat =
      (segment cfg checksum event i off).payload := by
  rw [← Message.payload_length_of_hasPayload hp]
  exact (List.prefix_iff_eq_take.mp (List.take_prefix _ _)).symm

theorem sendMessage_segment (cfg : Config) (checksum : ℕ → BitVec 8) (event : TransmitEvent) (i off : ℕ)
    (tx : Tx) :
    sendMessage (segment cfg checksum event i off).hdr (event.payload.drop off) tx =
      writeAll (segment cfg checksum event i off).writes tx := by
  rw [sendMessage, Message.writes, writeAll]
  rcases protocolWriteData (segment cfg checksum event i off).hdr.encode tx with ⟨status, tx₁⟩
  simp only
  split_ifs with hs hp
  · rfl
  · rw [segment_take hp, writeAll]
    rcases protocolWriteData (segment cfg checksum event i off).payload tx₁ with ⟨status', tx₂⟩
    simp only [writeAll]
    split_ifs with hs'
    · rfl
    · rw [not_not.mp hs']
  · rfl

/-- The loop makes the writes of the messages, one after the other. -/
theorem transmitLoop_eq_writeAll {tx : Tx} (hidle : tx.protocolBusy = false) :
    transmitLoop cfg checksum event left i off tx =
      writeAll ((segmentsFrom cfg checksum event left i off).flatMap Message.writes) tx := by
  induction left generalizing i off tx with
  | zero => rfl
  | succ left ih =>
    have hhdr : messageHdr cfg checksum event i
        (min (event.payload.length-off) cfg.protocolMaxOutgoingMessageSize) =
          (segment cfg checksum event i off).hdr := by
      rw [← segment_length cfg checksum event i off]
      rfl
    -- The writes of one message do not see the flag, which is set around them.
    have hbusy := writeAll_busy (segment cfg checksum event i off).writes tx
    rw [segmentsFrom, List.flatMap_cons, writeAll_append, transmitLoop, hhdr,
      ← segment_length cfg checksum event i off, sendMessage_segment, writeAll_setBusy]
    rcases hr : writeAll (segment cfg checksum event i off).writes tx with ⟨status, ⟨sent, busy, faults⟩⟩
    rw [hr] at hbusy
    obtain rfl : busy = false := hbusy.trans hidle
    simp only
    split_ifs
    · rfl
    · exact ih rfl

theorem length_segmentsFrom :
    (segmentsFrom cfg checksum event left i off).length = left := by
  induction left generalizing i off with
  | zero => rfl
  | succ left ih => rw [segmentsFrom, List.length_cons, ih]

theorem segmentsFrom_hdr {k : ℕ} {m : Message}
    (hm : (segmentsFrom cfg checksum event left i off)[k]? = some m) :
    m.hdr = messageHdr cfg checksum event (i+k) m.payload.length := by
  induction left generalizing i off k with
  | zero => cases hm
  | succ left ih =>
    rw [segmentsFrom] at hm
    cases k with
    | zero =>
      cases hm
      rfl
    | succ k =>
      rw [ih hm, Nat.add_right_comm, Nat.add_assoc]

theorem segmentsFrom_le {m : Message} (hm : m ∈ segmentsFrom cfg checksum event left i off) :
    m.payload.length ≤ cfg.protocolMaxOutgoingMessageSize ∧
      m.payload.length ≤ event.payload.length := by
  induction left generalizing i off with
  | zero => cases hm
  | succ left ih =>
    rw [segmentsFrom] at hm
    rcases List.mem_cons.mp hm with rfl | hm
    · rw [segment_length]
      omega
    · exact ih hm

/-- What there is from byte `off` on takes `left` messages. -/
structure Needs (cfg : Config) (event : TransmitEvent) (left off : ℕ) : Prop where
  lt : off < event.payload.length
  count : (event.payload.length-off-1)/cfg.protocolMaxOutgoingMessageSize+1 = left

/-- The last message takes all that is left; one that is not the last is full. -/
theorem Needs.cases (h : Needs cfg event (left+1) off) :
    (left = 0 ∧ event.payload.length-off ≤ cfg.protocolMaxOutgoingMessageSize) ∨
      (cfg.protocolMaxOutgoingMessageSize < event.payload.length-off ∧
        Needs cfg event left (off+cfg.protocolMaxOutgoingMessageSize)) := by
  have hM := cfg.protocolMaxOutgoingMessageSize_pos
  have hlt := h.lt
  have hcount := h.count
  by_cases hmore : cfg.protocolMaxOutgoingMessageSize ≤ event.payload.length-off-1
  · have hdiv := Nat.div_eq_sub_div hM hmore
    have hsub : event.payload.length-(off+cfg.protocolMaxOutgoingMessageSize)-1 =
        event.payload.length-off-1-cfg.protocolMaxOutgoingMessageSize := by omega
    refine Or.inr ⟨by omega, by omega, ?_⟩
    rw [hsub]
    omega
  · have hdiv := Nat.div_eq_of_lt (Nat.not_le.mp hmore)
    exact Or.inl ⟨by omega, by omega⟩

theorem segmentsFrom_payloads (h : Needs cfg event left off) :
    payloads (segmentsFrom cfg checksum event left i off) = event.payload.drop off ∧
      ∀ m ∈ segmentsFrom cfg checksum event left i off, 1 ≤ m.payload.length := by
  induction left generalizing i off with
  | zero => exact absurd h.count (Nat.succ_ne_zero _)
  | succ left ih =>
    have hM := cfg.protocolMaxOutgoingMessageSize_pos
    have hlt := h.lt
    have hlen := segment_length cfg checksum event i off
    have hpos : 1 ≤ (segment cfg checksum event i off).payload.length := by omega
    rw [segmentsFrom, payloads_cons]
    rcases h.cases with ⟨rfl, hfit⟩ | ⟨hmore, hneeds⟩
    · -- The last message takes the rest.
      have hall : (segment cfg checksum event i off).payload = event.payload.drop off :=
        List.take_of_length_le (by rw [List.length_drop]; exact hfit)
      rw [segmentsFrom, payloads_nil, List.append_nil]
      exact ⟨hall, List.forall_mem_singleton.mpr hpos⟩
    · have hfull : (segment cfg checksum event i off).payload.length =
          cfg.protocolMaxOutgoingMessageSize := by omega
      rw [hfull]
      obtain ⟨hpayloads, hrest⟩ := @ih (i+1) _ hneeds
      refine ⟨?_, List.forall_mem_cons.mpr ⟨hpos, hrest⟩⟩
      rw [hpayloads, ← List.drop_drop]
      exact List.take_append_drop _ _

/-- An event cut into messages: as few as possible, each with the header of the event but for the flags
that say where it stands. -/
structure Segmented (cfg : Config) (checksum : ℕ → BitVec 8) (event : TransmitEvent)
    (messages : List Message) : Prop where
  count : messages.length = max 1
    ((event.payload.length+cfg.protocolMaxOutgoingMessageSize-1)/cfg.protocolMaxOutgoingMessageSize)
  payload : payloads messages = event.payload
  le : ∀ m ∈ messages, m.payload.length ≤ cfg.protocolMaxOutgoingMessageSize
  pos : event.payload.length > 0 → ∀ m ∈ messages, 1 ≤ m.payload.length
  framed : ∀ m ∈ messages, m.WellFramed
  hdr : ∀ (i : ℕ) (m : Message), messages[i]? = some m → m.hdr = {
    messageType := event.messageType.setWidth 38
    flowControlFlags := flowControlTransmission
    checksum := checksum i
    flags := {event.flags with
      first := i = 0
      last := i+1 = messages.length
      hasPayload := event.payload.length > 0
      isHostMessage := false}
    payloadSize := BitVec.ofNat 32 m.payload.length }

/-- The field of the header has 38 bits, enough for the types of events that there are. -/
theorem Segmented.messageType {messages : List Message} (h : Segmented cfg checksum event messages)
    (hlt : event.messageType.toNat < 2^38) {m : Message} (hm : m ∈ messages) :
    m.hdr.messageType.toNat = event.messageType.toNat := by
  obtain ⟨i, hi⟩ := List.mem_iff_getElem?.mp hm
  rw [h.hdr i m hi, BitVec.toNat_setWidth]
  exact Nat.mod_eq_of_lt hlt

theorem messageCount_eq : messageCount cfg event = max 1
    ((event.payload.length+cfg.protocolMaxOutgoingMessageSize-1)/cfg.protocolMaxOutgoingMessageSize) := by
  have hM := cfg.protocolMaxOutgoingMessageSize_pos
  rw [messageCount]
  split
  · next hpos =>
    have hsum : event.payload.length+cfg.protocolMaxOutgoingMessageSize-1 =
        event.payload.length-1+cfg.protocolMaxOutgoingMessageSize := by omega
    rw [hsum, Nat.add_div_right _ hM]
    exact (max_eq_right (Nat.le_add_left 1 _)).symm
  · next hzero =>
    have hdiv : (event.payload.length+cfg.protocolMaxOutgoingMessageSize-1)/
        cfg.protocolMaxOutgoingMessageSize = 0 := Nat.div_eq_of_lt (by omega)
    rw [hdiv]
    rfl

theorem segments_segmented (cfg : Config) (checksum : ℕ → BitVec 8) (event : TransmitEvent) :
    Segmented cfg checksum event (segments cfg checksum event) := by
  have hlt := event.payload_length_lt
  have hlength : (segments cfg checksum event).length = messageCount cfg event := length_segmentsFrom
  have hhdr : ∀ i m, (segments cfg checksum event)[i]? = some m →
      m.hdr = messageHdr cfg checksum event i m.payload.length := by
    intro i m hm
    have h := segmentsFrom_hdr hm
    rwa [Nat.zero_add] at h
  have hneeds (hpos : event.payload.length > 0) : Needs cfg event (messageCount cfg event) 0 := by
    refine ⟨hpos, ?_⟩
    rw [messageCount, if_pos hpos, Nat.sub_zero]
  refine ⟨hlength.trans messageCount_eq, ?_, fun m hm => (segmentsFrom_le hm).1, ?_, ?_, ?_⟩
  · by_cases hpos : event.payload.length > 0
    · exact (segmentsFrom_payloads (hneeds hpos)).1
    · -- The one message of an event without payload has none.
      have hnil : event.payload = [] := List.eq_nil_of_length_eq_zero (by omega)
      have hfirst : (segment cfg checksum event 0 0).payload = [] := by
        apply List.eq_nil_of_length_eq_zero
        rw [segment_length]
        omega
      rw [segments, messageCount, if_neg hpos, segmentsFrom, segmentsFrom, payloads_cons, payloads_nil,
        hfirst, hnil, List.append_nil]
  · exact fun hpos => (segmentsFrom_payloads (hneeds hpos)).2
  · intro m hm
    obtain ⟨i, hi⟩ := List.mem_iff_getElem?.mp hm
    have hle := (segmentsFrom_le hm).2
    rw [Message.WellFramed, hhdr i m hi, messageHdr, BitVec.toNat_ofNat]
    exact Nat.mod_eq_of_lt (by omega)
  · -- The last message is the one whose number is one less than the count.
    intro i m hm
    have hne := messageCount_ne_zero cfg event
    have hlast : (i = messageCount cfg event-1) = (i+1 = messageCount cfg event) :=
      propext ⟨fun h => by omega, fun h => by omega⟩
    rw [hhdr i m hm, messageHdr, hlength]
    simp only [hlast]

end

theorem flatten_writes (messages : List Message) :
    (messages.flatMap Message.writes).flatten = wires messages := by
  induction messages with
  | nil => rfl
  | cons m messages ih =>
    rw [List.flatMap_cons, List.flatten_append, ih, wires_cons, Message.writes]
    split
    · simp only [List.flatten_cons, List.flatten_nil, List.append_nil, List.append_assoc]
    · next hp =>
      rw [Message.payload_of_not_hasPayload (Bool.eq_false_of_not_eq_true hp)]
      simp only [List.flatten_cons, List.flatten_nil, List.append_nil, List.nil_append]

theorem protocolTransmit32_eq_writeAll (cfg : Config) (checksum : ℕ → BitVec 8) (event : TransmitEvent)
    {tx : Tx} (hidle : tx.protocolBusy = false) :
    protocolTransmit32 cfg checksum event tx =
      writeAll ((segments cfg checksum event).flatMap Message.writes) tx := by
  have hidle' : ¬ tx.protocolBusy = true := by
    rw [hidle]
    exact Bool.false_ne_true
  rw [protocolTransmit32_eq, protocolTransmit, if_neg hidle', transmitLoop_eq_writeAll hidle, segments]

/-- An event goes out as the messages it is cut into, up to the first write that fails. -/
theorem protocolTransmit32_segments (cfg : Config) (checksum : ℕ → BitVec 8) (event : TransmitEvent) :
    ∃ messages, Segmented cfg checksum event messages ∧
      ∀ tx : Tx, tx.protocolBusy = false →
        ((∀ fault ∈ tx.faults.take (messages.flatMap Message.writes).length, fault = none) →
          protocolTransmit32 cfg checksum event tx = (statusOk, {
            sent := tx.sent ++ wires messages
            protocolBusy := false
            faults := tx.faults.drop (messages.flatMap Message.writes).length })) ∧
        ∀ (k n : ℕ) (e : LowerError) (faults : List (Option (LowerError × ℕ))) (data : List UInt8),
          (messages.flatMap Message.writes)[k]? = some data →
          tx.faults = List.replicate k none ++ some (e, n) :: faults →
          protocolTransmit32 cfg checksum event tx =
            (if e.1 = protocolStatusTimeout then kenningProtocolStatusTimeout
              else kenningProtocolStatusLowerLayerError, {
              sent := tx.sent ++ ((messages.flatMap Message.writes).take k).flatten ++ data.take n
              protocolBusy := false
              faults }) := by
  refine ⟨segments cfg checksum event, segments_segmented cfg checksum event, ?_⟩
  intro tx hidle
  have htransmit := protocolTransmit32_eq_writeAll cfg checksum event hidle
  constructor
  · intro hsucceed
    rw [htransmit, writeAll_succeeds hsucceed, flatten_writes, ← hidle]
  · intro k n e faults data hk hfaults
    rw [htransmit, writeAll_fails hk hfaults, ← hidle, checkProtocolStatus]
    simp only [e.2, ne_eq, not_false_eq_true, if_true]

theorem protocolTransmit32_nine :
    ∃ m m' m'', Segmented smallConfig (fun _ => 0) outputEvent [m, m', m''] ∧
      protocolTransmit32 smallConfig (fun _ => 0) outputEvent (idleTx []) =
        (statusOk, idleTx (wires [m, m', m''])) ∧
      protocolTransmit32 smallConfig (fun _ => 0) outputEvent
          ⟨[], false, [some (⟨protocolStatusTimeout, protocolTimeout_ne⟩, 3)]⟩ =
        (kenningProtocolStatusTimeout, idleTx (m.hdr.encode.take 3)) := by
  obtain ⟨messages, hsegmented, htransmit⟩ :=
    protocolTransmit32_segments smallConfig (fun _ => 0) outputEvent
  have hthree : messages.length = 3 := hsegmented.count
  obtain ⟨m, m', m'', rfl⟩ := List.length_eq_three.mp hthree
  refine ⟨m, m', m'', hsegmented, ?_, ?_⟩
  · exact ((htransmit (idleTx []) rfl).1 (by intro fault hf; cases hf)).trans rfl
  · exact ((htransmit ⟨[], false, _⟩ rfl).2 0 3 _ [] m.hdr.encode rfl rfl).trans rfl

end KenningRuntime
