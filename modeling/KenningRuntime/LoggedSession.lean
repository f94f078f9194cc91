import KenningRuntime.Downlink
import KenningRuntime.Reentrancy

/-! A session on a line on which the server responds and logs, as its client sees it: responses and log
entries arrive in the order of the calls, and no entry that found room is lost. -/
namespace KenningRuntime
open ByteSource SizedEntries Transition

namespace Line

/-! ### What the log statements of a transmission do -/

/-- The log statements that a transmission meets on a line without faults: one for each write; or, if the
line is not initialized, the one for the error of the first write. -/
def statements (cfg : Config) (checksum : ℕ → BitVec 8) (initialized : Bool) (event : TransmitEvent) :
    List LogStatement :=
  if initialized then
    ((segments cfg checksum event).flatMap Message.writes).map fun data => .writing data.length
  else [.protocolError Module.protocol.statusUninit]

section
variable {S : ℕ} {σ : Type} {text : ℕ → LogStatement → Option (List UInt8)}
  {proc : List UInt8 → Line S → Option (Line S)} {J : σ → Line S → Prop} {say : σ → LogStatement → σ}
  {a : σ} {w : Line S} {sent : List UInt8}

/-- While a message is being sent, a log statement returns and leaves the line alone, and `say` is what
it does to what `J` says of the rest. -/
structure Says (text : ℕ → LogStatement → Option (List UInt8))
    (proc : List UInt8 → Line S → Option (Line S)) (J : σ → Line S → Prop)
    (say : σ → LogStatement → σ) : Prop where
  statement : ∀ a w statement, J a w → w.tx.protocolBusy = true →
    ∃ w', Line.log text proc statement w = some w' ∧ w'.tx = w.tx ∧
      w'.uartInitialized = w.uartInitialized ∧ J (say a statement) w'
  rest : ∀ a w tx, J a w → J a {w with tx}

/-- A message is being sent on a line without faults. -/
structure Sending (J : σ → Line S → Prop) (sent : List UInt8) (a : σ) (w : Line S) : Prop where
  uartInitialized : w.uartInitialized = true
  tx : w.tx = ⟨sent, true, []⟩
  rest : J a w

theorem protocolWriteData_says (h : Says text proc J say) (hw : Sending J sent a w)
    (data : List UInt8) : ∃ w', protocolWriteData text proc data w = some (statusOk, w') ∧
      Sending J (sent ++ data) (say a (.writing data.length)) w' := by
  have hbusy : w.tx.protocolBusy = true := by rw [hw.tx]
  obtain ⟨w', hlog, htx, hinit, hrest⟩ := h.statement a w (.writing data.length) hw.rest hbusy
  have hwrite : KenningRuntime.protocolWriteData data w'.tx = (statusOk, ⟨sent ++ data, true, []⟩) := by
    rw [htx, hw.tx]
    rfl
  rw [protocolWriteData, hw.uartInitialized, if_neg Bool.true_eq_false_eq_False, hlog]
  simp only [hwrite]
  exact ⟨_, rfl, hinit.trans hw.uartInitialized, rfl, h.rest _ _ _ hrest⟩

theorem checkProtocolStatus_statusOk (w : Line S) :
    checkProtocolStatus text proc statusOk w = some (statusOk, w) := rfl

theorem sendMessage_says (h : Says text proc J say) (hw : Sending J sent a w) (m : Message)
    {payload : List UInt8}
    (hpayload : m.hdr.flags.hasPayload = true → payload.take m.hdr.payloadSize.toNat = m.payload) :
    ∃ w', sendMessage text proc m.hdr payload w = some (statusOk, w') ∧
      Sending J (sent ++ m.writes.flatten)
        ((m.writes.map fun data => .writing data.length).foldl say a) w' := by
  obtain ⟨w₁, hw₁, hsending₁⟩ := protocolWriteData_says h hw m.hdr.encode
  rw [sendMessage, hw₁]
  simp only [checkProtocolStatus_statusOk, ne_eq, not_true_eq_false, if_false]
  rw [Message.writes]
  -- The header is written; what is left is the payload, if there is one.
  by_cases hp : m.hdr.flags.hasPayload = true
  · obtain ⟨w₂, hw₂, hsending₂⟩ := protocolWriteData_says h hsending₁ m.payload
    simp only [hp, if_true, hpayload hp, hw₂, checkProtocolStatus_statusOk]
    refine ⟨w₂, rfl, ?_⟩
    rw [List.append_assoc] at hsending₂
    simp only [List.flatten_cons, List.flatten_nil, List.append_nil]
    exact hsending₂
  · rw [if_neg hp, if_neg hp, List.flatten_singleton]
    exact ⟨w₁, rfl, hsending₁⟩

/-- The induction is on the messages that are left; the flag is set and cleared for each of them. -/
theorem transmitLoop_says (cfg : Config) (checksum : ℕ → BitVec 8) (h : Says text proc J say)
    (event : TransmitEvent) (left i off : ℕ) (hinit : w.uartInitialized = true)
    (htx : w.tx = idleTx sent) (hw : J a w) :
    ∃ w', transmitLoop cfg checksum text proc event left i off w = some (statusOk, w') ∧
      w'.uartInitialized = true ∧
      w'.tx = idleTx (sent ++ wires (segmentsFrom cfg checksum event left i off)) ∧
      J ((((segmentsFrom cfg checksum event left i off).flatMap Message.writes).map
        fun data => .writing data.length).foldl say a) w' := by
  induction left generalizing i off a w sent with
  | zero =>
    refine ⟨w, rfl, hinit, ?_, hw⟩
    rw [htx, segmentsFrom]
    exact congrArg idleTx (List.append_nil _).symm
  | succ left ih =>
    let m := segment cfg checksum event i off
    have hbusy : ({w.tx with protocolBusy := true} : Tx) = ⟨sent, true, []⟩ := by
      rw [htx]
      rfl
    have hset : Sending J sent a {w with tx := {w.tx with protocolBusy := true}} :=
      ⟨hinit, hbusy, h.rest _ _ _ hw⟩
    have htake : m.hdr.flags.hasPayload = true →
        (event.payload.drop off).take m.hdr.payloadSize.toNat = m.payload := segment_take
    obtain ⟨w₁, hw₁, hsending⟩ := sendMessage_says h hset m htake
    have hhdr : messageHdr cfg checksum event i
        (min (event.payload.length-off) cfg.protocolMaxOutgoingMessageSize) = m.hdr := by
      rw [← segment_length cfg checksum event i off]
      rfl
    let w₂ : Line S := {w₁ with tx := {w₁.tx with protocolBusy := false}}
    have htx₂ : w₂.tx = idleTx (sent ++ m.writes.flatten) := by
      show ({w₁.tx with protocolBusy := false} : Tx) = _
      rw [hsending.tx]
      rfl
    obtain ⟨w', hw', hinit', htx', hrest⟩ := ih (w := w₂) (i+1) (off+m.payload.length)
      hsending.uartInitialized htx₂ (h.rest _ _ _ hsending.rest)
    rw [transmitLoop, hhdr, hw₁]
    simp only [ne_eq, not_true_eq_false, if_false]
    rw [← segment_length cfg checksum event i off]
    refine ⟨w', hw', hinit', ?_, ?_⟩
    · rw [htx', segmentsFrom, List.append_assoc, ← flatten_writes, ← flatten_writes,
        List.flatMap_cons, List.flatten_append]
    · rw [segmentsFrom, List.flatMap_cons, List.map_append, List.foldl_append]
      exact hrest

/-- A transmission on an idle line without faults is the plain one, and says what its log statements
say. -/
theorem protocolTransmit_says (cfg : Config) (checksum : ℕ → BitVec 8) (h : Says text proc J say)
    (event : TransmitEvent) (htx : w.tx = idleTx sent) (hw : J a w) :
    ∃ status w', protocolTransmit cfg checksum text proc event w = some (status, w') ∧
      w'.uartInitialized = w.uartInitialized ∧
      (status, w'.tx) = plainTransmit cfg checksum w.uartInitialized event (idleTx sent) ∧
      J ((statements cfg checksum w.uartInitialized event).foldl say a) w' := by
  have hidle : ¬ w.tx.protocolBusy = true := by
    rw [htx]
    exact Bool.false_ne_true
  rw [protocolTransmit, if_neg hidle]
  cases hinit : w.uartInitialized with
  | true =>
    obtain ⟨w', hw', hinit', htx', hrest⟩ :=
      transmitLoop_says cfg checksum h event (messageCount cfg event) 0 0 hinit htx hw
    refine ⟨statusOk, w', hw', hinit', ?_, hrest⟩
    rw [plainTransmit, if_pos rfl, KenningRuntime.protocolTransmit_idle, htx']
    rfl
  | false =>
    obtain ⟨left, hleft⟩ := Nat.exists_eq_succ_of_ne_zero (messageCount_ne_zero cfg event)
    let w₀ : Line S := {w with tx := {w.tx with protocolBusy := true}}
    -- The first write returns at once, and the error is logged.
    obtain ⟨w₁, hlog, htx₁, hinit₁, hrest⟩ := h.statement a w₀
      (.protocolError Module.protocol.statusUninit) (h.rest _ _ _ hw) rfl
    have hinit₀ : w₀.uartInitialized = false := hinit
    have hcheck : checkProtocolStatus text proc Module.protocol.statusUninit w₀ =
        some (kenningProtocolStatusLowerLayerError, w₁) := by
      rw [checkProtocolStatus, if_neg (by decide), if_pos (by decide), hlog]
    have hsend (hdr : MessageHdr) (payload : List UInt8) : sendMessage text proc hdr payload w₀ =
        some (kenningProtocolStatusLowerLayerError, w₁) := by
      rw [sendMessage, protocolWriteData, if_pos hinit₀]
      simp only [hcheck, ne_eq, lowerLayerError_ne, not_false_eq_true, if_true]
    rw [hleft, transmitLoop, hsend]
    simp only [ne_eq, lowerLayerError_ne, not_false_eq_true, if_true]
    refine ⟨_, _, rfl, hinit₁.trans hinit, ?_, h.rest _ _ _ hrest⟩
    rw [plainTransmit, htx₁]
    show (_, ({w.tx with protocolBusy := false} : Tx)) = _
    rw [htx]
    rfl

end

/-! ### What the client sees -/

/-- What decides what the calls put on the line: whether it is initialized, the entries that wait in the
buffer, and the number of log statements that were met. -/
structure View where
  uartInitialized : Bool
  pending : List (List UInt8)
  logs : ℕ

/-- An event that carries log entries, at most a buffer full of them. -/
structure Carries (S : ℕ) (entries : List (List UInt8)) (event : TransmitEvent) : Prop where
  messageType : event.messageType = BitVec.ofNat 64 MessageType.logs.number
  parse : parse event.payload = some entries
  length_lt : event.payload.length < S

/-- The entry of a text behind those that wait in a buffer of `S` bytes. -/
def nextEntry (S : ℕ) (pending : List (List UInt8)) (chars : List UInt8) : List (List UInt8) :=
  (Logger.entryOf chars (S-1-(encode pending).length)).toList

/-- What a log statement does while a response is being sent: the entry of its text waits behind the
others, if there is room. The transmission that is refused for it meets a log statement too, whose text
is dropped. -/
def View.say (S : ℕ) (text : ℕ → LogStatement → Option (List UInt8)) (v : View)
    (statement : LogStatement) : View :=
  match text v.logs statement with
  | none => {v with logs := v.logs+1}
  | some chars => {v with
      pending := v.pending ++ nextEntry S v.pending chars
      logs := v.logs+2 }

theorem View.say_initialized (S : ℕ) (text : ℕ → LogStatement → Option (List UInt8)) (v : View)
    (statement : LogStatement) : (v.say S text statement).uartInitialized = v.uartInitialized := by
  rw [say]
  split
  · rfl
  · rfl

theorem View.foldl_say_initialized {S : ℕ} {text : ℕ → LogStatement → Option (List UInt8)} {v : View}
    {statements : List LogStatement} :
    (statements.foldl (View.say S text) v).uartInitialized = v.uartInitialized := by
  induction statements generalizing v with
  | nil => rfl
  | cons statement statements ih => exact ih.trans (v.say_initialized S text statement)

section
variable (S : ℕ) (cfg : Config) (checksum : ℕ → BitVec 8)
  (text : ℕ → LogStatement → Option (List UInt8))

/-- What a call lets the client see. What is logged by the way of a response waits. -/
inductive Shows : View → OutermostCall → List TransmitEvent → View → Prop
  | protocolInit (v : View) (deviceIsReady : Bool) :
      Shows v (.protocolInit deviceIsReady) [] {v with
        uartInitialized := v.uartInitialized || deviceIsReady}
  | transmits (v : View) (event : TransmitEvent) :
      Shows v (.protocolTransmit event) (if v.uartInitialized then [event] else [])
        ((statements cfg checksum v.uartInitialized event).foldl (View.say S text) v)
  | reports {pending : List (List UInt8)} {logs : ℕ} {chars : List UInt8} {event : TransmitEvent} :
      Carries S (pending ++ nextEntry S pending chars) event →
        Shows ⟨true, pending, logs⟩ (.process chars) [event]
          ⟨true, [], logs+(statements cfg checksum true event).length⟩
  | waits (pending : List (List UInt8)) (logs : ℕ) (chars : List UInt8) :
      Shows ⟨false, pending, logs⟩ (.process chars) []
        ⟨false, pending ++ nextEntry S pending chars, logs+1⟩

end

section
variable {S : ℕ} {cfg : Config} {checksum : ℕ → BitVec 8}
  {text : ℕ → LogStatement → Option (List UInt8)} {w : Line S} {os : List TransmitEvent} {v : View}

/-- The state is as the view says, but for the line. -/
structure Waiting (v : View) (w : Line S) : Prop where
  uartInitialized : w.uartInitialized = v.uartInitialized
  sendingLogs : w.logger.sendingLogs = false
  len_lt : w.logger.msgBufferLen < S
  logs : w.logs = v.logs
  pending : w.logger.pending = encode v.pending
  short : ∀ e ∈ v.pending, e.length < 256

/-- The state after these events were put on the line, with what the client can expect of it. -/
structure Viewed (cfg : Config) (checksum : ℕ → BitVec 8) (os : List TransmitEvent) (w : Line S)
    (v : View) : Prop where
  tx : w.tx = idleTx (sessionWire cfg (os.map (checksum, ·)))
  waiting : Waiting v w

theorem sessionWire_snoc (event : TransmitEvent) :
    sessionWire cfg ((os ++ [event]).map (checksum, ·)) =
      sessionWire cfg (os.map (checksum, ·)) ++ wires (segments cfg checksum event) := by
  rw [List.map_append, sessionWire_append]
  exact congrArg (_ ++ ·) (List.append_nil _)

theorem length_pending {l : Logger S} (h : l.msgBufferLen < S) : l.pending.length = l.msgBufferLen := by
  have hsize : l.msgBuffer.bytes.length = S := l.msgBuffer.length_eq
  rw [Logger.pending, List.length_take]
  omega

theorem Waiting.nextEntry_eq (h : Waiting v w) (chars : List UInt8) :
    nextEntry S v.pending chars = (Logger.entryOf chars w.logger.room).toList := by
  have hlen := length_pending h.len_lt
  rw [h.pending] at hlen
  rw [nextEntry, hlen, Logger.room]

/-- The entry of a text that is added goes behind those that wait. -/
theorem Waiting.added (h : Waiting v w) {chars : List UInt8} {l : Logger S}
    (hadded : Logger.Added chars {w.logger with sendingLogs := true} l) :
    l.pending = encode (v.pending ++ nextEntry S v.pending chars) ∧
      ∀ e ∈ v.pending ++ nextEntry S v.pending chars, e.length < 256 := by
  have hroom := h.nextEntry_eq chars
  constructor
  · calc l.pending = w.logger.pending ++ encode (Logger.entryOf chars w.logger.room).toList :=
          hadded.pending
      _ = encode v.pending ++ encode (nextEntry S v.pending chars) := by rw [h.pending, hroom]
      _ = encode (v.pending ++ nextEntry S v.pending chars) := (encode_append _ _).symm
  · intro e he
    rcases List.mem_append.mp he with he | he
    · exact h.short e he
    · exact Logger.entryOf_length (Option.mem_toList.mp he)

/-- While logs are being sent, the text of a log statement is dropped. -/
theorem log_quiet (fuel : ℕ) (statement : LogStatement) (h : w.logger.sendingLogs = true) :
    log text (processFuel cfg checksum text (fuel+1)) statement w = some {w with logs := w.logs+1} := by
  rw [log]
  split
  · rfl
  · rw [processFuel, KenningRuntime.process]
    exact if_pos h

theorem processFuel_says_quiet (cfg : Config) (checksum : ℕ → BitVec 8)
    (text : ℕ → LogStatement → Option (List UInt8)) (fuel : ℕ) (l : Logger S) (hl : l.sendingLogs = true) :
    Says text (processFuel cfg checksum text (fuel+1)) (fun n w => w.logs = n ∧ w.logger = l)
      fun n _ => n+1 := by
  refine ⟨fun n w statement hw _ => ?_, fun _ _ _ hw => hw⟩
  obtain ⟨rfl, hlogger⟩ := hw
  exact ⟨_, log_quiet fuel statement (hlogger ▸ hl), rfl, rfl, rfl, hlogger⟩

/-- While a response is being sent, the message is added, and the transmission is refused. -/
theorem processFuel_busy (fuel : ℕ) (chars : List UInt8) (hlen : w.logger.msgBufferLen < S)
    (hsending : w.logger.sendingLogs = false) (hbusy : w.tx.protocolBusy = true) :
    ∃ l, Logger.Added chars {w.logger with sendingLogs := true} l ∧
      processFuel cfg checksum text (fuel+2) chars w =
        some {w with logger := {l with sendingLogs := false}, logs := w.logs+1} := by
  obtain ⟨l, hadd, hadded⟩ := Logger.addMessage_added chars
    (l := {w.logger with sendingLogs := true}) hlen
  refine ⟨l, hadded, ?_⟩
  have htransmit : protocolTransmit cfg checksum text (processFuel cfg checksum text (fuel+1))
      l.transmission (loggerLens.set w l) =
        some (kenningProtocolStatusBusy, {loggerLens.set w l with logs := w.logs+1}) := by
    have hset : (loggerLens.set w l).tx.protocolBusy = true := hbusy
    rw [protocolTransmit, if_pos hset, log_quiet fuel _ hadded.sendingLogs]
    rfl
  have hne : kenningProtocolStatusBusy ≠ statusOk := status_ne_ok _ (by decide)
  have hget : loggerLens.get (loggerLens.set w l) = l := rfl
  have hlogger : loggerLens.get w = w.logger := rfl
  rw [processFuel, KenningRuntime.process]
  simp only [sendAllMessages, hlogger, hsending, Bool.false_eq_true, if_false, hadd, hget, htransmit, hne]
  rfl

theorem processFuel_says_waiting (fuel : ℕ) :
    Says text (processFuel cfg checksum text (S := S) (fuel+2)) Waiting (View.say S text) := by
  refine ⟨fun v w statement hw hbusy => ?_, fun _ _ _ hw => ?_⟩
  · rw [View.say, log, hw.logs]
    rcases text v.logs statement with _ | chars
    · exact ⟨_, rfl, rfl, rfl, hw.uartInitialized, hw.sendingLogs, hw.len_lt, rfl, hw.pending, hw.short⟩
    · obtain ⟨l, hadded, hproc⟩ := processFuel_busy (w := {w with logs := v.logs+1}) fuel chars hw.len_lt
        hw.sendingLogs hbusy
      obtain ⟨hpending, hshort⟩ := hw.added hadded
      exact ⟨_, hproc, rfl, rfl, hw.uartInitialized, rfl, hadded.len_lt hw.len_lt, rfl, hpending, hshort⟩
  · exact ⟨hw.uartInitialized, hw.sendingLogs, hw.len_lt, hw.logs, hw.pending, hw.short⟩

/-- A response on an initialized line goes out whole; one on a line that is not leaves no trace but in
the buffer. -/
theorem Viewed.transmit (h : Viewed cfg checksum os w v) (fuel : ℕ) (event : TransmitEvent) :
    ∃ w' v' os', outermostStep cfg checksum text (fuel+2) w (.protocolTransmit event) = some w' ∧
      Shows S cfg checksum text v (.protocolTransmit event) os' v' ∧
      Viewed cfg checksum (os ++ os') w' v' := by
  obtain ⟨status, w', hw', -, hplain, hwaiting⟩ := protocolTransmit_says cfg checksum
    (processFuel_says_waiting fuel) event h.tx h.waiting
  rw [h.waiting.uartInitialized] at hplain hwaiting
  refine ⟨w', _, _, ?_, .transmits v event, ?_, hwaiting⟩
  · rw [outermostStep, hw', Option.map_some]
  · rw [plainTransmit] at hplain
    split at hplain
    · next hinit =>
      rw [KenningRuntime.protocolTransmit_idle, ← sessionWire_snoc] at hplain
      rw [if_pos hinit]
      exact (Prod.mk.inj hplain).2
    · next hinit =>
      rw [if_neg hinit, List.append_nil]
      exact (Prod.mk.inj hplain).2

/-- A log message on an initialized line takes all entries with it, those that waited first; on a line
that is not initialized it waits behind them. -/
theorem Viewed.process (h : Viewed cfg checksum os w v) (fuel : ℕ) (chars : List UInt8) :
    ∃ w' v' os', outermostStep cfg checksum text (fuel+2) w (.process chars) = some w' ∧
      Shows S cfg checksum text v (.process chars) os' v' ∧
      Viewed cfg checksum (os ++ os') w' v' := by
  have hw := h.waiting
  obtain ⟨l, hadd, hadded⟩ := Logger.addMessage_added chars
    (l := {w.logger with sendingLogs := true}) hw.len_lt
  have hlen := hadded.len_lt hw.len_lt
  obtain ⟨hpending, hshort⟩ := hw.added hadded
  -- While the entries are sent nothing is added to the buffer.
  obtain ⟨status, w₁, hw₁, hinit₁, hplain, hlogs, hlogger⟩ := protocolTransmit_says cfg checksum
    (w := loggerLens.set w l) (processFuel_says_quiet cfg checksum text fuel l hadded.sendingLogs)
    l.transmission h.tx ⟨rfl, rfl⟩
  have hline : (loggerLens.set w l).uartInitialized = v.uartInitialized := hw.uartInitialized
  have hcount : w₁.logs = v.logs+(statements cfg checksum v.uartInitialized l.transmission).length := by
    have hn : (loggerLens.set w l).logs = v.logs := hw.logs
    rw [hlogs, hline, hn, List.foldl_const]
    exact Nat.succ_iterate _ _
  rw [hline] at hinit₁ hplain
  have hget : loggerLens.get (loggerLens.set w l) = l := rfl
  have hget' : loggerLens.get w = w.logger := rfl
  have hget₁ : loggerLens.get w₁ = l := hlogger
  rw [outermostStep, processFuel]
  simp only [KenningRuntime.process, sendAllMessages, hget', hw.sendingLogs, Bool.false_eq_true, if_false,
    hadd, hget, hw₁]
  obtain ⟨initialized, pending, logs⟩ := v
  cases initialized with
  | false =>
    obtain ⟨rfl, htx⟩ := Prod.mk.inj hplain
    simp only [lowerLayerError_ne, if_false, hget₁]
    refine ⟨_, _, [], rfl, .waits pending logs chars, ?_, hinit₁, rfl, hlen, hcount, hpending, hshort⟩
    rw [List.append_nil]
    exact htx
  | true =>
    rw [plainTransmit, if_pos rfl, KenningRuntime.protocolTransmit_idle, ← sessionWire_snoc] at hplain
    obtain ⟨rfl, htx⟩ := Prod.mk.inj hplain
    simp only [if_true]
    have hcarries : Carries S (pending ++ nextEntry S pending chars) l.transmission := by
      have hpayload : l.transmission.payload = l.pending := rfl
      refine ⟨rfl, ?_, ?_⟩
      · rw [hpayload, hpending, parse_encode hshort]
      · rw [hpayload, length_pending hlen]
        exact hlen
    exact ⟨_, _, [l.transmission], rfl, .reports hcarries, htx, hinit₁, rfl, Nat.zero_lt_of_lt hlen, hcount,
      rfl, fun _ he => absurd he List.not_mem_nil⟩

theorem viewed_step (text : ℕ → LogStatement → Option (List UInt8)) (h : Viewed cfg checksum os w v)
    (fuel : ℕ) (call : OutermostCall) : ∃ w' v' os',
      outermostStep cfg checksum text (fuel+2) w call = some w' ∧
        Shows S cfg checksum text v call os' v' ∧ Viewed cfg checksum (os ++ os') w' v' := by
  cases call with
  | protocolInit deviceIsReady =>
    have hw := h.waiting
    refine ⟨_, _, [], rfl, .protocolInit v deviceIsReady, ?_,
      congrArg (· || deviceIsReady) hw.uartInitialized, hw.sendingLogs, hw.len_lt, hw.logs, hw.pending,
      hw.short⟩
    rw [List.append_nil]
    exact h.tx
  | protocolTransmit event => exact h.transmit fuel event
  | process chars => exact h.process fuel chars

theorem start_viewed (hS : 1 ≤ S) (l : Logger S) (uartInitialized : Bool) :
    Viewed cfg checksum [] (start (idleTx []) l uartInitialized) ⟨uartInitialized, [], 0⟩ :=
  ⟨rfl, rfl, rfl, hS, rfl, rfl, fun _ he => absurd he List.not_mem_nil⟩

end

section
variable {S : ℕ} {W : Type} {C : MessageType → ℕ} (L : ∀ t, Lens W (BufLoader (C t)))
  {loaderCallback : W → MessageType → Option (MsgLoader W)} {cfg : Config} {checksum : ℕ → BitVec 8}
  {text : ℕ → LogStatement → Option (List UInt8)}

/-- The events that a client sees can be received if the responses can, and the loader for logs takes a
full buffer. -/
theorem Shows.receivable {v v' : View} {call : OutermostCall} {os : List TransmitEvent}
    (h : Shows S cfg checksum text v call os v')
    (hlogs : ∀ w, loaderCallback w .logs = some ((msgLoaderBuf (C .logs)).lift (L .logs)))
    (hsize : S-1 ≤ C .logs)
    (hevent : ∀ event, call = .protocolTransmit event → Receivable L loaderCallback event) :
    ∀ event ∈ os, Receivable L loaderCallback event := by
  intro event hmem
  cases h with
  | protocolInit => exact absurd hmem List.not_mem_nil
  | transmits _ event' =>
    split at hmem
    · obtain rfl := List.mem_singleton.mp hmem
      exact hevent event rfl
    · exact absurd hmem List.not_mem_nil
  | waits => exact absurd hmem List.not_mem_nil
  | @reports pending logs chars event' hcarries =>
    obtain rfl := List.mem_singleton.mp hmem
    have hnumber : event.messageType.toNat = MessageType.logs.number := by
      rw [hcarries.messageType]
      decide
    refine ⟨by rw [hnumber]; decide, ?_⟩
    intro t w ht _
    have hsome := MessageType.ofNumber?_number t
    rw [ht, hnumber, MessageType.ofNumber?_number] at hsome
    obtain rfl := Option.some.inj hsome
    have hlt := hcarries.length_lt
    exact ⟨hlogs w, by omega⟩

/-- Of every run of the sender and the logging backend, from before the line is initialized, whatever the
log statements write: a client that listens takes all of the line, and is told of the responses and the
log entries in the order of the calls. What was to be sent before the line was initialized is missing,
but for the log entries, which wait in the buffer. -/
theorem logged_session (cfg cfg' : Config) (checksum : ℕ → BitVec 8)
    (text : ℕ → LogStatement → Option (List UInt8)) (hS : 1 ≤ S) (l : Logger S) (fuel : ℕ)
    (calls : List OutermostCall)
    (hlogs : ∀ w, loaderCallback w .logs = some ((msgLoaderBuf (C .logs)).lift (L .logs)))
    (hsize : S-1 ≤ C .logs)
    (hevents : ∀ event, .protocolTransmit event ∈ calls → Receivable L loaderCallback event) :
    ∃ w events v sent,
      Reaches (outermostStep cfg checksum text (fuel+2)) (start (idleTx []) l false) calls w ∧
      Emits (Shows S cfg checksum text) ⟨false, [], 0⟩ calls events v ∧ w.logger.pending = encode v.pending ∧
      w.tx = idleTx sent ∧
      (∀ worlds : List W, worlds.length = events.length →
        ∃ listens, Calls cfg' loaderCallback (bytes sent) listens [] ∧
          listens.map Prod.fst = worlds) ∧
      ∀ listens, Calls cfg' loaderCallback (bytes sent) listens [] →
        List.Forall₂ (Arrives L cfg cfg' loaderCallback) events listens := by
  obtain ⟨w, v, events, hreaches, hemits, hviewed⟩ :=
    exists_emits (R := Shows S cfg checksum text) (fun os w v call (h : Viewed cfg checksum os w v) =>
      viewed_step text h fuel call) (start_viewed hS l false) calls
  rw [List.nil_append] at hviewed
  -- Log events fit into the loader of the client because they fit into the buffer.
  have hreceivable : ∀ event ∈ events, Receivable L loaderCallback event := by
    refine hemits.forall_mem ?_
    intro v call os v' hcall hshows
    apply hshows.receivable L hlogs hsize
    rintro event rfl
    exact hevents event hcall
  have hsends : ∀ send ∈ events.map (checksum, ·), Receivable L loaderCallback send.2 := by
    intro send hsend
    obtain ⟨event, hevent, rfl⟩ := List.mem_map.mp hsend
    exact hreceivable event hevent
  refine ⟨w, events, v, _, hreaches, hemits, hviewed.waiting.pending, hviewed.tx, ?_, ?_⟩
  · intro worlds hworlds
    apply exists_calls_sessionWire L cfg' hsends
    rw [hworlds, List.length_map]
  · intro listens hlistens
    have hall := calls_sessionWire L cfg' hsends hlistens
    rwa [List.forall₂_map_left_iff] at hall

end

/-- A response and a log message before the line is initialized, and again after it, with every log
statement enabled. -/
def fiveCalls : List OutermostCall :=
  [.protocolTransmit emptyEvent, .process [105, 10], .protocolInit true, .protocolTransmit outputEvent,
    .process [106, 10]]

theorem logged_session_five :
    ∃ (w : Line 8) (events : List TransmitEvent) (v : View) (sent : List UInt8),
      Reaches (outermostStep smallConfig (fun _ => 0) (fun _ _ => some [104, 10]) 2)
        (start (idleTx []) ⟨⟨List.replicate 8 0, rfl⟩, 0, 0, false, by decide⟩ false) fiveCalls w ∧
      Emits (Shows 8 smallConfig (fun _ => 0) fun _ _ => some [104, 10]) ⟨false, [], 0⟩ fiveCalls events
        v ∧
      w.logger.pending = encode v.pending ∧
      w.tx = idleTx sent ∧
      (∀ worlds : List (BufLoader 16), worlds.length = events.length →
        ∃ listens, Calls narrowConfig (oneLoader 16) (bytes sent) listens [] ∧
          listens.map Prod.fst = worlds) ∧
      ∀ listens, Calls narrowConfig (oneLoader 16) (bytes sent) listens [] →
        List.Forall₂ (Arrives (fun _ => Lens.whole (BufLoader 16)) smallConfig narrowConfig (oneLoader 16))
          events listens := by
  apply logged_session (C := fun _ => 16) (fun _ => Lens.whole (BufLoader 16)) smallConfig narrowConfig
    (fun _ => 0) (fun _ _ => some [104, 10]) (by decide)
  · exact fun _ => rfl
  · decide
  · intro event hevent
    simp only [fiveCalls, List.mem_cons, OutermostCall.protocolTransmit.injEq, reduceCtorEq,
      List.not_mem_nil, or_false, false_or] at hevent
    rcases hevent with rfl | rfl
    · exact ⟨by decide, fun _ _ _ hne => absurd rfl hne⟩
    · exact ⟨by decide, fun _ _ _ _ => ⟨rfl, by decide⟩⟩

end Line

end KenningRuntime
