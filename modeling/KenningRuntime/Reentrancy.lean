import KenningRuntime.Capacity
import KenningRuntime.Library.Transition
import KenningRuntime.LogStream
import KenningRuntime.Transmission

/-! The sender and the logging backend, which call each other: every log statement on the way of a
transmission calls `process`, and `process` transmits. -/
namespace KenningRuntime
open Transition

/-- The log statements of `protocol_transmit`, `send_message` (`CHECK_PROTOCOL_STATUS`) and
`protocol_write_data`. -/
inductive LogStatement where
  | transmissionAttempted
  | protocolError (status : Status)
  | writing (dataLength : ℕ)

/-- The state of the sender and of the backend, and the number of log statements that were met. -/
structure Line (S : ℕ) where
  tx : Tx
  uartInitialized : Bool
  logger : Logger S
  logs : ℕ

namespace Line

variable {S : ℕ}

def loggerLens : Lens (Line S) (Logger S) where
  get w := w.logger
  set w logger := {w with logger}
  get_set _ _ := rfl
  set_get _ := rfl
  set_set _ _ _ := rfl

/-! ### The functions, over a function that handles log messages

Each is `none` if a call of that function does not return. -/

section
variable (cfg : Config) (checksum : ℕ → BitVec 8) (text : ℕ → LogStatement → Option (List UInt8))
  (proc : List UInt8 → Line S → Option (Line S))

/-- A log statement. It is not enabled, or its text is handled at once. -/
def log (statement : LogStatement) (w : Line S) : Option (Line S) :=
  match text w.logs statement with
  | none => some {w with logs := w.logs+1}
  | some chars => proc chars {w with logs := w.logs+1}

/-- `protocol_write_data` (protocols/uart.c). The writes may fail like those of `Tx`. -/
def protocolWriteData (data : List UInt8) (w : Line S) : Option (Status × Line S) :=
  if w.uartInitialized = false then some (Module.protocol.statusUninit, w)
  else
    match log text proc (.writing data.length) w with
    | none => none
    | some w =>
      match KenningRuntime.protocolWriteData data w.tx with
      | (status, tx) => some (status, {w with tx})

/-- `CHECK_PROTOCOL_STATUS`: the status with which it returns, `statusOk` if it does not return. -/
def checkProtocolStatus (status : Status) (w : Line S) : Option (Status × Line S) :=
  if status = protocolStatusTimeout then some (kenningProtocolStatusTimeout, w)
  else if status ≠ statusOk then
    match log text proc (.protocolError status) w with
    | none => none
    | some w => some (kenningProtocolStatusLowerLayerError, w)
  else some (statusOk, w)

def sendMessage (hdr : MessageHdr) (payload : List UInt8) (w : Line S) : Option (Status × Line S) :=
  match protocolWriteData text proc hdr.encode w with
  | none => none
  | some (status, w) =>
    match checkProtocolStatus text proc status w with
    | none => none
    | some (status, w) =>
      if status ≠ statusOk then some (status, w)
      else if hdr.flags.hasPayload then
        match protocolWriteData text proc (payload.take hdr.payloadSize.toNat) w with
        | none => none
        | some (status, w) => checkProtocolStatus text proc status w
      else some (statusOk, w)

/-- The loop of `protocol_transmit` at message `i`, with `left` messages to send. -/
def transmitLoop (event : TransmitEvent) : ℕ → ℕ → ℕ → Line S → Option (Status × Line S)
  | 0, _, _, w => some (statusOk, w)
  | left+1, i, bytesSent, w =>
    let messagePayloadSize :=
      min (event.payload.length-bytesSent) cfg.protocolMaxOutgoingMessageSize
    match sendMessage text proc (messageHdr cfg checksum event i messagePayloadSize)
        (event.payload.drop bytesSent) {w with tx := {w.tx with protocolBusy := true}} with
    | none => none
    | some (status, w) =>
      let w : Line S := {w with tx := {w.tx with protocolBusy := false}}
      if status ≠ statusOk then some (status, w)
      else transmitLoop event left (i+1) (bytesSent+messagePayloadSize) w

def protocolTransmit (event : TransmitEvent) (w : Line S) : Option (Status × Line S) :=
  if w.tx.protocolBusy then
    match log text proc .transmissionAttempted w with
    | none => none
    | some w => some (kenningProtocolStatusBusy, w)
  else transmitLoop cfg checksum text proc event (messageCount cfg event) 0 0 w

end

section
variable (cfg : Config) (checksum : ℕ → BitVec 8) (text : ℕ → LogStatement → Option (List UInt8))

/-- `process`, with at most `fuel` calls of it inside of each other. -/
def processFuel : ℕ → List UInt8 → Line S → Option (Line S)
  | 0, _, _ => none
  | fuel+1, chars, w =>
    process loggerLens (protocolTransmit cfg checksum text (processFuel fuel)) chars w

end

/-! ### What log statements can do -/

section
variable (cfg : Config) (checksum : ℕ → BitVec 8) (text : ℕ → LogStatement → Option (List UInt8))

/-- What log statements keep, besides the line: unless `busy` is set, the whole backend. -/
structure Kept (busy : Bool) (w w' : Line S) : Prop where
  uartInitialized : w'.uartInitialized = w.uartInitialized
  sendingLogs : w'.logger.sendingLogs = w.logger.sendingLogs
  len_lt : w'.logger.msgBufferLen < S
  logger : busy = false → w'.logger = w.logger

theorem Kept.trans {busy : Bool} {w w' w'' : Line S} (h : Kept busy w w') (h' : Kept busy w' w'') :
    Kept busy w w'' :=
  ⟨h'.uartInitialized.trans h.uartInitialized, h'.sendingLogs.trans h.sendingLogs, h'.len_lt,
    fun hquiet => (h'.logger hquiet).trans (h.logger hquiet)⟩

/-- Logs are being sent, or (if `busy` is set) a message is. -/
def Guarded (busy : Bool) (w : Line S) : Prop :=
  w.logger.sendingLogs = true ∨ busy = true ∧ w.tx.protocolBusy = true

/-- Two functions that handle log messages do the same in guarded states, and leave the line alone. -/
def Agree (busy : Bool) (proc proc' : List UInt8 → Line S → Option (Line S)) : Prop :=
  ∀ chars w, w.logger.msgBufferLen < S → Guarded busy w →
    ∃ w', proc chars w = some w' ∧ proc' chars w = some w' ∧ w'.tx = w.tx ∧ Kept busy w w'

variable {busy : Bool} {proc proc' : List UInt8 → Line S → Option (Line S)} {w : Line S}

theorem log_agree (h : Agree busy proc proc') (statement : LogStatement)
    (hlen : w.logger.msgBufferLen < S) (hguard : Guarded busy w) :
    ∃ w', log text proc statement w = some w' ∧ log text proc' statement w = some w' ∧
      w'.tx = w.tx ∧ Kept busy w w' := by
  rw [log, log]
  -- The statement is disabled, or both functions handle its text.
  rcases text w.logs statement with _ | chars
  · exact ⟨_, rfl, rfl, rfl, rfl, rfl, hlen, fun _ => rfl⟩
  · obtain ⟨w', hw, hw', htx, hkept⟩ := h chars {w with logs := w.logs+1} hlen hguard
    exact ⟨w', hw, hw', htx, hkept.uartInitialized, hkept.sendingLogs, hkept.len_lt, hkept.logger⟩

theorem protocolWriteData_agree (h : Agree busy proc proc') (data : List UInt8)
    (hlen : w.logger.msgBufferLen < S) (hguard : Guarded busy w) :
    ∃ status w', protocolWriteData text proc data w = some (status, w') ∧
      protocolWriteData text proc' data w = some (status, w') ∧ Kept busy w w' ∧
      (status, w'.tx) = if w.uartInitialized then KenningRuntime.protocolWriteData data w.tx
        else (Module.protocol.statusUninit, w.tx) := by
  rw [protocolWriteData, protocolWriteData]
  cases hinit : w.uartInitialized with
  | false => exact ⟨_, _, rfl, rfl, ⟨rfl, rfl, hlen, fun _ => rfl⟩, rfl⟩
  | true =>
    obtain ⟨w', hw, hw', htx, hkept⟩ := log_agree text h (.writing data.length) hlen hguard
    simp only [Bool.true_eq_false, if_false, hw, hw', if_true, htx]
    exact ⟨_, _, rfl, rfl, ⟨hkept.uartInitialized, hkept.sendingLogs, hkept.len_lt, hkept.logger⟩, rfl⟩

theorem checkProtocolStatus_agree (h : Agree busy proc proc') (status : Status)
    (hlen : w.logger.msgBufferLen < S) (hguard : Guarded busy w) :
    ∃ w', checkProtocolStatus text proc status w =
        some (KenningRuntime.checkProtocolStatus status, w') ∧
      checkProtocolStatus text proc' status w =
        some (KenningRuntime.checkProtocolStatus status, w') ∧
      w'.tx = w.tx ∧ Kept busy w w' := by
  rw [checkProtocolStatus, checkProtocolStatus, KenningRuntime.checkProtocolStatus]
  split
  · exact ⟨w, rfl, rfl, rfl, rfl, rfl, hlen, fun _ => rfl⟩
  split
  · obtain ⟨w', hw, hw', htx, hkept⟩ := log_agree text h (.protocolError status) hlen hguard
    rw [hw, hw']
    exact ⟨w', rfl, rfl, htx, hkept⟩
  · exact ⟨w, rfl, rfl, rfl, rfl, rfl, hlen, fun _ => rfl⟩

theorem Guarded.kept {w' : Line S} (h : Guarded busy w) (hkept : Kept busy w w')
    (htx : w'.tx.protocolBusy = w.tx.protocolBusy) : Guarded busy w' := by
  rcases h with hsending | ⟨hb, hbusy⟩
  · exact Or.inl (hkept.sendingLogs.trans hsending)
  · exact Or.inr ⟨hb, htx.trans hbusy⟩

/-- What a line that is not initialized makes of a message. -/
def uninitialized (tx : Tx) : Status × Tx := (kenningProtocolStatusLowerLayerError, tx)

theorem sendMessage_agree (h : Agree busy proc proc') (hdr : MessageHdr) (payload : List UInt8)
    (hlen : w.logger.msgBufferLen < S) (hguard : Guarded busy w) :
    ∃ status w', sendMessage text proc hdr payload w = some (status, w') ∧
      sendMessage text proc' hdr payload w = some (status, w') ∧ Kept busy w w' ∧
      (status, w'.tx) = if w.uartInitialized then KenningRuntime.sendMessage hdr payload w.tx
        else uninitialized w.tx := by
  obtain ⟨st₁, w₁, hw₁, hw₁', hkept₁, hplain₁⟩ :=
    protocolWriteData_agree text h hdr.encode hlen hguard
  have hbusy₁ : w₁.tx.protocolBusy = w.tx.protocolBusy := by
    have htx := congrArg Prod.snd hplain₁
    rw [show w₁.tx = _ from htx]
    split
    · exact protocolWriteData_busy _ _
    · rfl
  obtain ⟨w₂, hw₂, hw₂', htx₂, hkept₂⟩ :=
    checkProtocolStatus_agree text h st₁ hkept₁.len_lt (hguard.kept hkept₁ hbusy₁)
  have hkept := hkept₁.trans hkept₂
  -- The header is written; what follows depends on its status.
  rw [sendMessage, sendMessage]
  simp only [hw₁, hw₁', hw₂, hw₂']
  cases hinit : w.uartInitialized with
  | false =>
    -- The first write fails.
    rw [hinit] at hplain₁
    obtain ⟨rfl, htx⟩ := Prod.mk.inj hplain₁
    refine ⟨_, w₂, if_pos ?_, if_pos ?_, hkept, ?_⟩
    · decide
    · decide
    · rw [htx₂, htx]
      rfl
  | true =>
    rw [hinit, if_pos rfl] at hplain₁
    simp only [KenningRuntime.sendMessage, if_true, ← hplain₁]
    by_cases hs : KenningRuntime.checkProtocolStatus st₁ = statusOk
    swap
    · simp only [hs, ne_eq, not_false_eq_true, if_true]
      exact ⟨_, w₂, rfl, rfl, hkept, by rw [htx₂]⟩
    simp only [hs, ne_eq, not_true_eq_false, if_false]
    cases hp : hdr.flags.hasPayload with
    | false => exact ⟨_, w₂, rfl, rfl, hkept, by rw [htx₂]; rfl⟩
    | true =>
      have hbusy₂ : w₂.tx.protocolBusy = w.tx.protocolBusy := by rw [htx₂, hbusy₁]
      obtain ⟨st₃, w₃, hw₃, hw₃', hkept₃, hplain₃⟩ := protocolWriteData_agree text h
        (payload.take hdr.payloadSize.toNat) hkept.len_lt (hguard.kept hkept hbusy₂)
      have hinit₂ : w₂.uartInitialized = true := hkept.uartInitialized.trans hinit
      rw [hinit₂, if_pos rfl, htx₂] at hplain₃
      have hbusy₃ : w₃.tx.protocolBusy = w.tx.protocolBusy := by
        rw [show w₃.tx = _ from congrArg Prod.snd hplain₃, protocolWriteData_busy, hbusy₁]
      obtain ⟨w₄, hw₄, hw₄', htx₄, hkept₄⟩ := checkProtocolStatus_agree text h st₃
        hkept₃.len_lt (hguard.kept (hkept.trans hkept₃) hbusy₃)
      simp only [if_true, hw₃, hw₃', hw₄, hw₄', ← hplain₃]
      exact ⟨_, w₄, rfl, rfl, (hkept.trans hkept₃).trans hkept₄, by rw [htx₄]⟩

/-- The loop of `protocol_transmit`. Each message is sent with the flag set, so no log statement on the
way gets to the line. -/
theorem transmitLoop_agree (h : Agree busy proc proc') (event : TransmitEvent)
    (left i bytesSent : ℕ) (hlen : w.logger.msgBufferLen < S)
    (hguard : w.logger.sendingLogs = true ∨ busy = true) :
    ∃ status w', transmitLoop cfg checksum text proc event left i bytesSent w = some (status, w') ∧
      transmitLoop cfg checksum text proc' event left i bytesSent w = some (status, w') ∧ Kept busy w w' ∧
      (status, w'.tx) =
        if w.uartInitialized then KenningRuntime.transmitLoop cfg checksum event left i bytesSent w.tx
        else if left = 0 then (statusOk, w.tx)
        else uninitialized {w.tx with protocolBusy := false} := by
  -- The induction is on the messages that are left; the flag is set and cleared for each of them.
  induction left generalizing i bytesSent w with
  | zero => exact ⟨statusOk, w, rfl, rfl, ⟨rfl, rfl, hlen, fun _ => rfl⟩, by split <;> rfl⟩
  | succ left ih =>
    let size := min (event.payload.length-bytesSent) cfg.protocolMaxOutgoingMessageSize
    have hset : Guarded busy {w with tx := {w.tx with protocolBusy := true}} :=
      hguard.imp_right fun hb => ⟨hb, rfl⟩
    obtain ⟨st, w₁, hw₁, hw₁', hkept₁, hplain₁⟩ := sendMessage_agree text
      (w := {w with tx := {w.tx with protocolBusy := true}}) h (messageHdr cfg checksum event i size)
      (event.payload.drop bytesSent) hlen hset
    simp only [size] at hw₁ hw₁' hplain₁
    let w₂ : Line S := {w₁ with tx := {w₁.tx with protocolBusy := false}}
    have hkept₂ : Kept busy w w₂ := 
      ⟨hkept₁.uartInitialized, hkept₁.sendingLogs, hkept₁.len_lt, hkept₁.logger⟩
    simp only [transmitLoop, hw₁, hw₁', KenningRuntime.transmitLoop]
    cases hinit : w.uartInitialized with
    | false =>
      have hinit' : ({w with tx := {w.tx with protocolBusy := true}} : Line S).uartInitialized =
        false := hinit
      rw [hinit'] at hplain₁
      obtain ⟨rfl, htx⟩ := Prod.mk.inj hplain₁
      have hne : kenningProtocolStatusLowerLayerError ≠ statusOk := lowerLayerError_ne
      refine ⟨_, w₂, if_pos hne, if_pos hne, hkept₂, ?_⟩
      simp only [w₂, htx, Bool.false_eq_true, if_false, Nat.succ_ne_zero]
      rfl
    | true =>
      have hinit' : ({w with tx := {w.tx with protocolBusy := true}} : Line S).uartInitialized =
        true := hinit
      rw [hinit', if_pos rfl] at hplain₁
      simp only [← hplain₁, if_true]
      by_cases hs : st = statusOk
      swap
      · simp only [hs, ne_eq, not_false_eq_true, if_true]
        exact ⟨st, w₂, rfl, rfl, hkept₂, rfl⟩
      simp only [hs, ne_eq, not_true_eq_false, if_false]
      obtain ⟨st', w₃, hw₃, hw₃', hkept₃, hplain₃⟩ := ih (w := w₂) (i+1) (bytesSent+size)
        hkept₂.len_lt (hguard.imp_left hkept₂.sendingLogs.trans)
      have hinit₂ : w₂.uartInitialized = true := hkept₂.uartInitialized.trans hinit
      rw [hinit₂, if_pos rfl] at hplain₃
      exact ⟨st', w₃, hw₃, hw₃', hkept₂.trans hkept₃, hplain₃⟩

/-- A transmission on an idle line is the plain one. -/
theorem protocolTransmit_idle (h : Agree busy proc proc') (event : TransmitEvent)
    (hlen : w.logger.msgBufferLen < S) (hidle : w.tx.protocolBusy = false)
    (hguard : w.logger.sendingLogs = true ∨ busy = true) :
    ∃ status w', protocolTransmit cfg checksum text proc event w = some (status, w') ∧
      protocolTransmit cfg checksum text proc' event w = some (status, w') ∧ Kept busy w w' ∧
      (status, w'.tx) =
        if w.uartInitialized then KenningRuntime.protocolTransmit cfg checksum event w.tx
        else uninitialized w.tx := by
  obtain ⟨status, w', hw, hw', hkept, hplain⟩ :=
    transmitLoop_agree cfg checksum text h event (messageCount cfg event) 0 0 hlen hguard
  have hidle' : ¬ w.tx.protocolBusy = true := by rw [hidle]; exact Bool.false_ne_true
  rw [protocolTransmit, protocolTransmit, if_neg hidle', if_neg hidle']
  refine ⟨status, w', hw, hw', hkept, ?_⟩
  have heta : ({w.tx with protocolBusy := false} : Tx) = w.tx := by rw [← hidle]
  rw [hplain, if_neg (messageCount_ne_zero cfg event), heta, KenningRuntime.protocolTransmit,
    if_neg hidle']

/-- A transmission while a message is being sent is refused. -/
theorem protocolTransmit_busy (h : Agree busy proc proc') (event : TransmitEvent)
    (hlen : w.logger.msgBufferLen < S) (hsending : w.tx.protocolBusy = true)
    (hguard : w.logger.sendingLogs = true ∨ busy = true) :
    ∃ w', protocolTransmit cfg checksum text proc event w = some (kenningProtocolStatusBusy, w') ∧
      protocolTransmit cfg checksum text proc' event w = some (kenningProtocolStatusBusy, w') ∧
      w'.tx = w.tx ∧ Kept busy w w' := by
  obtain ⟨w', hw, hw', htx, hkept⟩ := log_agree text h .transmissionAttempted hlen
    (hguard.imp_right fun hb => ⟨hb, hsending⟩)
  rw [protocolTransmit, protocolTransmit, if_pos hsending, if_pos hsending, hw, hw']
  exact ⟨w', rfl, rfl, htx, hkept⟩

theorem processFuel_quiet (fuel fuel' : ℕ) :
    Agree false (processFuel cfg checksum text (S := S) (fuel+1))
      (processFuel cfg checksum text (fuel'+1)) := by
  intro chars w hlen hguard
  have hsending : (loggerLens.get w).sendingLogs = true := by
    rcases hguard with hsending | ⟨hfalse, -⟩
    · exact hsending
    · cases hfalse
  rw [processFuel, processFuel, process, process, if_pos hsending, if_pos hsending]
  exact ⟨w, rfl, rfl, rfl, rfl, rfl, hlen, fun _ => rfl⟩

/-- While a message is being sent, a log message is added to the buffer and stays there. -/
theorem process_contained (h : Agree false proc proc') :
    Agree true (process loggerLens (protocolTransmit cfg checksum text proc))
      (process loggerLens (protocolTransmit cfg checksum text proc')) := by
  intro chars w hlen hguard
  cases hsending : w.logger.sendingLogs with
  | true =>
    have hget : (loggerLens.get w).sendingLogs = true := hsending
    rw [process, process, if_pos hget, if_pos hget]
    exact ⟨w, rfl, rfl, rfl, rfl, rfl, hlen, fun _ => rfl⟩
  | false =>
    have hbusy : w.tx.protocolBusy = true := by
      rcases hguard with hs | ⟨-, hbusy⟩
      · rw [hsending] at hs
        cases hs
      · exact hbusy
    obtain ⟨l, hadd, hadded⟩ := Logger.addMessage_added chars
      (l := {w.logger with sendingLogs := true}) hlen
    obtain ⟨w', hw, hw', htx, hkept⟩ := protocolTransmit_busy cfg checksum text
      (w := loggerLens.set w l) h l.transmission (hadded.len_lt hlen) hbusy (Or.inl hadded.sendingLogs)
    -- The transmission is refused, and its own log statement finds `sending_logs` set.
    have hne : kenningProtocolStatusBusy ≠ statusOk := status_ne_ok _ (by decide)
    have hget : loggerLens.get (loggerLens.set w l) = l := rfl
    have hlogger : loggerLens.get w = w.logger := rfl
    simp only [process, sendAllMessages, hlogger, hsending, Bool.false_eq_true, if_false, hadd, hget,
      hw, hw', hne]
    refine ⟨_, rfl, rfl, htx, hkept.uartInitialized, hsending.symm, hkept.len_lt, fun hb => ?_⟩
    cases hb

theorem processFuel_contained (fuel fuel' : ℕ) :
    Agree true (processFuel cfg checksum text (S := S) (fuel+2))
      (processFuel cfg checksum text (fuel'+2)) :=
  process_contained cfg checksum text (processFuel_quiet cfg checksum text fuel fuel')

end

end Line

namespace Line

section
variable {S : ℕ} (cfg : Config) (checksum : ℕ → BitVec 8)
  (text : ℕ → LogStatement → Option (List UInt8))

/-- The state between the outermost calls: both flags are false. -/
structure Idle (w : Line S) : Prop where
  protocolBusy : w.tx.protocolBusy = false
  sendingLogs : w.logger.sendingLogs = false
  len_lt : w.logger.msgBufferLen < S

/-- What a transmission does without log statements. On a line that is not initialized the first write
fails. -/
def plainTransmit (initialized : Bool) (event : TransmitEvent) (tx : Tx) : Status × Tx :=
  if initialized then KenningRuntime.protocolTransmit cfg checksum event tx else uninitialized tx

/-- What a transmission guarantees whatever the line was doing. More fuel does not change the result. -/
structure Transmits (event : TransmitEvent) (w : Line S) : Prop where
  idle : w.Idle → ∃ status w',
    (∀ fuel, protocolTransmit cfg checksum text (processFuel cfg checksum text (fuel+2)) event w =
      some (status, w')) ∧ w'.Idle ∧ Sends (eventWire cfg checksum event) w.tx status w'.tx ∧
      (status, w'.tx) = plainTransmit cfg checksum w.uartInitialized event w.tx
  busy : w.tx.protocolBusy = true → w.logger.msgBufferLen < S → ∃ w',
    (∀ fuel, protocolTransmit cfg checksum text (processFuel cfg checksum text (fuel+2)) event w =
      some (kenningProtocolStatusBusy, w')) ∧ w'.tx = w.tx

/-- What `process` guarantees in an idle state: the message is added, the pending ones are transmitted,
and the buffer is emptied if that succeeds, and kept otherwise. -/
def Processes (chars : List UInt8) (w : Line S) : Prop :=
  ∃ l status w', Logger.Added chars {w.logger with sendingLogs := true} l ∧
    (∀ fuel, processFuel cfg checksum text (fuel+2) chars w = some w') ∧ w'.Idle ∧
      Sends (eventWire cfg checksum l.transmission) w.tx status w'.tx ∧
      (status, w'.tx) = plainTransmit cfg checksum w.uartInitialized l.transmission w.tx ∧
      w'.logger = {l with
        sendingLogs := false
        msgBufferLen := if status = statusOk then 0 else l.msgBufferLen }

/-- The calls that are not made from inside of each other. -/
inductive OutermostCall where
  | protocolInit (deviceIsReady : Bool)
  | protocolTransmit (event : TransmitEvent)
  | process (chars : List UInt8)

/-- An outermost call, with at most `fuel` calls of `process` inside of each other. -/
def outermostStep (fuel : ℕ) (w : Line S) : OutermostCall → Option (Line S)
  | .protocolInit deviceIsReady =>
    some {w with uartInitialized := w.uartInitialized || deviceIsReady}
  | .protocolTransmit event =>
    (Line.protocolTransmit cfg checksum text (processFuel cfg checksum text fuel) event w).map Prod.snd
  | .process chars => processFuel cfg checksum text fuel chars w

variable {cfg checksum text} {proc proc' : List UInt8 → Line S → Option (Line S)} {w : Line S}

theorem sends_of_plain {event : TransmitEvent} {initialized : Bool} {tx : Tx} {status : Status}
    {tx' : Tx} (hidle : tx.protocolBusy = false)
    (h : (status, tx') = if initialized then KenningRuntime.protocolTransmit cfg checksum event tx
      else uninitialized tx) :
    Sends (eventWire cfg checksum event) tx status tx' ∧ tx'.protocolBusy = false := by
  cases initialized with
  | false =>
    obtain ⟨rfl, rfl⟩ := Prod.mk.inj h
    exact ⟨⟨[], (List.append_nil _).symm, List.nil_prefix, fun hs => absurd hs lowerLayerError_ne⟩,
      hidle⟩
  | true =>
    have hplain := protocolTransmit_sends cfg checksum event hidle
    rw [if_pos rfl] at h
    rw [← h] at hplain
    exact hplain

theorem transmits (event : TransmitEvent) (w : Line S) : Transmits cfg checksum text event w := by
  refine ⟨fun hw => ?_, fun hbusy hlen => ?_⟩
  -- In both cases any amount of fuel does what the least amount does.
  · have hall (fuel : ℕ) := protocolTransmit_idle cfg checksum text
      (processFuel_contained cfg checksum text 0 fuel) event hw.len_lt hw.protocolBusy (Or.inr rfl)
    obtain ⟨status, w', hw₀, -, hkept, hplain⟩ := hall 0
    obtain ⟨hsends, hbusy'⟩ := sends_of_plain hw.protocolBusy hplain
    refine ⟨status, w', fun fuel => ?_, ⟨hbusy', hkept.sendingLogs.trans hw.sendingLogs, hkept.len_lt⟩,
      hsends, hplain⟩
    obtain ⟨status', w'', hw₀', hfuel, -⟩ := hall fuel
    rw [hfuel, ← hw₀', hw₀]
  · have hall (fuel : ℕ) := protocolTransmit_busy cfg checksum text
      (processFuel_contained cfg checksum text 0 fuel) event hlen hbusy (Or.inr rfl)
    obtain ⟨w', hw₀, -, htx, -⟩ := hall 0
    refine ⟨w', fun fuel => ?_, htx⟩
    obtain ⟨w'', hw₀', hfuel, -⟩ := hall fuel
    rw [hfuel, ← hw₀', hw₀]

theorem process_idle (cfg : Config) (checksum : ℕ → BitVec 8)
    (text : ℕ → LogStatement → Option (List UInt8)) (h : Agree false proc proc') (chars : List UInt8)
    (hw : w.Idle) :
    ∃ l status w', Logger.Added chars {w.logger with sendingLogs := true} l ∧
      process loggerLens (protocolTransmit cfg checksum text proc) chars w = some w' ∧
      process loggerLens (protocolTransmit cfg checksum text proc') chars w = some w' ∧ w'.Idle ∧
      Sends (eventWire cfg checksum l.transmission) w.tx status w'.tx ∧
      (status, w'.tx) = plainTransmit cfg checksum w.uartInitialized l.transmission w.tx ∧
      w'.logger = {l with
        sendingLogs := false
        msgBufferLen := if status = statusOk then 0 else l.msgBufferLen } := by
  obtain ⟨l, hadd, hadded⟩ := Logger.addMessage_added chars
    (l := {w.logger with sendingLogs := true}) hw.len_lt
  have hlen := hadded.len_lt hw.len_lt
  obtain ⟨status, w₁, hw₁, hw₁', hkept, hplain⟩ := protocolTransmit_idle cfg checksum text
    (w := loggerLens.set w l) h l.transmission hlen hw.protocolBusy (Or.inl hadded.sendingLogs)
  have hidle : (loggerLens.set w l).tx.protocolBusy = false := hw.protocolBusy
  obtain ⟨hsends, hbusy⟩ := sends_of_plain hidle hplain
  have hlogger₁ : w₁.logger = l := hkept.logger rfl
  have hget : loggerLens.get (loggerLens.set w l) = l := rfl
  have hget₁ : loggerLens.get w₁ = w₁.logger := rfl
  have hlogger : loggerLens.get w = w.logger := rfl
  simp only [process, sendAllMessages, hlogger, hw.sendingLogs, Bool.false_eq_true, if_false, hadd, hget,
    hw₁, hw₁', hget₁, hlogger₁]
  -- The buffer is emptied if everything was sent, and kept otherwise.
  by_cases hs : status = statusOk
  · simp only [hs, if_true]
    exact ⟨l, status, _, hadded, rfl, rfl, ⟨hbusy, rfl, Nat.zero_lt_of_lt hlen⟩, hsends, hplain,
      by rw [if_pos hs]; rfl⟩
  · simp only [hs, if_false, hget₁, hlogger₁]
    exact ⟨l, status, _, hadded, rfl, rfl, ⟨hbusy, rfl, hlen⟩, hsends, hplain, by rw [if_neg hs]; rfl⟩

theorem processes (chars : List UInt8) (hw : w.Idle) : Processes cfg checksum text chars w := by
  have hall (fuel : ℕ) := process_idle cfg checksum text
    (processFuel_quiet cfg checksum text 0 fuel) chars hw
  obtain ⟨l, status, w', hadded, hw₀, -, hidle, hsends⟩ := hall 0
  refine ⟨l, status, w', hadded, fun fuel => ?_, hidle, hsends⟩
  obtain ⟨_, _, w'', -, hw₀', hfuel, -⟩ := hall fuel
  rw [processFuel, hfuel, ← hw₀', hw₀]

/-- Every outermost call returns, to an idle state. -/
theorem outermostStep_idle (hw : w.Idle) (fuel : ℕ) (call : OutermostCall) :
    ∃ w', outermostStep cfg checksum text (fuel+2) w call = some w' ∧ w'.Idle := by
  cases call with
  | protocolInit deviceIsReady => exact ⟨_, rfl, hw.protocolBusy, hw.sendingLogs, hw.len_lt⟩
  | protocolTransmit event =>
    obtain ⟨status, w', hall, hidle, -⟩ := (transmits event w).idle hw
    refine ⟨w', ?_, hidle⟩
    rw [outermostStep, hall fuel]
    rfl
  | process chars =>
    obtain ⟨_, _, w', -, hall, hidle, -⟩ := processes chars hw
    exact ⟨w', hall fuel, hidle⟩

theorem run_idle (hw : w.Idle) (fuel : ℕ) (calls : List OutermostCall) :
    ∃ w', Reaches (outermostStep cfg checksum text (fuel+2)) w calls w' ∧ w'.Idle := by
  induction calls generalizing w with
  | nil => exact ⟨w, .refl w, hw⟩
  | cons call calls ih =>
    obtain ⟨w₁, hs, hw₁⟩ := outermostStep_idle hw fuel call
    obtain ⟨w', hr, hw'⟩ := ih hw₁
    exact ⟨w', .next hs hr, hw'⟩

/-- The state before the first call: the flags are false, as they were initialized, and the buffer is
empty. -/
def start (tx : Tx) (l : Logger S) (uartInitialized : Bool) : Line S :=
  ⟨{tx with protocolBusy := false}, uartInitialized, {l.loggerStart with sendingLogs := false}, 0⟩

theorem start_idle (hS : 1 ≤ S) (tx : Tx) (l : Logger S) (uartInitialized : Bool) :
    (start tx l uartInitialized).Idle :=
  ⟨rfl, rfl, hS⟩

/-- For all texts of the log statements, all results of the writes and all sequences of outermost calls:
each call returns, with both flags false, and a transmission puts on the line only the messages of its
event, one after the other. One that is tried while a message is being sent, in whatever state that is,
puts nothing on the line. -/
theorem run_reentrant (hS : 1 ≤ S) (cfg : Config) (checksum : ℕ → BitVec 8)
    (text : ℕ → LogStatement → Option (List UInt8)) (tx : Tx) (l : Logger S) (uartInitialized : Bool)
    (fuel : ℕ) (calls : List OutermostCall) :
    ∃ w, Reaches (outermostStep cfg checksum text (fuel+2)) (start tx l uartInitialized) calls w ∧
      w.Idle ∧ (∀ chars, Processes cfg checksum text chars w) ∧
      ∀ event (v : Line S), Transmits cfg checksum text event v := by
  obtain ⟨w, hr, hw⟩ := run_idle (start_idle hS tx l uartInitialized) fuel calls
  exact ⟨w, hr, hw, fun chars => processes chars hw, transmits⟩

/-- A log message, with every log statement enabled and a second write that fails. -/
theorem run_reentrant_failing :
    ∃ w : Line 4, Reaches (outermostStep smallConfig (fun _ => 0) (fun _ _ => some [104, 10]) 2)
        (start ⟨[], false, [none, some (⟨protocolStatusTimeout, by decide⟩, 1)]⟩
          ⟨⟨[0, 0, 0, 0], rfl⟩, 0, 0, false, by decide⟩ true) [.process [105, 10]] w ∧
      w.Idle ∧ (∀ chars, Processes smallConfig (fun _ => 0) (fun _ _ => some [104, 10]) chars w) ∧
      ∀ event (v : Line 4), Transmits smallConfig (fun _ => 0) (fun _ _ => some [104, 10]) event v :=
  run_reentrant (by decide) smallConfig (fun _ => 0) (fun _ _ => some [104, 10])
    ⟨[], false, [none, some (⟨protocolStatusTimeout, by decide⟩, 1)]⟩
    ⟨⟨[0, 0, 0, 0], rfl⟩, 0, 0, false, by decide⟩ true 0 [.process [105, 10]]

end

end Line

end KenningRuntime
