import KenningRuntime.KenningProtocol
import KenningRuntime.Model

/-! The logging backend (core/logger.c): log messages are gathered in a buffer, as entries of a size
byte and the characters, and are sent to the client. -/
namespace KenningRuntime

/-- `MAX_SINGLE_MESSAGE_LENGTH`. -/
def maxSingleMessageLength : ℕ := 0xFF

/-- The data of the backend: the `S = CONFIG_KENNING_LOG_BUFFER_SIZE` bytes of `msg_buffer`, an array
in a 32-bit memory, the two counts, which are never negative, and the flag. -/
structure Logger (S : ℕ) where
  msgBuffer : Buffer S
  msgBufferLen : ℕ
  currMsgLen : ℕ
  sendingLogs : Bool
  size_lt : S < 2^31

theorem Buffer.length_set {n : ℕ} (buffer : Buffer n) (i : ℕ) (c : UInt8) :
    (buffer.bytes.set i c).length = n := by
  rw [List.length_set, buffer.length_eq]

/-- An assignment to one element; `none` if it is outside of the buffer. -/
def Buffer.assign {n : ℕ} (buffer : Buffer n) (i : ℕ) (c : UInt8) : Option (Buffer n) :=
  if i < n then some ⟨buffer.bytes.set i c, buffer.length_set i c⟩ else none

namespace Logger

variable {S : ℕ}

/-- The loop of `render_character` from character `i` on, with the number that it returns. -/
def renderLoop : List UInt8 → ℕ → Logger S → Option (ℕ × Logger S)
  | [], i, l => some (i, l)
  | c :: data, i, l =>
    -- Both `i` and `curr_msg_len` count the characters of this call, so the index is right for one
    -- character a call only.
    let index := i+l.currMsgLen+l.msgBufferLen+1
    if index ≥ S ∨ l.currMsgLen ≥ maxSingleMessageLength then some (i, l)
    else
      match l.msgBuffer.assign index c with
      | none => none
      | some msgBuffer => renderLoop data (i+1) {l with msgBuffer, currMsgLen := l.currMsgLen+1}

def renderCharacter (data : List UInt8) (l : Logger S) : Option (ℕ × Logger S) := renderLoop data 0 l

/-- `log_output_msg_process` in the immediate mode: the characters of the text one at a time, whatever
is returned for each. -/
def logOutputMsgProcess : List UInt8 → Logger S → Option (Logger S)
  | [], l => some l
  | c :: text, l =>
    match renderCharacter [c] l with
    | none => none
    | some (_, l) => logOutputMsgProcess text l

/-- The part of `process` that adds a message to the buffer. The size byte holds one less than the
count, which may be -1. -/
def addMessage (text : List UInt8) (l : Logger S) : Option (Logger S) :=
  match logOutputMsgProcess text {l with currMsgLen := 0} with
  | none => none
  | some l =>
    match l.msgBuffer.assign l.msgBufferLen (UInt8.ofNat (l.currMsgLen+255)) with
    | none => none
    | some msgBuffer => some {l with msgBuffer, msgBufferLen := l.msgBufferLen+l.currMsgLen}

theorem length_pending_lt (l : Logger S) : (l.msgBuffer.bytes.take l.msgBufferLen).length < 2^31 := by
  rw [List.length_take, l.msgBuffer.length_eq]
  exact (min_le_right _ _).trans_lt l.size_lt

/-- The event of `send_all_messages`. -/
def transmission (l : Logger S) : TransmitEvent where
  messageType := BitVec.ofNat 64 MessageType.logs.number
  flags := {Flags.ofRawBytes 0 with isZephyr := true}
  payload := l.msgBuffer.bytes.take l.msgBufferLen
  payload_length_lt := l.length_pending_lt

/-- `logger_start`. -/
def loggerStart (l : Logger S) : Logger S := {l with msgBufferLen := 0}

end Logger

section
variable {S : ℕ} {W : Type} (L : Lens W (Logger S))
  (protocolTransmit : TransmitEvent → W → Option (Status × W))

/-- `send_all_messages`; `none` if `protocol_transmit` does not return. -/
def sendAllMessages (w : W) : Option W :=
  match protocolTransmit (L.get w).transmission w with
  | none => none
  | some (status, w) =>
    if status = statusOk then some (L.set w {L.get w with msgBufferLen := 0}) else some w

/-- `process`; `none` if it writes outside of the buffer, or does not return. -/
def process (text : List UInt8) (w : W) : Option W :=
  if (L.get w).sendingLogs then some w
  else
    match Logger.addMessage text {L.get w with sendingLogs := true} with
    | none => none
    | some l =>
      match sendAllMessages L protocolTransmit (L.set w l) with
      | none => none
      | some w => some (L.set w {L.get w with sendingLogs := false})

end

end KenningRuntime
