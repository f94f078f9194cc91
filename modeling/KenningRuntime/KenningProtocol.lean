import KenningRuntime.Library.ByteSource
import KenningRuntime.Loaders
import KenningRuntime.MessageHeader

/-! The Kenning protocol (core/kenning_protocol.c): events are received and sent as series of
messages, each a header and a payload. -/
namespace KenningRuntime
open ByteSource

/-- The `CONFIG_KENNING_*` sizes the core uses, and the value that a read of `written` through a
null loader pointer happens to give. The response buffer is an object in a 32-bit memory. -/
structure Config where
  messageRecvBufferSize : ℕ
  protocolMaxOutgoingMessageSize : ℕ
  responsePayloadSize : ℕ
  nullWritten : ℕ
  messageRecvBufferSize_pos : 0 < messageRecvBufferSize
  protocolMaxOutgoingMessageSize_pos : 0 < protocolMaxOutgoingMessageSize
  responsePayloadSize_lt : responsePayloadSize < 2^31

/-- `MESSAGE_TYPES`, without the count at its end. -/
inductive MessageType where
  | ping
  | status
  | data
  | model
  | process
  | output
  | stats
  | iospec
  | traceData
  | optimizers
  | optimizeModel
  | runtime
  | unoptimizedModel
  | logs
deriving DecidableEq, Repr

namespace MessageType

def number : MessageType → ℕ
  | ping => 0
  | status => 1
  | data => 2
  | model => 3
  | process => 4
  | output => 5
  | stats => 6
  | iospec => 7
  | traceData => 8
  | optimizers => 9
  | optimizeModel => 10
  | runtime => 11
  | unoptimizedModel => 12
  | logs => 13

/-- The type with a given number; there is none from `NUM_MESSAGE_TYPES` on. -/
def ofNumber? : ℕ → Option MessageType
  | 0 => ping
  | 1 => status
  | 2 => data
  | 3 => model
  | 4 => process
  | 5 => output
  | 6 => stats
  | 7 => iospec
  | 8 => traceData
  | 9 => optimizers
  | 10 => optimizeModel
  | 11 => runtime
  | 12 => unoptimizedModel
  | 13 => logs
  | _ => none

theorem number_lt (t : MessageType) : t.number < 14 := by cases t <;> decide

@[simp] theorem ofNumber?_number (t : MessageType) : ofNumber? t.number = some t := by
  cases t <;> rfl

theorem ofNumber?_eq_some {n : ℕ} {t : MessageType} : ofNumber? n = some t ↔ n = t.number := by
  refine ⟨fun h => ?_, fun h => h ▸ ofNumber?_number t⟩
  unfold ofNumber? at h
  split at h <;> first | cases h; rfl | cases h

end MessageType

/-! `FLOW_CONTROL_VALUES`. -/

def flowControlRequest : BitVec 2 := 0
def flowControlRequestRetransmit : BitVec 2 := 1
def flowControlAcknowledge : BitVec 2 := 2
def flowControlTransmission : BitVec 2 := 3

/-! ### The lower layer -/

/-- An error of the lower layer. -/
abbrev LowerError := {s : Status // s ≠ statusOk}

/-- What the lower layer will deliver: bytes, and failures of the read they fall into. -/
abbrev Rx := List (Item LowerError)

theorem protocolTimeout_ne : protocolStatusTimeout ≠ statusOk := status_ne_ok _ (by decide)

/-- `protocol_read_data`. With nothing left to deliver, a read times out. -/
def protocolReadData (n : ℕ) (rx : Rx) : Status × List UInt8 × Rx :=
  match read ⟨protocolStatusTimeout, protocolTimeout_ne⟩ n rx with
  | (none, data, rx) => (statusOk, data, rx)
  | (some e, data, rx) => (e, data, rx)

/-- `protocol_read_data` with a null buffer: the bytes, and a failure, are ignored. -/
def protocolSkipData (n : ℕ) (rx : Rx) : Rx := (protocolReadData n rx).2.2

/-- The status with which `CHECK_PROTOCOL_STATUS` returns, `statusOk` if it does not return. -/
def checkProtocolStatus (status : Status) : Status :=
  if status = protocolStatusTimeout then kenningProtocolStatusTimeout
  else if status ≠ statusOk then kenningProtocolStatusLowerLayerError
  else statusOk

/-! ### Receiving -/

def receiveMessageHeader (rx : Rx) : Except Status MessageHdr × Rx :=
  match protocolReadData messageHdrSize rx with
  | (status, data, rx) =>
    if checkProtocolStatus status ≠ statusOk then (.error (checkProtocolStatus status), rx)
    else (.ok (MessageHdr.decode data), rx)

section
variable (cfg : Config) {W : Type} (ldr : MsgLoader W)

/-- The loop of `receive_message_payload`, with the `status` of the round before. -/
def receivePayloadLoop : ℕ → ℕ → Status → W → Rx → Status × W × Rx
  | 0, _, status, w, rx => (status, w, rx)
  | fuel+1, n, status, w, rx =>
    if n = 0 then (status, w, rx)
    else
      let toRead := if cfg.messageRecvBufferSize > n then n else cfg.messageRecvBufferSize
      match protocolReadData toRead rx with
      | (status, data, rx) =>
        if checkProtocolStatus status ≠ statusOk then (checkProtocolStatus status, w, rx)
        else
          match ldr.save w data with
          | (saved, w) =>
            -- The next read overwrites this, so a refused chunk counts only if it is the last one.
            let status := if saved ≠ statusOk then kenningProtocolStatusMsgTooBig else status
            receivePayloadLoop fuel (n-toRead) status w rx

/-- Each round takes a byte at least, so `n` rounds are enough. -/
def receiveMessagePayload (n : ℕ) (w : W) (rx : Rx) : Status × W × Rx :=
  receivePayloadLoop cfg ldr n n statusOk w rx

/-- The loop of `receive_messages`, from the payload of a message on. A round ends with the header
of the next message and the checks of it. -/
def receiveMessagesLoop (messageType : BitVec 38) (flowControlFlags : BitVec 2) :
    ℕ → MessageHdr → W → Rx → Status × W × Rx
  | 0, _, w, rx => (kenningProtocolStatusTimeout, w, rx)
  | fuel+1, header, w, rx =>
    match (if header.flags.hasPayload
      then receiveMessagePayload cfg ldr header.payloadSize.toNat w rx
      else (statusOk, w, rx)) with
    | (status, w, rx) =>
      if status ≠ statusOk then (status, w, rx)
      else if header.flags.last then (status, w, rx)
      else
        match receiveMessageHeader rx with
        | (.error status, rx) => (status, w, rx)
        | (.ok header, rx) =>
          -- Of a message that does not belong here only its own payload is drained.
          if header.messageType ≠ messageType then
            (kenningProtocolStatusInvalidMessageType, w,
              protocolSkipData header.payloadSize.toNat rx)
          else if header.flowControlFlags ≠ flowControlFlags then
            (kenningProtocolStatusFlowControlError, w,
              protocolSkipData header.payloadSize.toNat rx)
          else receiveMessagesLoop messageType flowControlFlags fuel header w rx

/-- `receive_messages`. Each round but the last reads a header, so one round more than there are
bytes is enough. -/
def receiveMessages (header : MessageHdr) (w : W) (rx : Rx) : Status × W × Rx :=
  receiveMessagesLoop cfg ldr header.messageType header.flowControlFlags (rx.length+1) header w rx

end

/-- `protocol_event_t` as `protocol_listen` fills it in. The payload is in the loader. -/
structure ProtocolEvent where
  messageType : MessageType
  flags : Flags
  isRequest : Bool
  payloadSize : ℕ
deriving DecidableEq

/-- What one call of `protocol_listen` leaves: its status, or the event if it is `STATUS_OK` (on an
error the caller drops the event), the state of the loaders and the rest of the input. -/
structure ListenResult (W : Type) where
  event : Except Status ProtocolEvent
  world : W
  rx : Rx

def ListenResult.status {W : Type} (r : ListenResult W) : Status :=
  match r.event with
  | .error status => status
  | .ok _ => statusOk

/-- `ldr->written` through a pointer that may be null. -/
def loaderWritten (cfg : Config) {W : Type} (ldr : Option (MsgLoader W)) (w : W) : ℕ :=
  match ldr with
  | none => cfg.nullWritten
  | some ldr => ldr.written w

/-- `protocol_listen`; `none` if it calls `reset` through a null loader. -/
def protocolListen (cfg : Config) {W : Type} (loaderCallback : W → MessageType → Option (MsgLoader W))
    (w : W) (rx : Rx) : Option (ListenResult W) :=
  match receiveMessageHeader rx with
  | (.error status, rx) => some ⟨.error status, w, rx⟩
  | (.ok header, rx) =>
    if header.flowControlFlags ≠ flowControlTransmission ∧
        header.flowControlFlags ≠ flowControlRequest then
      some ⟨.error kenningProtocolStatusFlowControlError, w,
        protocolSkipData header.payloadSize.toNat rx⟩
    else if header.flags.first = false then
      some ⟨.error kenningProtocolStatusFlowControlError, w,
        protocolSkipData header.payloadSize.toNat rx⟩
    else
      match MessageType.ofNumber? header.messageType.toNat with
      | none => some ⟨.error kenningProtocolStatusInvalidMessageType, w,
          protocolSkipData header.payloadSize.toNat rx⟩
      | some messageType =>
        let ldr := loaderCallback w messageType
        let event (w : W) : ProtocolEvent := {
          messageType
          flags := header.flags
          isRequest := header.flowControlFlags = flowControlRequest
          payloadSize := loaderWritten cfg ldr w%2^32 }
        if header.flags.hasPayload then
          -- The pointer is not checked before the call.
          match ldr with
          | none => none
          | some ldr =>
            match ldr.reset w with
            | (loaderStatus, w) =>
              if loaderStatus ≠ statusOk then
                some ⟨.error loaderStatus, w, protocolSkipData header.payloadSize.toNat rx⟩
              else
                match receiveMessages cfg ldr header w rx with
                | (status, w, rx) =>
                  if status ≠ statusOk then some ⟨.error status, w, rx⟩
                  else some ⟨.ok (event w), w, rx⟩
        else some ⟨.ok (event w), w, rx⟩

/-! ### Sending -/

/-- What was put on the line, and whether a message is being sent (`protocol_busy`). `faults` says
of the writes to come, one after the other, whether each fails and after how many bytes; the writes
after the end of the list succeed. -/
structure Tx where
  sent : List UInt8
  protocolBusy : Bool
  faults : List (Option (LowerError × ℕ))

def protocolWriteData (data : List UInt8) (tx : Tx) : Status × Tx :=
  match tx.faults with
  | [] => (statusOk, {tx with sent := tx.sent ++ data})
  | none :: faults => (statusOk, {tx with sent := tx.sent ++ data, faults})
  | some (e, n) :: faults => (e, {tx with sent := tx.sent ++ data.take n, faults})

def sendMessage (hdr : MessageHdr) (payload : List UInt8) (tx : Tx) : Status × Tx :=
  match protocolWriteData hdr.encode tx with
  | (status, tx) =>
    if checkProtocolStatus status ≠ statusOk then (checkProtocolStatus status, tx)
    else if hdr.flags.hasPayload then
      match protocolWriteData (payload.take hdr.payloadSize.toNat) tx with
      | (status, tx) => (checkProtocolStatus status, tx)
    else (statusOk, tx)

/-- `protocol_event_t` as `protocol_transmit` reads it: the payload is a buffer. From 2 GiB on, the
message counter, an `int`, could overflow. -/
@[ext] structure TransmitEvent where
  messageType : BitVec 64
  flags : Flags
  payload : List UInt8
  payload_length_lt : payload.length < 2^31

section
variable (cfg : Config) (checksum : ℕ → BitVec 8) (event : TransmitEvent)

/-- The number of messages of an event: its payload size over the largest message, rounded up. -/
def messageCount : ℕ :=
  if event.payload.length > 0
  then (event.payload.length-1)/cfg.protocolMaxOutgoingMessageSize+1 else 1

/-- The header of message `i`. Its checksum is never written: it is what the stack holds. -/
def messageHdr (i messagePayloadSize : ℕ) : MessageHdr where
  messageType := event.messageType.setWidth 38
  flowControlFlags := flowControlTransmission
  checksum := checksum i
  flags := {event.flags with
    first := i = 0
    last := i = messageCount cfg event-1
    hasPayload := event.payload.length > 0
    isHostMessage := false}
  payloadSize := BitVec.ofNat 32 messagePayloadSize

/-- The loop of `protocol_transmit` at message `i`, with `left` messages to send. -/
def transmitLoop : ℕ → ℕ → ℕ → Tx → Status × Tx
  | 0, _, _, tx => (statusOk, tx)
  | left+1, i, bytesSent, tx =>
    let messagePayloadSize :=
      min (event.payload.length-bytesSent) cfg.protocolMaxOutgoingMessageSize
    match sendMessage (messageHdr cfg checksum event i messagePayloadSize)
        (event.payload.drop bytesSent) {tx with protocolBusy := true} with
    | (status, tx) =>
      let tx := {tx with protocolBusy := false}
      if status ≠ statusOk then (status, tx)
      else transmitLoop left (i+1) (bytesSent+messagePayloadSize) tx

def protocolTransmit (tx : Tx) : Status × Tx :=
  if tx.protocolBusy then (kenningProtocolStatusBusy, tx)
  else transmitLoop cfg checksum event (messageCount cfg event) 0 0 tx

end

end KenningRuntime
