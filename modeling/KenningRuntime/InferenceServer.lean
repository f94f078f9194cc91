import KenningRuntime.Callbacks

/-! The server (core/inference_server.c): it receives an event with the loader of its message type,
lets the callback of the type handle it, and sends the response if one was asked for. -/
namespace KenningRuntime

/-- `LOADER_TYPES`. -/
inductive LoaderType where
  | none
  | data
  | model
  | iospec
  | runtime
deriving DecidableEq, Repr

/-- `PREPARE_MSG_LDR_MAP`. -/
def msgLdrMap : MessageType → LoaderType
  | .data => .data
  | .model => .model
  | .iospec => .iospec
  | .runtime => .runtime
  | .ping | .status | .process | .output | .stats | .traceData | .optimizers | .optimizeModel
  | .unoptimizedModel | .logs => .none

namespace Server

variable {cfg : Config} {S : Type}

/-- The IOSPEC loader and its memory, `g_model_spec`. -/
@[simps] def iospecLens : Lens (Server cfg S) (BufLoader modelSpecSize) where
  get server := server.model.iospec
  set server iospec := {server with model := {server.model with iospec}}
  get_set _ _ := rfl
  set_get _ := rfl
  set_set _ _ _ := rfl

def runtimeLens : Lens (Server cfg S) S where
  get server := server.model.runtime
  set server runtime := {server with model := {server.model with runtime}}
  get_set _ _ := rfl
  set_get _ := rfl
  set_set _ _ _ := rfl

end Server

section
variable {cfg : Config} {S : Type} (checksum : ℕ → BitVec 8) (B : Build S)

/-- `g_ldr_tables[0]`, which the core fills in. -/
def ldrTable0 (server : Server cfg S) : LoaderType → Option (MsgLoader (Server cfg S))
  | .iospec =>
    if server.model.iospecPrepared then
      some ((msgLoaderBuf modelSpecSize).lift Server.iospecLens)
    else none
  | .runtime => B.llext.map fun llext => llext.loader.lift Server.runtimeLens
  | _ => none

/-- `g_ldr_tables[1]`, which the runtime fills in. -/
def ldrTable1 (server : Server cfg S) : LoaderType → Option (MsgLoader (Server cfg S))
  | .data => (B.runtime.dataLoader server.model.runtime).map (MsgLoader.lift Server.runtimeLens)
  | .model => (B.runtime.modelLoader server.model.runtime).map (MsgLoader.lift Server.runtimeLens)
  | _ => none

/-- `loader_picker`: the later table counts. -/
def loaderPicker (server : Server cfg S) (messageType : MessageType) :
    Option (MsgLoader (Server cfg S)) :=
  (ldrTable1 B server (msgLdrMap messageType)).or (ldrTable0 B server (msgLdrMap messageType))

/-- `init_server`, after `protocol_init` returned a status. -/
def initServer (protocolInit : Status) (server : Server cfg S) : Status × Server cfg S :=
  if protocolInit ≠ statusOk then (protocolInit, server)
  else
    match B.llext with
    | some _ => (statusOk, server)
    | none =>
      match server.model.modelInit B.runtime with
      | (status, model) => (status, {server with model})

/-- The status of `wait_for_protocol_event` for an error of `protocol_listen`. -/
def waitStatus (status : Status) : Status :=
  if status = kenningProtocolStatusTimeout then Module.inferenceServer.statusTimeout
  else Module.inferenceServer.statusError

def waitForProtocolEvent (server : Server cfg S) (rx : Rx) :
    Option (ListenResult (Server cfg S)) :=
  match protocolListen cfg (loaderPicker B) server rx with
  | none => none
  | some ⟨.error status, server, rx⟩ => some ⟨.error (waitStatus status), server, rx⟩
  | some ⟨.ok event, server, rx⟩ => some ⟨.ok event, server, rx⟩

/-- `resp` of `handle_protocol_event`, when the callback left this answer. -/
def response (messageType : MessageType) (answer : Answer cfg S) : TransmitEvent where
  messageType := BitVec.ofNat 64 messageType.number
  flags := {
    success := answer.status = statusOk
    fail := answer.status ≠ statusOk
    isHostMessage := false
    hasPayload := false
    first := false
    last := false
    isKenning := false
    isZephyr := true
    reserved := 0
    specific := 0 }
  payload := answer.server.respPayload.bytes.take answer.payloadSize
  payload_length_lt := by
    rw [List.length_take, Buffer.length_eq]
    exact (min_le_right _ _).trans_lt cfg.responsePayloadSize_lt

/-- What `handle_protocol_event` leaves: its status, the events it called `protocol_transmit` with,
the server and the line. -/
structure Handled (cfg : Config) (S : Type) where
  status : Status
  transmitted : List TransmitEvent
  server : Server cfg S
  tx : Tx

/-- `handle_protocol_event`; `none` if the callback does not return or the response is larger than
`resp_payload`. -/
def handleProtocolEvent (event : ProtocolEvent) (server : Server cfg S) (tx : Tx) :
    Option (Handled cfg S) :=
  match msgCallback B event server event.messageType with
  | none => none
  | some answer =>
    -- What becomes of the callback is the status here only if no response is sent.
    if event.isRequest then
      if answer.payloadSize ≤ cfg.responsePayloadSize then
        match protocolTransmit cfg checksum (response event.messageType answer) tx with
        | (status, tx) => some ⟨status, [response event.messageType answer], answer.server, tx⟩
      else none
    else some ⟨answer.status, [], answer.server, tx⟩

/-- One round of the main loop. -/
def serve (server : Server cfg S) (rx : Rx) (tx : Tx) : Option (Server cfg S) :=
  match waitForProtocolEvent B server rx with
  | none => none
  | some ⟨.error _, server, _⟩ => some server
  | some ⟨.ok event, server, _⟩ => (handleProtocolEvent checksum B event server tx).map Handled.server

/-- One round of the main loop, as a step. -/
def serveRound (server : Server cfg S) (io : Rx × Tx) : Option (Server cfg S) :=
  serve checksum B server io.1 io.2

/-- Rounds with these inputs, on a line without faults. -/
def rounds (inputs : List (List UInt8)) : List (Rx × Tx) :=
  inputs.map fun input => (ByteSource.bytes input, ⟨[], false, []⟩)

/-- What happens to a server: it takes a round with the input and the line as they are then, or the
application calls the model layer. -/
inductive ServerStep where
  | serve (rx : Rx) (tx : Tx)
  | call (c : ModelCall)

def serverStep (server : Server cfg S) : ServerStep → Option (Server cfg S)
  | .serve rx tx => serveRound checksum B server (rx, tx)
  | .call c => (modelStep B.runtime server.model c).map fun model => {server with model}

/-- The server before `init_server`, over a runtime in the state `s`. -/
def bootServer (cfg : Config) (s : S) : Server cfg S where
  model := startedModel s
  clientConnected := false
  respPayload := {
    bytes := List.replicate cfg.responsePayloadSize 0
    length_eq := length_zeros cfg.responsePayloadSize }

end

/-- A build whose runtime does not fail. -/
def neverFails : Build ℕ := ⟨scriptRuntime fun _ => statusOk, none⟩

end KenningRuntime
