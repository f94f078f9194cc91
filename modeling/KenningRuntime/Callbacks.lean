import KenningRuntime.KenningProtocol
import KenningRuntime.Model

/-! The callbacks (core/callbacks.c): what the server does for a message of each type. -/
namespace KenningRuntime

/-- What a build with `CONFIG_LLEXT` adds: the loader that `prepare_llext_loader` registers, and the
block of `runtime_callback` that deinitializes the runtime and loads the extension whose file has the
given size. -/
structure LlextSupport (S : Type) where
  loader : MsgLoader S
  loadRuntime : ℕ → S → Status × S

/-- What a build of the server is made of. -/
structure Build (S : Type) where
  runtime : RuntimeWrapper S
  llext : Option (LlextSupport S)

/-- The data of the server: the model layer, `g_client_connected` and the static buffer `resp_payload`
of `handle_protocol_event`. -/
structure Server (cfg : Config) (S : Type) where
  model : Model S
  clientConnected : Bool
  respPayload : Buffer cfg.responsePayloadSize

/-- What a callback leaves: its status, the size of the response payload in `resp_payload`, and the
server. -/
structure Answer (cfg : Config) (S : Type) where
  status : Status
  payloadSize : ℕ
  server : Server cfg S

section
variable {cfg : Config} {S : Type} (B : Build S) (request : ProtocolEvent) (server : Server cfg S)

/-- `VALIDATE_HEADER`, then the rest of the callback. -/
def validateHeader (messageType : MessageType) (request : ProtocolEvent) (server : Server cfg S)
    (callback : Option (Answer cfg S)) : Option (Answer cfg S) :=
  if messageType ≠ request.messageType then some ⟨callbacksStatusInvMsgType, 0, server⟩ else callback

def unsupportedCallback : Option (Answer cfg S) := some ⟨statusOk, 0, server⟩

/-- Connects a client, or disconnects it, or one after the other. -/
def pingCallback : Option (Answer cfg S) :=
  let connected := if request.flags.fail then false else server.clientConnected
  if request.flags.success then
    if connected then
      some ⟨Module.callbacks.statusError, 0, {server with clientConnected := connected}⟩
    else some ⟨statusOk, 0, {server with clientConnected := true}⟩
  else some ⟨statusOk, 0, {server with clientConnected := connected}⟩

def dataCallback : Option (Answer cfg S) :=
  validateHeader .data request server <|
    match server.model.modelLoadInputFromLoader B.runtime request.payloadSize with
    | none => none
    | some (status, model) => some ⟨status, 0, {server with model}⟩

def modelCallback : Option (Answer cfg S) :=
  validateHeader .model request server <|
    match server.model.modelLoadWeightsFromLoader B.runtime with
    | (status, model) => some ⟨status, 0, {server with model}⟩

def processCallback : Option (Answer cfg S) :=
  validateHeader .process request server <|
    match server.model.modelRunBench B.runtime with
    | (status, model) => some ⟨status, 0, {server with model}⟩

/-- The status of `model_get_output` is logged and dropped. -/
def outputCallback : Option (Answer cfg S) :=
  validateHeader .output request server <|
    match server.model.modelGetOutput B.runtime cfg.responsePayloadSize server.respPayload 0 with
    | none => none
    | some r => some ⟨statusOk, r.size, {server with model := r.model, respPayload := r.buffer}⟩

/-- The status of `model_get_statistics` is logged and dropped. -/
def statsCallback : Option (Answer cfg S) :=
  validateHeader .stats request server <|
    match server.model.modelGetStatistics B.runtime cfg.responsePayloadSize server.respPayload 0 with
    | r => some ⟨statusOk, r.size, {server with model := r.model, respPayload := r.buffer}⟩

def iospecCallback : Option (Answer cfg S) :=
  validateHeader .iospec request server <|
    match server.model.modelLoadStructFromLoader with
    | none => none
    | some (status, model) => some ⟨status, 0, {server with model}⟩

/-- Without `CONFIG_LLEXT` the message is not supported. -/
def runtimeCallback : Option (Answer cfg S) :=
  match B.llext with
  | none => unsupportedCallback server
  | some llext =>
    validateHeader .runtime request server <|
      match llext.loadRuntime request.payloadSize server.model.runtime with
      | (status, runtime) =>
        if status = statusOk then
          match ({server.model with runtime} : Model S).modelInit B.runtime with
          | (status, model) => some ⟨status, 0, {server with model}⟩
        else some ⟨status, 0, {server with model := {server.model with runtime}}⟩

/-- `CALLBACKS_TABLE`. -/
def msgCallback : MessageType → Option (Answer cfg S)
  | .ping => pingCallback request server
  | .data => dataCallback B request server
  | .model => modelCallback B request server
  | .process => processCallback B request server
  | .output => outputCallback B request server
  | .stats => statsCallback B request server
  | .iospec => iospecCallback request server
  | .runtime => runtimeCallback B request server
  | .status | .traceData | .optimizers | .optimizeModel | .unoptimizedModel | .logs =>
    unsupportedCallback server

end

end KenningRuntime
