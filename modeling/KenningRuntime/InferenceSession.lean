import KenningRuntime.Downlink
import KenningRuntime.ModelFrame

/-! What the server is for: a client loads a specification, a model and data, and gets the output that
the model computes. The client's view of a session, without loaders, buffers and messages. -/
namespace KenningRuntime
open ByteSource

/-- The models that a runtime can evaluate. The bytes of a model determine the sizes of its input and
its output, and the function from one to the other. `repeatable` says that an inference leaves the input
as it is. -/
structure Models where
  repeatable : Prop
  loadable : List UInt8 → Prop
  inputSize : List UInt8 → ℕ
  outputSize : List UInt8 → ℕ
  infer : List UInt8 → List UInt8 → List UInt8

/-- What a client asks a server for. -/
inductive Request where
  | connect
  | disconnect
  | loadSpec (spec : List UInt8)
  | loadModel (weights : List UInt8)
  | loadData (input : List UInt8)
  | process
  | output

/-- How far a session has come, with what the client sent on the way there. -/
inductive Stage where
  | initialized
  | structLoaded (spec : List UInt8)
  | weightsLoaded (spec weights : List UInt8)
  | inputLoaded (spec weights input : List UInt8)
  | inferenceDone (spec weights input : List UInt8)

structure Session where
  connected : Bool
  stage : Stage

/-- What a response says. -/
structure Reply where
  success : Bool
  payload : List UInt8

namespace Request

def messageType : Request → MessageType
  | connect | disconnect => .ping
  | loadSpec _ => .iospec
  | loadModel _ => .model
  | loadData _ => .data
  | process => .process
  | output => .output

/-- What has to be sent along. -/
def payload : Request → Option (List UInt8)
  | loadSpec data | loadModel data | loadData data => some data
  | connect | disconnect | process | output => none

/-- The flags that make a ping one of the two requests. -/
def Pings : Request → Flags → Prop
  | connect, flags => flags.success = true ∧ flags.fail = false
  | disconnect, flags => flags.success = false ∧ flags.fail = true
  | _, _ => True

end Request

namespace Stage

def modelState : Stage → ModelState
  | initialized => .initialized
  | structLoaded _ => .structLoaded
  | weightsLoaded _ _ => .weightsLoaded
  | inputLoaded _ _ _ => .inputLoaded
  | inferenceDone _ _ _ => .inferenceDone

def spec? : Stage → Option (List UInt8)
  | initialized => none
  | structLoaded spec | weightsLoaded spec _ | inputLoaded spec _ _ | inferenceDone spec _ _ => some spec

/-- The model in use. -/
def model? : Stage → Option (List UInt8 × List UInt8)
  | initialized | structLoaded _ => none
  | weightsLoaded spec weights | inputLoaded spec weights _ | inferenceDone spec weights _ =>
    some (spec, weights)

end Stage

namespace Session

variable (M : Models)

/-- A request is answered, and brings the session to the next stage if it comes in its place. -/
def next (session : Session) : Request → Session × Reply
  | .connect => ({session with connected := true}, ⟨!session.connected, []⟩)
  | .disconnect => ({session with connected := false}, ⟨true, []⟩)
  | .loadSpec spec => ({session with stage := .structLoaded spec}, ⟨true, []⟩)
  | .loadModel weights =>
    match session.stage.spec? with
    | none => (session, ⟨false, []⟩)
    | some spec => ({session with stage := .weightsLoaded spec weights}, ⟨true, []⟩)
  | .loadData input =>
    match session.stage.model? with
    | none => (session, ⟨false, []⟩)
    | some (spec, weights) => ({session with stage := .inputLoaded spec weights input}, ⟨true, []⟩)
  | .process =>
    match session.stage with
    | .inputLoaded spec weights input | .inferenceDone spec weights input =>
      ({session with stage := .inferenceDone spec weights input}, ⟨true, []⟩)
    | _ => (session, ⟨false, []⟩)
  | .output =>
    match session.stage with
    | .inferenceDone _ weights input => (session, ⟨true, M.infer weights input⟩)
    | _ => (session, ⟨true, []⟩)

/-- The specification describes the model, and the output fits into a response. -/
structure Describes (cfg : Config) (M : Models) (spec weights : List UInt8) : Prop where
  input : modelSize inputGeometry spec = some (M.inputSize weights)
  output : modelSize outputGeometry spec = some (M.outputSize weights)
  fits : M.outputSize weights ≤ cfg.responsePayloadSize

/-- What a client sends that knows its model: specifications that are valid, models that the
specification describes, inputs of the right size once there is a model, one inference for each input
unless it can be repeated, and no request for an output that is not there. -/
def Admits (cfg : Config) (session : Session) : Request → Prop
  | .loadSpec spec => spec.length = modelSpecSize ∧ SpecValid spec
  | .loadModel weights =>
    M.loadable weights ∧ ∀ spec ∈ session.stage.spec?, Describes cfg M spec weights
  | .loadData input => ∃ spec weights, session.stage.model? = some (spec, weights) ∧
      input.length = M.inputSize weights
  | .process => M.repeatable ∨ ∀ spec weights input, session.stage ≠ .inferenceDone spec weights input
  | .output => ∃ spec weights input, session.stage = .inferenceDone spec weights input
  | .connect | .disconnect => True

end Session

/-! ### Requests as messages -/

/-- The messages carry the request, in any cut of the payload, and ask for a response or not. -/
def Request.Carried (request : Request) (asked : Bool) : List Message → Prop
  | [] => False
  | m :: ms =>
    m.hdr.messageType? = some request.messageType ∧ m.hdr.flags.first = true ∧
      m.hdr.flowControlFlags = (if asked then flowControlRequest else flowControlTransmission) ∧
      request.Pings m.hdr.flags ∧
      match request.payload with
      | none => m.hdr.flags.hasPayload = false ∧ ms = []
      | some data => m.hdr.flags.hasPayload = true ∧ Series m ms ∧ payloads (m :: ms) = data

/-- A request as it is sent, with what is on the stack of the server when it responds. -/
structure Ask where
  request : Request
  asked : Bool
  messages : List Message
  checksum : ℕ → BitVec 8
  carried : request.Carried asked messages

/-- Every request is one that the client may send when it is its turn. -/
def Session.AdmitsAll (M : Models) (cfg : Config) : Session → List Ask → Prop
  | _, [] => True
  | session, ask :: asks =>
    session.Admits M cfg ask.request ∧ (session.next M ask.request).1.AdmitsAll M cfg asks

/-- The session after the requests. -/
def Session.after (M : Models) : Session → List Ask → Session
  | session, [] => session
  | session, ask :: asks => (session.next M ask.request).1.after M asks

/-- What is answered, one after the other: the type of the request, the reply, and the stack. -/
def Session.replies (M : Models) : Session → List Ask → List (MessageType × Reply × (ℕ → BitVec 8))
  | _, [] => []
  | session, ask :: asks =>
    (if ask.asked then [(ask.request.messageType, (session.next M ask.request).2, ask.checksum)] else []) ++
      (session.next M ask.request).1.replies M asks

/-- The response says what the reply says. -/
structure Reply.Sent (t : MessageType) (reply : Reply) (event : TransmitEvent) : Prop where
  messageType : event.messageType = BitVec.ofNat 64 t.number
  flags : event.flags = ⟨reply.success, !reply.success, false, false, false, false, false, true, 0, 0⟩
  payload : event.payload = reply.payload

/-! ### What a runtime has to do -/

/-- Bytes that are saved piece by piece, each of them with success. -/
def MsgLoader.saves {W : Type} (ldr : MsgLoader W) : W → List (List UInt8) → Option W
  | w, [] => some w
  | w, piece :: pieces =>
    match ldr.save w piece with
    | (status, w) => if status = statusOk then ldr.saves w pieces else none

/-- The loader takes the data from state `w` on, in whatever pieces they come, to a state with `P`. -/
def MsgLoader.Takes {W : Type} (ldr : MsgLoader W) (w : W) (data : List UInt8) (P : W → Prop) : Prop :=
  (ldr.reset w).1 = statusOk ∧
    ∀ pieces : List (List UInt8), pieces.flatten = data →
      ∃ w', ldr.saves (ldr.reset w).2 pieces = some w' ∧ P w'

/-- A runtime that evaluates models: what its functions do in each of the states that the model layer
calls them in. -/
structure Evaluates {S : Type} (R : RuntimeWrapper S) (M : Models) where
  Ready : S → Prop
  Loaded : List UInt8 → S → Prop
  Fed : List UInt8 → List UInt8 → S → Prop
  Done : List UInt8 → List UInt8 → S → Prop
  ready_of_loaded : ∀ weights s, Loaded weights s → Ready s
  loaded_of_fed : ∀ weights input s, Fed weights input s → Loaded weights s
  loaded_of_done : ∀ weights input s, Done weights input s → Loaded weights s
  /-- A model that is received is loaded by `runtime_init_weights`, if it is called. -/
  modelLoader : ∀ s, Ready s → ∃ ldr, R.modelLoader s = some ldr ∧
    ∀ weights, M.loadable weights → ldr.Takes s weights fun s =>
      Ready s ∧ ∃ s', R.runtimeInitWeights s = (statusOk, s') ∧ Loaded weights s'
  dataLoader : ∀ weights s, Loaded weights s → ∃ ldr, R.dataLoader s = some ldr ∧
    ∀ input, input.length = M.inputSize weights → ldr.Takes s input fun s =>
      ldr.written s%2^32 = input.length ∧
        ∃ s', R.runtimeInitInput s = (statusOk, s') ∧ Fed weights input s'
  runtimeRunModelBench : ∀ weights input s,
    Fed weights input s ∨ (M.repeatable ∧ Done weights input s) →
      ∃ s', R.runtimeRunModelBench s = (statusOk, s') ∧ Done weights input s'
  runtimeGetModelOutput : ∀ weights input s, Done weights input s →
    ∀ spec, modelSize outputGeometry spec = some (M.outputSize weights) →
    ∀ {n : ℕ} (buffer : Buffer n), M.outputSize weights ≤ n →
      ∃ buffer' s', R.runtimeGetModelOutput spec buffer s = (statusOk, buffer', s') ∧
        Done weights input s' ∧ buffer'.bytes.take (M.outputSize weights) = M.infer weights input

end KenningRuntime
