import KenningRuntime.InferenceSession
import KenningRuntime.Responses

/-! The server over a runtime that evaluates models: request after request, it does what the session
says. -/
namespace KenningRuntime
open ByteSource Transition Chunks

/-! ### Loaders that take all pieces -/

section
variable {W S : Type} {ldr : MsgLoader W} {w w' : W}

theorem saves_cons {piece : List UInt8} {pieces : List (List UInt8)}
    (h : ldr.saves w (piece :: pieces) = some w') :
    (ldr.save w piece).1 = statusOk ∧ ldr.saves (ldr.save w piece).2 pieces = some w' := by
  rw [MsgLoader.saves] at h
  split at h
  next status w'' hsave =>
  split at h
  · next hok =>
    rw [hsave]
    exact ⟨hok, h⟩
  · cases h

theorem saves_append {pieces pieces' : List (List UInt8)}
    (h : ldr.saves w (pieces ++ pieces') = some w') :
    ∃ w'', ldr.saves w pieces = some w'' ∧ ldr.saves w'' pieces' = some w' := by
  induction pieces generalizing w with
  | nil => exact ⟨w, rfl, h⟩
  | cons piece pieces ih =>
    obtain ⟨hok, hrest⟩ := saves_cons h
    obtain ⟨w'', hsaves, hleft⟩ := ih hrest
    refine ⟨w'', ?_, hleft⟩
    rw [MsgLoader.saves]
    simp only [hok, if_true]
    exact hsaves

theorem foldl_saveChunk_of_saves {pieces : List (List UInt8)} (h : ldr.saves w pieces = some w') :
    pieces.foldl (saveChunk ldr) (statusOk, w) = (statusOk, w') := by
  induction pieces generalizing w with
  | nil =>
    cases h
    rfl
  | cons piece pieces ih =>
    obtain ⟨hok, hrest⟩ := saves_cons h
    rw [List.foldl_cons, saveChunk, hok, if_neg (not_not_intro rfl)]
    exact ih hrest

/-- The pieces in which the payloads of messages come. -/
def piecesOf (cfg : Config) (ms : List Message) : List (List UInt8) :=
  ms.flatMap fun m => chunks cfg.messageRecvBufferSize m.payload

theorem flatten_piecesOf (cfg : Config) (ms : List Message) :
    (piecesOf cfg ms).flatten = payloads ms := by
  induction ms with
  | nil => rfl
  | cons m ms ih =>
    rw [piecesOf, List.flatMap_cons, List.flatten_append,
      flatten_chunks _ cfg.messageRecvBufferSize_pos, payloads_cons, ← ih, piecesOf]

theorem saveMessages_of_saves (cfg : Config) {ms : List Message}
    (h : ldr.saves w (piecesOf cfg ms) = some w') :
    saveMessages cfg ldr w ms = (statusOk, w') := by
  induction ms generalizing w with
  | nil =>
    cases h
    rfl
  | cons m ms ih =>
    rw [piecesOf, List.flatMap_cons] at h
    obtain ⟨w'', hfirst, hrest⟩ := saves_append h
    rw [saveMessages, savePayload, foldl_saveChunk_of_saves hfirst]
    exact ih hrest

/-- A complete series is received by a loader of a component that saves its pieces. -/
theorem protocolListen_saves (cfg : Config) (L : Lens W S) {ldr : MsgLoader S} {s : S}
    {loaderCallback : W → MessageType → Option (MsgLoader W)} {m : Message} {ms : List Message}
    {t : MessageType} (hopens : Opens m.hdr t) (hp : m.hdr.flags.hasPayload = true)
    (hseries : Series m ms) (hldr : loaderCallback w t = some (ldr.lift L))
    (hreset : (ldr.reset (L.get w)).1 = statusOk)
    (hsaves : ldr.saves (ldr.reset (L.get w)).2 (piecesOf cfg (m :: ms)) = some s) (tail : Rx) :
    protocolListen cfg loaderCallback w (bytes (wires (m :: ms)) ++ tail) =
      some ⟨.ok ⟨t, m.hdr.flags, m.hdr.isRequest, ldr.written s%2^32⟩, L.set w s, tail⟩ := by
  have hsave := saveMessages_of_saves cfg hsaves
  obtain ⟨left, hrec, hleft⟩ := receiveMessages_series cfg ldr hseries (ldr.reset (L.get w)).2 tail
  rw [hsave] at hrec hleft
  rw [hleft rfl, wires_nil, bytes_nil, List.nil_append] at hrec
  have hlift : receiveMessages cfg (ldr.lift L) m.hdr ((ldr.lift L).reset w).2
      (bytes (m.payload ++ wires ms) ++ tail) = (statusOk, L.set w s, tail) := by
    rw [receiveMessages_lift]
    simp only [MsgLoader.lift, Lens.get_set, Lens.set_set, hrec]
  have hok : ((ldr.lift L).reset w).1 = statusOk := hreset
  rw [wires_cons, bytes_append, List.append_assoc, protocolListen_payload cfg loaderCallback hopens hp
    hldr, hok, if_neg (not_not_intro rfl), hlift]
  simp only [eventOf, loaderWritten, MsgLoader.lift, Lens.get_set, ne_eq, not_true_eq_false, if_false]

/-- The same for a loader that takes the payload in any pieces. -/
theorem protocolListen_takes (cfg : Config) (L : Lens W S) {ldr : MsgLoader S} {P : S → Prop}
    {loaderCallback : W → MessageType → Option (MsgLoader W)} {m : Message} {ms : List Message}
    {t : MessageType} (hopens : Opens m.hdr t) (hp : m.hdr.flags.hasPayload = true)
    (hseries : Series m ms) (hldr : loaderCallback w t = some (ldr.lift L))
    (htakes : ldr.Takes (L.get w) (payloads (m :: ms)) P) :
    ∃ s, P s ∧ ∀ tail, protocolListen cfg loaderCallback w (bytes (wires (m :: ms)) ++ tail) =
      some ⟨.ok ⟨t, m.hdr.flags, m.hdr.isRequest, ldr.written s%2^32⟩, L.set w s, tail⟩ := by
  obtain ⟨hreset, htakes⟩ := htakes
  obtain ⟨s, hsaves, hP⟩ := htakes (piecesOf cfg (m :: ms)) (flatten_piecesOf cfg (m :: ms))
  exact ⟨s, hP, protocolListen_saves cfg L hopens hp hseries hldr hreset hsaves⟩

end

/-! ### One request -/

/-- The server, its input and its line. -/
structure Station (cfg : Config) (S : Type) where
  server : Server cfg S
  rx : Rx
  tx : Tx

section
variable {cfg : Config} {S : Type} (B : Build S) {M : Models}

/-- One round of the main loop (app/src/main.c), on the input and the line that the round before left. -/
def mainRound (station : Station cfg S) (checksum : ℕ → BitVec 8) : Option (Station cfg S) :=
  match waitForProtocolEvent B station.server station.rx with
  | none => none
  | some ⟨.error _, server, rx⟩ => some ⟨server, rx, station.tx⟩
  | some ⟨.ok event, server, rx⟩ =>
    match handleProtocolEvent checksum B event server station.tx with
    | none => none
    | some handled => some ⟨handled.server, rx, handled.tx⟩

/-- A round changes the server like the round that forgets what is left of the input. -/
theorem mainRound_serve (station : Station cfg S) (checksum : ℕ → BitVec 8) :
    (mainRound B station checksum).map Station.server =
      serve checksum B station.server station.rx station.tx := by
  rw [mainRound, serve]
  rcases waitForProtocolEvent B station.server station.rx with _ | ⟨_ | event, server, rx⟩
  · rfl
  · rfl
  · dsimp only
    rcases handleProtocolEvent checksum B event server station.tx with _ | handled
    · rfl
    · rfl

variable {B} (E : Evaluates B.runtime M)

/-- What holds of the runtime at each stage. -/
def Evaluates.At : Stage → S → Prop
  | .initialized | .structLoaded _ => E.Ready
  | .weightsLoaded _ weights => E.Loaded weights
  | .inputLoaded _ weights input => E.Fed weights input
  | .inferenceDone _ weights input => E.Done weights input

/-- The server is where the session is. -/
structure Serves (session : Session) (server : Server cfg S) : Prop where
  modelState : server.model.modelState = session.stage.modelState
  prepared : server.model.iospecPrepared = true
  connected : server.clientConnected = session.connected
  spec : ∀ spec ∈ session.stage.spec?, server.model.modelSpec = spec
  describes : ∀ model ∈ session.stage.model?, Session.Describes cfg M model.1 model.2
  runtime : E.At session.stage server.model.runtime

variable {E} {session : Session} {server : Server cfg S}

theorem Evaluates.at_ready {stage : Stage} {s : S} (h : E.At stage s) : E.Ready s := by
  cases stage with
  | initialized => exact h
  | structLoaded => exact h
  | weightsLoaded => exact E.ready_of_loaded _ _ h
  | inputLoaded => exact E.ready_of_loaded _ _ (E.loaded_of_fed _ _ _ h)
  | inferenceDone => exact E.ready_of_loaded _ _ (E.loaded_of_done _ _ _ h)

theorem Evaluates.at_loaded {stage : Stage} {s : S} (h : E.At stage s) {spec weights : List UInt8}
    (hm : stage.model? = some (spec, weights)) : E.Loaded weights s := by
  cases stage with
  | initialized => cases hm
  | structLoaded => cases hm
  | weightsLoaded =>
    cases hm
    exact h
  | inputLoaded =>
    cases hm
    exact E.loaded_of_fed _ _ _ h
  | inferenceDone =>
    cases hm
    exact E.loaded_of_done _ _ _ h

/-- What the server does with the messages of a request: it receives an event, whatever follows them,
and the callback leaves an answer that says what the reply says, and a server that is where the session
is. -/
def Answered (E : Evaluates B.runtime M) (session : Session) (server : Server cfg S)
    (request : Request) (asked : Bool) (messages : List Message) : Prop :=
  ∃ (event : ProtocolEvent) (received : Server cfg S) (answer : Answer cfg S),
    (∀ tail, protocolListen cfg (loaderPicker B) server (bytes (wires messages) ++ tail) =
      some ⟨.ok event, received, tail⟩) ∧
    event.messageType = request.messageType ∧ event.isRequest = asked ∧
    msgCallback B event received event.messageType = some answer ∧
    answer.payloadSize ≤ cfg.responsePayloadSize ∧
    decide (answer.status = statusOk) = (session.next M request).2.success ∧
    answer.server.respPayload.bytes.take answer.payloadSize = (session.next M request).2.payload ∧
    Serves E (session.next M request).1 answer.server

/-! ### The messages of a request -/

theorem Ask.exists_cons (ask : Ask) : ∃ m ms, ask.messages = m :: ms ∧
    ask.request.Carried ask.asked (m :: ms) := by
  have h := ask.carried
  cases hms : ask.messages with
  | nil =>
    rw [hms] at h
    exact absurd h id
  | cons m ms =>
    rw [hms] at h
    exact ⟨m, ms, rfl, h⟩

variable {request : Request} {asked : Bool} {m : Message} {ms : List Message}

theorem Request.Carried.opens (h : request.Carried asked (m :: ms)) :
    Opens m.hdr request.messageType := by
  obtain ⟨htype, hfirst, hflow, -⟩ := h
  refine ⟨?_, hfirst, htype⟩
  rw [hflow]
  cases asked
  · exact Or.inl rfl
  · exact Or.inr rfl

theorem Request.Carried.isRequest (h : request.Carried asked (m :: ms)) :
    m.hdr.isRequest = asked := by
  obtain ⟨-, -, hflow, -⟩ := h
  rw [MessageHdr.isRequest, hflow]
  cases asked <;> decide

theorem Request.Carried.pings (h : request.Carried asked (m :: ms)) : request.Pings m.hdr.flags :=
  h.2.2.2.1

/-- A request without payload leaves the server as it is. -/
theorem protocolListen_request (B : Build S) (server : Server cfg S)
    (h : request.Carried asked (m :: ms)) (hnone : request.payload = none) :
    ∃ event : ProtocolEvent,
      (∀ tail, protocolListen cfg (loaderPicker B) server (bytes (wires (m :: ms)) ++ tail) =
        some ⟨.ok event, server, tail⟩) ∧
      event.messageType = request.messageType ∧ event.isRequest = asked ∧ event.flags = m.hdr.flags := by
  have hopens := h.opens
  have hrequest := h.isRequest
  obtain ⟨-, -, -, -, hbody⟩ := h
  rw [hnone] at hbody
  obtain ⟨hp, rfl⟩ := hbody
  rw [wires_of_not_hasPayload hp]
  exact ⟨_, fun tail => protocolListen_empty cfg (loaderPicker B) hopens hp tail, rfl, hrequest, rfl⟩

theorem Request.Carried.payload_eq (h : request.Carried asked (m :: ms)) {data : List UInt8}
    (hdata : request.payload = some data) :
    m.hdr.flags.hasPayload = true ∧ Series m ms ∧ payloads (m :: ms) = data := by
  obtain ⟨-, -, -, -, hbody⟩ := h
  rwa [hdata] at hbody

/-! ### Request by request -/

/-- A client that is connected already is turned down, and stays connected. -/
theorem connect_answer (B : Build S) (server : Server cfg S)
    (hc : Request.Carried .connect asked (m :: ms)) :
    ∃ (event : ProtocolEvent) (status : Status),
      (∀ tail, protocolListen cfg (loaderPicker B) server (bytes (wires (m :: ms)) ++ tail) =
        some ⟨.ok event, server, tail⟩) ∧
      event.messageType = .ping ∧ event.isRequest = asked ∧
      msgCallback B event server event.messageType =
        some ⟨status, 0, {server with clientConnected := true}⟩ ∧
      decide (status = statusOk) = !server.clientConnected := by
  obtain ⟨event, hlisten, htype, hasked, hflags⟩ := protocolListen_request B server hc rfl
  obtain ⟨hsuccess, hfail⟩ : event.flags.success = true ∧ event.flags.fail = false := by
    rw [hflags]
    exact hc.pings
  have hcallback : msgCallback B event server event.messageType = pingCallback event server := by
    rw [htype]
    rfl
  rw [pingCallback, hsuccess, hfail] at hcallback
  simp only [Bool.false_eq_true, if_false, if_true] at hcallback
  cases hconnected : server.clientConnected with
  | true =>
    rw [hconnected, if_pos rfl] at hcallback
    have hne : Module.callbacks.statusError ≠ statusOk := status_ne_ok _ (by decide)
    exact ⟨event, _, hlisten, htype, hasked, hcallback, decide_eq_false hne⟩
  | false =>
    rw [hconnected, if_neg Bool.false_ne_true] at hcallback
    exact ⟨event, _, hlisten, htype, hasked, hcallback, rfl⟩

theorem disconnect_answer (B : Build S) (server : Server cfg S)
    (hc : Request.Carried .disconnect asked (m :: ms)) :
    ∃ event : ProtocolEvent,
      (∀ tail, protocolListen cfg (loaderPicker B) server (bytes (wires (m :: ms)) ++ tail) =
        some ⟨.ok event, server, tail⟩) ∧
      event.messageType = .ping ∧ event.isRequest = asked ∧
      msgCallback B event server event.messageType =
        some ⟨statusOk, 0, {server with clientConnected := false}⟩ := by
  obtain ⟨event, hlisten, htype, hasked, hflags⟩ := protocolListen_request B server hc rfl
  obtain ⟨hsuccess, hfail⟩ : event.flags.success = false ∧ event.flags.fail = true := by
    rw [hflags]
    exact hc.pings
  have hcallback : msgCallback B event server event.messageType = pingCallback event server := by
    rw [htype]
    rfl
  rw [pingCallback, hsuccess, hfail] at hcallback
  exact ⟨event, hlisten, htype, hasked, hcallback⟩

theorem answered_connect (h : Serves E session server)
    (hc : Request.Carried .connect asked (m :: ms)) :
    Answered E session server .connect asked (m :: ms) := by
  obtain ⟨event, status, hlisten, htype, hasked, hcallback, hstatus⟩ := connect_answer B server hc
  refine ⟨event, server, _, hlisten, htype, hasked, hcallback, Nat.zero_le _, ?_, rfl, ?_⟩
  · rw [Session.next, ← h.connected]
    exact hstatus
  · exact ⟨h.modelState, h.prepared, rfl, h.spec, h.describes, h.runtime⟩

theorem answered_disconnect (h : Serves E session server)
    (hc : Request.Carried .disconnect asked (m :: ms)) :
    Answered E session server .disconnect asked (m :: ms) := by
  obtain ⟨event, hlisten, htype, hasked, hcallback⟩ := disconnect_answer B server hc
  refine ⟨event, server, _, hlisten, htype, hasked, hcallback, Nat.zero_le _, rfl, rfl, ?_⟩
  exact ⟨h.modelState, h.prepared, rfl, h.spec, h.describes, h.runtime⟩

theorem Stage.initialized_le (stage : Stage) : ModelState.initialized ≤ stage.modelState := by
  rw [ModelState.le_iff]
  cases stage <;> simp only [Stage.modelState, ModelState.number] <;> omega

theorem answered_loadSpec {spec : List UInt8} (h : Serves E session server)
    (hc : Request.Carried (.loadSpec spec) asked (m :: ms)) (hlen : spec.length = modelSpecSize)
    (hvalid : SpecValid spec) :
    Answered E session server (.loadSpec spec) asked (m :: ms) := by
  obtain ⟨hp, hseries, hpayload⟩ := hc.payload_eq rfl
  have hldr : loaderPicker B server .iospec =
      some ((msgLoaderBuf modelSpecSize).lift Server.iospecLens) := by
    simp only [loaderPicker, msgLdrMap, ldrTable0, ldrTable1, h.prepared, if_true, Option.none_or]
  obtain ⟨l, hsave, hstored⟩ := saveMessages_fit cfg (bufReset server.model.iospec).2 (m :: ms) (by
    rw [BufLoader.room, bufReset_written, Nat.sub_zero, hpayload, hlen])
  rw [bufReset_stored, List.nil_append, hpayload] at hstored
  have hwritten : l.written = modelSpecSize := by rw [BufLoader.written_of_stored hstored, hlen]
  have hmem : l.mem = spec := by rw [BufLoader.mem_of_full l hwritten, hstored]
  let received : Server cfg S := Server.iospecLens.set server l
  have hlisten : ∀ tail, protocolListen cfg (loaderPicker B) server
      (bytes (wires (m :: ms)) ++ tail) =
        some ⟨.ok (bufferEvent m.hdr .iospec l.written), received, tail⟩ := by
    intro tail
    obtain ⟨left, hl⟩ := protocolListen_series cfg Server.iospecLens hc.opens hp hseries hldr tail
    have hget : Server.iospecLens.get server = server.model.iospec := rfl
    rw [hget, hsave, if_neg (not_not_intro rfl)] at hl
    exact hl
  -- The reception changed nothing but the loader, so the checks of the model layer pass.
  have hinit : ModelState.initialized ≤ received.model.modelState := by
    show ModelState.initialized ≤ server.model.modelState
    rw [h.modelState]
    exact session.stage.initialized_le
  have hload : received.model.modelLoadStructFromLoader =
      some (statusOk, {received.model with modelState := .structLoaded}) := by
    apply Model.modelLoadStructFromLoader_valid hinit h.prepared hwritten
    show SpecValid l.mem
    rwa [hmem]
  have hcallback : msgCallback B (bufferEvent m.hdr .iospec l.written) received .iospec =
      some ⟨statusOk, 0,
        {received with model := {received.model with modelState := .structLoaded}}⟩ := by
    have ht : (bufferEvent m.hdr .iospec l.written).messageType = .iospec := rfl
    rw [msgCallback, iospecCallback, validateHeader_eq ht, hload]
  refine ⟨_, received, _, hlisten, rfl, hc.isRequest, hcallback, Nat.zero_le _, rfl, rfl, ?_⟩
  refine ⟨rfl, h.prepared, h.connected, ?_, ?_, E.at_ready h.runtime⟩
  · intro spec' hspec
    cases hspec
    exact hmem
  · intro model hmodel
    cases hmodel

/-- The loader of a model, and that of data, is one of the runtime. -/
theorem loaderPicker_model {ldr : MsgLoader S}
    (h : B.runtime.modelLoader server.model.runtime = some ldr) :
    loaderPicker B server .model = some (ldr.lift Server.runtimeLens) := by
  simp only [loaderPicker, msgLdrMap, ldrTable1, h, Option.map_some, Option.some_or]

theorem loaderPicker_data {ldr : MsgLoader S}
    (h : B.runtime.dataLoader server.model.runtime = some ldr) :
    loaderPicker B server .data = some (ldr.lift Server.runtimeLens) := by
  simp only [loaderPicker, msgLdrMap, ldrTable1, h, Option.map_some, Option.some_or]

theorem Stage.spec?_eq_none {stage : Stage} : stage.spec? = none ↔ stage = .initialized := by
  cases stage <;> simp only [Stage.spec?, reduceCtorEq]

theorem Stage.structLoaded_le {stage : Stage} {spec : List UInt8} (h : stage.spec? = some spec) :
    ModelState.structLoaded ≤ stage.modelState := by
  rw [ModelState.le_iff]
  cases stage with
  | initialized => cases h
  | _ =>
    simp only [Stage.modelState, ModelState.number]
    omega

theorem Stage.weightsLoaded_le {stage : Stage} {model : List UInt8 × List UInt8}
    (h : stage.model? = some model) : ModelState.weightsLoaded ≤ stage.modelState := by
  rw [ModelState.le_iff]
  cases stage with
  | initialized => cases h
  | structLoaded => cases h
  | _ =>
    simp only [Stage.modelState, ModelState.number]
    omega

/-- The specification of the model in use is the one that is loaded. -/
theorem Stage.spec?_of_model? {stage : Stage} {spec weights : List UInt8}
    (h : stage.model? = some (spec, weights)) : stage.spec? = some spec := by
  cases stage with
  | initialized => cases h
  | structLoaded => cases h
  | weightsLoaded =>
    cases h
    rfl
  | inputLoaded =>
    cases h
    rfl
  | inferenceDone =>
    cases h
    rfl

/-! The callbacks, when the functions of the model layer are called in their place. -/

theorem msgCallback_model {event : ProtocolEvent} (ht : event.messageType = .model)
    (server : Server cfg S) :
    msgCallback B event server event.messageType =
      some ⟨(server.model.modelLoadWeightsFromLoader B.runtime).1, 0,
        {server with model := (server.model.modelLoadWeightsFromLoader B.runtime).2}⟩ := by
  rw [ht]
  exact modelCallback_answer B event server ht

theorem msgCallback_process {event : ProtocolEvent} (ht : event.messageType = .process)
    (server : Server cfg S) :
    msgCallback B event server event.messageType =
      some ⟨(server.model.modelRunBench B.runtime).1, 0,
        {server with model := (server.model.modelRunBench B.runtime).2}⟩ := by
  rw [ht]
  exact processCallback_answer B event server ht

theorem msgCallback_data {event : ProtocolEvent} (ht : event.messageType = .data)
    {server : Server cfg S} {status : Status} {model : Model S}
    (h : server.model.modelLoadInputFromLoader B.runtime event.payloadSize = some (status, model)) :
    msgCallback B event server event.messageType = some ⟨status, 0, {server with model}⟩ := by
  rw [ht, msgCallback, dataCallback, validateHeader_eq ht, h]

theorem modelLoadWeightsFromLoader_early {R : RuntimeWrapper S} {m : Model S}
    (h : m.modelState < .structLoaded) :
    m.modelLoadWeightsFromLoader R = (modelStatusInvState, m) := if_pos h

theorem modelLoadWeightsFromLoader_done {R : RuntimeWrapper S} {m : Model S} {s : S}
    (h : ModelState.structLoaded ≤ m.modelState) (hinit : R.runtimeInitWeights m.runtime = (statusOk, s)) :
    m.modelLoadWeightsFromLoader R =
      (statusOk, {m with runtime := s, modelState := .weightsLoaded}) := by
  rw [Model.modelLoadWeightsFromLoader, if_neg (ModelState.not_lt.mpr h), hinit]
  exact if_neg (not_not_intro rfl)

theorem modelLoadInputFromLoader_done {R : RuntimeWrapper S} {m : Model S} {s : S} {size : ℕ}
    (h : ModelState.weightsLoaded ≤ m.modelState) (hsize : m.modelGetInputSize = some (.ok size))
    (hinit : R.runtimeInitInput m.runtime = (statusOk, s)) :
    m.modelLoadInputFromLoader R size =
      some (statusOk, {m with runtime := s, modelState := .inputLoaded}) := by
  rw [Model.modelLoadInputFromLoader, if_neg (ModelState.not_lt.mpr h), hsize]
  simp only [ne_eq, not_true_eq_false, if_false, hinit]

theorem runWith_early {f : S → Status × S} {m : Model S} (h : m.modelState < .inputLoaded) :
    m.runWith f = (modelStatusInvState, m) := if_pos h

theorem runWith_done {f : S → Status × S} {m : Model S} {s : S}
    (h : ModelState.inputLoaded ≤ m.modelState) (hrun : f m.runtime = (statusOk, s)) :
    m.runWith f = (statusOk, {m with runtime := s, modelState := .inferenceDone}) := by
  rw [Model.runWith, if_neg (ModelState.not_lt.mpr h), hrun]
  exact if_neg (not_not_intro rfl)

theorem modelStatusInvState_ne : modelStatusInvState ≠ statusOk := status_ne_ok _ (by decide)

theorem answered_loadModel {weights : List UInt8} (h : Serves E session server)
    (hc : Request.Carried (.loadModel weights) asked (m :: ms)) (hloadable : M.loadable weights)
    (hdesc : ∀ spec ∈ session.stage.spec?, Session.Describes cfg M spec weights) :
    Answered E session server (.loadModel weights) asked (m :: ms) := by
  obtain ⟨hp, hseries, hpayload⟩ := hc.payload_eq rfl
  obtain ⟨ldr, hldr, htakes⟩ := E.modelLoader _ (E.at_ready h.runtime)
  have htakes := htakes weights hloadable
  rw [← hpayload] at htakes
  obtain ⟨s, ⟨hready, s', hinit, hloaded⟩, hlisten⟩ := protocolListen_takes cfg Server.runtimeLens
    hc.opens hp hseries (loaderPicker_model hldr) htakes
  rw [hpayload] at hloaded
  let received : Server cfg S := Server.runtimeLens.set server s
  have hstate : received.model.modelState = session.stage.modelState := h.modelState
  refine ⟨_, received, _, hlisten, rfl, hc.isRequest, msgCallback_model rfl received, Nat.zero_le _, ?_⟩
  cases hspec : session.stage.spec? with
  | none =>
    -- Without a specification the model is received, but not loaded.
    have hstage : session.stage = .initialized := Stage.spec?_eq_none.mp hspec
    have hlt : received.model.modelState < .structLoaded := by
      rw [hstate, hstage]
      decide
    have hnext : session.next M (.loadModel weights) = (session, ⟨false, []⟩) := by
      rw [Session.next, hspec]
    have hat : E.At session.stage s := by
      rw [hstage]
      exact hready
    rw [modelLoadWeightsFromLoader_early hlt, hnext]
    exact ⟨decide_eq_false modelStatusInvState_ne, rfl,
      ⟨hstate, h.prepared, h.connected, h.spec, h.describes, hat⟩⟩
  | some spec =>
    have hle : ModelState.structLoaded ≤ received.model.modelState := by
      rw [hstate]
      exact Stage.structLoaded_le hspec
    have hnext : session.next M (.loadModel weights) =
        ({session with stage := .weightsLoaded spec weights}, ⟨true, []⟩) := by
      rw [Session.next, hspec]
    rw [modelLoadWeightsFromLoader_done hle hinit, hnext]
    refine ⟨rfl, rfl, ⟨rfl, h.prepared, h.connected, ?_, ?_, hloaded⟩⟩
    · intro spec' hspec'
      cases hspec'
      exact h.spec spec hspec
    · intro model hmodel
      cases hmodel
      exact hdesc spec hspec

theorem answered_loadData {input spec weights : List UInt8} (h : Serves E session server)
    (hc : Request.Carried (.loadData input) asked (m :: ms))
    (hmodel : session.stage.model? = some (spec, weights))
    (hlen : input.length = M.inputSize weights) :
    Answered E session server (.loadData input) asked (m :: ms) := by
  obtain ⟨hp, hseries, hpayload⟩ := hc.payload_eq rfl
  obtain ⟨ldr, hldr, htakes⟩ := E.dataLoader weights _ (E.at_loaded h.runtime hmodel)
  have htakes := htakes input hlen
  rw [← hpayload] at htakes
  obtain ⟨s, ⟨hwritten, s', hinit, hfed⟩, hlisten⟩ := protocolListen_takes cfg Server.runtimeLens
    hc.opens hp hseries (loaderPicker_data hldr) htakes
  rw [hpayload] at hwritten hfed
  rw [hwritten, hlen] at hlisten
  let received : Server cfg S := Server.runtimeLens.set server s
  have hspec := h.spec spec (Stage.spec?_of_model? hmodel)
  have hdesc : Session.Describes cfg M spec weights := h.describes _ hmodel
  have hstate : ModelState.weightsLoaded ≤ received.model.modelState := by
    show ModelState.weightsLoaded ≤ server.model.modelState
    rw [h.modelState]
    exact Stage.weightsLoaded_le hmodel
  -- The size that the specification says is that of the model.
  have hsize : received.model.modelGetInputSize = some (.ok (M.inputSize weights)) := by
    have hle : ModelState.structLoaded ≤ received.model.modelState :=
      ModelState.le_trans (by decide) hstate
    rw [Model.modelGetInputSize, Model.modelGetSize, if_neg (ModelState.not_lt.mpr hle)]
    show (modelSize inputGeometry server.model.modelSpec).map Except.ok = _
    rw [hspec, hdesc.input, Option.map_some]
  have hload := modelLoadInputFromLoader_done hstate hsize hinit
  refine ⟨_, received, _, hlisten, rfl, hc.isRequest, msgCallback_data rfl hload, Nat.zero_le _, ?_⟩
  have hnext : session.next M (.loadData input) =
      ({session with stage := .inputLoaded spec weights input}, ⟨true, []⟩) := by
    rw [Session.next, hmodel]
  rw [hnext]
  refine ⟨rfl, rfl, ⟨rfl, h.prepared, h.connected, ?_, ?_, hfed⟩⟩
  · intro spec' hspec'
    cases hspec'
    exact hspec
  · intro model hmodel'
    cases hmodel'
    exact hdesc

/-- What the model layer holds when there is an input: it is in the state for it, and the runtime can
run. -/
theorem Serves.canRun (h : Serves E session server) {spec weights input : List UInt8}
    (hstage : session.stage = .inputLoaded spec weights input ∨
      (M.repeatable ∧ session.stage = .inferenceDone spec weights input)) :
    ModelState.inputLoaded ≤ server.model.modelState ∧
      ∃ s, B.runtime.runtimeRunModelBench server.model.runtime = (statusOk, s) ∧
        E.Done weights input s := by
  have hruntime := h.runtime
  rw [h.modelState]
  rcases hstage with hstage | ⟨hrepeat, hstage⟩
  · rw [hstage] at hruntime ⊢
    have hle : ModelState.inputLoaded ≤ .inputLoaded := by decide
    exact ⟨hle, E.runtimeRunModelBench weights input _ (Or.inl hruntime)⟩
  · rw [hstage] at hruntime ⊢
    have hle : ModelState.inputLoaded ≤ .inferenceDone := by decide
    exact ⟨hle, E.runtimeRunModelBench weights input _ (Or.inr ⟨hrepeat, hruntime⟩)⟩

theorem answered_process (h : Serves E session server)
    (hc : Request.Carried .process asked (m :: ms)) (hadmits : session.Admits M cfg .process) :
    Answered E session server .process asked (m :: ms) := by
  obtain ⟨event, hlisten, htype, hasked, -⟩ := protocolListen_request B server hc rfl
  refine ⟨event, server, _, hlisten, htype, hasked, msgCallback_process htype server, Nat.zero_le _, ?_⟩
  by_cases hinput : ∃ spec weights input, session.stage = .inputLoaded spec weights input ∨
      session.stage = .inferenceDone spec weights input
  · obtain ⟨spec, weights, input, hstage⟩ := hinput
    have hrepeat : session.stage = .inputLoaded spec weights input ∨
        (M.repeatable ∧ session.stage = .inferenceDone spec weights input) := by
      rcases hstage with hstage | hstage
      · exact Or.inl hstage
      · exact Or.inr ⟨hadmits.resolve_right fun hno => hno spec weights input hstage, hstage⟩
    -- The runtime can run, for the first time or again.
    obtain ⟨hle, s, hrun, hdone⟩ := h.canRun hrepeat
    have hnext : session.next M .process =
        ({session with stage := .inferenceDone spec weights input}, ⟨true, []⟩) := by
      rcases hstage with hstage | hstage <;> rw [Session.next, hstage]
    have hspec : session.stage.spec? = some spec := by
      rcases hstage with hstage | hstage <;> rw [hstage] <;> rfl
    have hmodel : session.stage.model? = some (spec, weights) := by
      rcases hstage with hstage | hstage <;> rw [hstage] <;> rfl
    rw [Model.modelRunBench, runWith_done hle hrun, hnext]
    refine ⟨rfl, rfl, ⟨rfl, h.prepared, h.connected, ?_, ?_, hdone⟩⟩
    · intro spec' hspec'
      cases hspec'
      exact h.spec spec hspec
    · intro model hmodel'
      cases hmodel'
      exact h.describes _ hmodel
  · -- Without an input the model layer refuses.
    have hlt : server.model.modelState < .inputLoaded := by
      rw [h.modelState, ModelState.lt_iff]
      cases hstage : session.stage with
      | initialized => exact (by decide : 1 < 4)
      | structLoaded => exact (by decide : 2 < 4)
      | weightsLoaded => exact (by decide : 3 < 4)
      | inputLoaded spec weights input => exact absurd ⟨spec, weights, input, Or.inl hstage⟩ hinput
      | inferenceDone spec weights input => exact absurd ⟨spec, weights, input, Or.inr hstage⟩ hinput
    have hnext : session.next M .process = (session, ⟨false, []⟩) := by
      cases hstage : session.stage with
      | inputLoaded spec weights input => exact absurd ⟨spec, weights, input, Or.inl hstage⟩ hinput
      | inferenceDone spec weights input => exact absurd ⟨spec, weights, input, Or.inr hstage⟩ hinput
      | _ => rw [Session.next, hstage]
    rw [Model.modelRunBench, runWith_early hlt, hnext]
    exact ⟨decide_eq_false modelStatusInvState_ne, rfl, h⟩

theorem answered_output {spec weights input : List UInt8} (h : Serves E session server)
    (hc : Request.Carried .output asked (m :: ms))
    (hstage : session.stage = .inferenceDone spec weights input) :
    Answered E session server .output asked (m :: ms) := by
  obtain ⟨event, hlisten, htype, hasked, -⟩ := protocolListen_request B server hc rfl
  have hdesc : Session.Describes cfg M spec weights := h.describes (spec, weights) (by
    rw [hstage]
    rfl)
  have hspec : server.model.modelSpec = spec := h.spec spec (by
    rw [hstage]
    rfl)
  have hstate : server.model.modelState = .inferenceDone := by
    rw [h.modelState, hstage]
    rfl
  have hdone : E.Done weights input server.model.runtime := by
    have hruntime := h.runtime
    rwa [hstage] at hruntime
  obtain ⟨buffer, s, hget, hdone', hbuffer⟩ := E.runtimeGetModelOutput weights input _ hdone
    spec hdesc.output server.respPayload hdesc.fits
  -- The size of the specification is that of the model, so the output fits the response.
  have hsize : server.model.modelGetOutputSize = some (.ok (M.outputSize weights)) := by
    rw [Model.modelGetOutputSize, Model.modelGetSize, hstate, hspec, hdesc.output]
    rfl
  have houtput : server.model.modelGetOutput B.runtime cfg.responsePayloadSize server.respPayload 0 =
      some ⟨statusOk, buffer, M.outputSize weights, {server.model with runtime := s}⟩ := by
    rw [Model.modelGetOutput, hsize, if_neg (by rw [hstate]; decide)]
    simp only [not_lt.mpr hdesc.fits, if_false, hspec, hget]
  have hcallback : msgCallback B event server event.messageType =
      some ⟨statusOk, M.outputSize weights,
        {server with model := {server.model with runtime := s}, respPayload := buffer}⟩ := by
    rw [htype]
    show outputCallback B event server = _
    have ht : event.messageType = .output := htype
    rw [outputCallback, validateHeader_eq ht, houtput]
  refine ⟨event, server, _, hlisten, htype, hasked, hcallback, hdesc.fits, ?_⟩
  have hnext : session.next M .output = (session, ⟨true, M.infer weights input⟩) := by
    rw [Session.next, hstage]
  rw [hnext]
  refine ⟨rfl, hbuffer, ⟨h.modelState, h.prepared, h.connected, h.spec, h.describes, ?_⟩⟩
  rw [hstage]
  exact hdone'

/-- Every request that the client may send is answered. -/
theorem answered (h : Serves E session server) (hadmits : session.Admits M cfg request)
    (hc : request.Carried asked (m :: ms)) : Answered E session server request asked (m :: ms) := by
  cases request with
  | connect => exact answered_connect h hc
  | disconnect => exact answered_disconnect h hc
  | loadSpec spec => exact answered_loadSpec h hc hadmits.1 hadmits.2
  | loadModel weights => exact answered_loadModel h hc hadmits.1 hadmits.2
  | loadData input =>
    obtain ⟨spec, weights, hmodel, hlen⟩ := hadmits
    exact answered_loadData h hc hmodel hlen
  | process => exact answered_process h hc hadmits
  | output =>
    obtain ⟨spec, weights, input, hstage⟩ := hadmits
    exact answered_output h hc hstage

/-! ### Whole sessions -/

/-- What the client sends. -/
def wiresOf (asks : List Ask) : List UInt8 := asks.flatMap fun ask => wires ask.messages

theorem wiresOf_append (asks asks' : List Ask) : wiresOf (asks ++ asks') = wiresOf asks ++ wiresOf asks' :=
  List.flatMap_append

theorem wiresOf_cons (ask : Ask) (asks : List Ask) :
    wiresOf (ask :: asks) = wires ask.messages ++ wiresOf asks := List.flatMap_cons

theorem wires_ask_ne_nil (ask : Ask) : wires ask.messages ≠ [] := by
  obtain ⟨m, ms, hmessages, -⟩ := ask.exists_cons
  rw [hmessages, wires_cons]
  intro h
  have hlength := congrArg List.length h
  rw [List.length_append, List.length_append, MessageHdr.length_encode, List.length_nil,
    messageHdrSize] at hlength
  omega

theorem Session.after_append (session : Session) (asks asks' : List Ask) :
    session.after M (asks ++ asks') = (session.after M asks).after M asks' := by
  induction asks generalizing session with
  | nil => rfl
  | cons ask asks ih => exact ih _

theorem Session.replies_append (session : Session) (asks asks' : List Ask) :
    session.replies M (asks ++ asks') =
      session.replies M asks ++ (session.after M asks).replies M asks' := by
  induction asks generalizing session with
  | nil => rfl
  | cons ask asks ih =>
    rw [List.cons_append, replies, ih, replies, List.append_assoc]
    rfl

theorem Session.admitsAll_append {session : Session} {asks asks' : List Ask}
    (h : session.AdmitsAll M cfg (asks ++ asks')) : (session.after M asks).AdmitsAll M cfg asks' := by
  induction asks generalizing session with
  | nil => exact h
  | cons ask asks ih => exact ih h.2

/-- The same replies, but for what was on the stack when they were sent. -/
def SameReplies (replies replies' : List (MessageType × Reply × (ℕ → BitVec 8))) : Prop :=
  replies.map (fun reply => (reply.1, reply.2.1)) = replies'.map fun reply => (reply.1, reply.2.1)

/-- What is sent is the reply, as a response to a request of that type. -/
def Responds (cfg : Config) (reply : MessageType × Reply × (ℕ → BitVec 8))
    (send : (ℕ → BitVec 8) × TransmitEvent) : Prop :=
  send.1 = reply.2.2 ∧ reply.2.1.Sent reply.1 send.2 ∧
    send.2.payload.length ≤ cfg.responsePayloadSize

theorem response_sent {answer : Answer cfg S} {reply : Reply} (t : MessageType)
    (hsuccess : decide (answer.status = statusOk) = reply.success)
    (hpayload : answer.server.respPayload.bytes.take answer.payloadSize = reply.payload) :
    reply.Sent t (response t answer) := by
  refine ⟨rfl, ?_, hpayload⟩
  rw [← hsuccess, response]
  simp only [ne_eq, decide_not]

/-- Messages that are received and answered take one round of the main loop: all of them and nothing
behind them. -/
theorem mainRound_reply {t : MessageType} (reply : Reply) {messages : List Message}
    {event : ProtocolEvent} {received : Server cfg S} {answer : Answer cfg S} {asked : Bool}
    (hlisten : ∀ tail, protocolListen cfg (loaderPicker B) server (bytes (wires messages) ++ tail) =
      some ⟨.ok event, received, tail⟩)
    (htype : event.messageType = t) (hasked : event.isRequest = asked)
    (hcallback : msgCallback B event received event.messageType = some answer)
    (hfits : answer.payloadSize ≤ cfg.responsePayloadSize)
    (hsuccess : decide (answer.status = statusOk) = reply.success)
    (hpayload : answer.server.respPayload.bytes.take answer.payloadSize = reply.payload)
    (checksum : ℕ → BitVec 8) (tail : Rx) (sent : List UInt8) :
    ∃ responses,
      mainRound B ⟨server, bytes (wires messages) ++ tail, idleTx sent⟩ checksum =
        some ⟨answer.server, tail, idleTx (sent ++ sessionWire cfg responses)⟩ ∧
      List.Forall₂ (Responds cfg) (if asked then [(t, reply, checksum)] else []) responses := by
  have hwait : waitForProtocolEvent B server (bytes (wires messages) ++ tail) =
      some ⟨.ok event, received, tail⟩ := by
    rw [waitForProtocolEvent, hlisten tail]
  cases asked with
  | false =>
    -- No response was asked for, and the line stays as it is.
    have hhandle : handleProtocolEvent checksum B event received (idleTx sent) =
        some ⟨answer.status, [], answer.server, idleTx sent⟩ := by
      rw [handleProtocolEvent, hcallback]
      simp only [hasked, Bool.false_eq_true, if_false]
    refine ⟨[], ?_, .nil⟩
    rw [mainRound, hwait]
    simp only [hhandle, sessionWire, List.flatMap_nil, List.append_nil]
  | true =>
    let send := (checksum, response event.messageType answer)
    have hhandle : handleProtocolEvent checksum B event received (idleTx sent) =
        some ⟨statusOk, [response event.messageType answer], answer.server,
          idleTx (sent ++ sessionWire cfg [send])⟩ := by
      rw [handleProtocolEvent, hcallback]
      simp only [hasked, if_true, if_pos hfits, protocolTransmit_idle, sessionWire_cons]
      rw [sessionWire, List.flatMap_nil, List.append_nil]
    refine ⟨[send], ?_, .cons ⟨rfl, ?_, ?_⟩ .nil⟩
    · rw [mainRound, hwait]
      simp only [hhandle]
    · rw [← htype]
      exact response_sent event.messageType hsuccess hpayload
    · show (answer.server.respPayload.bytes.take answer.payloadSize).length ≤ cfg.responsePayloadSize
      rw [List.length_take]
      omega

/-- A request takes one round of the main loop. -/
theorem mainRound_ask (h : Serves E session server) (ask : Ask)
    (hadmits : session.Admits M cfg ask.request) (tail : Rx) (sent : List UInt8) :
    ∃ server' responses,
      mainRound B ⟨server, bytes (wires ask.messages) ++ tail, idleTx sent⟩ ask.checksum =
        some ⟨server', tail, idleTx (sent ++ sessionWire cfg responses)⟩ ∧
      Serves E (session.next M ask.request).1 server' ∧
      List.Forall₂ (Responds cfg)
        (if ask.asked then
          [(ask.request.messageType, (session.next M ask.request).2, ask.checksum)] else [])
        responses := by
  obtain ⟨m, ms, hmessages, hcarried⟩ := ask.exists_cons
  obtain ⟨event, received, answer, hlisten, htype, hasked, hcallback, hfits, hsuccess, hpayload,
    hserves⟩ := answered h hadmits hcarried
  rw [← hmessages] at hlisten
  obtain ⟨responses, hround, hresponds⟩ := mainRound_reply (session.next M ask.request).2
    hlisten htype hasked hcallback hfits hsuccess hpayload ask.checksum tail sent
  exact ⟨answer.server, responses, hround, hserves, hresponds⟩

/-- A session takes one round for each request, and ends where the client thinks that it does. The
induction is on the requests that are still to come. -/
theorem reaches_session {asks : List Ask} (h : Serves E session server)
    (hadmits : session.AdmitsAll M cfg asks) (tail : Rx) (sent : List UInt8) :
    ∃ server' responses,
      Reaches (mainRound B)
        ⟨server, bytes (asks.flatMap fun ask => wires ask.messages) ++ tail, idleTx sent⟩
        (asks.map Ask.checksum)
        ⟨server', tail, idleTx (sent ++ sessionWire cfg responses)⟩ ∧
      Serves E (session.after M asks) server' ∧
      List.Forall₂ (Responds cfg) (session.replies M asks) responses := by
  induction asks generalizing session server sent with
  | nil =>
    refine ⟨server, [], ?_, h, .nil⟩
    simp only [sessionWire, List.flatMap_nil, List.append_nil, bytes_nil, List.nil_append, List.map_nil]
    exact .refl _
  | cons ask asks ih =>
    obtain ⟨hfirst, hrest⟩ := hadmits
    obtain ⟨server', first, hround, hserves, hresponds⟩ := mainRound_ask h ask hfirst
      (bytes (asks.flatMap fun ask => wires ask.messages) ++ tail) sent
    obtain ⟨server'', responses, hreaches, hend, hall⟩ := ih hserves hrest
      (sent ++ sessionWire cfg first)
    -- The rounds for the other requests, behind what the first one put on the line.
    have hleft : Reaches (mainRound B)
        ⟨server', bytes (asks.flatMap fun ask => wires ask.messages) ++ tail,
          idleTx (sent ++ sessionWire cfg first)⟩ (asks.map Ask.checksum)
        ⟨server'', tail, idleTx (sent ++ sessionWire cfg (first ++ responses))⟩ := by
      rw [sessionWire_append, ← List.append_assoc]
      exact hreaches
    refine ⟨server'', first ++ responses, ?_, hend, List.rel_append hresponds hall⟩
    rw [List.flatMap_cons, bytes_append, List.append_assoc, List.map_cons]
    exact .next hround hleft

/-- The client reads the reply: its type, whether the request succeeded, and the payload, which is in
the memory of its loader. -/
def ReplyArrives {W : Type} {C : MessageType → ℕ} (L : ∀ t, Lens W (BufLoader (C t)))
    (reply : MessageType × Reply × (ℕ → BitVec 8)) (r : ListenResult W) : Prop :=
  ∃ event, r.event = .ok event ∧ event.messageType = reply.1 ∧
    event.flags.success = reply.2.1.success ∧ event.flags.fail = !reply.2.1.success ∧
    event.flags.hasPayload = decide (reply.2.1.payload.length > 0) ∧
    (reply.2.1.payload ≠ [] → event.payloadSize = reply.2.1.payload.length ∧
      ((L reply.1).get r.world).mem.take event.payloadSize = reply.2.1.payload)

theorem replyArrives_of_arrives {W : Type} {C : MessageType → ℕ} (L : ∀ t, Lens W (BufLoader (C t)))
    {reply : MessageType × Reply × (ℕ → BitVec 8)} {send : (ℕ → BitVec 8) × TransmitEvent}
    {cfg' : Config} {loaderCallback : W → MessageType → Option (MsgLoader W)} {call : W × ListenResult W}
    (h : Responds cfg reply send) (harrives : Arrives L cfg cfg' loaderCallback send.2 call) :
    ReplyArrives L reply call.2 := by
  obtain ⟨-, hsent, -⟩ := h
  obtain ⟨event, hevent, hnumber, hflags, -, hpayload, -⟩ := harrives
  have htype : event.messageType = reply.1 := by
    have hlt := reply.1.number_lt
    have hto : send.2.messageType.toNat = reply.1.number := by
      rw [hsent.messageType, BitVec.toNat_ofNat]
      omega
    rw [hto] at hnumber
    rw [← MessageType.ofNumber?_eq_some] at hnumber
    rw [MessageType.ofNumber?_number] at hnumber
    exact Option.some.inj hnumber
  rw [hsent.payload, htype] at hpayload
  refine ⟨event, hevent, htype, ?_, ?_, ?_, hpayload⟩
  · rw [hflags, firstFlags, hsent.flags]
  · rw [hflags, firstFlags, hsent.flags]
  · rw [hflags, firstFlags, hsent.payload]

/-- The client reads all that is on the line, in as many calls as there are replies, and reads the
replies in order. -/
def ReadsReplies {W : Type} {C : MessageType → ℕ} (cfg' : Config) (L : ∀ t, Lens W (BufLoader (C t)))
    (loaderCallback : W → MessageType → Option (MsgLoader W)) (sent : List UInt8)
    (replies : List (MessageType × Reply × (ℕ → BitVec 8))) : Prop :=
  (∀ worlds : List W, worlds.length = replies.length →
    ∃ calls, Calls cfg' loaderCallback (bytes sent) calls [] ∧ calls.map Prod.fst = worlds) ∧
  ∀ calls, Calls cfg' loaderCallback (bytes sent) calls [] →
    List.Forall₂ (fun reply call => ReplyArrives L reply call.2) replies calls

theorem responds_receivable {W : Type} {C : MessageType → ℕ} (L : ∀ t, Lens W (BufLoader (C t)))
    {loaderCallback : W → MessageType → Option (MsgLoader W)}
    (hclient : ∀ w t, loaderCallback w t = some ((msgLoaderBuf (C t)).lift (L t)) ∧
      cfg.responsePayloadSize ≤ C t) {reply : MessageType × Reply × (ℕ → BitVec 8)}
    {send : (ℕ → BitVec 8) × TransmitEvent} (h : Responds cfg reply send) :
    Receivable L loaderCallback send.2 := by
  obtain ⟨-, hsent, hfits⟩ := h
  refine ⟨?_, fun t w _ _ => ⟨(hclient w t).1, le_trans hfits (hclient w t).2⟩⟩
  have hlt := reply.1.number_lt
  rw [hsent.messageType, BitVec.toNat_ofNat]
  omega

theorem responds_reads {W : Type} {C : MessageType → ℕ} (L : ∀ t, Lens W (BufLoader (C t)))
    {loaderCallback : W → MessageType → Option (MsgLoader W)}
    (hclient : ∀ w t, loaderCallback w t = some ((msgLoaderBuf (C t)).lift (L t)) ∧
      cfg.responsePayloadSize ≤ C t) (cfg' : Config)
    {replies : List (MessageType × Reply × (ℕ → BitVec 8))}
    {responses : List ((ℕ → BitVec 8) × TransmitEvent)}
    (h : List.Forall₂ (Responds cfg) replies responses) :
    ReadsReplies cfg' L loaderCallback (sessionWire cfg responses) replies := by
  have hreceivable : ∀ send ∈ responses, Receivable L loaderCallback send.2 := by
    intro send hsend
    obtain ⟨i, hi, rfl⟩ := List.getElem_of_mem hsend
    have hi' : i < replies.length := by rwa [h.length_eq]
    exact responds_receivable L hclient ((List.forall₂_iff_get.mp h).2 i hi' hi)
  constructor
  · intro worlds hworlds
    exact exists_calls_sessionWire L cfg' hreceivable (hworlds.trans h.length_eq)
  · intro calls hcalls
    have harrive := calls_sessionWire L cfg' hreceivable hcalls
    -- The replies, the responses and the calls are lists of one length.
    rw [List.forall₂_iff_get] at h harrive ⊢
    refine ⟨h.1.trans harrive.1, ?_⟩
    intro i hi hi'
    have hmid : i < responses.length := by
      rw [← h.1]
      exact hi
    exact replyArrives_of_arrives L (h.2 i hi hmid) (harrive.2 i hmid hi')

/-- The server is ready for a session after `init_server`. -/
theorem initServer_serves (hllext : B.llext = none) {s₀ s : S}
    (hinit : B.runtime.runtimeInit s₀ = (statusOk, s)) (hready : E.Ready s) :
    Serves E ⟨false, .initialized⟩ (initServer B statusOk (bootServer cfg s₀)).2 := by
  have hserver : (initServer B statusOk (bootServer cfg s₀)).2 = {bootServer cfg s₀ with
      model := {startedModel s₀ with
        runtime := s
        modelState := .initialized
        iospecPrepared := true }} := by
    have hruntime : B.runtime.runtimeInit (bootServer cfg s₀).model.runtime = (statusOk, s) := hinit
    rw [initServer, if_neg (not_not_intro rfl), hllext]
    simp only [Model.modelInit, hruntime, ne_eq, not_true_eq_false, if_false, Model.prepareIospecLoader]
    rfl
  rw [hserver]
  exact ⟨rfl, rfl, rfl, fun _ h => absurd h (by simp only [Stage.spec?, Option.not_mem_none, not_false_eq_true]),
    fun _ h => absurd h (by simp only [Stage.model?, Option.not_mem_none, not_false_eq_true]), hready⟩

end

end KenningRuntime
