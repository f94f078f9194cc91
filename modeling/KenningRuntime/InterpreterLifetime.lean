import KenningRuntime.History
import KenningRuntime.Interpreter
import KenningRuntime.SpecInvariant

/-! Whether the interpreter is alive whenever it is used, and dead whenever it is constructed. -/
namespace KenningRuntime
open ByteSource Lifetime LittleEndian Transition

variable {C : ℕ} {E : Type} (L : TfliteLibrary E)

section
variable {cfg : Config} {server : Server cfg (Tflite C E)}

/-- Every event but a model keeps the interpreter safe, and a model does what
`model_load_weights_from_loader` does. -/
theorem operates_safe {event : ProtocolEvent} {m m' : Model (Tflite C E)}
    (h : Operates (tfliteBuild L) event m m')
    (hmodel : event.messageType = .model →
      InterpreterSafe (m.modelLoadWeightsFromLoader (Tflite.wrapper L)).2)
    (hsafe : event.messageType ≠ .model → InterpreterSafe m) : InterpreterSafe m' := by
  by_cases ht : event.messageType = .model
  · have hweights := hmodel ht
    cases h with
    | model => exact hweights
    | nothing _ hne => exact absurd ht hne
    | runtimeLoaded _ hllext => cases hllext
    | runtimeFailed _ hllext => cases hllext
    | data h | process h | output h | stats _ h | iospec h => cases ht.symm.trans h
  have hsafe := hsafe ht
  cases h with
  | data _ hload => exact modelLoadInputFromLoader_safe L hsafe hload
  | model htype => exact absurd htype ht
  | process => exact modelRunBench_safe L hsafe
  | output _ hget => exact modelGetOutput_safe L hsafe hget
  | stats => exact modelGetStatistics_safe L hsafe
  | iospec _ hload => exact modelLoadStructFromLoader_safe hsafe hload
  | runtimeLoaded _ hllext => cases hllext
  | runtimeFailed _ hllext => cases hllext
  | nothing => exact hsafe

/-! ### Receiving -/

theorem modelLoader_tflite {s : Tflite C E} {ldr : MsgLoader (Tflite C E)}
    (h : (tfliteBuild L).runtime.modelLoader s = some ldr) : ldr = Tflite.msgLoaderModel L := by
  have h : (if s.ldrTablePrepared then some (Tflite.msgLoaderModel L) else none) = some ldr := h
  split at h
  · exact (Option.some.inj h).symm
  · cases h

theorem dataLoader_tflite {s : Tflite C E} {ldr : MsgLoader (Tflite C E)}
    (h : (tfliteBuild L).runtime.dataLoader s = some ldr) : ldr = Tflite.msgLoaderInput L := by
  have h : (if s.ldrTablePrepared then some (Tflite.msgLoaderInput L) else none) = some ldr := h
  split at h
  · exact (Option.some.inj h).symm
  · cases h

theorem loaderPicker_tflite {ldr : MsgLoader (Server cfg (Tflite C E))}
    (h : loaderPicker (tfliteBuild L) server .model = some ldr) :
    ldr = (Tflite.msgLoaderModel L).lift Server.runtimeLens := by
  cases loaderPicker_cases h with
  | model hldr => rw [modelLoader_tflite L hldr]

/-- The reset ends the interpreter, whatever becomes of the event. -/
theorem received_of_starts {rx : Rx} {r : ListenResult (Server cfg (Tflite C E))}
    (hs : server.model.runtime.Sound) (hopens : Starts .model rx true)
    (h : protocolListen cfg (loaderPicker (tfliteBuild L)) server rx = some r) :
    ∃ s : Tflite C E, r.world = Server.runtimeLens.set server s ∧ s.Sound ∧
      s.gpTfliteInterpreter = false := by
  obtain ⟨hdr, rest, rfl, hopens, hp⟩ := hopens
  obtain ⟨ldr, hldr, hw⟩ := protocolListen_opened cfg hopens hp h
  obtain rfl := loaderPicker_tflite L hldr
  have hreset := Tflite.tfliteResetBuf_sound L hs
  rcases protocolListen_component cfg hw with hw | hw
  · exact ⟨_, hw, hreset⟩
  · refine ⟨_, hw, ?_⟩
    apply receiveMessages_keeps cfg (P := fun s : Tflite C E =>
      s.Sound ∧ s.gpTfliteInterpreter = false) _ hreset
    exact fun s src h => ⟨h.1.of_eq rfl rfl rfl rfl, h.2⟩

theorem received_of_not_starts {rx : Rx} {r : ListenResult (Server cfg (Tflite C E))}
    (hs : InterpreterSafe server.model) (hopens : ¬ Starts .model rx true)
    (h : protocolListen cfg (loaderPicker (tfliteBuild L)) server rx = some r) :
    InterpreterSafe r.world.model := by
  rcases protocolListen_wrote h with hw | ⟨-, iospec, hw⟩ | ⟨t, ldr, s, hstarts, hldr, hwrote, hw⟩
  · rw [hw]
    exact hs
  · rw [hw]
    exact hs.of_state rfl id
  cases hldr with
  | model => exact absurd hstarts hopens
  | runtime hllext => cases hllext
  | data hdata =>
    obtain rfl := dataLoader_tflite L hdata
    -- The loader for inputs writes to the tensor, and leaves the interpreter alone.
    have hkept := hwrote.keeps (P := fun s : Tflite C E =>
      s.Sound ∧ s.gpTfliteInterpreter = server.model.runtime.gpTfliteInterpreter)
      ⟨hs.sound.of_eq rfl rfl rfl rfl, rfl⟩ (by
        intro s src hall
        simp only [Tflite.msgLoaderInput]
        split
        · exact hall
        · exact ⟨hall.1.of_eq rfl rfl rfl rfl, hall.2⟩)
    rw [hw]
    exact ⟨hkept.1, fun hle => hkept.2.trans (hs.started hle)⟩

/-- A whole model that fits is received, over what was in the buffer before. -/
theorem received_whole_model {m : Message} {ms : List Message} (hopens : Opens m.hdr .model)
    (hp : m.hdr.flags.hasPayload = true) (hseries : Series m ms)
    (hlen : (payloads (m :: ms)).length ≤ C) (tail : Rx)
    {r : ListenResult (Server cfg (Tflite C E))}
    (h : protocolListen cfg (loaderPicker (tfliteBuild L)) server
      (bytes (wires (m :: ms)) ++ tail) = some r) :
    (∃ event, r.event = .ok event) ∧ r.world.model.runtime.buffer.mem =
      Memory.splice server.model.runtime.buffer.mem 0 (payloads (m :: ms)) := by
  rw [wires_cons, bytes_append, List.append_assoc] at h
  obtain ⟨ldr, hldr, -⟩ := protocolListen_opened cfg hopens hp h
  obtain rfl := loaderPicker_tflite L hldr
  obtain ⟨hreset, hbuffer⟩ := Tflite.tfliteResetBuf_buffer L (s := server.model.runtime)
  obtain ⟨l, hrec, hmem⟩ := receiveMessages_fit cfg hseries server.model.runtime.buffer hlen tail
  have hresetStatus : (((Tflite.msgLoaderModel L).lift Server.runtimeLens).reset server).1 =
      statusOk := hreset
  have hget : Tflite.bufferLens.get (Server.runtimeLens.get
      (((Tflite.msgLoaderModel L).lift Server.runtimeLens).reset server).2) =
      (bufReset server.model.runtime.buffer).2 := hbuffer
  rw [protocolListen_payload cfg _ hopens hp hldr, if_neg (not_not_intro hresetStatus),
    receiveMessages_lift, receiveMessages_save cfg (show (Tflite.msgLoaderModel L).save =
      ((msgLoaderBuf C).lift Tflite.bufferLens).save from rfl), receiveMessages_lift, hget, hrec] at h
  simp only [ne_eq, not_true_eq_false, if_false] at h
  cases h
  exact ⟨⟨_, rfl⟩, hmem⟩

/-! ### The runs of the server -/

/-- The condition on a round. Where a model is loaded, the next one comes whole, fits, and is of the
right version. And a model event without a payload does not come while there is an interpreter,
unless what is in the buffer is of the wrong version. -/
structure ReplacesModel (server : Server cfg (Tflite C E)) (io : Rx × Tx) : Prop where
  whole : Starts .model io.1 true → ModelState.weightsLoaded ≤ server.model.modelState →
    ∃ m ms tail, io.1 = bytes (wires (m :: ms)) ++ tail ∧ Opens m.hdr .model ∧
      m.hdr.flags.hasPayload = true ∧ Series m ms ∧ (payloads (m :: ms)).length ≤ C ∧
      L.version (Memory.splice server.model.runtime.buffer.mem 0 (payloads (m :: ms))) =
        L.schemaVersion
  empty : Starts .model io.1 false → ModelState.structLoaded ≤ server.model.modelState →
    L.version server.model.runtime.buffer.mem = L.schemaVersion →
    server.model.runtime.gpTfliteInterpreter = false

variable {L} {checksum : ℕ → BitVec 8} {server' : Server cfg (Tflite C E)}

theorem serveRound_safe {io : Rx × Tx} (h : InterpreterSafe server.model)
    (hg : ReplacesModel L server io)
    (hs : serveRound checksum (tfliteBuild L) server io = some server') :
    InterpreterSafe server'.model := by
  have hwhole : Starts .model io.1 true → ModelState.weightsLoaded ≤ server.model.modelState →
      ∀ r, protocolListen cfg (loaderPicker (tfliteBuild L)) server io.1 = some r →
        (∃ event, r.event = .ok event) ∧
          L.version r.world.model.runtime.buffer.mem = L.schemaVersion := by
    intro hopens hle r hl
    obtain ⟨m, ms, tail, hrx, ho, hp, hseries, hlen, hv⟩ := hg.whole hopens hle
    rw [hrx] at hl
    obtain ⟨hok, hmem⟩ := received_whole_model L ho hp hseries hlen tail hl
    exact ⟨hok, hmem ▸ hv⟩
  rcases serve_cases hs with ⟨status, rest, hl⟩ | ⟨event, received, rest, handled, hl, hh, rfl⟩
  · -- Nothing was received.
    by_cases hopens : Starts .model io.1 true
    swap
    · exact received_of_not_starts L h hopens hl
    obtain ⟨s, hw, hsound, -⟩ := received_of_starts L h.sound hopens hl
    obtain rfl : server' = _ := hw
    refine ⟨hsound, ?_⟩
    intro hle
    -- The reception of a whole model does not fail.
    obtain ⟨⟨event, hok⟩, -⟩ := hwhole hopens hle _ hl
    cases hok
  -- An event was received; first a model with payload, whose reset has ended the interpreter.
  obtain ⟨hdr, rest', hrx, ho, hempty⟩ := protocolListen_event cfg _ hl
  by_cases hopens : Starts .model io.1 true
  · obtain ⟨ht, -⟩ := hopens.unique hrx ho
    obtain ⟨s, hw, hsound, hgp⟩ := received_of_starts L h.sound hopens hl
    obtain rfl : received = _ := hw
    refine operates_safe L (handleProtocolEvent_operates hh) ?_ (absurd ht)
    intro _
    apply modelLoadWeightsFromLoader_safe L hsound
    · exact fun _ _ => hgp
    · -- The version is right, so a failure of the tensors leaves the interpreter alive.
      intro hle hv
      exact absurd (hwhole hopens hle _ hl).2 hv
  have hsafe := received_of_not_starts L h hopens hl
  refine operates_safe L (handleProtocolEvent_operates hh) ?_ (fun _ => hsafe)
  intro ht
  rw [ht] at ho
  -- A model without payload: nothing was reset, and the old model is loaded again.
  have hp : hdr.flags.hasPayload = false := by
    rw [← Bool.not_eq_true]
    exact fun hp => hopens ⟨hdr, rest', hrx, ho, hp⟩
  obtain rfl := hempty hp
  apply modelLoadWeightsFromLoader_safe L hsafe.sound
  · exact hg.empty ⟨hdr, rest', hrx, ho, hp⟩
  · exact fun hle _ => h.started hle

theorem initServer_safe (protocolInit : Status) (h : InterpreterSafe server.model) :
    InterpreterSafe (initServer (tfliteBuild L) protocolInit server).2.model := by
  rw [initServer]
  split
  · exact h
  · have hinit : (Tflite.wrapper L).runtimeInit server.model.runtime =
        (statusOk, {server.model.runtime with ldrTablePrepared := true, peakAllocation := 0}) := rfl
    simp only [tfliteBuild, Model.modelInit, hinit, ne_eq, not_true_eq_false, if_false]
    refine ⟨h.sound.of_eq rfl rfl rfl rfl, ?_⟩
    intro hle
    exact absurd hle (by show ¬ ModelState.weightsLoaded ≤ ModelState.initialized; decide)

end

/-- `GetModel` and `version` on a flatbuffer: the root table is at the offset in the first word, and
its first field is the version. -/
def flatbufferVersion (mem : List UInt8) : ℕ :=
  let root := word mem 0 4
  let vtable := root-word mem root 4
  if word mem vtable 2 > 4 then word mem (root+word mem (vtable+4) 2) 4 else 0

/-- A library that runs every model, on an input of one byte. -/
def oneByteLibrary : TfliteLibrary Unit where
  schemaVersion := 3
  version := flatbufferVersion
  construct _ _ e := e
  destroy e := e
  allocateTensors e := (true, e)
  inputBytes _ := 1
  saveInput _ _ e := e
  invoke e := (true, e)
  arenaUsedBytes _ := 0
  outputData _ := [0]
  cycles e := (0, e)
  cycToNs n := n

/-- A flatbuffer with the version and nothing else. -/
def versionThree : List UInt8 := [12, 0, 0, 0, 6, 0, 8, 0, 4, 0, 0, 0, 8, 0, 0, 0, 3, 0, 0, 0]

def modelRequest : Message := requestMessage .model versionThree (by decide)

/-- The server with the runtime over this library. -/
def tfliteServer : Server smallConfig (Tflite 64 Unit) :=
  (initServer (tfliteBuild oneByteLibrary) statusOk
    (bootServer smallConfig (Tflite.boot 64 (by decide) ()))).2

theorem replacesModel_of_other {server : Server smallConfig (Tflite 64 Unit)} {m : Message}
    {t : MessageType} (ho : Opens m.hdr t) (ht : t ≠ .model) (tx : Tx) :
    ReplacesModel oneByteLibrary server (bytes (wires [m]), tx) := by
  constructor
  · intro hopens
    exact absurd (hopens.of_wires ho).1 ht
  · intro hopens
    exact absurd (hopens.of_wires ho).1 ht

/-- The version is read from the model, not from what is behind it. -/
theorem version_versionThree (mem : List UInt8) :
    flatbufferVersion (Memory.splice mem 0 versionThree) = 3 := by
  have hword (off width : ℕ) (h : off+width ≤ 20) :
      word (Memory.splice mem 0 versionThree) off width = word versionThree off width := by
    rw [Memory.splice, List.take_zero, List.nil_append, word_append h]
  have hroot : word (Memory.splice mem 0 versionThree) 0 4 = 12 := hword 0 4 (by decide)
  have htable : word (Memory.splice mem 0 versionThree) 12 4 = 8 := hword 12 4 (by decide)
  have hsize : word (Memory.splice mem 0 versionThree) 4 2 = 6 := hword 4 2 (by decide)
  have hfield : word (Memory.splice mem 0 versionThree) 8 2 = 4 := hword 8 2 (by decide)
  have hversion : word (Memory.splice mem 0 versionThree) 16 4 = 3 := hword 16 4 (by decide)
  simp only [flatbufferVersion, hroot, htable, hsize, hfield, hversion, Nat.reduceAdd, Nat.reduceSub,
    Nat.reduceLT, gt_iff_lt, if_true]

theorem replacesModel_request (server : Server smallConfig (Tflite 64 Unit)) (tx : Tx) :
    ReplacesModel oneByteLibrary server (bytes (wires [modelRequest]), tx) := by
  have ho : Opens modelRequest.hdr .model := ⟨Or.inr rfl, rfl, rfl⟩
  constructor
  · intro _ _
    refine ⟨modelRequest, [], [], (List.append_nil _).symm, ho, rfl, .last rfl, by decide, ?_⟩
    have hpayloads : payloads [modelRequest] = versionThree := by
      rw [payloads_cons, payloads_nil, List.append_nil]
      rfl
    have hversion : oneByteLibrary.version = flatbufferVersion := rfl
    rw [hpayloads, hversion, version_versionThree]
    rfl
  · intro hopens
    exact absurd (hopens.of_wires ho).2 (by decide)

end KenningRuntime
