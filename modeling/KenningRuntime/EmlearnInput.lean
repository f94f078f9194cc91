import KenningRuntime.Grammar
import KenningRuntime.History
import KenningRuntime.RuntimeEmlearn
import KenningRuntime.ServerFrame
import KenningRuntime.SpecInvariant

/-! What a DATA request that is rejected leaves in the memory of the input loader, on which the
emlearn runtime computes. -/
namespace KenningRuntime
open Transition ByteSource

section
variable {cfg : Config} {C D : ℕ} {E : Type} (checksum : ℕ → BitVec 8) (L : EmlearnModel D E)

/-- The input loader of the runtime, as a component of the server. -/
def Server.inputLens : Lens (Server cfg (Emlearn C D E)) (BufLoader C) where
  get server := server.model.runtime.input
  set server input :=
    {server with model := {server.model with runtime := {server.model.runtime with input}}}
  get_set _ _ := rfl
  set_get _ := rfl
  set_set _ _ _ := rfl

/-- The bytes that the messages of an event carry, of all of them, whatever its loader makes of them. -/
def carried (cfg : Config) (hdr : MessageHdr) (rest : Rx) : List UInt8 :=
  if hdr.flags.hasPayload then (receiveMessages cfg msgLoaderAll hdr [] rest).2.1 else []

/-- A DATA event that was accepted: what it carried, and the size of an input at that time. -/
structure AcceptedData where
  data : List UInt8
  inputSize : ℕ
deriving DecidableEq

/-- A server, and the last DATA event that it accepted. -/
structure Fed (cfg : Config) (C D : ℕ) (E : Type) where
  server : Server cfg (Emlearn C D E)
  accepted : Option AcceptedData

/-- The event that comes next, if it is a DATA event and ends with `STATUS_OK`. -/
def acceptedData (server : Server cfg (Emlearn C D E)) (rx : Rx) : Option AcceptedData :=
  match receiveMessageHeader rx, protocolListen cfg (loaderPicker (emlearnBuild L)) server rx with
  | (.ok hdr, rest), some ⟨.ok event, received, _⟩ =>
    if event.messageType = .data ∧
        (dataCallback (emlearnBuild L) event received).map Answer.status = some statusOk then
      match received.model.modelGetInputSize with
      | some (.ok inputSize) => some ⟨carried cfg hdr rest, inputSize⟩
      | _ => none
    else none
  | _, _ => none

/-- One round of the main loop. -/
def fedRound (s : Fed cfg C D E) (io : Rx × Tx) : Option (Fed cfg C D E) :=
  (serveRound checksum (emlearnBuild L) s.server io).map fun server =>
    ⟨server, (acceptedData L s.server io.1).or s.accepted⟩

/-- A PROCESS request computes on exactly the bytes of the DATA event that was accepted last, which are
as many as an input has, or is refused. -/
def ComputesOnAccepted (s : Fed cfg C D E) : Prop :=
  ∀ request answer, request.messageType = .process →
    processCallback (emlearnBuild L) request s.server = some answer →
    (answer.status = modelStatusInvState ∧
        answer.server.model.runtime.computed = s.server.model.runtime.computed) ∨
      ∃ accepted input, s.accepted = some accepted ∧ accepted.data.length = accepted.inputSize ∧
        input.take accepted.inputSize = accepted.data ∧
        answer.server.model.runtime.computed = s.server.model.runtime.computed ++ [input]

/-- What the messages from a header on leave in an input loader, whatever was there before: the status,
and the bytes that are stored. -/
def streamed (cfg : Config) (l : BufLoader C) (hdr : MessageHdr) (rest : Rx) : Status × List UInt8 :=
  match receiveMessages cfg (msgLoaderBuf C) hdr (emptyBuffer C l.capacity_lt) rest with
  | (status, l, _) => (status, l.stored)

/-- The model layer takes an input of this size. -/
structure TakesInput {S : Type} (m : Model S) (size : ℕ) : Prop where
  state : ModelState.weightsLoaded ≤ m.modelState
  found : m.modelGetInputSize = some (.ok size)

/-- The condition on a round that starts with a DATA event. Without a payload the event is not taken on
the count that is there, unless the count is zero. With a payload it either is taken, and carries no more
than the memory holds; or it is not, and what is stored of it agrees with the data that are there. -/
def LeavesInput (s : Fed cfg C D E) (io : Rx × Tx) : Prop :=
  ∀ hdr rest, io.1 = bytes hdr.encode ++ rest → Opens hdr .data →
    if hdr.flags.hasPayload then
      match streamed cfg s.server.model.runtime.input hdr rest with
      | (status, stored) =>
        (status = statusOk → TakesInput s.server.model stored.length →
          (carried cfg hdr rest).length ≤ C) ∧
        ((status ≠ statusOk ∨
            ∃ size, s.server.model.modelGetInputSize = some size ∧ size ≠ .ok stored.length) →
          ModelState.inputLoaded ≤ s.server.model.modelState →
          ∀ accepted ∈ s.accepted,
            stored.take accepted.data.length = accepted.data.take stored.length)
    else
      TakesInput s.server.model s.server.model.runtime.input.written →
        s.server.model.runtime.input.written = 0

/-! ### What an event carries -/

theorem savePayload_all (kept data : List UInt8) :
    savePayload cfg msgLoaderAll kept data = (statusOk, kept ++ data) := by
  have hall (chunks : List (List UInt8)) (kept : List UInt8) :
      chunks.foldl (saveChunk msgLoaderAll) (statusOk, kept) = (statusOk, kept ++ chunks.flatten) := by
    induction chunks generalizing kept with
    | nil => rw [List.foldl_nil, List.flatten_nil, List.append_nil]
    | cons chunk chunks ih =>
      have hstep : saveChunk msgLoaderAll (statusOk, kept) chunk = (statusOk, kept ++ chunk) := rfl
      rw [List.foldl_cons, hstep, ih, List.flatten_cons, List.append_assoc]
  rw [savePayload, hall, Chunks.flatten_chunks _ cfg.messageRecvBufferSize_pos]

theorem saveMessages_all (kept : List UInt8) (ms : List Message) :
    saveMessages cfg msgLoaderAll kept ms = (statusOk, kept ++ payloads ms) := by
  induction ms generalizing kept with
  | nil => rw [saveMessages, payloads_nil, List.append_nil]
  | cons m ms ih =>
    rw [saveMessages, savePayload_all]
    simp only [ne_eq, not_true_eq_false, if_false]
    rw [ih, payloads_cons, List.append_assoc]

/-- An event carries the payloads of its messages. -/
theorem carried_series {m : Message} {ms : List Message} (hs : Series m ms)
    (hp : m.hdr.flags.hasPayload = true) (tail : Rx) :
    carried cfg m.hdr (bytes (m.payload ++ wires ms) ++ tail) = payloads (m :: ms) := by
  obtain ⟨left, hreceive, -⟩ := receiveMessages_series cfg msgLoaderAll hs [] tail
  rw [carried, if_pos hp, hreceive, saveMessages_all, List.nil_append]

/-- What was received with `STATUS_OK` is stored whole exactly if it fits. A chunk that does not fit is
dropped, and need not make the reception fail. -/
theorem stored_eq_carried_iff {hdr : MessageHdr} {l l' : BufLoader C} {rest left : Rx}
    (hp : hdr.flags.hasPayload = true)
    (h : receiveMessages cfg (msgLoaderBuf C) hdr (bufReset l).2 rest = (statusOk, l', left)) :
    carried cfg hdr rest = l'.stored ↔ (carried cfg hdr rest).length ≤ C := by
  obtain ⟨m, ms, rfl, hs, rfl, hsave⟩ := receiveMessagesLoop_ok cfg (msgLoaderBuf C) h
  rw [carried_series hs hp]
  constructor
  · intro hstored
    rw [hstored, BufLoader.length_stored]
    exact l'.written_le
  · intro hfit
    obtain ⟨l'', hsave', hstored⟩ := saveMessages_fit cfg (bufReset l).2 (m :: ms) (by
      rw [BufLoader.room, bufReset_written, Nat.sub_zero]
      exact hfit)
    rw [hsave] at hsave'
    obtain rfl : l' = l'' := congrArg Prod.snd hsave'
    rw [hstored, bufReset_stored, List.nil_append]

/-! ### What a round does to the input -/

theorem streamed_eq (cfg : Config) (l : BufLoader C) (hdr : MessageHdr) (rest : Rx) :
    streamed cfg l hdr rest =
      ((receiveMessages cfg (msgLoaderBuf C) hdr (bufReset l).2 rest).1,
        (receiveMessages cfg (msgLoaderBuf C) hdr (bufReset l).2 rest).2.1.stored) := by
  have halike : (emptyBuffer C l.capacity_lt).Alike (bufReset l).2 := by
    rw [BufLoader.Alike, bufReset_stored]
    exact List.take_zero
  obtain ⟨hstatus, -, hstored⟩ := receiveMessages_same cfg msgLoaderBuf_simulates halike hdr rest
  exact Prod.ext hstatus hstored

theorem loaderPicker_input {server : Server cfg (Emlearn C D E)}
    (h : server.model.runtime.ldrTablePrepared = true) :
    loaderPicker (emlearnBuild L) server .data = some ((msgLoaderBuf C).lift Server.inputLens) := by
  simp only [loaderPicker, msgLdrMap, ldrTable0, ldrTable1, emlearnBuild, Emlearn.wrapper, h, if_true,
    Option.map_some, Option.or_none]
  rfl

theorem dataLoader_emlearn {s : Emlearn C D E} {ldr : MsgLoader (Emlearn C D E)}
    (h : (emlearnBuild L).runtime.dataLoader s = some ldr) :
    ldr = (msgLoaderBuf C).lift Emlearn.inputLens := by
  have h : (if s.ldrTablePrepared then
      some (Emlearn.msgLoaderInput : MsgLoader (Emlearn C D E)) else none) = some ldr := h
  split at h
  · exact (Option.some.inj h).symm
  · cases h

theorem modelLoader_emlearn {s : Emlearn C D E} {ldr : MsgLoader (Emlearn C D E)}
    (h : (emlearnBuild L).runtime.modelLoader s = some ldr) : ldr = Emlearn.msgLoaderModel := by
  have h : (if s.ldrTablePrepared then
      some (Emlearn.msgLoaderModel : MsgLoader (Emlearn C D E)) else none) = some ldr := h
  split at h
  · exact (Option.some.inj h).symm
  · cases h

/-- A reception writes to the memory of the specification, or to that of the input. -/
theorem reception_cases {server : Server cfg (Emlearn C D E)} {rx : Rx}
    {r : ListenResult (Server cfg (Emlearn C D E))}
    (h : protocolListen cfg (loaderPicker (emlearnBuild L)) server rx = some r) :
    (∃ iospec, r.world = Server.iospecLens.set server iospec) ∨
      (Starts .data rx true ∧ ∃ input, r.world = Server.inputLens.set server input) := by
  rcases protocolListen_wrote h with hw | ⟨-, iospec, hw⟩ | ⟨t, ldr, s, hstarts, hldr, hwrote, hw⟩
  · exact Or.inl ⟨server.model.iospec, hw⟩
  · exact Or.inl ⟨iospec, hw⟩
  cases hldr with
  | data hdata =>
    obtain rfl := dataLoader_emlearn L hdata
    have hinput : ∃ input, s = {server.model.runtime with input} := by
      refine hwrote.keeps (P := fun s => ∃ input, s = {server.model.runtime with input}) ⟨_, rfl⟩ ?_
      intro _ src hs
      obtain ⟨input, rfl⟩ := hs
      exact ⟨_, rfl⟩
    obtain ⟨input, rfl⟩ := hinput
    exact Or.inr ⟨hstarts, input, hw⟩
  | model hmodel =>
    obtain rfl := modelLoader_emlearn L hmodel
    -- The loader for models stores nothing.
    have hkept : s = server.model.runtime :=
      hwrote.keeps (P := fun s => s = server.model.runtime) rfl fun _ _ hs => hs
    refine Or.inl ⟨server.model.iospec, ?_⟩
    rw [hw, hkept]
    rfl
  | runtime hllext => cases hllext

theorem reception_frame {server : Server cfg (Emlearn C D E)} {rx : Rx}
    {r : ListenResult (Server cfg (Emlearn C D E))}
    (h : protocolListen cfg (loaderPicker (emlearnBuild L)) server rx = some r) :
    r.world.model.modelState = server.model.modelState ∧
      r.world.model.runtime.ldrTablePrepared = server.model.runtime.ldrTablePrepared ∧
      (¬ Starts .data rx true → r.world.model.runtime.input = server.model.runtime.input) := by
  rcases reception_cases L h with ⟨iospec, hw⟩ | ⟨hstarts, input, hw⟩
  · rw [hw]
    exact ⟨rfl, rfl, fun _ => rfl⟩
  · rw [hw]
    exact ⟨rfl, rfl, fun hother => absurd hstarts hother⟩

/-- The callbacks leave the input and the table of loaders alone. -/
theorem operates_input {event : ProtocolEvent} {m m' : Model (Emlearn C D E)}
    (h : Operates (emlearnBuild L) event m m') :
    m'.runtime.input = m.runtime.input ∧
      m'.runtime.ldrTablePrepared = m.runtime.ldrTablePrepared := by
  let P (s : Emlearn C D E) : Prop :=
    s.input = m.runtime.input ∧ s.ldrTablePrepared = m.runtime.ldrTablePrepared
  have hkeep : (Emlearn.wrapper L).Preserves P :=
    ⟨fun _ h => h, fun _ h => h, fun _ h => h, fun _ _ _ _ h => h, by
      intro n bufferSize buffer size s hP
      simp only [Emlearn.wrapper, Emlearn.runtimeGetStatistics]
      split <;> exact hP⟩
  by_cases ht : event.messageType = .runtime
  · -- This build does not load runtimes.
    cases h with
    | data htype | model htype | process htype | output htype | stats _ htype | iospec htype =>
      rw [ht] at htype
      cases htype
    | runtimeLoaded _ hllext => cases hllext
    | runtimeFailed _ hllext => cases hllext
    | nothing => exact ⟨rfl, rfl⟩
  · exact h.preserves (P := P) hkeep ht ⟨rfl, rfl⟩

/-- The model layer is not initialized by an event, and an input is loaded by a DATA event only. -/
theorem operates_state {event : ProtocolEvent} {m m' : Model (Emlearn C D E)}
    (h : Operates (emlearnBuild L) event m m') :
    m'.modelState = m.modelState ∨ (ModelState.initialized ≤ m.modelState ∧
      (ModelState.inputLoaded ≤ m'.modelState →
        ModelState.inputLoaded ≤ m.modelState ∨ event.messageType = .data)) := by
  cases h with
  | data htype hload =>
    refine (Model.modelLoadInputFromLoader_calls _ hload).state.imp_right ?_
    intro hstate
    exact ⟨ModelState.le_trans (by decide) hstate.1, fun _ => Or.inr htype⟩
  | model =>
    refine (Model.modelLoadWeightsFromLoader_calls _).state.imp_right ?_
    intro hstate
    refine ⟨ModelState.le_trans (by decide) hstate.1, fun hle => ?_⟩
    rw [hstate.2] at hle
    exact absurd hle (by decide)
  | process =>
    refine (Model.runWith_calls _).state.imp_right ?_
    intro hstate
    exact ⟨ModelState.le_trans (by decide) hstate.1, fun _ => Or.inl hstate.1⟩
  | output _ hget => exact Or.inl (Model.modelGetOutput_asks _ hget).state
  | stats buffer => exact Or.inl (Model.modelGetStatistics_asks _ _ buffer 0).state
  | iospec _ hload =>
    rcases Model.modelLoadStructFromLoader_cases hload with rfl | ⟨hinit, -, rfl⟩
    · exact Or.inl rfl
    · refine Or.inr ⟨hinit, fun hle => ?_⟩
      exact absurd hle (by show ¬ ModelState.inputLoaded ≤ ModelState.structLoaded; decide)
  | runtimeLoaded _ hllext => cases hllext
  | runtimeFailed _ hllext => cases hllext
  | nothing => exact Or.inl rfl

theorem loadInput_accepts {m : Model (Emlearn C D E)} {size : ℕ} (h : TakesInput m size) :
    m.modelLoadInputFromLoader (Emlearn.wrapper L) size =
      some (statusOk, {m with modelState := .inputLoaded}) := by
  rw [Model.modelLoadInputFromLoader, if_neg (ModelState.not_lt.mpr h.state), h.found]
  exact if_neg (not_not_intro rfl)

/-- An input is taken, or refused and nothing happens. -/
theorem loadInput_cases {m m' : Model (Emlearn C D E)} {size : ℕ} {status : Status}
    (h : m.modelLoadInputFromLoader (Emlearn.wrapper L) size = some (status, m')) :
    (status ≠ statusOk ∧ ¬ TakesInput m size ∧ m' = m) ∨
      (status = statusOk ∧ TakesInput m size ∧ m' = {m with modelState := .inputLoaded}) := by
  by_cases htakes : TakesInput m size
  · rw [loadInput_accepts L htakes] at h
    cases h
    exact Or.inr ⟨rfl, htakes, rfl⟩
  refine Or.inl ?_
  have hstate : modelStatusInvState ≠ statusOk := status_ne_ok _ (by decide)
  have harg : Module.model.statusInvArg ≠ statusOk := status_ne_ok _ (by decide)
  unfold Model.modelLoadInputFromLoader at h
  split at h
  · cases h
    exact ⟨hstate, htakes, rfl⟩
  next hlow =>
    have hle := ModelState.not_lt.mp hlow
    split at h
    · cases h
    · next hsize =>
      -- From `MODEL_STATE_STRUCT_LOADED` on the size has no error.
      have hstruct := ModelState.le_trans (by decide : ModelState.structLoaded ≤ .weightsLoaded) hle
      rw [Model.modelGetInputSize, Model.modelGetSize, if_neg (ModelState.not_lt.mpr hstruct),
        Option.map_eq_some_iff] at hsize
      obtain ⟨_, -, heq⟩ := hsize
      cases heq
    · next hsize =>
      split at h
      · cases h
        exact ⟨harg, htakes, rfl⟩
      · next heq =>
        obtain rfl := not_not.mp heq
        exact absurd ⟨hle, hsize⟩ htakes

/-! ### The invariant -/

/-- The loaders are there from the initialization on, and once an input is loaded the memory starts
with the bytes of the accepted event, which are those of a whole input. -/
structure Fed.Holds (s : Fed cfg C D E) : Prop where
  prepared : ModelState.initialized ≤ s.server.model.modelState →
    s.server.model.runtime.ldrTablePrepared = true
  accepted : ModelState.inputLoaded ≤ s.server.model.modelState →
    ∃ accepted, s.accepted = some accepted ∧ accepted.data.length = accepted.inputSize ∧
      s.server.model.runtime.input.mem.take accepted.data.length = accepted.data

variable {s s' : Fed cfg C D E} {io : Rx × Tx}

theorem handle_data {event : ProtocolEvent} (ht : event.messageType = .data)
    (server : Server cfg (Emlearn C D E)) (tx : Tx) :
    (handleProtocolEvent checksum (emlearnBuild L) event server tx).map Handled.server =
      (server.model.modelLoadInputFromLoader (Emlearn.wrapper L) event.payloadSize).map
        fun r => {server with model := r.2} := by
  have hwrapper : (emlearnBuild (C := C) L).runtime = Emlearn.wrapper L := rfl
  simp only [handleProtocolEvent, ht, msgCallback, dataCallback, validateHeader_eq ht, hwrapper]
  rcases server.model.modelLoadInputFromLoader (Emlearn.wrapper L) event.payloadSize with
    _ | ⟨status, model⟩
  · rfl
  · simp only [Nat.zero_le, if_true, Option.map_some]
    split <;> rfl

theorem dataCallback_status {event : ProtocolEvent} (ht : event.messageType = .data)
    (server : Server cfg (Emlearn C D E)) :
    (dataCallback (emlearnBuild L) event server).map Answer.status =
      (server.model.modelLoadInputFromLoader (Emlearn.wrapper L) event.payloadSize).map Prod.fst := by
  have hwrapper : (emlearnBuild (C := C) L).runtime = Emlearn.wrapper L := rfl
  rw [dataCallback, validateHeader_eq ht, hwrapper]
  rcases server.model.modelLoadInputFromLoader (Emlearn.wrapper L) event.payloadSize with
    _ | ⟨status, model⟩
  · rfl
  · rfl

/-- Only a DATA event that was received can be accepted. -/
theorem acceptedData_none {server received : Server cfg (Emlearn C D E)} {rx rest : Rx}
    {result : Except Status ProtocolEvent}
    (h : protocolListen cfg (loaderPicker (emlearnBuild L)) server rx = some ⟨result, received, rest⟩)
    (hresult : ∀ event, result = .ok event → event.messageType ≠ .data) :
    acceptedData L server rx = none := by
  rw [acceptedData, h]
  rcases receiveMessageHeader rx with ⟨_ | hdr, rest'⟩
  · rfl
  rcases result with status | event
  · rfl
  · exact if_neg fun hboth => hresult event rfl hboth.1

/-- The round of a DATA event that was received. -/
theorem fedRound_event {hdr : MessageHdr} {rest left : Rx} (hio : io.1 = bytes hdr.encode ++ rest)
    {event : ProtocolEvent} {received : Server cfg (Emlearn C D E)} (ht : event.messageType = .data)
    (hlisten : protocolListen cfg (loaderPicker (emlearnBuild L)) s.server io.1 =
      some ⟨.ok event, received, left⟩) :
    fedRound checksum L s io =
      (received.model.modelLoadInputFromLoader (Emlearn.wrapper L) event.payloadSize).map
        fun r => ⟨{received with model := r.2},
          if r.1 = statusOk then some ⟨carried cfg hdr rest, event.payloadSize⟩ else s.accepted⟩ := by
  have hheader : receiveMessageHeader io.1 = (.ok hdr, rest) := by
    rw [hio, receiveMessageHeader_encode]
  rw [fedRound, serveRound, serve, waitForProtocolEvent, acceptedData]
  simp only [hheader, hlisten, handle_data checksum L ht, dataCallback_status L ht, ht, true_and]
  rcases hload : received.model.modelLoadInputFromLoader (Emlearn.wrapper L) event.payloadSize with
    _ | ⟨status, model⟩
  · rfl
  rcases loadInput_cases L hload with ⟨hne, -, -⟩ | ⟨rfl, htakes, -⟩
  · simp only [Option.map_some, Option.some.injEq, hne, if_false, Option.none_or]
  · -- The size of the event is the size of an input.
    simp only [Option.map_some, if_true, htakes.found, Option.some_or]

/-- A DATA event without a payload is handled on the count that is there. -/
theorem fedRound_empty {hdr : MessageHdr} {rest : Rx} (hio : io.1 = bytes hdr.encode ++ rest)
    (hopens : Opens hdr .data) (hp : hdr.flags.hasPayload = false)
    (hprepared : s.server.model.runtime.ldrTablePrepared = true) :
    fedRound checksum L s io =
      (s.server.model.modelLoadInputFromLoader (Emlearn.wrapper L)
        s.server.model.runtime.input.written).map fun r => ⟨{s.server with model := r.2},
          if r.1 = statusOk then some ⟨[], s.server.model.runtime.input.written⟩ else s.accepted⟩ := by
  have hlisten := protocolListen_buf_empty cfg Server.inputLens hopens hp
    (loaderPicker_input L hprepared) rest
  rw [← hio] at hlisten
  have hcarried : carried cfg hdr rest = [] := by
    rw [carried, hp]
    rfl
  rw [fedRound_event checksum L hio rfl hlisten, hcarried]
  rfl

/-- A DATA event with a payload, when the loader is there. -/
theorem fedRound_data {hdr : MessageHdr} {rest : Rx} (hio : io.1 = bytes hdr.encode ++ rest)
    (hopens : Opens hdr .data) (hp : hdr.flags.hasPayload = true)
    (hprepared : s.server.model.runtime.ldrTablePrepared = true) {status : Status} {l : BufLoader C}
    {left : Rx} (hrec : receiveMessages cfg (msgLoaderBuf C) hdr
      (bufReset s.server.model.runtime.input).2 rest = (status, l, left)) :
    fedRound checksum L s io =
      if status ≠ statusOk then some ⟨Server.inputLens.set s.server l, s.accepted⟩
      else
        ((Server.inputLens.set s.server l).model.modelLoadInputFromLoader (Emlearn.wrapper L)
          l.written).map fun r => ⟨{Server.inputLens.set s.server l with model := r.2},
            if r.1 = statusOk then some ⟨carried cfg hdr rest, l.written⟩ else s.accepted⟩ := by
  have hlisten := protocolListen_buf cfg Server.inputLens hopens hp
    (loaderPicker_input L hprepared) rest
  have hget : Server.inputLens.get s.server = s.server.model.runtime.input := rfl
  rw [hget, hrec, ← hio] at hlisten
  by_cases hs : status = statusOk
  · simp only [ne_eq, hs, not_true_eq_false, if_false] at hlisten ⊢
    rw [fedRound_event checksum L hio rfl hlisten]
    rfl
  · simp only [ne_eq, hs, not_false_eq_true, if_true] at hlisten ⊢
    have hnone := acceptedData_none L hlisten fun _ heq => nomatch heq
    rw [fedRound, serveRound, serve, waitForProtocolEvent, hlisten, hnone]
    rfl

theorem fedRound_prepared (h : ModelState.initialized ≤ s.server.model.modelState →
      s.server.model.runtime.ldrTablePrepared = true)
    (hs : fedRound checksum L s io = some s') :
    ModelState.initialized ≤ s'.server.model.modelState →
      s'.server.model.runtime.ldrTablePrepared = true := by
  rw [fedRound] at hs
  obtain ⟨server', hserve, rfl⟩ := Option.map_eq_some_iff.mp hs
  rcases serve_cases hserve with ⟨status, rest, hl⟩ | ⟨event, received, rest, handled, hl, hh, rfl⟩
  · obtain ⟨hstate, hprepared, -⟩ := reception_frame L hl
    simp only at hstate hprepared
    rwa [hstate, hprepared]
  · obtain ⟨hstate, hprepared, -⟩ := reception_frame L hl
    simp only at hstate hprepared
    rw [(operates_input L (handleProtocolEvent_operates hh)).2, hprepared]
    intro hle
    apply h
    rcases operates_state L (handleProtocolEvent_operates hh) with heq | ⟨hinit, -⟩
    · rwa [heq, hstate] at hle
    · rwa [hstate] at hinit

/-- Before the initialization no input is loaded, and an input is loaded by a DATA event only. -/
theorem fedRound_holds (h : s.Holds) (hs : fedRound checksum L s io = some s')
    (hfree : ModelState.initialized ≤ s.server.model.modelState →
      ∀ hdr rest, io.1 = bytes hdr.encode ++ rest → ¬ Opens hdr .data) : s'.Holds := by
  refine ⟨fedRound_prepared checksum L h.prepared hs, ?_⟩
  rw [fedRound] at hs
  obtain ⟨server', hserve, rfl⟩ := Option.map_eq_some_iff.mp hs
  have hinit {server : Server cfg (Emlearn C D E)} (hle : ModelState.inputLoaded ≤
      server.model.modelState) : ModelState.initialized ≤ server.model.modelState :=
    ModelState.le_trans (by decide) hle
  have hstarts (hle : ModelState.initialized ≤ s.server.model.modelState) :
      ¬ Starts .data io.1 true := by
    intro hstarts
    obtain ⟨hdr, rest, hio, hopens, -⟩ := hstarts
    exact hfree hle hdr rest hio hopens
  rcases serve_cases hserve with ⟨status, rest, hl⟩ | ⟨event, received, rest, handled, hl, hh, rfl⟩
  · -- Nothing was received.
    obtain ⟨hstate, -, hinput⟩ := reception_frame L hl
    simp only at hstate hinput
    have hnone := acceptedData_none L hl fun _ heq => nomatch heq
    simp only [hnone, Option.none_or, hstate]
    intro hle
    rw [hinput (hstarts (hinit hle))]
    exact h.accepted hle
  obtain ⟨hstate, -, hinput⟩ := reception_frame L hl
  simp only at hstate hinput
  simp only [(operates_input L (handleProtocolEvent_operates hh)).1]
  intro hle
  -- The event is no DATA event, since one opens with the header of a DATA message.
  have hsame : ModelState.initialized ≤ s.server.model.modelState ∧
      (ModelState.inputLoaded ≤ s.server.model.modelState ∨ event.messageType = .data) := by
    rw [← hstate]
    rcases operates_state L (handleProtocolEvent_operates hh) with heq | ⟨hle', hloaded⟩
    · rw [heq] at hle
      exact ⟨hinit hle, Or.inl hle⟩
    · exact ⟨hle', hloaded hle⟩
  obtain ⟨hlow, hloaded⟩ := hsame
  have ht : event.messageType ≠ .data := by
    intro ht
    obtain ⟨hdr, rest', hio, hopens, -⟩ := protocolListen_event cfg _ hl
    exact hfree hlow hdr rest' hio (ht ▸ hopens)
  have hnone := acceptedData_none L hl fun event' heq => by
    cases heq
    exact ht
  rw [hnone, Option.none_or, hinput (hstarts hlow)]
  exact h.accepted (hloaded.resolve_right ht)

/-- An accepted event keeps the invariant exactly if its bytes are what is stored. -/
theorem holds_accepted_iff {server : Server cfg (Emlearn C D E)} {data : List UInt8}
    (hprepared : server.model.runtime.ldrTablePrepared = true)
    (hloaded : ModelState.inputLoaded ≤ server.model.modelState) :
    (Fed.mk server (some ⟨data, server.model.runtime.input.written⟩)).Holds ↔
      data = server.model.runtime.input.stored := by
  constructor
  · intro hholds
    obtain ⟨accepted, haccepted, hlength, hmem⟩ := hholds.accepted hloaded
    obtain rfl := Option.some.inj haccepted
    rw [hlength] at hmem
    exact hmem.symm
  · intro hdata
    subst hdata
    have hlength := server.model.runtime.input.length_stored
    refine ⟨fun _ => hprepared, fun _ => ⟨_, rfl, hlength, ?_⟩⟩
    rw [hlength]
    rfl

/-- Without a payload, the count that is there decides. -/
theorem fedRound_empty_iff (h : s.Holds) {hdr : MessageHdr} {rest : Rx}
    (hio : io.1 = bytes hdr.encode ++ rest) (hopens : Opens hdr .data)
    (hp : hdr.flags.hasPayload = false)
    (hprepared : s.server.model.runtime.ldrTablePrepared = true) :
    (∀ s', fedRound checksum L s io = some s' → s'.Holds) ↔
      (TakesInput s.server.model s.server.model.runtime.input.written →
        s.server.model.runtime.input.written = 0) := by
  rw [fedRound_empty checksum L hio hopens hp hprepared]
  by_cases htakes : TakesInput s.server.model s.server.model.runtime.input.written
  · rw [loadInput_accepts L htakes]
    simp only [Option.map_some, if_true, Option.some.injEq, forall_eq', htakes, forall_const]
    have hempty : [] = s.server.model.runtime.input.stored ↔ s.server.model.runtime.input.written = 0 := by
      rw [← BufLoader.length_stored, List.length_eq_zero_iff]
      exact eq_comm
    rw [← hempty]
    exact holds_accepted_iff hprepared (Nat.le_refl _)
  · refine iff_of_true ?_ fun htakes' => absurd htakes' htakes
    intro s' hs
    obtain ⟨⟨status, m'⟩, hload, rfl⟩ := Option.map_eq_some_iff.mp hs
    rcases loadInput_cases L hload with ⟨hne, -, rfl⟩ | ⟨-, htakes', -⟩
    · simp only [if_neg hne]
      exact h
    · exact absurd htakes' htakes

/-- With a payload, the bytes are in the memory before the event is looked at. -/
theorem fedRound_data_iff (h : s.Holds) {hdr : MessageHdr} {rest : Rx}
    (hio : io.1 = bytes hdr.encode ++ rest) (hopens : Opens hdr .data)
    (hp : hdr.flags.hasPayload = true)
    (hprepared : s.server.model.runtime.ldrTablePrepared = true) {status : Status} {l : BufLoader C}
    {left : Rx} (hrec : receiveMessages cfg (msgLoaderBuf C) hdr
      (bufReset s.server.model.runtime.input).2 rest = (status, l, left)) :
    (∀ s', fedRound checksum L s io = some s' → s'.Holds) ↔
      (status = statusOk → TakesInput s.server.model l.written → (carried cfg hdr rest).length ≤ C) ∧
      ((status ≠ statusOk ∨ ∃ size, s.server.model.modelGetInputSize = some size ∧ size ≠ .ok l.written) →
        ModelState.inputLoaded ≤ s.server.model.modelState →
        ∀ accepted ∈ s.accepted,
          l.stored.take accepted.data.length = accepted.data.take l.written) := by
  have hmem := receiveMessages_mem cfg hdr s.server.model.runtime.input rest
  rw [hrec] at hmem
  simp only at hmem
  -- After a rejection the new bytes lie over the data.
  have hrejected : (Fed.mk (Server.inputLens.set s.server l) s.accepted).Holds ↔
      (ModelState.inputLoaded ≤ s.server.model.modelState → ∀ accepted ∈ s.accepted,
        l.stored.take accepted.data.length = accepted.data.take l.written) := by
    constructor
    · intro hholds hle accepted hmember
      obtain ⟨accepted', haccepted', -, hafter⟩ := hholds.accepted hle
      obtain ⟨accepted'', haccepted, -, hbefore⟩ := h.accepted hle
      obtain rfl := Option.some.inj (haccepted'.symm.trans hmember)
      obtain rfl := Option.some.inj (haccepted.symm.trans hmember)
      rw [← l.length_stored, ← Memory.take_splice_iff hbefore, ← hmem]
      exact hafter
    · intro hagree
      refine ⟨fun _ => hprepared, fun hle => ?_⟩
      obtain ⟨accepted, haccepted, hlength, hbefore⟩ := h.accepted hle
      refine ⟨accepted, haccepted, hlength, ?_⟩
      have hsame := hagree hle accepted haccepted
      rw [← l.length_stored, ← Memory.take_splice_iff hbefore, ← hmem] at hsame
      exact hsame
  rw [fedRound_data checksum L hio hopens hp hprepared hrec]
  by_cases hs : status = statusOk
  swap
  · -- The reception failed, and no callback is called.
    simp only [hs, ne_eq, not_false_eq_true, if_true, Option.some.injEq, forall_eq', false_implies,
      true_or, forall_const, true_and]
    exact hrejected
  subst hs
  have hmodel : TakesInput (Server.inputLens.set s.server l).model l.written ↔
      TakesInput s.server.model l.written :=
    ⟨fun htakes => ⟨htakes.state, htakes.found⟩, fun htakes => ⟨htakes.state, htakes.found⟩⟩
  simp only [ne_eq, not_true_eq_false, if_false, forall_const, false_or]
  rcases hload : (Server.inputLens.set s.server l).model.modelLoadInputFromLoader
    (Emlearn.wrapper L) l.written with _ | ⟨status, m'⟩
  · -- The size of an input is read behind the specification.
    have hsize : s.server.model.modelGetInputSize = none := by
      by_contra hsome
      have hreturns := (Model.modelLoadInputFromLoader_isSome (Emlearn.wrapper L) l.written
        (Server.inputLens.set s.server l).model).mpr fun _ => Option.isSome_iff_ne_none.mpr hsome
      rw [hload] at hreturns
      cases hreturns
    refine iff_of_true (fun s' hs' => nomatch hs') ⟨fun htakes => ?_, fun hother => ?_⟩
    · exact absurd (hsize.symm.trans htakes.found) (by simp)
    · obtain ⟨size, hsome, -⟩ := hother
      exact absurd (hsize.symm.trans hsome) (by simp)
  simp only [Option.map_some, Option.some.injEq, forall_eq']
  rcases loadInput_cases L hload with ⟨hne, hrefused, rfl⟩ | ⟨rfl, htakes, rfl⟩
  · -- The callback refuses it.
    rw [if_neg hne]
    refine hrejected.trans ⟨fun hagree => ⟨?_, fun _ => hagree⟩, fun hboth hle => ?_⟩
    · intro htakes
      exact absurd (hmodel.mpr htakes) hrefused
    · have hweights : ModelState.weightsLoaded ≤ s.server.model.modelState :=
        ModelState.le_trans (by decide) hle
      have hreturns := (Model.modelLoadInputFromLoader_isSome (Emlearn.wrapper L) l.written
        (Server.inputLens.set s.server l).model).mp (by rw [hload]; rfl) hweights
      obtain ⟨size, hsome⟩ := Option.isSome_iff_exists.mp hreturns
      refine hboth.2 ⟨size, hsome, fun heq => hrefused ⟨hweights, ?_⟩⟩ hle
      exact hsome.trans (congrArg some heq)
  · -- The new data take the place of the old ones.
    have hfound := (hmodel.mp htakes).found
    have hholds : (Fed.mk {Server.inputLens.set s.server l with
          model := {(Server.inputLens.set s.server l).model with modelState := .inputLoaded}}
        (some ⟨carried cfg hdr rest, l.written⟩)).Holds ↔ carried cfg hdr rest = l.stored :=
      holds_accepted_iff hprepared (Nat.le_refl _)
    rw [if_pos rfl, hholds, stored_eq_carried_iff hp hrec]
    constructor
    · intro hfit
      refine ⟨fun _ => hfit, fun hother => ?_⟩
      obtain ⟨size, hsome, hne⟩ := hother
      exact absurd (Option.some.inj (hsome.symm.trans hfound)) hne
    · intro hboth
      exact hboth.1 (hmodel.mp htakes)

/-- A round keeps the invariant exactly if it meets the condition. -/
theorem fedRound_holds_iff (h : s.Holds) :
    (∀ s', fedRound checksum L s io = some s' → s'.Holds) ↔ LeavesInput s io := by
  by_cases hopened : ModelState.initialized ≤ s.server.model.modelState ∧
      ∃ hdr rest, io.1 = bytes hdr.encode ++ rest ∧ Opens hdr .data
  swap
  · -- There is no condition on the other rounds.
    have hleft : ∀ s', fedRound checksum L s io = some s' → s'.Holds := by
      intro s' hs
      refine fedRound_holds checksum L h hs fun hle hdr rest hio hopens => ?_
      exact hopened ⟨hle, hdr, rest, hio, hopens⟩
    refine iff_of_true hleft ?_
    intro hdr rest hio hopens
    have hlow : ¬ ModelState.initialized ≤ s.server.model.modelState :=
      fun hle => hopened ⟨hle, hdr, rest, hio, hopens⟩
    have hrefuses {size : ℕ} : ¬ TakesInput s.server.model size :=
      fun htakes => hlow (ModelState.le_trans (by decide) htakes.state)
    split
    · refine ⟨fun _ htakes => absurd htakes hrefuses, fun _ hle => ?_⟩
      exact absurd (ModelState.le_trans (by decide) hle) hlow
    · exact fun htakes => absurd htakes hrefuses
  obtain ⟨hle, hdr, rest, hio, hopens⟩ := hopened
  have hprepared := h.prepared hle
  -- The input starts with one header only.
  have hone (P : MessageHdr → Rx → Prop) :
      (∀ hdr rest, io.1 = bytes hdr.encode ++ rest → Opens hdr .data → P hdr rest) ↔ P hdr rest := by
    constructor
    · intro hall
      exact hall hdr rest hio hopens
    · intro hP hdr' rest' hio' _
      obtain ⟨rfl, rfl⟩ := encode_unique (hio.symm.trans hio')
      exact hP
  rw [LeavesInput, hone]
  by_cases hp : hdr.flags.hasPayload = true
  · rw [if_pos hp]
    have hstreamed := streamed_eq cfg s.server.model.runtime.input hdr rest
    rcases hrec : receiveMessages cfg (msgLoaderBuf C) hdr
      (bufReset s.server.model.runtime.input).2 rest with ⟨status, l, left⟩
    rw [hrec] at hstreamed
    simp only [hstreamed, BufLoader.length_stored]
    exact fedRound_data_iff checksum L h hio hopens hp hprepared hrec
  · rw [if_neg hp]
    exact fedRound_empty_iff checksum L h hio hopens (Bool.eq_false_of_not_eq_true hp) hprepared

/-! ### Runs -/

/-- The server before the first round. -/
def fedServer (cfg : Config) (protocolInit : Status) (h : C < 2^32) (environment : E) :
    Fed cfg C D E where
  server := (initServer (emlearnBuild L) protocolInit
    (bootServer cfg (Emlearn.boot C D h environment))).2
  accepted := none

theorem computesOnAccepted_iff : ComputesOnAccepted L s ↔
    (ModelState.inputLoaded ≤ s.server.model.modelState →
      ∃ accepted, s.accepted = some accepted ∧ accepted.data.length = accepted.inputSize ∧
        s.server.model.runtime.input.mem.take accepted.data.length = accepted.data) := by
  have hanswer : ∀ request : ProtocolEvent, request.messageType = .process →
      processCallback (emlearnBuild L) request s.server =
        some ⟨(s.server.model.modelRunBench (Emlearn.wrapper L)).1, 0,
          {s.server with model := (s.server.model.modelRunBench (Emlearn.wrapper L)).2}⟩ := by
    intro request ht
    exact validateHeader_eq ht _
  by_cases hlow : s.server.model.modelState < .inputLoaded
  · -- Below `MODEL_STATE_INPUT_LOADED` every request is refused.
    refine iff_of_true ?_ fun hle => absurd hlow (ModelState.not_lt.mpr hle)
    intro request answer ht h
    rw [hanswer request ht, Model.modelRunBench, Model.runWith, if_pos hlow] at h
    obtain rfl := Option.some.inj h
    exact Or.inl ⟨rfl, rfl⟩
  have hrun : s.server.model.modelRunBench (Emlearn.wrapper L) =
      (statusOk, {s.server.model with
        runtime := (Emlearn.runtimeRunModelBench L s.server.model.runtime).2
        modelState := .inferenceDone }) := by
    rw [Model.modelRunBench, Model.runWith, if_neg hlow]
    rfl
  -- From it on the model reads the whole memory of the loader.
  have hcomputed : (Emlearn.runtimeRunModelBench L s.server.model.runtime).2.computed =
      s.server.model.runtime.computed ++ [s.server.model.runtime.input.mem] := rfl
  constructor
  · intro h _
    let request : ProtocolEvent := ⟨.process, Flags.ofRawBytes 0, true, 0⟩
    have hcall := h request _ rfl (hanswer request rfl)
    rw [hrun] at hcall
    rcases hcall with ⟨hstatus, -⟩ | ⟨accepted, input, haccepted, hlength, hdata, happend⟩
    · have hne : statusOk ≠ modelStatusInvState := by decide
      exact absurd hstatus hne
    · simp only [hcomputed, List.append_cancel_left_eq, List.cons.injEq, and_true] at happend
      rw [← happend, ← hlength] at hdata
      exact ⟨accepted, haccepted, hlength, hdata⟩
  · intro h request answer ht hcall
    obtain ⟨accepted, haccepted, hlength, hdata⟩ := h (ModelState.not_lt.mp hlow)
    rw [hanswer request ht, hrun] at hcall
    obtain rfl := Option.some.inj hcall
    rw [hlength] at hdata
    exact Or.inr ⟨accepted, _, haccepted, hlength, hdata, hcomputed⟩

theorem fedServer_holds (protocolInit : Status) (h : C < 2^32) (environment : E) :
    (fedServer L cfg protocolInit h environment).Holds := by
  have hboot : (fedServer L cfg protocolInit h environment).server =
      if protocolInit ≠ statusOk then bootServer cfg (Emlearn.boot C D h environment)
      else {bootServer cfg (Emlearn.boot C D h environment) with
        model := ((startedModel (Emlearn.boot C D h environment)).modelInit
          (Emlearn.wrapper L)).2 } := by
    rw [fedServer, initServer]
    split <;> rfl
  by_cases hs : protocolInit = statusOk
  · rw [if_neg (not_not_intro hs)] at hboot
    refine ⟨fun _ => by rw [hboot]; rfl, ?_⟩
    rw [hboot]
    intro hle
    exact absurd hle (by show ¬ ModelState.inputLoaded ≤ ModelState.initialized; decide)
  · rw [if_pos hs] at hboot
    constructor
    · rw [hboot]
      intro hle
      exact absurd hle (by show ¬ ModelState.initialized ≤ ModelState.uninitialized; decide)
    · rw [hboot]
      intro hle
      exact absurd hle (by show ¬ ModelState.inputLoaded ≤ ModelState.uninitialized; decide)

/-- Exactly when, in every state that a run of the server reaches, a PROCESS request computes on the bytes
of the event that was accepted last or is refused. What is received of a DATA event goes straight into the
memory that the model reads, so a rejected event has to leave it as it is; and an event is accepted on the
count of the loader, so it has to have brought that many bytes. -/
theorem reaches_computesOnAccepted_iff (protocolInit : Status) (h : C < 2^32) (environment : E)
    (ios : List (Rx × Tx)) :
    (∀ p s, p <+: ios → Reaches (fedRound checksum L) (fedServer L cfg protocolInit h environment) p s →
      ComputesOnAccepted L s) ↔
    Guarded (fedRound checksum L) LeavesInput (fedServer L cfg protocolInit h environment) ios := by
  rw [← always_iff_guarded (fun s io => fedRound_holds_iff checksum L)
    (fedServer_holds L protocolInit h environment)]
  apply forall_congr'
  intro p
  apply forall_congr'
  intro s
  refine forall_congr' fun _ => forall_congr' fun hreach => ?_
  -- The first half of the invariant holds in every run.
  have hprepared := hreach.invariant_always (fun _ _ _ h hs => fedRound_prepared checksum L h hs)
    (fedServer_holds L protocolInit h environment).prepared
  rw [computesOnAccepted_iff]
  exact ⟨fun haccepted => ⟨hprepared, haccepted⟩, fun hholds => hholds.accepted⟩

end

/-! ### A model of one byte -/

def firstByte : EmlearnModel 1 Unit where
  emlearnModel input output e := (output.write 0 (input.take 1), e)
  behindOutput _ _ := 0
  cycles _ := 0
  cycToNs cycles := cycles

/-- The model is loaded, and an input of one byte. -/
def oneByteRounds : List (Rx × Tx) :=
  rounds [wires [iospecRequest], wires [emptyRequest .model],
    wires [requestMessage .data [7] (by decide)]]

/-- Two bytes are too many for an input, and are rejected. -/
def rejectedRound (data : List UInt8) (h : data.length < 2^32) : List (Rx × Tx) :=
  rounds [wires [requestMessage .data data h]]

/-- The rejected event starts with the byte that is there. -/
theorem reaches_computesOnAccepted_oneByte :
    ∃ s, Reaches (fedRound (fun _ => 0) firstByte)
        (fedServer firstByte smallConfig statusOk (C := 8) (by decide) ())
        (oneByteRounds ++ rejectedRound [7, 9] (by decide)) s ∧
      s.server.model.modelState = .inputLoaded ∧ s.accepted = some ⟨[7], 1⟩ ∧
      s.server.model.runtime.input.stored = [7, 9] ∧ ComputesOnAccepted firstByte s := by
  let ios : List (Rx × Tx) := oneByteRounds ++ rejectedRound [7, 9] (by decide)
  let p (s : Fed smallConfig 8 1 Unit) : Bool :=
    decide (s.server.model.modelState = .inputLoaded ∧ s.accepted = some ⟨[7], 1⟩ ∧
      s.server.model.runtime.input.stored = [7, 9])
  have hrun : (run (fedRound (fun _ => 0) firstByte)
      (fedServer firstByte smallConfig statusOk (C := 8) (by decide) ()) ios).any p = true := by
    decide +kernel
  let fits (s : Fed smallConfig 8 1 Unit) (hdr : MessageHdr) (rest : Rx) : Bool :=
    decide (hdr.messageType? = some .data → hdr.flags.hasPayload = true ∧
      (carried smallConfig hdr rest).length ≤ 8 ∧ ∀ accepted ∈ s.accepted,
        (streamed smallConfig s.server.model.runtime.input hdr rest).2.take accepted.data.length =
          accepted.data.take (streamed smallConfig s.server.model.runtime.input hdr rest).2.length)
  have hchecks : checks (fedRound (fun _ => 0) firstByte)
      (fun s io => (receiveMessageHeader io.1).1.toOption.all fun hdr =>
        fits s hdr (receiveMessageHeader io.1).2)
      (fedServer firstByte smallConfig statusOk (C := 8) (by decide) ()) ios = true := by
    decide +kernel
  obtain ⟨s, hreach, hp⟩ := exists_reaches hrun
  obtain ⟨hstate, haccepted, hstored⟩ := of_decide_eq_true hp
  refine ⟨s, hreach, hstate, haccepted, hstored, ?_⟩
  refine (reaches_computesOnAccepted_iff (fun _ => 0) firstByte statusOk (by decide) ()
    ios).mpr ?_ ios s (List.prefix_refl _) hreach
  apply guarded_of_checks _ hchecks
  intro s io hcheck hdr rest hio hopens
  rw [hio, receiveMessageHeader_encode] at hcheck
  have hfits : fits s hdr rest = true := hcheck
  obtain ⟨hpayload, hfit, hagree⟩ := of_decide_eq_true hfits hopens.messageType
  rw [if_pos hpayload]
  exact ⟨fun _ _ => hfit, fun _ _ => hagree⟩

/-- The next request computes on the first byte of the event that was rejected. -/
theorem computes_on_rejected :
    ∃ s, Reaches (fedRound (fun _ => 0) firstByte)
        (fedServer firstByte smallConfig statusOk (C := 8) (by decide) ())
        (oneByteRounds ++ rejectedRound [9, 9] (by decide)) s ∧
      s.accepted = some ⟨[7], 1⟩ ∧ s.server.model.runtime.input.mem.take 1 = [9] ∧
      ¬ ComputesOnAccepted firstByte s := by
  let p (s : Fed smallConfig 8 1 Unit) : Bool :=
    decide (s.server.model.modelState = .inputLoaded ∧ s.accepted = some ⟨[7], 1⟩ ∧
      s.server.model.runtime.input.mem.take 1 = [9])
  have hrun : (run (fedRound (fun _ => 0) firstByte)
      (fedServer firstByte smallConfig statusOk (C := 8) (by decide) ())
      (oneByteRounds ++ rejectedRound [9, 9] (by decide))).any p = true := by
    decide +kernel
  obtain ⟨s, hreach, hp⟩ := exists_reaches hrun
  obtain ⟨hstate, haccepted, hmem⟩ := of_decide_eq_true hp
  refine ⟨s, hreach, haccepted, hmem, ?_⟩
  rw [computesOnAccepted_iff]
  intro hall
  obtain ⟨accepted, hsome, -, htake⟩ := hall (hstate ▸ Nat.le_refl _)
  obtain rfl := Option.some.inj (haccepted.symm.trans hsome)
  have hone : s.server.model.runtime.input.mem.take 1 = [7] := htake
  exact absurd (hmem.symm.trans hone) (by decide)

end KenningRuntime
