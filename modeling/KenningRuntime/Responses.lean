import KenningRuntime.Capacity
import KenningRuntime.ServerFrame

/-! What a client gets to know: whether a response tells what became of its request. -/
namespace KenningRuntime
open Transition

section
variable {cfg : Config} {S : Type} (checksum : ℕ → BitVec 8) (B : Build S) (event : ProtocolEvent)
  (server : Server cfg S) (tx : Tx)

/-- The status of the function of the model layer behind an event; `none` if there is none behind it
or it does not return. -/
def operationStatus : Option Status :=
  match event.messageType with
  | .data => (server.model.modelLoadInputFromLoader B.runtime event.payloadSize).map Prod.fst
  | .model => some (server.model.modelLoadWeightsFromLoader B.runtime).1
  | .process => some (server.model.modelRunBench B.runtime).1
  | .output =>
    (server.model.modelGetOutput B.runtime cfg.responsePayloadSize server.respPayload 0).map
      Model.Retrieved.status
  | .stats =>
    some (server.model.modelGetStatistics B.runtime cfg.responsePayloadSize server.respPayload 0).status
  | .iospec => server.model.modelLoadStructFromLoader.map Prod.fst
  | _ => none

/-- The response tells what became of a request of type `t`, when the operation behind it ended with
that status. -/
structure RespondsTo (cfg : Config) (t : MessageType) (operation : Option Status)
    (resp : TransmitEvent) : Prop where
  messageType : resp.messageType = BitVec.ofNat 64 t.number
  one_flag : resp.flags.fail = !resp.flags.success
  success_iff : ∀ status, operation = some status → (resp.flags.success = true ↔ status = statusOk)
  payload_of_fail : resp.flags.fail = true → resp.payload = []
  payload_le : resp.payload.length ≤ cfg.responsePayloadSize

/-- A request gets one response, which tells what became of it; a transmission gets none. -/
def HandlesEvent : Prop :=
  ∃ handled, handleProtocolEvent checksum B event server tx = some handled ∧
    if event.isRequest then
      ∃ resp, handled.transmitted = [resp] ∧ handled.tx = (protocolTransmit cfg checksum resp tx).2 ∧
        RespondsTo cfg event.messageType (operationStatus B event server) resp
    else handled.transmitted = [] ∧ handled.tx = tx

/-- The output is there, fits into the response, and the runtime hands it out. -/
def OutputReady : Prop :=
  ModelState.inferenceDone ≤ server.model.modelState ∧
    ∃ size, server.model.modelGetOutputSize = some (.ok size) ∧ size ≤ cfg.responsePayloadSize ∧
      (B.runtime.runtimeGetModelOutput server.model.modelSpec server.respPayload
        server.model.runtime).1 = statusOk

/-- A model is loaded, and the runtime hands out statistics that fit into the response. -/
def StatisticsReady : Prop :=
  ModelState.weightsLoaded ≤ server.model.modelState ∧
    match B.runtime.runtimeGetStatistics cfg.responsePayloadSize server.respPayload 0
      server.model.runtime with
    | (status, _, size, _) => status = statusOk ∧ size ≤ cfg.responsePayloadSize

/-- The condition on an event: the sizes that are computed on the way stay inside `g_model_spec`, and
what is asked for can be handed out. -/
def Answerable : Prop :=
  match event.messageType with
  | .data => ModelState.weightsLoaded ≤ server.model.modelState →
      server.model.modelGetInputSize.isSome = true
  | .output =>
    (ModelState.inferenceDone ≤ server.model.modelState →
        server.model.modelGetOutputSize.isSome = true) ∧
      (event.isRequest = true → OutputReady B server)
  | .stats => event.isRequest = true → StatisticsReady B server
  | _ => True

/-! ### From answers to responses -/

/-- What a callback must answer for the response to tell what became of the request. -/
structure AnswersAs {cfg : Config} {S : Type} (operation : Option Status) (answer : Answer cfg S) :
    Prop where
  status_iff : ∀ status, operation = some status → (answer.status = statusOk ↔ status = statusOk)
  payloadSize_of_ne : answer.status ≠ statusOk → answer.payloadSize = 0
  payloadSize_le : answer.payloadSize ≤ cfg.responsePayloadSize

theorem response_length {answer : Answer cfg S} (t : MessageType)
    (h : answer.payloadSize ≤ cfg.responsePayloadSize) :
    (response t answer).payload.length = answer.payloadSize := by
  have hlen : (response t answer).payload.length =
      min answer.payloadSize answer.server.respPayload.bytes.length := List.length_take
  rw [hlen, Buffer.length_eq, min_eq_left h]

theorem respondsTo_iff {answer : Answer cfg S} (t : MessageType) (operation : Option Status)
    (h : answer.payloadSize ≤ cfg.responsePayloadSize) :
    RespondsTo cfg t operation (response t answer) ↔ AnswersAs operation answer := by
  have hlen := response_length t h
  constructor
  · intro hr
    refine ⟨?_, ?_, h⟩
    · intro status ho
      rw [← hr.success_iff status ho]
      exact (decide_eq_true_iff (p := answer.status = statusOk)).symm
    · intro hne
      rw [← hlen, hr.payload_of_fail (decide_eq_true hne)]
      rfl
  · intro ha
    refine ⟨rfl, ?_, ?_, ?_, hlen.trans_le h⟩
    · exact decide_not
    · intro status ho
      rw [← ha.status_iff status ho]
      exact decide_eq_true_iff (p := answer.status = statusOk)
    · intro hf
      have hne : answer.status ≠ statusOk := of_decide_eq_true hf
      exact List.length_eq_zero_iff.mp (hlen.trans (ha.payloadSize_of_ne hne))

theorem handlesEvent_iff :
    HandlesEvent checksum B event server tx ↔
      ∃ answer, msgCallback B event server event.messageType = some answer ∧
        (event.isRequest = true → AnswersAs (operationStatus B event server) answer) := by
  rw [HandlesEvent, handleProtocolEvent]
  rcases hc : msgCallback B event server event.messageType with _ | answer
  · simp only [reduceCtorEq, false_and, exists_false]
  simp only [Option.some.injEq, exists_eq_left']
  cases hreq : event.isRequest with
  | false =>
    simp only [Bool.false_eq_true, if_false, Option.some.injEq, exists_eq_left', and_self,
      false_implies]
  | true =>
    simp only [if_true, true_implies]
    by_cases hle : answer.payloadSize ≤ cfg.responsePayloadSize
    · simp only [if_pos hle, Option.some.injEq, exists_eq_left', List.cons.injEq, and_true,
        true_and]
      exact respondsTo_iff _ _ hle
    · simp only [if_neg hle, reduceCtorEq, false_and, exists_false, false_iff]
      exact fun ha => hle ha.payloadSize_le

/-! ### The operations -/

theorem modelGetOutput_isSome (R : RuntimeWrapper S) {bufferSize n size : ℕ} (buffer : Buffer n)
    (m : Model S) :
    (m.modelGetOutput R bufferSize buffer size).isSome = true ↔
      (ModelState.inferenceDone ≤ m.modelState → m.modelGetOutputSize.isSome = true) := by
  rw [Model.modelGetOutput]
  by_cases hlow : m.modelState < .inferenceDone
  · rw [if_pos hlow]
    exact iff_of_true rfl fun hle => absurd hlow (ModelState.not_lt.mpr hle)
  rw [if_neg hlow]
  have hle := ModelState.not_lt.mp hlow
  rcases m.modelGetOutputSize with _ | status | outputSize
  · exact iff_of_false Bool.false_ne_true fun h => absurd (h hle) Bool.false_ne_true
  · exact iff_of_true rfl fun _ => rfl
  · refine iff_of_true ?_ fun _ => rfl
    simp only
    split <;> rfl

/-- `model_get_output` succeeds exactly if the output is ready, and then it fits. -/
theorem modelGetOutput_status {r : Model.Retrieved S cfg.responsePayloadSize}
    (h : server.model.modelGetOutput B.runtime cfg.responsePayloadSize server.respPayload 0 = some r) :
    (r.status = statusOk ↔ OutputReady B server) ∧
      (r.status = statusOk → r.size ≤ cfg.responsePayloadSize) := by
  unfold Model.modelGetOutput at h
  by_cases hlow : server.model.modelState < .inferenceDone
  · rw [if_pos hlow] at h
    cases h
    have hne : modelStatusInvState ≠ statusOk := status_ne_ok _ (by decide)
    exact ⟨iff_of_false hne fun hr => ModelState.not_lt.mpr hr.1 hlow, fun hs => absurd hs hne⟩
  rw [if_neg hlow] at h
  have hle := ModelState.not_lt.mp hlow
  rcases hsize : server.model.modelGetOutputSize with _ | status | outputSize
  · rw [hsize] at h
    cases h
  · -- The size is not computed only before the specification is loaded.
    rw [Model.modelGetOutputSize, Model.modelGetSize,
      if_neg (ModelState.not_lt.mpr (ModelState.le_trans (by decide) hle))] at hsize
    obtain ⟨_, -, hcontra⟩ := Option.map_eq_some_iff.mp hsize
    cases hcontra
  rw [hsize] at h
  simp only at h
  -- Now the status is that of the size check, or that of the runtime.
  by_cases hfit : cfg.responsePayloadSize < outputSize
  · rw [if_pos hfit] at h
    cases h
    have hne : Module.model.statusInvArg ≠ statusOk := status_ne_ok _ (by decide)
    refine ⟨iff_of_false hne ?_, fun hs => absurd hs hne⟩
    intro hall
    obtain ⟨-, size, hs, hsizele, -⟩ := hall
    rw [hsize] at hs
    cases hs
    omega
  · rw [if_neg hfit] at h
    cases h
    refine ⟨⟨fun hs => ⟨hle, outputSize, hsize, Nat.not_lt.mp hfit, hs⟩, ?_⟩,
      fun _ => Nat.not_lt.mp hfit⟩
    intro hall
    obtain ⟨-, -, -, -, hs⟩ := hall
    exact hs

theorem modelGetStatistics_status :
    (server.model.modelGetStatistics B.runtime cfg.responsePayloadSize server.respPayload 0).status =
          statusOk ∧
        (server.model.modelGetStatistics B.runtime cfg.responsePayloadSize server.respPayload 0).size ≤
          cfg.responsePayloadSize ↔
      StatisticsReady B server := by
  rw [StatisticsReady, Model.modelGetStatistics]
  by_cases hlow : server.model.modelState < .weightsLoaded
  · rw [if_pos hlow]
    have hne : modelStatusInvState ≠ statusOk := status_ne_ok _ (by decide)
    exact iff_of_false (fun hs => hne hs.1) fun hr => ModelState.not_lt.mpr hr.1 hlow
  · rw [if_neg hlow]
    exact ⟨fun hs => ⟨ModelState.not_lt.mp hlow, hs⟩, fun hr => hr.2⟩

theorem modelLoadStructFromLoader_isSome {m : Model S} (h : m.Prepared) :
    ∃ status m', m.modelLoadStructFromLoader = some (status, m') := by
  rw [Model.modelLoadStructFromLoader]
  by_cases hlow : m.modelState < .initialized
  · exact ⟨_, _, if_pos hlow⟩
  have hp : ¬ m.iospecPrepared = false := by
    rw [h (ModelState.not_lt.mp hlow)]
    exact Bool.true_eq_false_eq_False
  rw [if_neg hlow, if_neg hp]
  split
  · exact ⟨_, _, rfl⟩
  split
  · exact ⟨_, _, rfl⟩
  split
  · exact ⟨_, _, rfl⟩
  · exact ⟨_, _, rfl⟩

/-! ### The callbacks -/

theorem modelCallback_answer (h : event.messageType = .model) :
    modelCallback B event server =
      some ⟨(server.model.modelLoadWeightsFromLoader B.runtime).1, 0,
        {server with model := (server.model.modelLoadWeightsFromLoader B.runtime).2}⟩ :=
  validateHeader_eq h _

theorem processCallback_answer (h : event.messageType = .process) :
    processCallback B event server =
      some ⟨(server.model.modelRunBench B.runtime).1, 0,
        {server with model := (server.model.modelRunBench B.runtime).2}⟩ :=
  validateHeader_eq h _

theorem iospecCallback_answer (h : event.messageType = .iospec) {status : Status} {m : Model S}
    (hload : server.model.modelLoadStructFromLoader = some (status, m)) :
    iospecCallback event server = some ⟨status, 0, {server with model := m}⟩ := by
  rw [iospecCallback, validateHeader_eq h, hload]

theorem runtimeCallback_answer (h : event.messageType = .runtime) :
    ∃ status server', runtimeCallback B event server = some ⟨status, 0, server'⟩ := by
  rw [runtimeCallback]
  split
  · exact ⟨_, _, rfl⟩
  rw [validateHeader_eq h]
  split
  split
  · exact ⟨_, _, rfl⟩
  · exact ⟨_, _, rfl⟩

theorem answersAs_status (status : Status) :
    AnswersAs (some status) (⟨status, 0, server⟩ : Answer cfg S) := by
  refine ⟨?_, fun _ => rfl, Nat.zero_le _⟩
  intro status' heq
  cases heq
  exact Iff.rfl

theorem answersAs_none (status : Status) :
    AnswersAs none (⟨status, 0, server⟩ : Answer cfg S) :=
  ⟨fun _ h => absurd h (by simp), fun _ => rfl, Nat.zero_le _⟩

/-- An event that the callback answers in every case, without a payload. -/
theorem handlesEvent_plain {t : MessageType} (ht : event.messageType = t) {status : Status}
    {server' : Server cfg S} (h : msgCallback B event server t = some ⟨status, 0, server'⟩)
    (ho : operationStatus B event server = some status ∨ operationStatus B event server = none) :
    HandlesEvent checksum B event server tx := by
  subst ht
  refine (handlesEvent_iff checksum B event server tx).mpr ⟨_, h, ?_⟩
  intro _
  rcases ho with ho | ho
  · rw [ho]
    exact answersAs_status server' status
  · rw [ho]
    exact answersAs_none server' status

theorem handlesEvent_data (ht : event.messageType = .data) :
    HandlesEvent checksum B event server tx ↔
      (ModelState.weightsLoaded ≤ server.model.modelState →
        server.model.modelGetInputSize.isSome = true) := by
  rw [← Model.modelLoadInputFromLoader_isSome B.runtime event.payloadSize, handlesEvent_iff, ht,
    operationStatus, ht]
  simp only [msgCallback, dataCallback, validateHeader_eq ht]
  rcases server.model.modelLoadInputFromLoader B.runtime event.payloadSize with _ | ⟨status, model⟩
  · simp only [reduceCtorEq, false_and, exists_false, Option.isSome_none, Bool.false_eq_true]
  · exact iff_of_true ⟨_, rfl, fun _ => answersAs_status _ status⟩ rfl

theorem handlesEvent_output (ht : event.messageType = .output) :
    HandlesEvent checksum B event server tx ↔
      (ModelState.inferenceDone ≤ server.model.modelState →
          server.model.modelGetOutputSize.isSome = true) ∧
        (event.isRequest = true → OutputReady B server) := by
  rw [← modelGetOutput_isSome B.runtime server.respPayload server.model, handlesEvent_iff, ht,
    operationStatus, ht]
  simp only [msgCallback, outputCallback, validateHeader_eq ht]
  rcases hget : server.model.modelGetOutput B.runtime cfg.responsePayloadSize server.respPayload 0
    with _ | r
  · simp only [reduceCtorEq, false_and, exists_false, Option.isSome_none, Bool.false_eq_true]
  -- The callback drops the status, so the response is right only if there was no error.
  obtain ⟨hstatus, hsize⟩ := modelGetOutput_status B server hget
  simp only [Option.some.injEq, exists_eq_left', Option.isSome_some, true_and, Option.map_some]
  refine forall_congr' fun _ => ⟨?_, ?_⟩
  · intro ha
    exact hstatus.mp ((ha.status_iff r.status rfl).mp rfl)
  · intro hr
    have hok := hstatus.mpr hr
    refine ⟨?_, fun hne => absurd rfl hne, hsize hok⟩
    intro status heq
    cases heq
    exact iff_of_true rfl hok

theorem handlesEvent_stats (ht : event.messageType = .stats) :
    HandlesEvent checksum B event server tx ↔
      (event.isRequest = true → StatisticsReady B server) := by
  rw [handlesEvent_iff, ht, operationStatus, ht]
  simp only [msgCallback, statsCallback, validateHeader_eq ht, Option.some.injEq,
    exists_eq_left']
  apply forall_congr'
  intro _
  -- The same for the statistics.
  rw [← modelGetStatistics_status B server]
  constructor
  · intro ha
    exact ⟨(ha.status_iff _ rfl).mp rfl, ha.payloadSize_le⟩
  · intro h
    obtain ⟨hok, hle⟩ := h
    refine ⟨?_, fun hne => absurd rfl hne, hle⟩
    intro status heq
    cases heq
    exact iff_of_true rfl hok

/-- In every state the server reaches, an event is handled as it should be exactly if the sizes are
computed inside `g_model_spec` and the output, or the statistics, that are asked for can be handed
out: otherwise the response says that an operation succeeded which did not. -/
theorem handlesEvent_iff_answerable {s : S} {protocolInit : Status} {ls : List ServerStep}
    (hreach : Reaches (serverStep checksum B) (initServer B protocolInit (bootServer cfg s)).2 ls
      server) :
    HandlesEvent checksum B event server tx ↔ Answerable B event server := by
  have hprepared := reaches_prepared hreach
  rw [Answerable]
  -- Only the callbacks of OUTPUT and STATS drop a status.
  cases ht : event.messageType with
  | data => exact handlesEvent_data checksum B event server tx ht
  | output => exact handlesEvent_output checksum B event server tx ht
  | stats => exact handlesEvent_stats checksum B event server tx ht
  | model =>
    have hanswer := modelCallback_answer B event server ht
    refine iff_of_true (handlesEvent_plain checksum B event server tx ht hanswer (Or.inl ?_)) trivial
    rw [operationStatus, ht]
  | process =>
    have hanswer := processCallback_answer B event server ht
    refine iff_of_true (handlesEvent_plain checksum B event server tx ht hanswer (Or.inl ?_)) trivial
    rw [operationStatus, ht]
  | iospec =>
    obtain ⟨status, model, hload⟩ := modelLoadStructFromLoader_isSome hprepared
    have hanswer := iospecCallback_answer event server ht hload
    refine iff_of_true (handlesEvent_plain checksum B event server tx ht hanswer (Or.inl ?_)) trivial
    rw [operationStatus, ht]
    exact congrArg (Option.map Prod.fst) hload
  | ping =>
    obtain ⟨status, connected, hping⟩ := pingCallback_answer event server
    refine iff_of_true (handlesEvent_plain checksum B event server tx ht hping (Or.inr ?_)) trivial
    rw [operationStatus, ht]
  | runtime =>
    obtain ⟨status, server', hanswer⟩ := runtimeCallback_answer B event server ht
    refine iff_of_true (handlesEvent_plain checksum B event server tx ht hanswer (Or.inr ?_)) trivial
    rw [operationStatus, ht]
  | status | traceData | optimizers | optimizeModel | unoptimizedModel | logs =>
    refine iff_of_true (handlesEvent_plain checksum B event server tx ht rfl (Or.inr ?_)) trivial
    rw [operationStatus, ht]

end

/-- A model is loaded and run, over the API of the model layer. -/
def inferenceSteps : List ServerStep :=
  [.call (.loadStruct (some oneByteSpec)), .call .loadWeightsFromLoader,
    .call (.loadInputFromLoader 1), .call .runBench]

/-- A request without payload. -/
def plainRequest (t : MessageType) : ProtocolEvent where
  messageType := t
  flags := Flags.ofRawBytes 48
  isRequest := true
  payloadSize := 0

/-- Call 4 of the runtime, the one for the output, fails. -/
def outputRefused : Build ℕ :=
  ⟨scriptRuntime fun n => if n = 4 then Module.runtimeWrapper.statusError else statusOk, none⟩

/-- The client is sent the old content of the response buffer, as a success. -/
theorem output_refused_succeeds :
    ∃ server : Server smallConfig ℕ,
      Reaches (serverStep (fun _ => 0) outputRefused)
        (initServer outputRefused statusOk (bootServer smallConfig 0)).2 inferenceSteps server ∧
      operationStatus outputRefused (plainRequest .output) server =
        some Module.runtimeWrapper.statusError ∧
      (∃ handled resp, handleProtocolEvent (fun _ => 0) outputRefused (plainRequest .output) server
          ⟨[], false, []⟩ = some handled ∧ handled.transmitted = [resp] ∧
        resp.flags.success = true ∧ resp.payload = [0]) ∧
      ¬ HandlesEvent (fun _ => 0) outputRefused (plainRequest .output) server ⟨[], false, []⟩ := by
  let sent (server : Server smallConfig ℕ) : List (Bool × List UInt8) :=
    match handleProtocolEvent (fun _ => 0) outputRefused (plainRequest .output) server
      ⟨[], false, []⟩ with
    | none => []
    | some handled => handled.transmitted.map fun resp => (resp.flags.success, resp.payload)
  let p (server : Server smallConfig ℕ) : Bool :=
    decide (operationStatus outputRefused (plainRequest .output) server =
      some Module.runtimeWrapper.statusError ∧ sent server = [(true, [0])])
  have hrun : (run (serverStep (fun _ => 0) outputRefused)
      (initServer outputRefused statusOk (bootServer smallConfig 0)).2 inferenceSteps).any p =
        true := by
    decide +kernel
  obtain ⟨server, hreach, hp⟩ := exists_reaches hrun
  obtain ⟨hop, hsent⟩ := of_decide_eq_true hp
  simp only [sent] at hsent
  split at hsent
  · cases hsent
  next handled hh =>
    obtain ⟨resp, hresp, hpair⟩ := List.map_eq_singleton_iff.mp hsent
    obtain ⟨hsuccess, hpayload⟩ := Prod.mk.inj hpair
    refine ⟨server, hreach, hop, ⟨handled, resp, hh, hresp, hsuccess, hpayload⟩, ?_⟩
    intro hall
    obtain ⟨handled', hh', resp', hresp', -, hr⟩ := hall
    obtain rfl : handled = handled' := Option.some.inj (hh.symm.trans hh')
    obtain rfl : resp = resp' := List.head_eq_of_cons_eq (hresp.symm.trans hresp')
    exact absurd ((hr.success_iff _ hop).mp hsuccess) (by decide)

/-- The output that was computed is sent. -/
theorem handlesEvent_iff_answerable_output :
    ∃ server : Server smallConfig ℕ,
      Reaches (serverStep (fun _ => 0) neverFails)
        (initServer neverFails statusOk (bootServer smallConfig 0)).2 inferenceSteps server ∧
      HandlesEvent (fun _ => 0) neverFails (plainRequest .output) server ⟨[], false, []⟩ := by
  let p (server : Server smallConfig ℕ) : Bool :=
    decide (server.model.modelState = .inferenceDone ∧
      server.model.modelGetOutputSize = some (.ok 1))
  have hrun : (run (serverStep (fun _ => 0) neverFails)
      (initServer neverFails statusOk (bootServer smallConfig 0)).2 inferenceSteps).any p =
        true := by
    decide +kernel
  obtain ⟨server, hreach, hp⟩ := exists_reaches hrun
  obtain ⟨hstate, hsize⟩ := of_decide_eq_true hp
  refine ⟨server, hreach, (handlesEvent_iff_answerable _ _ _ _ _ hreach).mpr ⟨?_, ?_⟩⟩
  · intro _
    rw [hsize]
    rfl
  · intro _
    exact ⟨hstate ▸ Nat.le_refl _, 1, hsize, by decide, rfl⟩

end KenningRuntime
