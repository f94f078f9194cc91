import KenningRuntime.Library.Trace
import KenningRuntime.Readiness
import KenningRuntime.Responses

/-! The order in which the runtime is called: a trace of all calls, and what comes before each. -/
namespace KenningRuntime
open Transition Trace

/-- What a trace records: that the specification was loaded, that the model layer was initialized or
reset, and the calls into the runtime with their status. -/
inductive TraceEvent where
  | structLoaded
  | initialized
  | reset
  | initWeights (status : Status)
  | initInput (status : Status)
  | runModel (bench : Bool) (status : Status)
  | getModelOutput (status : Status)
deriving DecidableEq

namespace TraceEvent

/-- The step of the model layer that an event has done, if it has succeeded. -/
def achieves : TraceEvent → Option ModelState
  | structLoaded => some .structLoaded
  | initialized => some .initialized
  | reset => some .uninitialized
  | initWeights status => if status = statusOk then some .weightsLoaded else none
  | initInput status => if status = statusOk then some .inputLoaded else none
  | runModel _ status => if status = statusOk then some .inferenceDone else none
  | getModelOutput _ => none

/-- The step that has to come before a call into the runtime. -/
def needs : TraceEvent → Option ModelState
  | initWeights _ => some .structLoaded
  | initInput _ => some .weightsLoaded
  | runModel _ _ => some .inputLoaded
  | getModelOutput _ => some .inferenceDone
  | structLoaded | initialized | reset => none

end TraceEvent

/-- The step was done, and no lower one since. -/
def DoneSince (state : ModelState) : List TraceEvent → Prop :=
  Since (fun e => e.achieves = some state) (fun e => ∃ lower < state, e.achieves = some lower)

/-- The event comes in order after the others. -/
def InOrder (before : List TraceEvent) (e : TraceEvent) : Prop :=
  ∀ state, e.needs = some state → DoneSince state before

section
variable {S : Type}

/-- A function of the runtime, with a record of its calls. -/
def traced (event : Status → TraceEvent) (f : S → Status × S) (s : S × List TraceEvent) :
    Status × S × List TraceEvent :=
  ((f s.1).1, (f s.1).2, s.2 ++ [event (f s.1).1])

/-- The runtime `R`, with a trace of the calls that are made into it. -/
def tracing (R : RuntimeWrapper S) : RuntimeWrapper (S × List TraceEvent) where
  runtimeInit s := ((R.runtimeInit s.1).1, (R.runtimeInit s.1).2, s.2)
  runtimeInitWeights := traced .initWeights R.runtimeInitWeights
  runtimeInitInput := traced .initInput R.runtimeInitInput
  runtimeRunModel := traced (.runModel false) R.runtimeRunModel
  runtimeRunModelBench := traced (.runModel true) R.runtimeRunModelBench
  runtimeGetModelOutput spec _ buffer s :=
    ((R.runtimeGetModelOutput spec buffer s.1).1, (R.runtimeGetModelOutput spec buffer s.1).2.1,
      (R.runtimeGetModelOutput spec buffer s.1).2.2,
      s.2 ++ [.getModelOutput (R.runtimeGetModelOutput spec buffer s.1).1])
  runtimeGetStatistics bufferSize buffer size s :=
    ((R.runtimeGetStatistics bufferSize buffer size s.1).1,
      (R.runtimeGetStatistics bufferSize buffer size s.1).2.1,
      (R.runtimeGetStatistics bufferSize buffer size s.1).2.2.1,
      (R.runtimeGetStatistics bufferSize buffer size s.1).2.2.2, s.2)
  modelLoader s := (R.modelLoader s.1).map (MsgLoader.lift (Lens.fst S (List TraceEvent)))
  dataLoader s := (R.dataLoader s.1).map (MsgLoader.lift (Lens.fst S (List TraceEvent)))

def tracingLlext (llext : LlextSupport S) : LlextSupport (S × List TraceEvent) where
  loader := llext.loader.lift (Lens.fst S (List TraceEvent))
  loadRuntime size s := ((llext.loadRuntime size s.1).1, (llext.loadRuntime size s.1).2, s.2)

def tracingBuild (B : Build S) : Build (S × List TraceEvent) :=
  ⟨tracing B.runtime, B.llext.map tracingLlext⟩

/-- An event of the model layer itself, at the end of the trace. -/
def Model.mark (e : Option TraceEvent) (m : Model (S × List TraceEvent)) :
    Model (S × List TraceEvent) :=
  {m with runtime := (m.runtime.1, m.runtime.2 ++ e.toList)}

/-- A call of the model layer, and the event if it has loaded the specification, or has initialized or
reset the model layer. -/
def tracedCall (R : RuntimeWrapper S) (m : Model (S × List TraceEvent)) (c : ModelCall) :
    Option (Model (S × List TraceEvent)) :=
  let event : Option TraceEvent :=
    match c with
    | .init => if (m.modelInit (tracing R)).1 = statusOk then some .initialized else none
    | .resetState => some .reset
    | .loadStruct data =>
      if (m.modelLoadStruct data).map Prod.fst = some statusOk then some .structLoaded else none
    | .loadStructFromLoader =>
      if m.modelLoadStructFromLoader.map Prod.fst = some statusOk then some .structLoaded else none
    | _ => none
  (modelStep (tracing R) m c).map (Model.mark event)

variable {cfg : Config}

/-- The callback of a message type, and the event if it has loaded the specification or initialized
the model layer. -/
def tracedCallback (B : Build S) (server : Server cfg (S × List TraceEvent)) (t : MessageType)
    (request : ProtocolEvent) : Option (Server cfg (S × List TraceEvent)) :=
  (msgCallback (tracingBuild B) request server t).map fun answer =>
    let event : Option TraceEvent :=
      match t with
      | .iospec => if answer.status = statusOk then some .structLoaded else none
      | .runtime => if B.llext.isSome ∧ answer.status = statusOk then some .initialized else none
      | _ => none
    {answer.server with model := answer.server.model.mark event}

/-- What happens: a call of the model layer, the callback of some message type for some event, or the
loaders are written to. -/
inductive LayerStep (S : Type) where
  | call (c : ModelCall)
  | callback (t : MessageType) (request : ProtocolEvent)
  | received (iospec : BufLoader modelSpecSize) (s : S)

def layerStep (B : Build S) (server : Server cfg (S × List TraceEvent)) :
    LayerStep S → Option (Server cfg (S × List TraceEvent))
  | .call c => (tracedCall B.runtime server.model c).map fun model => {server with model}
  | .callback t request => tracedCallback B server t request
  | .received iospec s =>
    some {server with model := {server.model with iospec, runtime := (s, server.model.runtime.2)}}

/-! ### The invariant -/

/-- The trace is in order, and every step up to the state of the model layer was done, and not undone
since. -/
structure Model.Backed (m : Model (S × List TraceEvent)) : Prop where
  ordered : Always InOrder m.runtime.2
  done : ∀ state, ModelState.uninitialized < state → state ≤ m.modelState →
    DoneSince state m.runtime.2

theorem ModelState.eq_or_lt {a b : ModelState} (h : a ≤ b) : a = b ∨ a < b := by
  revert h
  cases a <;> cases b <;> decide

variable {m m' : Model (S × List TraceEvent)} {e : TraceEvent}

theorem Model.Backed.of_trace (h : m.Backed) (hs : m'.modelState = m.modelState)
    (hc : m'.runtime.2 = m.runtime.2) : m'.Backed := by
  refine ⟨hc ▸ h.ordered, ?_⟩
  intro state h0 hle
  rw [hc]
  exact h.done state h0 (hs ▸ hle)

/-- A call that has done nothing is added to the trace. -/
theorem Model.Backed.failed (h : m.Backed) (hs : m'.modelState = m.modelState)
    (hc : m'.runtime.2 = m.runtime.2 ++ [e]) (horder : InOrder m.runtime.2 e)
    (hnone : e.achieves = none) : m'.Backed := by
  constructor
  · rw [hc]
    exact h.ordered.concat horder
  · intro state h0 hle
    rw [hc]
    apply Since.concat (h.done state h0 (hs ▸ hle))
    intro hlower
    obtain ⟨lower, -, hachieves⟩ := hlower
    rw [hnone] at hachieves
    cases hachieves

/-- An event that has done a step takes the model layer there, if it was at all lower steps before. -/
theorem Model.Backed.achieved (h : m.Backed) (high : ModelState) (hs : m'.modelState = high)
    (hc : m'.runtime.2 = m.runtime.2 ++ [e]) (horder : InOrder m.runtime.2 e)
    (hachieves : e.achieves = some high)
    (hlower : ∀ state, ModelState.uninitialized < state → state < high → state ≤ m.modelState) :
    m'.Backed := by
  constructor
  · rw [hc]
    exact h.ordered.concat horder
  intro state h0 hle
  rw [hs] at hle
  rw [hc]
  -- The step itself is the last event; those below it were done before, and are not undone by it.
  rcases ModelState.eq_or_lt hle with rfl | hlt
  · exact Since.last _ hachieves
  · apply Since.concat (h.done state h0 (hlower state h0 hlt))
    intro hundone
    obtain ⟨lower, hlt', hlow⟩ := hundone
    rw [hachieves] at hlow
    cases hlow
    exact absurd hlt' (ModelState.not_lt.mpr hle)

/-! ### The functions of the model layer -/

theorem Model.Backed.calls {low high : ModelState} {ready : Prop} (event : Status → TraceEvent)
    {f : S → Status × S} (hneeds : ∀ status, (event status).needs = some low)
    (hachieves : ∀ status, (event status).achieves = if status = statusOk then some high else none)
    (h0 : ModelState.uninitialized < low) (hlow : ∀ state, state < high → state ≤ low)
    (h : m.Backed) (hcalls : Model.CallsRuntime low high ready (traced event f) m m') :
    m'.Backed := by
  -- The state of the model layer is at least `low`, so that step was done.
  have horder : low ≤ m.modelState → ∀ status, InOrder m.runtime.2 (event status) := by
    intro hle status state hstate
    rw [hneeds] at hstate
    cases hstate
    exact h.done low h0 hle
  cases hcalls with
  | refused => exact h
  | failed hle _ hs =>
    have hnone := (hachieves (f m.runtime.1).1).trans (if_neg hs)
    exact h.failed rfl rfl (horder hle _) hnone
  | done hle _ hs =>
    have hsome := (hachieves (f m.runtime.1).1).trans (if_pos hs)
    refine h.achieved high rfl rfl (horder hle _) hsome ?_
    intro state _ hlt
    exact ModelState.le_trans (hlow state hlt) hle

/-- Between two steps that follow each other there is no other. -/
theorem ModelState.le_of_lt_next {low high state : ModelState} (hnext : high.number = low.number+1)
    (h : state < high) : state ≤ low := by
  have hlt := ModelState.lt_iff.mp h
  rw [hnext] at hlt
  exact Nat.le_of_lt_succ hlt

variable (R : RuntimeWrapper S)

theorem backed_loadWeightsFromLoader (h : m.Backed) :
    (m.modelLoadWeightsFromLoader (tracing R)).2.Backed :=
  h.calls .initWeights (fun _ => rfl) (fun _ => rfl) (by decide)
    (fun _ => ModelState.le_of_lt_next rfl) (Model.modelLoadWeightsFromLoader_calls (tracing R))

theorem backed_loadInputFromLoader {expectedSize : ℕ} {status : Status} (h : m.Backed)
    (hload : m.modelLoadInputFromLoader (tracing R) expectedSize = some (status, m')) : m'.Backed :=
  h.calls .initInput (fun _ => rfl) (fun _ => rfl) (by decide)
    (fun _ => ModelState.le_of_lt_next rfl) (Model.modelLoadInputFromLoader_calls (tracing R) hload)

theorem backed_runWith (bench : Bool) (f : S → Status × S) (h : m.Backed) :
    (m.runWith (traced (.runModel bench) f)).2.Backed :=
  h.calls (.runModel bench) (fun _ => rfl) (fun _ => rfl) (by decide)
    (fun _ => ModelState.le_of_lt_next rfl) (Model.runWith_calls _)

theorem backed_getOutput {bufferSize n size : ℕ} {buffer : Buffer n}
    {r : Model.Retrieved (S × List TraceEvent) n} (h : m.Backed)
    (hget : m.modelGetOutput (tracing R) bufferSize buffer size = some r) : r.model.Backed := by
  have hasks := Model.modelGetOutput_asks (tracing R) hget
  generalize r.model = m' at hasks ⊢
  cases hasks with
  | refused => exact h
  | asked hle =>
    refine h.failed rfl rfl ?_ rfl
    intro state hstate
    cases hstate
    exact h.done _ (by decide) hle

theorem backed_getStatistics {bufferSize n size : ℕ} {buffer : Buffer n} (h : m.Backed) :
    (m.modelGetStatistics (tracing R) bufferSize buffer size).model.Backed := by
  have hasks := Model.modelGetStatistics_asks (tracing R) bufferSize buffer size (m := m)
  generalize (m.modelGetStatistics (tracing R) bufferSize buffer size).model = m' at hasks ⊢
  cases hasks with
  | refused => exact h
  | asked => exact h.of_trace rfl rfl

theorem inOrder_of_needs {before : List TraceEvent} (h : e.needs = none) : InOrder before e := by
  intro state hstate
  rw [h] at hstate
  cases hstate

theorem Model.Backed.mark_none (h : m.Backed) : (m.mark none).Backed :=
  h.of_trace rfl (List.append_nil _)

/-- A successful initialization, and a reset, leave no step to back. -/
theorem Model.Backed.mark_low (h : m.Backed) (hneeds : e.needs = none)
    (hachieves : e.achieves = some m'.modelState) (hlow : m'.modelState ≤ .initialized)
    (hc : m'.runtime.2 = m.runtime.2) : (m'.mark (some e)).Backed := by
  refine h.achieved m'.modelState rfl ?_ (inOrder_of_needs hneeds) hachieves ?_
  · exact congrArg (· ++ [e]) hc
  · intro state h0 hlt
    have hpos : 0 < state.number := ModelState.lt_iff.mp h0
    have hle : m'.modelState.number ≤ 1 := ModelState.le_iff.mp hlow
    have hlt' := ModelState.lt_iff.mp hlt
    omega

theorem backed_init (h : m.Backed) :
    ((m.modelInit (tracing R)).2.mark
      (if (m.modelInit (tracing R)).1 = statusOk then some .initialized else none)).Backed := by
  by_cases hs : (R.runtimeInit m.runtime.1).1 = statusOk
  · have hinit : m.modelInit (tracing R) = (statusOk, {m with
        runtime := ((R.runtimeInit m.runtime.1).2, m.runtime.2)
        modelState := .initialized
        iospecPrepared := true }) := by
      rw [Model.modelInit]
      exact if_neg (not_not_intro hs)
    rw [hinit, if_pos rfl]
    exact h.mark_low rfl rfl (Nat.le_refl _) rfl
  · have hinit : m.modelInit (tracing R) = ((R.runtimeInit m.runtime.1).1, {m with
        runtime := ((R.runtimeInit m.runtime.1).2, m.runtime.2) }) := by
      rw [Model.modelInit]
      exact if_pos hs
    rw [hinit, if_neg hs]
    apply Model.Backed.mark_none
    exact h.of_trace rfl rfl

theorem backed_loadStructFromLoader {status : Status} (h : m.Backed)
    (hload : m.modelLoadStructFromLoader = some (status, m')) :
    (m'.mark (if status = statusOk then some .structLoaded else none)).Backed := by
  by_cases hs : status = statusOk
  · subst hs
    obtain ⟨hinit, -, rfl⟩ := Model.modelLoadStructFromLoader_ok hload
    rw [if_pos rfl]
    refine h.achieved .structLoaded rfl rfl (inOrder_of_needs rfl) rfl ?_
    intro state _ hlt
    exact ModelState.le_trans (ModelState.le_of_lt_next rfl hlt) hinit
  · obtain rfl := Model.modelLoadStructFromLoader_ne hload hs
    rw [if_neg hs]
    exact h.mark_none

theorem backed_loadStruct {data : Option (List UInt8)} {status : Status} (h : m.Backed)
    (hload : m.modelLoadStruct data = some (status, m')) :
    (m'.mark (if status = statusOk then some .structLoaded else none)).Backed := by
  have hptr : Module.model.statusInvPtr ≠ statusOk := status_ne_ok _ (by decide)
  unfold Model.modelLoadStruct at hload
  split at hload
  · cases hload
    rw [if_neg hptr]
    exact h.mark_none
  split at hload
  · cases hload
    rw [if_neg hptr]
    exact h.mark_none
  split at hload
  split at hload
  · next hne =>
    cases hload
    rw [if_neg hne]
    exact Model.Backed.mark_none (h.of_trace rfl rfl)
  · next iospec _ _ =>
    exact backed_loadStructFromLoader (m := {m with iospec}) (h.of_trace rfl rfl) hload

/-- The loaders of the runtime write nothing into the trace. -/
theorem traced_loader {ldr : MsgLoader (S × List TraceEvent)} {f : S → Option (MsgLoader S)}
    {s : S × List TraceEvent}
    (h : (f s.1).map (MsgLoader.lift (Lens.fst S (List TraceEvent))) = some ldr) (data : List UInt8) :
    (ldr.save (ldr.reset s).2 data).2.2 = s.2 := by
  obtain ⟨ldr', -, rfl⟩ := Option.map_eq_some_iff.mp h
  rfl

theorem backed_loadWeights (data : Option (List UInt8)) (h : m.Backed) :
    (m.modelLoadWeights (tracing R) data).2.Backed := by
  unfold Model.modelLoadWeights
  split
  · exact h
  · exact h
  next data ldr hldr =>
    have htrace := traced_loader hldr data
    split
    next hsave =>
      rw [hsave] at htrace
      split
      · exact h.of_trace rfl htrace
      · apply backed_loadWeightsFromLoader R
        exact h.of_trace rfl htrace

theorem backed_loadInput {data : Option (List UInt8)} {status : Status} (h : m.Backed)
    (hload : m.modelLoadInput (tracing R) data = some (status, m')) : m'.Backed := by
  unfold Model.modelLoadInput at hload
  split at hload
  · cases hload
    exact h
  · cases hload
    exact h
  next data ldr hldr =>
    have htrace := traced_loader hldr data
    split at hload
    next hsave =>
      rw [hsave] at htrace
      split at hload
      · cases hload
        exact h.of_trace rfl htrace
      · refine backed_loadInputFromLoader R ?_ hload
        exact h.of_trace rfl htrace

/-! ### The steps -/

theorem backed_call {c : ModelCall} (h : m.Backed) (hcall : tracedCall R m c = some m') :
    m'.Backed := by
  obtain ⟨m₁, hstep, rfl⟩ := Option.map_eq_some_iff.mp hcall
  cases c with
  | init =>
    cases hstep
    exact backed_init R h
  | resetState =>
    cases hstep
    exact h.mark_low rfl rfl (by show ModelState.uninitialized ≤ ModelState.initialized; decide) rfl
  | loadStruct data =>
    obtain ⟨⟨status, _⟩, hload, rfl⟩ := Option.map_eq_some_iff.mp hstep
    simp only [hload, Option.map_some, Option.some.injEq]
    exact backed_loadStruct h hload
  | loadStructFromLoader =>
    obtain ⟨⟨status, _⟩, hload, rfl⟩ := Option.map_eq_some_iff.mp hstep
    simp only [hload, Option.map_some, Option.some.injEq]
    exact backed_loadStructFromLoader h hload
  | loadWeights data =>
    cases hstep
    exact (backed_loadWeights R data h).mark_none
  | loadWeightsFromLoader =>
    cases hstep
    exact (backed_loadWeightsFromLoader R h).mark_none
  | loadInput data =>
    obtain ⟨⟨status, _⟩, hload, rfl⟩ := Option.map_eq_some_iff.mp hstep
    exact (backed_loadInput R h hload).mark_none
  | loadInputFromLoader expectedSize =>
    obtain ⟨⟨status, _⟩, hload, rfl⟩ := Option.map_eq_some_iff.mp hstep
    exact (backed_loadInputFromLoader R h hload).mark_none
  | run =>
    cases hstep
    exact (backed_runWith false R.runtimeRunModel h).mark_none
  | runBench =>
    cases hstep
    exact (backed_runWith true R.runtimeRunModelBench h).mark_none
  | getOutput bufferSize n buffer =>
    obtain ⟨r, hget, rfl⟩ := Option.map_eq_some_iff.mp hstep
    exact (backed_getOutput R h hget).mark_none
  | getStatistics bufferSize n buffer =>
    cases hstep
    exact (backed_getStatistics R h).mark_none

variable (B : Build S) {server server' : Server cfg (S × List TraceEvent)}

/-- A callback that is called for an event of another type rejects it. -/
theorem validateHeader_cases {t : MessageType} {request : ProtocolEvent} {answer : Answer cfg S}
    {callback : Option (Answer cfg S)} {server : Server cfg S}
    (h : validateHeader t request server callback = some answer) :
    (answer = ⟨callbacksStatusInvMsgType, 0, server⟩) ∨ callback = some answer := by
  rw [validateHeader] at h
  split at h
  · cases h
    exact Or.inl rfl
  · exact Or.inr h

theorem backed_callback {t : MessageType} {request : ProtocolEvent} (h : server.model.Backed)
    (hcall : tracedCallback B server t request = some server') : server'.model.Backed := by
  obtain ⟨answer, hanswer, rfl⟩ := Option.map_eq_some_iff.mp hcall
  have hinv : callbacksStatusInvMsgType ≠ statusOk := status_ne_ok _ (by decide)
  cases t with
  | ping =>
    obtain ⟨status, connected, hping⟩ := pingCallback_answer request server
    cases hping.symm.trans hanswer
    exact h.mark_none
  | data =>
    rcases validateHeader_cases hanswer with rfl | hdata
    · exact h.mark_none
    · split at hdata
      · cases hdata
      · next hload =>
        cases hdata
        exact (backed_loadInputFromLoader B.runtime h hload).mark_none
  | model =>
    rcases validateHeader_cases hanswer with rfl | hmodel
    · exact h.mark_none
    · cases hmodel
      exact (backed_loadWeightsFromLoader B.runtime h).mark_none
  | process =>
    rcases validateHeader_cases hanswer with rfl | hprocess
    · exact h.mark_none
    · cases hprocess
      exact (backed_runWith true B.runtime.runtimeRunModelBench h).mark_none
  | output =>
    rcases validateHeader_cases hanswer with rfl | houtput
    · exact h.mark_none
    · split at houtput
      · cases houtput
      · next hget =>
        cases houtput
        exact (backed_getOutput B.runtime h hget).mark_none
  | stats =>
    rcases validateHeader_cases hanswer with rfl | hstats
    · exact h.mark_none
    · cases hstats
      exact (backed_getStatistics B.runtime h).mark_none
  | iospec =>
    rcases validateHeader_cases hanswer with rfl | hiospec
    · simp only [if_neg hinv]
      exact h.mark_none
    · split at hiospec
      · cases hiospec
      · next hload =>
        cases hiospec
        exact backed_loadStructFromLoader h hload
  | runtime =>
    rcases hllext : B.llext with _ | llext
    · have htraced : (tracingBuild B).llext = none := congrArg (Option.map _) hllext
      simp only [msgCallback, runtimeCallback, htraced] at hanswer
      cases hanswer
      exact h.mark_none
    have htraced : (tracingBuild B).llext = some (tracingLlext llext) := congrArg (Option.map _) hllext
    simp only [msgCallback, runtimeCallback, htraced] at hanswer
    simp only [Option.isSome_some, true_and]
    rcases validateHeader_cases hanswer with rfl | hruntime
    · simp only [if_neg hinv]
      exact h.mark_none
    -- The extension is loaded first, and the model layer initialized if that succeeds.
    have hloaded : Model.Backed {server.model with
        runtime := ((tracingLlext llext).loadRuntime request.payloadSize server.model.runtime).2 } :=
      h.of_trace rfl rfl
    by_cases hs : ((tracingLlext llext).loadRuntime request.payloadSize server.model.runtime).1 = statusOk
    · simp only [hs, if_true] at hruntime
      cases hruntime
      exact backed_init B.runtime hloaded
    · simp only [hs, if_false] at hruntime
      cases hruntime
      simp only [hs, if_false]
      exact hloaded.mark_none
  | status | traceData | optimizers | optimizeModel | unoptimizedModel | logs =>
    cases hanswer
    exact h.mark_none

theorem layerStep_backed {l : LayerStep S} (h : server.model.Backed)
    (hs : layerStep B server l = some server') : server'.model.Backed := by
  cases l with
  | call c =>
    obtain ⟨m', hcall, rfl⟩ := Option.map_eq_some_iff.mp hs
    exact backed_call B.runtime h hcall
  | callback t request => exact backed_callback B h hs
  | received iospec s =>
    cases hs
    exact h.of_trace rfl rfl

/-- In every run from `MODEL_STATE_UNINITIALIZED` on the runtime is called in order: for the weights
after the specification was loaded, for the input after the weights, for an inference after an input,
and for the output after an inference. -/
theorem reaches_inOrder {ls : List (LayerStep S)} (hstate : server.model.modelState = .uninitialized)
    (htrace : server.model.runtime.2 = [])
    (hreach : Reaches (layerStep B) server ls server') :
    Always InOrder server'.model.runtime.2 := by
  -- Nothing was called, and no state lies between `MODEL_STATE_UNINITIALIZED` and the first one.
  have hbacked : server.model.Backed := by
    constructor
    · rw [htrace]
      exact always_nil
    · intro state h0 hle
      rw [hstate] at hle
      exact absurd h0 (ModelState.not_lt.mpr hle)
  exact (hreach.invariant_always (fun _ _ _ h hs => layerStep_backed B h hs) hbacked).ordered

/-- A reception is such a write: it leaves the model layer and the trace alone. -/
theorem protocolListen_received {rx : Rx} {r : ListenResult (Server cfg (S × List TraceEvent))}
    (h : protocolListen cfg (loaderPicker (tracingBuild B)) server rx = some r) :
    ∃ iospec s, layerStep B server (.received iospec s) = some r.world := by
  rcases protocolListen_wrote h with hw | ⟨-, iospec, hw⟩ | ⟨t, ldr, s, -, hldr, hwrote, hw⟩
  · exact ⟨server.model.iospec, server.model.runtime.1, congrArg some hw.symm⟩
  · exact ⟨iospec, server.model.runtime.1, congrArg some hw.symm⟩
  -- The trace is not in the component that any of the loaders writes to.
  have hlift (ldr' : MsgLoader S)
      (hwrote' : Wrote cfg (ldr'.lift (Lens.fst S (List TraceEvent))) server.model.runtime s) :
      ∃ iospec s, layerStep B server (.received iospec s) = some r.world := by
    have htrace : s.2 = server.model.runtime.2 :=
      hwrote'.keeps (P := fun s : S × List TraceEvent => s.2 = server.model.runtime.2) rfl
        fun _ _ hs => hs
    refine ⟨server.model.iospec, s.1, ?_⟩
    rw [hw, ← Prod.mk.eta (p := s), htrace]
    rfl
  cases hldr with
  | data hdata =>
    obtain ⟨ldr', -, rfl⟩ := Option.map_eq_some_iff.mp hdata
    exact hlift ldr' hwrote
  | model hmodel =>
    obtain ⟨ldr', -, rfl⟩ := Option.map_eq_some_iff.mp hmodel
    exact hlift ldr' hwrote
  | runtime hllext =>
    obtain ⟨llext, -, rfl⟩ := Option.map_eq_some_iff.mp hllext
    exact hlift llext.loader hwrote

end

/-- An inference, by calls and by callbacks. -/
def layerSteps : List (LayerStep ℕ) :=
  [.call .init, .call (.loadStruct (some oneByteSpec)), .callback .model (plainRequest .model),
    .call (.loadInputFromLoader 1), .callback .process (plainRequest .process),
    .callback .output (plainRequest .output)]

theorem reaches_inOrder_inference :
    ∃ server : Server smallConfig (ℕ × List TraceEvent),
      Reaches (layerStep neverFails) (bootServer smallConfig (0, [])) layerSteps server ∧
      server.model.runtime.2 = [.initialized, .structLoaded, .initWeights statusOk,
        .initInput statusOk, .runModel true statusOk, .getModelOutput statusOk] ∧
      Always InOrder server.model.runtime.2 := by
  let p (server : Server smallConfig (ℕ × List TraceEvent)) : Bool :=
    decide (server.model.runtime.2 = [.initialized, .structLoaded, .initWeights statusOk,
      .initInput statusOk, .runModel true statusOk, .getModelOutput statusOk])
  have hrun : (run (layerStep neverFails) (bootServer smallConfig (0, [])) layerSteps).any p =
      true := by
    decide +kernel
  obtain ⟨server, hreach, hp⟩ := exists_reaches hrun
  exact ⟨server, hreach, of_decide_eq_true hp, reaches_inOrder neverFails rfl rfl hreach⟩

end KenningRuntime
