import KenningRuntime.Library.Transition
import KenningRuntime.ModelFrame

/-! Whether the state of the model layer tells what the runtime last did. -/
namespace KenningRuntime
open Transition

/-- The status of the most recent call of each kind; `none` before the first one. -/
structure RecentCalls where
  initWeights : Option Status
  initInput : Option Status
  run : Option Status

/-- The runtime `R`, with a record of the calls that are made into it. -/
def recording {S : Type} (R : RuntimeWrapper S) : RuntimeWrapper (S × RecentCalls) where
  runtimeInit s := ((R.runtimeInit s.1).1, (R.runtimeInit s.1).2, s.2)
  runtimeInitWeights s :=
    ((R.runtimeInitWeights s.1).1, (R.runtimeInitWeights s.1).2,
      {s.2 with initWeights := some (R.runtimeInitWeights s.1).1})
  runtimeInitInput s :=
    ((R.runtimeInitInput s.1).1, (R.runtimeInitInput s.1).2,
      {s.2 with initInput := some (R.runtimeInitInput s.1).1})
  runtimeRunModel s :=
    ((R.runtimeRunModel s.1).1, (R.runtimeRunModel s.1).2,
      {s.2 with run := some (R.runtimeRunModel s.1).1})
  runtimeRunModelBench s :=
    ((R.runtimeRunModelBench s.1).1, (R.runtimeRunModelBench s.1).2,
      {s.2 with run := some (R.runtimeRunModelBench s.1).1})
  runtimeGetModelOutput spec _ buffer s :=
    ((R.runtimeGetModelOutput spec buffer s.1).1, (R.runtimeGetModelOutput spec buffer s.1).2.1,
      (R.runtimeGetModelOutput spec buffer s.1).2.2, s.2)
  runtimeGetStatistics bufferSize buffer size s :=
    ((R.runtimeGetStatistics bufferSize buffer size s.1).1,
      (R.runtimeGetStatistics bufferSize buffer size s.1).2.1,
      (R.runtimeGetStatistics bufferSize buffer size s.1).2.2.1,
      (R.runtimeGetStatistics bufferSize buffer size s.1).2.2.2, s.2)
  modelLoader s := (R.modelLoader s.1).map (MsgLoader.lift (Lens.fst S RecentCalls))
  dataLoader s := (R.dataLoader s.1).map (MsgLoader.lift (Lens.fst S RecentCalls))

section
variable {S : Type} (R : RuntimeWrapper S)

/-- The state of the model layer is backed by the most recent calls into the runtime. -/
structure Ready (m : Model (S × RecentCalls)) : Prop where
  weights : ModelState.weightsLoaded ≤ m.modelState → m.runtime.2.initWeights = some statusOk
  input : ModelState.inputLoaded ≤ m.modelState → m.runtime.2.initInput = some statusOk
  run : ModelState.inferenceDone ≤ m.modelState → m.runtime.2.run = some statusOk

/-- The state of the runtime after data was given to a loader; `none` if there is no loader or no
data, or if the loader refuses the data. -/
def afterLoad (ldr : Option (MsgLoader S)) (data : Option (List UInt8)) (s : S) : Option S :=
  match data, ldr with
  | some data, some ldr =>
    if (ldr.save (ldr.reset s).2 data).1 = statusOk then some (ldr.save (ldr.reset s).2 data).2
    else none
  | _, _ => none

/-- The condition on a call: what the state says was done before does not fail when it is done
again. The function of the runtime is called only behind the checks that come before it. -/
def Repeats (m : Model (S × RecentCalls)) : ModelCall → Prop
  | .loadWeightsFromLoader => ModelState.weightsLoaded ≤ m.modelState →
      (R.runtimeInitWeights m.runtime.1).1 = statusOk
  | .loadWeights data => ∀ s, afterLoad (R.modelLoader m.runtime.1) data m.runtime.1 = some s →
      ModelState.weightsLoaded ≤ m.modelState → (R.runtimeInitWeights s).1 = statusOk
  | .loadInputFromLoader expectedSize => ModelState.inputLoaded ≤ m.modelState →
      m.modelGetInputSize = some (.ok expectedSize) → (R.runtimeInitInput m.runtime.1).1 = statusOk
  | .loadInput data => ∀ s, afterLoad (R.dataLoader m.runtime.1) data m.runtime.1 = some s →
      ModelState.inputLoaded ≤ m.modelState →
      m.modelGetInputSize = some (.ok (data.getD []).length) → (R.runtimeInitInput s).1 = statusOk
  | .run => ModelState.inferenceDone ≤ m.modelState →
      (R.runtimeRunModel m.runtime.1).1 = statusOk
  | .runBench => ModelState.inferenceDone ≤ m.modelState →
      (R.runtimeRunModelBench m.runtime.1).1 = statusOk
  | _ => True

variable {m m' : Model (S × RecentCalls)}

theorem Ready.of_le (h : Ready m) (hs : m'.modelState ≤ m.modelState)
    (hc : m'.runtime.2 = m.runtime.2) : Ready m' := by
  refine ⟨?_, ?_, ?_⟩
  · intro hle
    rw [hc]
    exact h.weights (ModelState.le_trans hle hs)
  · intro hle
    rw [hc]
    exact h.input (ModelState.le_trans hle hs)
  · intro hle
    rw [hc]
    exact h.run (ModelState.le_trans hle hs)

/-- What the loaders do to the runtime and to the specification is not recorded. -/
theorem Ready.of_loaders (h : Ready m) (s : S) (iospec : BufLoader modelSpecSize) :
    Ready {m with runtime := (s, m.runtime.2), iospec} := h.of_le (Nat.le_refl _) rfl

/-- Below `MODEL_STATE_WEIGHTS_LOADED` nothing is claimed. -/
theorem Ready.of_lt (h : m.modelState < .weightsLoaded) : Ready m := by
  have hlt := ModelState.lt_iff.mp h
  refine ⟨fun hle => ?_, fun hle => ?_, fun hle => ?_⟩ <;>
    exact absurd (ModelState.le_iff.mp hle) (by simp only [ModelState.number] at hlt ⊢; omega)

theorem ready_weights (h : Ready m) :
    Ready (m.modelLoadWeightsFromLoader (recording R)).2 ↔
      (ModelState.weightsLoaded ≤ m.modelState →
        (R.runtimeInitWeights m.runtime.1).1 = statusOk) := by
  have hcalls := Model.modelLoadWeightsFromLoader_calls (recording R) (m := m)
  generalize (m.modelLoadWeightsFromLoader (recording R)).2 = m' at hcalls ⊢
  cases hcalls with
  | refused hno =>
    refine iff_of_true h ?_
    intro hle
    exact absurd trivial (hno (ModelState.le_trans (by decide) hle))
  | failed _ _ hs =>
    constructor
    · intro hr hle
      exact Option.some.inj (hr.weights hle)
    · intro hok
      exact ⟨fun hle => absurd (hok hle) hs, h.input, h.run⟩
  | done _ _ hs =>
    -- The state goes to `MODEL_STATE_WEIGHTS_LOADED`, whatever it was.
    refine iff_of_true ⟨fun _ => congrArg some hs, ?_, ?_⟩ fun _ => hs
    · intro hle
      exact absurd hle (by show ¬ ModelState.inputLoaded ≤ ModelState.weightsLoaded; decide)
    · intro hle
      exact absurd hle (by show ¬ ModelState.inferenceDone ≤ ModelState.weightsLoaded; decide)

theorem ready_run (runtimeRun : S → Status × S) (h : Ready m) :
    Ready (m.runWith (fun s => ((runtimeRun s.1).1, (runtimeRun s.1).2,
        {s.2 with run := some (runtimeRun s.1).1})) ).2 ↔
      (ModelState.inferenceDone ≤ m.modelState → (runtimeRun m.runtime.1).1 = statusOk) := by
  have hcalls := Model.runWith_calls (m := m) fun s : S × RecentCalls =>
    ((runtimeRun s.1).1, (runtimeRun s.1).2, {s.2 with run := some (runtimeRun s.1).1})
  generalize (m.runWith _).2 = m' at hcalls ⊢
  cases hcalls with
  | refused hno =>
    refine iff_of_true h ?_
    intro hle
    exact absurd trivial (hno (ModelState.le_trans (by decide) hle))
  | failed _ _ hs =>
    constructor
    · intro hr hle
      exact Option.some.inj (hr.run hle)
    · intro hok
      exact ⟨h.weights, h.input, fun hle => absurd (hok hle) hs⟩
  | done hle _ hs =>
    -- The state is high enough to run, so what it says of the weights and the input stays backed.
    refine iff_of_true ⟨?_, fun _ => h.input hle, fun _ => congrArg some hs⟩ fun _ => hs
    exact fun _ => h.weights (ModelState.le_trans (by decide) hle)

theorem ready_input (expectedSize : ℕ) (h : Ready m) :
    (∀ m', (m.modelLoadInputFromLoader (recording R) expectedSize).map Prod.snd = some m' →
        Ready m') ↔
      (ModelState.inputLoaded ≤ m.modelState → m.modelGetInputSize = some (.ok expectedSize) →
        (R.runtimeInitInput m.runtime.1).1 = statusOk) := by
  constructor
  · intro hall hle hsize
    have hsome : (m.modelLoadInputFromLoader (recording R) expectedSize).isSome = true := by
      rw [Model.modelLoadInputFromLoader_isSome, hsize]
      exact fun _ => rfl
    obtain ⟨⟨status, m'⟩, hload⟩ := Option.isSome_iff_exists.mp hsome
    have hr := hall m' (by rw [hload]; rfl)
    cases Model.modelLoadInputFromLoader_calls (recording R) hload with
    | refused hno => exact absurd hsize (hno (ModelState.le_trans (by decide) hle))
    | failed => exact Option.some.inj (hr.input hle)
    | done _ _ hs => exact hs
  · intro hok m' hm'
    obtain ⟨⟨status, m₁⟩, hload, rfl⟩ := Option.map_eq_some_iff.mp hm'
    show Ready m₁
    cases Model.modelLoadInputFromLoader_calls (recording R) hload with
    | refused => exact h
    | failed _ hsize hs => exact ⟨h.weights, fun hle => absurd (hok hle hsize) hs, h.run⟩
    | done hle _ hs =>
      refine ⟨fun _ => h.weights hle, fun _ => congrArg some hs, ?_⟩
      intro hdone
      exact absurd hdone (by show ¬ ModelState.inferenceDone ≤ ModelState.inputLoaded; decide)

theorem afterLoad_some {ldr : MsgLoader S} {data : List UInt8} {s : S}
    (hs : (ldr.save (ldr.reset s).2 data).1 = statusOk) :
    afterLoad (some ldr) (some data) s = some (ldr.save (ldr.reset s).2 data).2 := if_pos hs

theorem afterLoad_none {ldr : MsgLoader S} {data : List UInt8} {s : S}
    (hs : (ldr.save (ldr.reset s).2 data).1 ≠ statusOk) :
    afterLoad (some ldr) (some data) s = none := if_neg hs

theorem modelLoadWeights_recording (data : Option (List UInt8)) :
    match afterLoad (R.modelLoader m.runtime.1) data m.runtime.1 with
    | some s => (m.modelLoadWeights (recording R) data).2 =
        (Model.modelLoadWeightsFromLoader (recording R) {m with runtime := (s, m.runtime.2)}).2
    | none => ∃ s, (m.modelLoadWeights (recording R) data).2 =
        {m with runtime := (s, m.runtime.2)} := by
  rcases data with _ | data
  · exact ⟨m.runtime.1, rfl⟩
  -- Without a loader nothing happens.
  rcases hldr : R.modelLoader m.runtime.1 with _ | ldr
  · have hrec : (recording R).modelLoader m.runtime = none := congrArg (Option.map _) hldr
    refine ⟨m.runtime.1, ?_⟩
    simp only [Model.modelLoadWeights, hrec]
  have hrec : (recording R).modelLoader m.runtime = some (ldr.lift (Lens.fst S RecentCalls)) :=
    congrArg (Option.map _) hldr
  by_cases hs : (ldr.save (ldr.reset m.runtime.1).2 data).1 = statusOk
  · rw [afterLoad_some hs]
    simp only [Model.modelLoadWeights, hrec, MsgLoader.lift, Lens.fst_get, Lens.fst_set, hs,
      ne_eq, not_true_eq_false, if_false]
  · rw [afterLoad_none hs]
    simp only [Model.modelLoadWeights, hrec, MsgLoader.lift, Lens.fst_get, Lens.fst_set, hs,
      ne_eq, not_false_eq_true, if_true]
    exact ⟨_, rfl⟩

theorem modelLoadInput_recording (data : Option (List UInt8)) :
    match afterLoad (R.dataLoader m.runtime.1) data m.runtime.1 with
    | some s => m.modelLoadInput (recording R) data =
        Model.modelLoadInputFromLoader (recording R) (data.getD []).length
          {m with runtime := (s, m.runtime.2)}
    | none => ∃ s status, m.modelLoadInput (recording R) data =
        some (status, {m with runtime := (s, m.runtime.2)}) := by
  rcases data with _ | data
  · exact ⟨m.runtime.1, _, rfl⟩
  rcases hldr : R.dataLoader m.runtime.1 with _ | ldr
  · have hrec : (recording R).dataLoader m.runtime = none := congrArg (Option.map _) hldr
    refine ⟨m.runtime.1, Module.model.statusInvPtr, ?_⟩
    simp only [Model.modelLoadInput, hrec]
  have hrec : (recording R).dataLoader m.runtime = some (ldr.lift (Lens.fst S RecentCalls)) :=
    congrArg (Option.map _) hldr
  by_cases hs : (ldr.save (ldr.reset m.runtime.1).2 data).1 = statusOk
  · rw [afterLoad_some hs]
    simp only [Model.modelLoadInput, hrec, MsgLoader.lift, Lens.fst_get, Lens.fst_set, hs,
      ne_eq, not_true_eq_false, if_false, Option.getD_some]
  · rw [afterLoad_none hs]
    simp only [Model.modelLoadInput, hrec, MsgLoader.lift, Lens.fst_get, Lens.fst_set, hs,
      ne_eq, not_false_eq_true, if_true]
    exact ⟨_, _, rfl⟩

/-- A specification load leaves the state alone or sets it to `MODEL_STATE_STRUCT_LOADED`. -/
theorem ready_loadStructFromLoader {r : Status} (h : Ready m)
    (hm' : m.modelLoadStructFromLoader = some (r, m')) : Ready m' := by
  rcases Model.modelLoadStructFromLoader_cases hm' with rfl | ⟨-, -, rfl⟩
  · exact h
  · exact Ready.of_lt (by show ModelState.structLoaded < ModelState.weightsLoaded; decide)

theorem ready_loadStruct {r : Status} {data : Option (List UInt8)} (h : Ready m)
    (hm' : m.modelLoadStruct data = some (r, m')) : Ready m' := by
  unfold Model.modelLoadStruct at hm'
  split at hm'
  · cases hm'
    exact h
  split at hm'
  · cases hm'
    exact h
  split at hm'
  split at hm'
  · cases hm'
    exact h.of_le (Nat.le_refl _) rfl
  · exact ready_loadStructFromLoader (h.of_loaders _ _) hm'

theorem ready_init (h : Ready m) : Ready (m.modelInit (recording R)).2 := by
  rcases Model.modelInit_cases (recording R) (m := m) with hinit | hinit
  · rw [hinit]
    exact h.of_loaders _ _
  · rw [hinit]
    exact Ready.of_lt (by show ModelState.initialized < ModelState.weightsLoaded; decide)

/-- What the runtime is asked for is not recorded. -/
theorem Ready.of_asks {low : ModelState} {f : S × RecentCalls → S × RecentCalls}
    (h : Ready m) (hasks : m.AsksRuntime low f m') (hf : ∀ s, (f s).2 = s.2) : Ready m' := by
  cases hasks with
  | refused => exact h
  | asked => exact h.of_le (Nat.le_refl _) (hf _)

/-- One call keeps the state backed exactly if it meets the condition. -/
theorem ready_step (l : ModelCall) (h : Ready m) :
    (∀ m', modelStep (recording R) m l = some m' → Ready m') ↔ Repeats R m l := by
  cases l with
  | init =>
    refine iff_of_true ?_ trivial
    intro m' heq
    cases heq
    exact ready_init R h
  | resetState =>
    refine iff_of_true ?_ trivial
    intro m' heq
    cases heq
    exact Ready.of_lt (by show ModelState.uninitialized < ModelState.weightsLoaded; decide)
  | loadStruct data =>
    refine iff_of_true ?_ trivial
    intro m' hm'
    obtain ⟨⟨r, _⟩, hr, rfl⟩ := Option.map_eq_some_iff.mp hm'
    exact ready_loadStruct h hr
  | loadStructFromLoader =>
    refine iff_of_true ?_ trivial
    intro m' hm'
    obtain ⟨⟨r, _⟩, hr, rfl⟩ := Option.map_eq_some_iff.mp hm'
    exact ready_loadStructFromLoader h hr
  | loadWeights data =>
    have hload := modelLoadWeights_recording R (m := m) data
    simp only [modelStep, Repeats, Option.some.injEq, forall_eq']
    rcases ha : afterLoad (R.modelLoader m.runtime.1) data m.runtime.1 with _ | s
    · rw [ha] at hload
      obtain ⟨s, hs⟩ := hload
      rw [hs]
      exact iff_of_true (h.of_le (Nat.le_refl _) rfl) fun _ hc => nomatch hc
    · rw [ha] at hload
      rw [hload, ready_weights R (h.of_loaders s m.iospec)]
      simp only [Option.some.injEq, forall_eq']
  | loadWeightsFromLoader =>
    simp only [modelStep, Repeats, Option.some.injEq, forall_eq', ready_weights R h]
  | loadInput data =>
    have hload := modelLoadInput_recording R (m := m) data
    simp only [modelStep, Repeats]
    rcases ha : afterLoad (R.dataLoader m.runtime.1) data m.runtime.1 with _ | s
    · rw [ha] at hload
      obtain ⟨s, status, hs⟩ := hload
      rw [hs]
      refine iff_of_true ?_ fun _ hc => nomatch hc
      intro m' heq
      cases heq
      exact h.of_le (Nat.le_refl _) rfl
    · rw [ha] at hload
      rw [hload, ready_input R _ (h.of_loaders s m.iospec)]
      simp only [Option.some.injEq, forall_eq']
      rfl
  | loadInputFromLoader expectedSize => exact ready_input R expectedSize h
  | run =>
    simp only [modelStep, Repeats, Option.some.injEq, forall_eq']
    exact ready_run R.runtimeRunModel h
  | runBench =>
    simp only [modelStep, Repeats, Option.some.injEq, forall_eq']
    exact ready_run R.runtimeRunModelBench h
  | getOutput bufferSize n buffer =>
    refine iff_of_true ?_ trivial
    intro m' hm'
    obtain ⟨r, hr, rfl⟩ := Option.map_eq_some_iff.mp hm'
    exact h.of_asks (Model.modelGetOutput_asks (recording R) hr) fun _ => rfl
  | getStatistics bufferSize n buffer =>
    refine iff_of_true ?_ trivial
    intro m' heq
    cases heq
    exact h.of_asks (Model.modelGetStatistics_asks (recording R) bufferSize buffer 0) fun _ => rfl

/-- From `MODEL_STATE_UNINITIALIZED` on, the state is backed in every state that a sequence of calls
goes through exactly if every call of it meets the condition: no call of a function of the runtime
fails in a state that says it was done. -/
theorem ready_iff_repeats (hm : m.modelState = .uninitialized) (ls : List ModelCall) :
    (∀ p t, p <+: ls → Reaches (modelStep (recording R)) m p t → Ready t) ↔
      Guarded (modelStep (recording R)) (Repeats R) m ls :=
  always_iff_guarded (fun _ l h => ready_step R l h) (Ready.of_lt (by rw [hm]; decide)) ls

end

/-- The weights are loaded twice. -/
def weightsTwice : List ModelCall :=
  [.init, .loadStruct (some oneByteSpec), .loadWeightsFromLoader, .loadWeightsFromLoader]

/-- Call 2, the second of the two loads, fails. -/
def secondLoadFails : RuntimeWrapper ℕ :=
  scriptRuntime fun n => if n = 2 then Module.runtimeWrapper.statusError else statusOk

/-- The second load of the weights fails, and the state goes on to say that they are loaded. -/
theorem ready_second_load_fails :
    ∃ m, Reaches (modelStep (recording secondLoadFails)) (startedModel (0, ⟨none, none, none⟩))
        weightsTwice m ∧
      m.modelState = .weightsLoaded ∧
      m.runtime.2.initWeights = some Module.runtimeWrapper.statusError ∧ ¬ Ready m := by
  let p (m : Model (ℕ × RecentCalls)) : Bool := decide (m.modelState = .weightsLoaded ∧
    m.runtime.2.initWeights = some Module.runtimeWrapper.statusError)
  have hrun : (run (modelStep (recording secondLoadFails)) (startedModel (0, ⟨none, none, none⟩))
      weightsTwice).any p = true := by
    decide +kernel
  obtain ⟨m, hm, hp⟩ := exists_reaches hrun
  have ⟨hstate, hcall⟩ := of_decide_eq_true hp
  refine ⟨m, hm, hstate, hcall, ?_⟩
  intro h
  have hok := h.weights (by rw [hstate]; decide)
  rw [hcall] at hok
  exact absurd (Option.some.inj hok) (by decide)

theorem ready_iff_repeats_ok :
    Guarded (modelStep (recording (scriptRuntime fun _ => statusOk)))
        (Repeats (scriptRuntime fun _ => statusOk)) (startedModel (0, ⟨none, none, none⟩))
        weightsTwice ∧
      ∀ p t, p <+: weightsTwice →
        Reaches (modelStep (recording (scriptRuntime fun _ => statusOk)))
          (startedModel (0, ⟨none, none, none⟩)) p t → Ready t := by
  have hg : Guarded (modelStep (recording (scriptRuntime fun _ => statusOk)))
      (Repeats (scriptRuntime fun _ => statusOk)) (startedModel (0, ⟨none, none, none⟩))
      weightsTwice :=
    ⟨trivial, fun _ _ => ⟨trivial, fun _ _ => ⟨fun _ => rfl, fun _ _ =>
      ⟨fun _ => rfl, fun _ _ => trivial⟩⟩⟩⟩
  exact ⟨hg, (ready_iff_repeats (scriptRuntime fun _ => statusOk) rfl _).mpr hg⟩

end KenningRuntime
