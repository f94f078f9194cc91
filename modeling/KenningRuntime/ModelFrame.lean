import KenningRuntime.Model

/-! What the calls of the model layer can do to its state and to the specification. -/
namespace KenningRuntime

/-- Everything that `validate_tensors` checks, for the inputs and for the outputs. -/
structure SpecValid (spec : List UInt8) : Prop where
  input : TensorsValid inputGeometry spec
  output : TensorsValid outputGeometry spec

/-- From `m` to `m'` the specification stays, and the state says that something is initialized or
loaded only if it did so before, or if it is so. -/
structure Model.Keeps {S : Type} (m m' : Model S) : Prop where
  iospec : m'.iospec = m.iospec
  prepared : m.iospecPrepared = true → m'.iospecPrepared = true
  initialized : ModelState.initialized ≤ m'.modelState →
    ModelState.initialized ≤ m.modelState ∨ m'.iospecPrepared = true
  structLoaded : ModelState.structLoaded ≤ m'.modelState →
    ModelState.structLoaded ≤ m.modelState ∨ SpecValid m'.modelSpec

theorem oneByteSpec_valid : SpecValid oneByteSpec :=
  ⟨validateTensors_eq_false.mp (by decide +kernel), validateTensors_eq_false.mp (by decide +kernel)⟩

theorem length_oneByteSpec : oneByteSpec.length = modelSpecSize := by
  rw [oneByteSpec, List.length_map, List.length_range]

namespace Model

/-! ### What the functions do -/

section
variable {S : Type}

/-- What a function leaves that calls `f` of the runtime, if the state is `low` at least and `ready`
holds. If `f` succeeds, the state goes to `high`. -/
inductive CallsRuntime (low high : ModelState) (ready : Prop) (f : S → Status × S) (m : Model S) :
    Model S → Prop
  | refused : (low ≤ m.modelState → ¬ ready) → CallsRuntime low high ready f m m
  | failed : low ≤ m.modelState → ready → (f m.runtime).1 ≠ statusOk →
      CallsRuntime low high ready f m {m with runtime := (f m.runtime).2}
  | done : low ≤ m.modelState → ready → (f m.runtime).1 = statusOk →
      CallsRuntime low high ready f m {m with runtime := (f m.runtime).2, modelState := high}

/-- What a function leaves that asks the runtime for data, if the state is `low` at least. -/
inductive AsksRuntime (low : ModelState) (f : S → S) (m : Model S) : Model S → Prop
  | refused : AsksRuntime low f m m
  | asked : low ≤ m.modelState → AsksRuntime low f m {m with runtime := f m.runtime}

variable (R : RuntimeWrapper S) {m m' : Model S}

theorem modelInit_cases :
    (m.modelInit R).2 = {m with runtime := (R.runtimeInit m.runtime).2} ∨
      (m.modelInit R).2 = {m with
        runtime := (R.runtimeInit m.runtime).2
        modelState := .initialized
        iospecPrepared := true } := by
  rw [modelInit]
  simp only
  split
  · exact Or.inl rfl
  · exact Or.inr rfl

/-- The state goes to `MODEL_STATE_STRUCT_LOADED` only behind the validation. -/
theorem modelLoadStructFromLoader_cases {status : Status}
    (h : m.modelLoadStructFromLoader = some (status, m')) :
    m' = m ∨ (ModelState.initialized ≤ m.modelState ∧ SpecValid m.modelSpec ∧
      m' = {m with modelState := .structLoaded}) := by
  unfold modelLoadStructFromLoader at h
  split at h
  · cases h
    exact Or.inl rfl
  split at h
  · cases h
  split at h
  · cases h
    exact Or.inl rfl
  split at h
  · cases h
    exact Or.inl rfl
  split at h
  · cases h
    exact Or.inl rfl
  -- Both validations have passed.
  next hstate _ _ hin hout =>
    cases h
    refine Or.inr ⟨ModelState.not_lt.mp hstate, ?_, rfl⟩
    exact ⟨validateTensors_eq_false.mp (Bool.not_eq_true _ ▸ hin),
      validateTensors_eq_false.mp (Bool.not_eq_true _ ▸ hout)⟩

theorem modelLoadStructFromLoader_ok (h : m.modelLoadStructFromLoader = some (statusOk, m')) :
    ModelState.initialized ≤ m.modelState ∧ SpecValid m.modelSpec ∧
      m' = {m with modelState := .structLoaded} := by
  have hstate : modelStatusInvState ≠ statusOk := status_ne_ok _ (by decide)
  have harg : Module.model.statusInvArg ≠ statusOk := status_ne_ok _ (by decide)
  unfold modelLoadStructFromLoader at h
  split at h
  · exact absurd (congrArg Prod.fst (Option.some.inj h)) hstate
  split at h
  · cases h
  split at h
  · exact absurd (congrArg Prod.fst (Option.some.inj h)) harg
  split at h
  · exact absurd (congrArg Prod.fst (Option.some.inj h)) harg
  split at h
  · exact absurd (congrArg Prod.fst (Option.some.inj h)) harg
  next hlow _ _ hin hout =>
    cases h
    refine ⟨ModelState.not_lt.mp hlow, ⟨?_, ?_⟩, rfl⟩
    · exact validateTensors_eq_false.mp (Bool.not_eq_true _ ▸ hin)
    · exact validateTensors_eq_false.mp (Bool.not_eq_true _ ▸ hout)

theorem modelLoadStructFromLoader_ne {status : Status}
    (h : m.modelLoadStructFromLoader = some (status, m')) (hne : status ≠ statusOk) : m' = m := by
  unfold modelLoadStructFromLoader at h
  split at h
  · cases h
    rfl
  split at h
  · cases h
  split at h
  · cases h
    rfl
  split at h
  · cases h
    rfl
  split at h
  · cases h
    rfl
  · exact absurd (congrArg Prod.fst (Option.some.inj h)).symm hne

theorem modelLoadStructFromLoader_valid (hinit : ModelState.initialized ≤ m.modelState)
    (hprepared : m.iospecPrepared = true) (hwritten : m.iospec.written = modelSpecSize)
    (hvalid : SpecValid m.modelSpec) :
    m.modelLoadStructFromLoader = some (statusOk, {m with modelState := .structLoaded}) := by
  have hin := validateTensors_eq_false.mpr hvalid.input
  have hout := validateTensors_eq_false.mpr hvalid.output
  have hbuffer : ¬ m.iospecPrepared = false := by
    rw [hprepared]
    exact Bool.noConfusion
  rw [modelLoadStructFromLoader, if_neg (ModelState.not_lt.mpr hinit), if_neg hbuffer,
    if_neg (not_not_intro hwritten.symm), hin, hout]
  rfl

theorem modelLoadWeightsFromLoader_calls :
    CallsRuntime .structLoaded .weightsLoaded True R.runtimeInitWeights m
      (m.modelLoadWeightsFromLoader R).2 := by
  rw [modelLoadWeightsFromLoader]
  split
  · next hlow => exact .refused fun hle => absurd hlow (ModelState.not_lt.mpr hle)
  next hlow =>
    simp only
    split
    · next hs => exact .failed (ModelState.not_lt.mp hlow) trivial hs
    · next hs => exact .done (ModelState.not_lt.mp hlow) trivial (not_not.mp hs)

/-- The input is asked for only if it has the size that the specification says. -/
theorem modelLoadInputFromLoader_calls {expectedSize : ℕ} {status : Status}
    (h : m.modelLoadInputFromLoader R expectedSize = some (status, m')) :
    CallsRuntime .weightsLoaded .inputLoaded (m.modelGetInputSize = some (.ok expectedSize))
      R.runtimeInitInput m m' := by
  unfold modelLoadInputFromLoader at h
  split at h
  · next hlow =>
    cases h
    exact .refused fun hle => absurd hlow (ModelState.not_lt.mpr hle)
  next hlow =>
    rcases hsize : m.modelGetInputSize with _ | status | computedSize
    · rw [hsize] at h
      cases h
    · rw [hsize] at h
      cases h
      exact .refused fun _ hc => nomatch hc
    rw [hsize] at h
    simp only at h
    split at h
    · next hne =>
      cases h
      exact .refused fun _ hc => hne (Except.ok.inj (Option.some.inj hc))
    next heq =>
      obtain rfl := not_not.mp heq
      split at h
      · next hs =>
        cases h
        exact .failed (ModelState.not_lt.mp hlow) rfl hs
      · next hs =>
        cases h
        exact .done (ModelState.not_lt.mp hlow) rfl (not_not.mp hs)

theorem modelLoadInputFromLoader_isSome (expectedSize : ℕ) (m : Model S) :
    (m.modelLoadInputFromLoader R expectedSize).isSome = true ↔
      (ModelState.weightsLoaded ≤ m.modelState → m.modelGetInputSize.isSome = true) := by
  rw [modelLoadInputFromLoader]
  by_cases hlow : m.modelState < .weightsLoaded
  · rw [if_pos hlow]
    exact iff_of_true rfl fun hle => absurd hlow (ModelState.not_lt.mpr hle)
  rw [if_neg hlow]
  have hle := ModelState.not_lt.mp hlow
  rcases m.modelGetInputSize with _ | status | computedSize
  · exact iff_of_false Bool.false_ne_true fun h => absurd (h hle) Bool.false_ne_true
  · exact iff_of_true rfl fun _ => rfl
  · refine iff_of_true ?_ fun _ => rfl
    simp only
    split
    · rfl
    · split <;> rfl

theorem runWith_calls (runtimeRun : S → Status × S) :
    CallsRuntime .inputLoaded .inferenceDone True runtimeRun m (m.runWith runtimeRun).2 := by
  rw [runWith]
  split
  · next hlow => exact .refused fun hle => absurd hlow (ModelState.not_lt.mpr hle)
  next hlow =>
    simp only
    split
    · next hs => exact .failed (ModelState.not_lt.mp hlow) trivial hs
    · next hs => exact .done (ModelState.not_lt.mp hlow) trivial (not_not.mp hs)

theorem modelGetOutput_asks {bufferSize n size : ℕ} {buffer : Buffer n} {r : Retrieved S n}
    (h : m.modelGetOutput R bufferSize buffer size = some r) :
    AsksRuntime .inferenceDone (fun s => (R.runtimeGetModelOutput m.modelSpec buffer s).2.2) m
      r.model := by
  unfold modelGetOutput at h
  split at h
  · cases h
    exact .refused
  next hlow =>
    split at h
    · cases h
    · cases h
      exact .refused
    split at h
    · cases h
      exact .refused
    · cases h
      exact .asked (ModelState.not_lt.mp hlow)

theorem modelGetStatistics_asks (bufferSize : ℕ) {n : ℕ} (buffer : Buffer n) (size : ℕ) :
    AsksRuntime .weightsLoaded (fun s => (R.runtimeGetStatistics bufferSize buffer size s).2.2.2) m
      (m.modelGetStatistics R bufferSize buffer size).model := by
  rw [modelGetStatistics]
  split
  · exact .refused
  · next hlow => exact .asked (ModelState.not_lt.mp hlow)

end

/-! ### What they keep of the state and of the specification -/

section
variable {S : Type} (R : RuntimeWrapper S) {m m' : Model S}

theorem Keeps.refl (m : Model S) : m.Keeps m := ⟨rfl, id, Or.inl, Or.inl⟩

theorem Keeps.of_runtime (s : S) : m.Keeps {m with runtime := s} := ⟨rfl, id, Or.inl, Or.inl⟩

theorem CallsRuntime.keeps {low high : ModelState} {ready : Prop} {f : S → Status × S}
    (h : CallsRuntime low high ready f m m') (hlow : ModelState.structLoaded ≤ low) :
    m.Keeps m' := by
  cases h with
  | refused => exact Keeps.refl m
  | failed => exact Keeps.of_runtime _
  | done hle =>
    -- From `MODEL_STATE_STRUCT_LOADED` on the state may go up.
    have hstruct := ModelState.le_trans hlow hle
    refine ⟨rfl, id, fun _ => Or.inl ?_, fun _ => Or.inl hstruct⟩
    exact ModelState.le_trans (by decide) hstruct

theorem AsksRuntime.keeps {low : ModelState} {f : S → S} (h : AsksRuntime low f m m') :
    m.Keeps m' := by
  cases h with
  | refused => exact Keeps.refl m
  | asked => exact Keeps.of_runtime _

theorem CallsRuntime.state {low high : ModelState} {ready : Prop} {f : S → Status × S}
    (h : CallsRuntime low high ready f m m') :
    m'.modelState = m.modelState ∨ (low ≤ m.modelState ∧ m'.modelState = high) := by
  cases h with
  | refused => exact Or.inl rfl
  | failed => exact Or.inl rfl
  | done hlow => exact Or.inr ⟨hlow, rfl⟩

theorem AsksRuntime.state {low : ModelState} {f : S → S} (h : AsksRuntime low f m m') :
    m'.modelState = m.modelState := by
  cases h with
  | refused => rfl
  | asked => rfl

theorem modelResetState_keeps : m.Keeps m.modelResetState := by
  refine ⟨rfl, id, ?_, ?_⟩
  · intro h
    exact absurd h (by show ¬ ModelState.initialized ≤ ModelState.uninitialized; decide)
  · intro h
    exact absurd h (by show ¬ ModelState.structLoaded ≤ ModelState.uninitialized; decide)

theorem modelInit_keeps : m.Keeps (m.modelInit R).2 := by
  rcases modelInit_cases R (m := m) with h | h
  · rw [h]
    exact Keeps.of_runtime _
  · rw [h]
    refine ⟨rfl, fun _ => rfl, fun _ => Or.inr rfl, ?_⟩
    intro hle
    exact absurd hle (by show ¬ ModelState.structLoaded ≤ ModelState.initialized; decide)

theorem modelLoadStructFromLoader_keeps {status : Status}
    (h : m.modelLoadStructFromLoader = some (status, m')) : m.Keeps m' := by
  rcases modelLoadStructFromLoader_cases h with rfl | ⟨hinit, hvalid, rfl⟩
  · exact Keeps.refl _
  · exact ⟨rfl, id, fun _ => Or.inl hinit, fun _ => Or.inr hvalid⟩

theorem modelLoadWeightsFromLoader_keeps : m.Keeps (m.modelLoadWeightsFromLoader R).2 :=
  (modelLoadWeightsFromLoader_calls R).keeps (by decide)

theorem modelLoadInputFromLoader_keeps {expectedSize : ℕ} {status : Status}
    (h : m.modelLoadInputFromLoader R expectedSize = some (status, m')) : m.Keeps m' :=
  (modelLoadInputFromLoader_calls R h).keeps (by decide)

theorem runWith_keeps (runtimeRun : S → Status × S) : m.Keeps (m.runWith runtimeRun).2 :=
  (runWith_calls runtimeRun).keeps (by decide)

theorem Keeps.trans {m'' : Model S} (h : m.Keeps m') (h' : m'.Keeps m'') : m.Keeps m'' := by
  have hspec : m''.modelSpec = m'.modelSpec := congrArg BufLoader.mem h'.iospec
  refine ⟨h'.iospec.trans h.iospec, fun hp => h'.prepared (h.prepared hp), ?_, ?_⟩
  · intro hi
    rcases h'.initialized hi with hi | hp
    · exact (h.initialized hi).imp_right h'.prepared
    · exact Or.inr hp
  · intro hs
    rcases h'.structLoaded hs with hs | hv
    · rw [hspec]
      exact h.structLoaded hs
    · exact Or.inr hv

theorem modelLoadWeights_keeps (data : Option (List UInt8)) :
    m.Keeps (m.modelLoadWeights R data).2 := by
  unfold modelLoadWeights
  split
  · exact Keeps.refl m
  · exact Keeps.refl m
  · split
    split
    · exact Keeps.of_runtime _
    · exact (Keeps.of_runtime _).trans (modelLoadWeightsFromLoader_keeps R)

theorem modelLoadInput_keeps {data : Option (List UInt8)} {status : Status}
    (h : m.modelLoadInput R data = some (status, m')) : m.Keeps m' := by
  unfold modelLoadInput at h
  split at h
  · cases h
    exact Keeps.refl m
  · cases h
    exact Keeps.refl m
  · split at h
    split at h
    · cases h
      exact Keeps.of_runtime _
    · exact (Keeps.of_runtime _).trans (modelLoadInputFromLoader_keeps R h)

/-- The specification is overwritten before it is looked at. -/
theorem modelLoadStruct_keeps {data : Option (List UInt8)} {status : Status}
    (h : m.modelLoadStruct data = some (status, m')) :
    m.Keeps m' ∨ ∃ d, data = some d ∧
      ({m with iospec := (bufSave (bufReset m.iospec).2 d).2} : Model S).Keeps m' := by
  unfold modelLoadStruct at h
  split at h
  · cases h
    exact Or.inl (Keeps.refl m)
  next d =>
    split at h
    · cases h
      exact Or.inl (Keeps.refl m)
    refine Or.inr ⟨d, rfl, ?_⟩
    split at h
    next hsave =>
      split at h
      · cases h
        rw [hsave]
        exact Keeps.refl _
      · rw [hsave]
        exact modelLoadStructFromLoader_keeps h

/-- Every call but `model_load_struct` keeps the specification. -/
theorem modelStep_keeps {c : ModelCall} (h : modelStep R m c = some m') :
    m.Keeps m' ∨ ∃ d, c = .loadStruct (some d) ∧
      ({m with iospec := (bufSave (bufReset m.iospec).2 d).2} : Model S).Keeps m' := by
  cases c with
  | init =>
    cases h
    exact Or.inl (modelInit_keeps R)
  | resetState =>
    cases h
    exact Or.inl modelResetState_keeps
  -- The only call with bytes for the specification; they may be stored before the check fails.
  | loadStruct data =>
    obtain ⟨⟨status, _⟩, hr, rfl⟩ := Option.map_eq_some_iff.mp h
    apply (modelLoadStruct_keeps hr).imp_right
    intro hall
    obtain ⟨d, rfl, hd⟩ := hall
    exact ⟨d, rfl, hd⟩
  | loadStructFromLoader =>
    obtain ⟨⟨status, _⟩, hr, rfl⟩ := Option.map_eq_some_iff.mp h
    exact Or.inl (modelLoadStructFromLoader_keeps hr)
  | loadWeights data =>
    cases h
    exact Or.inl (modelLoadWeights_keeps R data)
  | loadWeightsFromLoader =>
    cases h
    exact Or.inl (modelLoadWeightsFromLoader_keeps R)
  | loadInput data =>
    obtain ⟨⟨status, _⟩, hr, rfl⟩ := Option.map_eq_some_iff.mp h
    exact Or.inl (modelLoadInput_keeps R hr)
  | loadInputFromLoader expectedSize =>
    obtain ⟨⟨status, _⟩, hr, rfl⟩ := Option.map_eq_some_iff.mp h
    exact Or.inl (modelLoadInputFromLoader_keeps R hr)
  | run =>
    cases h
    exact Or.inl (runWith_keeps R.runtimeRunModel)
  | runBench =>
    cases h
    exact Or.inl (runWith_keeps R.runtimeRunModelBench)
  | getOutput bufferSize n buffer =>
    obtain ⟨r, hr, rfl⟩ := Option.map_eq_some_iff.mp h
    exact Or.inl (modelGetOutput_asks R hr).keeps
  | getStatistics bufferSize n buffer =>
    cases h
    exact Or.inl (modelGetStatistics_asks R bufferSize buffer 0).keeps

end

end Model

/-! ### What the functions of the runtime keep of its data -/

/-- The functions of the runtime that the callbacks call keep `P`, but for `runtime_init`. -/
structure RuntimeWrapper.Preserves {S : Type} (R : RuntimeWrapper S) (P : S → Prop) : Prop where
  runtimeInitWeights : ∀ s, P s → P (R.runtimeInitWeights s).2
  runtimeInitInput : ∀ s, P s → P (R.runtimeInitInput s).2
  runtimeRunModelBench : ∀ s, P s → P (R.runtimeRunModelBench s).2
  runtimeGetModelOutput : ∀ (spec : List UInt8) {n : ℕ} (buffer : Buffer n) s,
    P s → P (R.runtimeGetModelOutput spec buffer s).2.2
  runtimeGetStatistics : ∀ {n : ℕ} (bufferSize : ℕ) (buffer : Buffer n) (size : ℕ) s,
    P s → P (R.runtimeGetStatistics bufferSize buffer size s).2.2.2

namespace Model

section
variable {S : Type} {R : RuntimeWrapper S} {P : S → Prop} {m m' : Model S}

@[simp] theorem modelInit_runtime : (m.modelInit R).2.runtime = (R.runtimeInit m.runtime).2 := by
  rcases modelInit_cases R (m := m) with h | h
  · rw [h]
  · rw [h]

theorem modelLoadStructFromLoader_runtime {status : Status}
    (h : m.modelLoadStructFromLoader = some (status, m')) : m'.runtime = m.runtime := by
  rcases modelLoadStructFromLoader_cases h with rfl | ⟨-, -, rfl⟩
  · rfl
  · rfl

theorem CallsRuntime.preserves {low high : ModelState} {ready : Prop} {f : S → Status × S}
    (hf : ∀ s, P s → P (f s).2) (h : CallsRuntime low high ready f m m') (hP : P m.runtime) :
    P m'.runtime := by
  cases h with
  | refused => exact hP
  | failed => exact hf _ hP
  | done => exact hf _ hP

theorem AsksRuntime.preserves {low : ModelState} {f : S → S} (hf : ∀ s, P s → P (f s))
    (h : AsksRuntime low f m m') (hP : P m.runtime) : P m'.runtime := by
  cases h with
  | refused => exact hP
  | asked => exact hf _ hP

end

end Model

end KenningRuntime
