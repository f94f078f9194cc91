import KenningRuntime.ModelFrame
import KenningRuntime.RuntimeTflite

/-! What the TFLite runtime does to its interpreter, and what the calls of the model layer do. -/
namespace KenningRuntime
open Lifetime

variable {C : ℕ} {E : Type} (L : TfliteLibrary E)

/-! ### The functions of the runtime -/

namespace Tflite

/-- So far the interpreter was used well, and the pointer to it is set as long as it is alive. -/
structure Sound (s : Tflite C E) : Prop where
  disciplined : Disciplined nothing s.record
  alive : liveAfter nothing s.record .interpreter = s.gpTfliteInterpreter
  constructed : s.constructed = !s.firstStart
  started : s.gpTfliteInterpreter = true → s.constructed = true

variable {s : Tflite C E}

theorem Sound.of_eq {t : Tflite C E} (h : Sound s) (hr : t.record = s.record)
    (hgp : t.gpTfliteInterpreter = s.gpTfliteInterpreter) (hc : t.constructed = s.constructed)
    (hf : t.firstStart = s.firstStart) : Sound t := by
  refine ⟨?_, ?_, ?_, ?_⟩
  · rw [hr]
    exact h.disciplined
  · rw [hr, hgp]
    exact h.alive
  · rw [hc, hf]
    exact h.constructed
  · rw [hgp, hc]
    exact h.started

theorem Sound.use (h : Sound s) (hgp : s.gpTfliteInterpreter = true) :
    Sound (s.happened (.use .interpreter)) := by
  refine ⟨disciplined_concat.mpr ⟨h.disciplined, h.alive.trans hgp⟩, ?_, h.constructed, h.started⟩
  rw [happened, liveAfter_append]
  exact h.alive

theorem pointee_of_gp (hgp : s.gpTfliteInterpreter = true) : s.pointee = .interpreter := if_pos hgp

/-- `tflite_reset_buf` ends the interpreter if there is one. -/
theorem tfliteResetBuf_sound (h : Sound s) : Sound (tfliteResetBuf L s).2 ∧
    (tfliteResetBuf L s).2.gpTfliteInterpreter = false := by
  rw [tfliteResetBuf]
  cases hgp : s.gpTfliteInterpreter with
  | false =>
    simp only [Bool.false_eq_true, if_false, and_true]
    exact h.of_eq rfl hgp.symm rfl rfl
  | true =>
    simp only [if_true, and_true]
    refine ⟨disciplined_concat.mpr ⟨h.disciplined, h.alive.trans hgp⟩, ?_, h.constructed, ?_⟩
    · simp only [destroyInterpreter, happened, liveAfter_append, liveAfter_singleton, Event.after,
        Function.update_self]
    · exact fun hc => absurd hc Bool.false_ne_true

theorem tfliteResetBuf_buffer : (tfliteResetBuf L s).1 = statusOk ∧
    (tfliteResetBuf L s).2.buffer = (bufReset s.buffer).2 := by
  rw [tfliteResetBuf]
  cases s.gpTfliteInterpreter with
  | false => exact ⟨rfl, rfl⟩
  | true => exact ⟨rfl, rfl⟩

/-- The three events of a first start, and the one of a later start. -/
theorem startInterpreter_sound (h : Sound s) (hgp : s.gpTfliteInterpreter = false) :
    Sound (s.startInterpreter L) ∧ (s.startInterpreter L).gpTfliteInterpreter = true := by
  have hdead : liveAfter nothing s.record .interpreter = false := h.alive.trans hgp
  refine ⟨?_, rfl⟩
  cases hf : s.firstStart with
  | true =>
    have hc : s.constructed = false := by rw [h.constructed, hf]; rfl
    -- The static is constructed, destroyed again, and constructed in place.
    have hrecord : (s.startInterpreter L).record =
        s.record ++ [.create .interpreter] ++ [.destroy .interpreter] ++ [.create .interpreter] := by
      simp only [startInterpreter, constructInterpreter, destroyInterpreter, happened, hc, hf,
        Bool.false_eq_true, if_false, if_true]
    refine ⟨?_, ?_, ?_, ?_⟩
    · rw [hrecord, disciplined_concat, disciplined_concat, disciplined_concat]
      simp only [liveAfter_append, liveAfter_singleton, Event.Allowed, Event.after,
        Function.update_self, and_true]
      exact ⟨h.disciplined, hdead⟩
    · rw [hrecord]
      simp only [liveAfter_append, liveAfter_singleton, Event.after, Function.update_self]
      rfl
    all_goals
      simp only [startInterpreter, constructInterpreter, destroyInterpreter, happened, hc, hf,
        Bool.false_eq_true, if_false, if_true, Bool.not_false, implies_true]
  | false =>
    have hc : s.constructed = true := by rw [h.constructed, hf]; rfl
    -- Later on it is only constructed in place.
    have hrecord : (s.startInterpreter L).record = s.record ++ [.create .interpreter] := by
      simp only [startInterpreter, constructInterpreter, happened, hc, hf, Bool.false_eq_true,
        if_false, if_true]
    refine ⟨?_, ?_, ?_, ?_⟩
    · rw [hrecord, disciplined_concat]
      exact ⟨h.disciplined, hdead⟩
    · rw [hrecord]
      simp only [liveAfter_append, liveAfter_singleton, Event.after, Function.update_self]
      rfl
    all_goals
      simp only [startInterpreter, constructInterpreter, happened, hc, hf, Bool.false_eq_true,
        if_false, if_true, Bool.not_false, implies_true]

theorem runtimeInitWeights_version (hv : L.version s.buffer.mem ≠ L.schemaVersion) :
    runtimeInitWeights L s = (Module.runtimeWrapper.statusError, s) := if_pos hv

/-- With the right version the interpreter is there afterwards, even if its tensors are not. -/
theorem runtimeInitWeights_sound (h : Sound s) (hv : L.version s.buffer.mem = L.schemaVersion)
    (hgp : s.gpTfliteInterpreter = false) : Sound (runtimeInitWeights L s).2 ∧
      (runtimeInitWeights L s).2.gpTfliteInterpreter = true := by
  obtain ⟨hstart, hstarted⟩ := startInterpreter_sound L h hgp
  have huse := hstart.use hstarted
  rw [runtimeInitWeights, if_neg (not_not_intro hv)]
  simp only
  split
  · exact ⟨huse.of_eq rfl rfl rfl rfl, hstarted⟩
  · rw [pointee_of_gp (by exact hstarted)]
    refine ⟨?_, hstarted⟩
    have huse' := (huse.of_eq (t := {(s.startInterpreter L).happened (.use .interpreter) with
      library := _}) rfl rfl rfl rfl).use hstarted
    exact huse'.of_eq rfl rfl rfl rfl

theorem runtimeRunModel_sound (h : Sound s) (hgp : s.gpTfliteInterpreter = true) :
    Sound (runtimeRunModel L s).2 ∧ (runtimeRunModel L s).2.gpTfliteInterpreter = true := by
  have huse : Sound (s.happened (.use s.pointee)) := by
    rw [pointee_of_gp hgp]
    exact h.use hgp
  have huse' : Sound ((s.happened (.use s.pointee)).happened (.use s.pointee)) := by
    rw [pointee_of_gp hgp] at huse ⊢
    exact huse.use hgp
  exact ⟨huse'.of_eq rfl rfl rfl rfl, hgp⟩

theorem runtimeRunModelBench_sound (h : Sound s) (hgp : s.gpTfliteInterpreter = true) :
    Sound (runtimeRunModelBench L s).2 ∧
      (runtimeRunModelBench L s).2.gpTfliteInterpreter = true := by
  obtain ⟨hrun, hran⟩ := runtimeRunModel_sound L
    (s := {s with library := (L.cycles s.library).2}) (h.of_eq rfl rfl rfl rfl) hgp
  exact ⟨hrun.of_eq rfl rfl rfl rfl, hran⟩

theorem runtimeGetModelOutput_sound (h : Sound s) (hgp : s.gpTfliteInterpreter = true) {n : ℕ}
    (modelOutput : Buffer n) : Sound (runtimeGetModelOutput L modelOutput s).2.2 := by
  have huse : Sound (s.happened (.use s.pointee)) := by
    rw [pointee_of_gp hgp]
    exact h.use hgp
  exact huse

theorem runtimeGetStatistics_state {n : ℕ} (bufferSize : ℕ) (buffer : Buffer n) (size : ℕ) :
    (runtimeGetStatistics bufferSize buffer size s).2.2.2 = s := by
  rw [runtimeGetStatistics]
  simp only
  split <;> rfl

end Tflite

/-! ### The model layer -/

/-- The interpreter was used well, and there is one from `MODEL_STATE_WEIGHTS_LOADED` on. -/
structure InterpreterSafe (m : Model (Tflite C E)) : Prop where
  sound : m.runtime.Sound
  started : ModelState.weightsLoaded ≤ m.modelState → m.runtime.gpTfliteInterpreter = true

section
variable {m m' : Model (Tflite C E)}

theorem InterpreterSafe.of_state (h : InterpreterSafe m) (hr : m'.runtime = m.runtime)
    (hs : ModelState.weightsLoaded ≤ m'.modelState → ModelState.weightsLoaded ≤ m.modelState) :
    InterpreterSafe m' := by
  constructor
  · rw [hr]
    exact h.sound
  · intro hle
    rw [hr]
    exact h.started (hs hle)

/-- A model is loaded where there is no interpreter, or it has the wrong version and changes nothing. -/
theorem modelLoadWeightsFromLoader_safe (h : m.runtime.Sound)
    (hnew : ModelState.structLoaded ≤ m.modelState →
      L.version m.runtime.buffer.mem = L.schemaVersion → m.runtime.gpTfliteInterpreter = false)
    (hold : ModelState.weightsLoaded ≤ m.modelState →
      L.version m.runtime.buffer.mem ≠ L.schemaVersion → m.runtime.gpTfliteInterpreter = true) :
    InterpreterSafe (m.modelLoadWeightsFromLoader (Tflite.wrapper L)).2 := by
  have hcalls := Model.modelLoadWeightsFromLoader_calls (Tflite.wrapper L) (m := m)
  generalize (m.modelLoadWeightsFromLoader (Tflite.wrapper L)).2 = m' at hcalls ⊢
  by_cases hv : L.version m.runtime.buffer.mem = L.schemaVersion
  · cases hcalls with
    | refused hno =>
      refine ⟨h, ?_⟩
      intro hle
      exact absurd trivial (hno (ModelState.le_trans (by decide) hle))
    | failed hle =>
      obtain ⟨hsound, hgp⟩ := Tflite.runtimeInitWeights_sound L h hv (hnew hle hv)
      exact ⟨hsound, fun _ => hgp⟩
    | done hle =>
      obtain ⟨hsound, hgp⟩ := Tflite.runtimeInitWeights_sound L h hv (hnew hle hv)
      exact ⟨hsound, fun _ => hgp⟩
  · -- With the wrong version the old interpreter stays, and has to be there if the state says so.
    have hinit : (Tflite.wrapper L).runtimeInitWeights m.runtime =
        (Module.runtimeWrapper.statusError, m.runtime) := Tflite.runtimeInitWeights_version L hv
    cases hcalls with
    | refused => exact ⟨h, fun hle => hold hle hv⟩
    | failed =>
      rw [hinit]
      exact ⟨h, fun hle => hold hle hv⟩
    | done _ _ hs =>
      rw [hinit] at hs
      exact absurd hs (status_ne_ok _ (by decide))

theorem modelLoadInputFromLoader_safe {expectedSize : ℕ} {status : Status} (h : InterpreterSafe m)
    (hload : m.modelLoadInputFromLoader (Tflite.wrapper L) expectedSize = some (status, m')) :
    InterpreterSafe m' := by
  cases Model.modelLoadInputFromLoader_calls (Tflite.wrapper L) hload with
  | refused => exact h
  | failed => exact h.of_state rfl id
  | done hle => exact h.of_state rfl fun _ => hle

theorem modelRunBench_safe (h : InterpreterSafe m) :
    InterpreterSafe (m.modelRunBench (Tflite.wrapper L)).2 := by
  have hcalls := Model.runWith_calls (m := m) (Tflite.runtimeRunModelBench L)
  have hrun (hle : ModelState.inputLoaded ≤ m.modelState) :=
    Tflite.runtimeRunModelBench_sound L h.sound (h.started (ModelState.le_trans (by decide) hle))
  have heq : m.modelRunBench (Tflite.wrapper L) = m.runWith (Tflite.runtimeRunModelBench L) := rfl
  rw [heq]
  generalize (m.runWith (Tflite.runtimeRunModelBench L)).2 = m' at hcalls ⊢
  cases hcalls with
  | refused => exact h
  | failed hle => exact ⟨(hrun hle).1, fun _ => (hrun hle).2⟩
  | done hle => exact ⟨(hrun hle).1, fun _ => (hrun hle).2⟩

theorem modelGetOutput_safe {bufferSize n size : ℕ} {buffer : Buffer n}
    {r : Model.Retrieved (Tflite C E) n} (h : InterpreterSafe m)
    (hget : m.modelGetOutput (Tflite.wrapper L) bufferSize buffer size = some r) :
    InterpreterSafe r.model := by
  -- The output is there only after a run, which the interpreter survives.
  have hasks := Model.modelGetOutput_asks (Tflite.wrapper L) hget
  generalize r.model = m' at hasks ⊢
  cases hasks with
  | refused => exact h
  | asked hle =>
    have hgp := h.started (ModelState.le_trans (by decide) hle)
    exact ⟨Tflite.runtimeGetModelOutput_sound L h.sound hgp buffer, fun _ => hgp⟩

theorem modelGetStatistics_safe {bufferSize n size : ℕ} {buffer : Buffer n} (h : InterpreterSafe m) :
    InterpreterSafe (m.modelGetStatistics (Tflite.wrapper L) bufferSize buffer size).model := by
  have hasks := Model.modelGetStatistics_asks (Tflite.wrapper L) (m := m) bufferSize buffer size
  generalize (m.modelGetStatistics (Tflite.wrapper L) bufferSize buffer size).model = m' at hasks ⊢
  cases hasks with
  | refused => exact h
  | asked => exact h.of_state (Tflite.runtimeGetStatistics_state bufferSize buffer size) id

theorem modelLoadStructFromLoader_safe {status : Status} (h : InterpreterSafe m)
    (hload : m.modelLoadStructFromLoader = some (status, m')) : InterpreterSafe m' := by
  rcases Model.modelLoadStructFromLoader_cases hload with rfl | ⟨-, -, rfl⟩
  · exact h
  · refine h.of_state rfl ?_
    intro hle
    exact absurd hle (by show ¬ ModelState.weightsLoaded ≤ ModelState.structLoaded; decide)

end

end KenningRuntime
