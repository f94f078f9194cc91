import KenningRuntime.OutputCopy
import KenningRuntime.RuntimeAi8x
import KenningRuntime.RuntimeEmlearn
import KenningRuntime.RuntimeTflite

/-! Plain and benchmarked inference: what `runtime_run_model` and `runtime_run_model_bench` do in the
backends that define both, and what the model layer makes of it. -/
namespace KenningRuntime

/-! ### The TVM runtime (runtimes/tvm/tvm.c) -/

namespace Tvm

/-- TVM and the clock. `TVMGraphExecutor_Run` returns nothing. -/
structure Library (E : Type) where
  graphExecutorRun : E → E
  cycles : E → ℕ
  cycToNs : ℕ → ℕ

structure State (E : Type) where
  timeStats : ExecutionTime
  library : E

variable {E : Type} (L : Library E)

def runtimeRunModel (s : State E) : Status × State E :=
  (statusOk, {s with library := L.graphExecutorRun s.library})

def runtimeRunModelBench (s : State E) : Status × State E :=
  (statusOk, (measureTime (fun s => L.cycles s.library) L.cycToNs
    (fun timeStats s => {s with timeStats}) (runtimeRunModel L) s).2)

end Tvm

/-! ### The IREE runtime (runtimes/iree/iree.c) -/

namespace Iree

/-- IREE and the clock: each function of IREE also tells whether its status is ok. A name that is not
terminated inside the specification is `none`; what is behind it is open, and so is the answer. -/
structure Library (E : Type) where
  vmListRelease : E → E
  vmListCreate : ℕ → E → Bool × E
  resolveFunction : Option (List UInt8) → E → Bool × E
  vmInvoke : E → Bool × E
  cycles : E → ℕ
  cycToNs : ℕ → ℕ

/-- `gpModelOutputs` says whether the pointer to the list of outputs is set. -/
structure State (E : Type) where
  timeStats : ExecutionTime
  gpModelOutputs : Bool
  library : E

section
variable {E : Type} (L : Library E)

/-- `CHECK_IREE_STATUS`. -/
def checkIreeStatus (ok : Bool) : Status := if ok then statusOk else Module.runtimeWrapper.statusError

def releaseOutputBuffer (s : State E) : State E :=
  if s.gpModelOutputs then {s with library := L.vmListRelease s.library, gpModelOutputs := false}
  else s

def prepareOutputBuffer (spec : List UInt8) (s : State E) : Status × State E :=
  match L.vmListCreate (numOutput spec) s.library with
  | (ok, library) => (checkIreeStatus ok, {s with library, gpModelOutputs := ok})

/-- `runtime_run_model`, when `g_model_spec` is `spec`. -/
def runtimeRunModel (spec : List UInt8) (s : State E) : Status × State E :=
  match prepareOutputBuffer L spec (releaseOutputBuffer L s) with
  | (status, s) =>
    if status ≠ statusOk then (status, s)
    else
      match L.resolveFunction (entryFunc spec) s.library with
      | (resolved, library) =>
        if checkIreeStatus resolved ≠ statusOk then (checkIreeStatus resolved, {s with library})
        else
          match L.vmInvoke library with
          | (invoked, library) => (checkIreeStatus invoked, {s with library})

def runtimeRunModelBench (spec : List UInt8) (s : State E) : Status × State E :=
  (statusOk, (measureTime (fun s => L.cycles s.library) L.cycToNs
    (fun timeStats s => {s with timeStats}) (runtimeRunModel L spec) s).2)

/-- The list of outputs is created, the entry function is found, and the model is invoked. -/
def Succeeds (spec : List UInt8) (s : State E) : Prop :=
  let created := L.vmListCreate (numOutput spec) (releaseOutputBuffer L s).library
  let resolved := L.resolveFunction (entryFunc spec) created.2
  created.1 = true ∧ resolved.1 = true ∧ (L.vmInvoke resolved.2).1 = true

end

end Iree

/-! ### The ExecuTorch runtime (runtimes/executorch/executorch.cpp) -/

namespace Executorch

/-- ExecuTorch and the clock: `execute` also tells whether it succeeds. -/
structure Library (E : Type) where
  execute : E → Bool × E
  cycles : E → ℕ
  cycToNs : ℕ → ℕ

structure State (E : Type) where
  timeStats : ExecutionTime
  library : E

section
variable {E : Type} (L : Library E)

def runtimeRunModel (s : State E) : Status × State E :=
  match L.execute s.library with
  | (executed, library) =>
    (if executed then statusOk else Module.runtimeWrapper.statusError, {s with library})

def runtimeRunModelBench (s : State E) : Status × State E :=
  (statusOk, (measureTime (fun s => L.cycles s.library) L.cycToNs
    (fun timeStats s => {s with timeStats}) (runtimeRunModel L) s).2)

end

end Executorch

/-! ### Backends with a benchmark -/

/-- A backend that defines both functions, its state without the time statistics, and when an inference
from a state of it succeeds. -/
structure BenchBackend where
  State : Type
  runtimeRunModel : State → Status × State
  runtimeRunModelBench : State → Status × State
  withoutTime : State → State
  Succeeds : State → Prop

/-- The accelerator is done before the timeout. -/
def Ai8x.Succeeds {E : Type} (H : Ai8x.CnnHardware E) (s : Ai8x.State E) : Prop :=
  ∃ time ≤ H.cnnTimeoutMs,
    H.cnnDone ((H.kMsleep 1)^[time] (H.cnnStart (H.cnnSetClock 4 3 s.hardware))) = true

namespace BenchBackend

def tvm {E : Type} (L : Tvm.Library E) : BenchBackend where
  State := Tvm.State E
  runtimeRunModel := Tvm.runtimeRunModel L
  runtimeRunModelBench := Tvm.runtimeRunModelBench L
  withoutTime s := {s with timeStats := ⟨0, 0⟩}
  Succeeds _ := True

def iree {E : Type} (L : Iree.Library E) (spec : List UInt8) : BenchBackend where
  State := Iree.State E
  runtimeRunModel := Iree.runtimeRunModel L spec
  runtimeRunModelBench := Iree.runtimeRunModelBench L spec
  withoutTime s := {s with timeStats := ⟨0, 0⟩}
  Succeeds := Iree.Succeeds L spec

def tflite (C : ℕ) {E : Type} (L : TfliteLibrary E) : BenchBackend where
  State := Tflite C E
  runtimeRunModel := Tflite.runtimeRunModel L
  runtimeRunModelBench := Tflite.runtimeRunModelBench L
  withoutTime s := {s with targetInferenceStep := 0, targetInferenceStepTimestamp := 0}
  Succeeds s := (L.invoke s.library).1 = true

def executorch {E : Type} (L : Executorch.Library E) : BenchBackend where
  State := Executorch.State E
  runtimeRunModel := Executorch.runtimeRunModel L
  runtimeRunModelBench := Executorch.runtimeRunModelBench L
  withoutTime s := {s with timeStats := ⟨0, 0⟩}
  Succeeds s := (L.execute s.library).1 = true

def ai8x {E : Type} (H : Ai8x.CnnHardware E) : BenchBackend where
  State := Ai8x.State E
  runtimeRunModel := Ai8x.runtimeRunModel H
  runtimeRunModelBench := Ai8x.runtimeRunModelBench H
  withoutTime s := {s with timeStats := ⟨0, 0⟩}
  Succeeds := Ai8x.Succeeds H

def emlearn (C : ℕ) {D : ℕ} {E : Type} (L : EmlearnModel D E) : BenchBackend where
  State := Emlearn C D E
  runtimeRunModel := Emlearn.runtimeRunModel L
  runtimeRunModelBench := Emlearn.runtimeRunModelBench L
  withoutTime s := {s with timeStats := ⟨0, 0⟩}
  Succeeds _ := True

/-- The six backends. To read the cycle counter changes nothing. -/
inductive Defined : BenchBackend → Prop
  | tvm {E : Type} (L : Tvm.Library E) : Defined (tvm L)
  | iree {E : Type} (L : Iree.Library E) (spec : List UInt8) : Defined (iree L spec)
  | tflite (C : ℕ) {E : Type} (L : TfliteLibrary E) (hcycles : ∀ e, (L.cycles e).2 = e) :
      Defined (tflite C L)
  | executorch {E : Type} (L : Executorch.Library E) : Defined (executorch L)
  | ai8x {E : Type} (H : Ai8x.CnnHardware E) : Defined (ai8x H)
  | emlearn (C : ℕ) {D : ℕ} {E : Type} (L : EmlearnModel D E) : Defined (emlearn C L)

variable (b : BenchBackend)

/-- A runtime wrapper with the two functions of the backend. -/
def wrapper (R : RuntimeWrapper b.State) : RuntimeWrapper b.State :=
  {R with runtimeRunModel := b.runtimeRunModel, runtimeRunModelBench := b.runtimeRunModelBench}

/-- From the state `s` of the backend, a benchmarked inference is a plain one but for the time
statistics; so it is behind the model layer, and a PROCESS request succeeds only if the inference
does. -/
structure Agrees (s : b.State) : Prop where
  status : (b.runtimeRunModelBench s).1 = (b.runtimeRunModel s).1
  state : b.withoutTime (b.runtimeRunModelBench s).2 = b.withoutTime (b.runtimeRunModel s).2
  model : ∀ (R : RuntimeWrapper b.State) (m : Model b.State), m.runtime = s →
    (m.modelRunBench (b.wrapper R)).1 = (m.modelRun (b.wrapper R)).1 ∧
      (m.modelRunBench (b.wrapper R)).2.modelState = (m.modelRun (b.wrapper R)).2.modelState
  process : ∀ (R : RuntimeWrapper b.State) (llext : Option (LlextSupport b.State)) (cfg : Config)
    (server : Server cfg b.State) (request : ProtocolEvent) (answer : Answer cfg b.State),
    server.model.runtime = s →
    processCallback ⟨b.wrapper R, llext⟩ request server = some answer →
    answer.status = statusOk → (b.runtimeRunModel s).1 = statusOk

/-- What the six backends have in common. -/
structure DropsStatus : Prop where
  bench : ∀ s, (b.runtimeRunModelBench s).1 = statusOk
  state : ∀ s, b.withoutTime (b.runtimeRunModelBench s).2 = b.withoutTime (b.runtimeRunModel s).2
  run : ∀ s, (b.runtimeRunModel s).1 = statusOk ↔ b.Succeeds s

variable {b : BenchBackend}

/-- The model layer looks at the status only. -/
theorem runWith_congr {S : Type} {run run' : S → Status × S} {m : Model S}
    (h : (run m.runtime).1 = (run' m.runtime).1) :
    (m.runWith run).1 = (m.runWith run').1 ∧
      (m.runWith run).2.modelState = (m.runWith run').2.modelState := by
  rw [Model.runWith, Model.runWith]
  by_cases hlow : m.modelState < .inputLoaded
  · rw [if_pos hlow, if_pos hlow]
    exact ⟨rfl, rfl⟩
  rw [if_neg hlow, if_neg hlow]
  simp only
  by_cases hs : (run' m.runtime).1 = statusOk
  · rw [if_neg (not_not_intro (h.trans hs)), if_neg (not_not_intro hs)]
    exact ⟨h, rfl⟩
  · rw [if_pos (fun hc => hs (h.symm.trans hc)), if_pos hs]
    exact ⟨h, rfl⟩

/-- A benchmark that drops the status agrees with the inference if and only if the inference succeeds. -/
theorem DropsStatus.agrees_iff (h : b.DropsStatus) (s : b.State) : b.Agrees s ↔ b.Succeeds s := by
  constructor
  · intro hagrees
    -- The benchmark reports success, whatever the inference did.
    apply (h.run s).mp
    rw [← hagrees.status, h.bench s]
  · intro hsucceeds
    have hrun := (h.run s).mpr hsucceeds
    refine ⟨(h.bench s).trans hrun.symm, h.state s, ?_, fun _ _ _ _ _ _ _ _ _ => hrun⟩
    intro R m hm
    have hstatus : (b.runtimeRunModelBench m.runtime).1 = (b.runtimeRunModel m.runtime).1 := by
      rw [hm, h.bench s, hrun]
    exact runWith_congr hstatus

/-! ### The six backends drop the status -/

theorem tvm_drops {E : Type} (L : Tvm.Library E) : (tvm L).DropsStatus :=
  ⟨fun _ => rfl, fun _ => rfl, fun _ => iff_of_true rfl trivial⟩

theorem emlearn_drops (C : ℕ) {D : ℕ} {E : Type} (L : EmlearnModel D E) :
    (emlearn C L).DropsStatus :=
  ⟨fun _ => rfl, fun _ => rfl, fun _ => iff_of_true rfl trivial⟩

theorem statusError_ne : Module.runtimeWrapper.statusError ≠ statusOk := status_ne_ok _ (by decide)

theorem ite_statusError {ok : Bool} :
    (if ok then statusOk else Module.runtimeWrapper.statusError) = statusOk ↔ ok = true := by
  cases ok with
  | true => exact iff_of_true rfl rfl
  | false => exact iff_of_false statusError_ne Bool.false_ne_true

theorem executorch_drops {E : Type} (L : Executorch.Library E) : (executorch L).DropsStatus :=
  ⟨fun _ => rfl, fun _ => rfl, fun _ => ite_statusError⟩

theorem checkIreeStatus_true : Iree.checkIreeStatus true = statusOk := rfl

theorem checkIreeStatus_false : Iree.checkIreeStatus false ≠ statusOk := statusError_ne

/-- The failure points, in the order in which they are met. -/
theorem iree_runtimeRunModel_ok {E : Type} (L : Iree.Library E) (spec : List UInt8)
    (s : Iree.State E) :
    (Iree.runtimeRunModel L spec s).1 = statusOk ↔ Iree.Succeeds L spec s := by
  -- Each failure point returns, so it decides the status on its own.
  obtain ⟨vmListRelease, vmListCreate, resolveFunction, vmInvoke, cycles, cycToNs⟩ := L
  unfold Iree.runtimeRunModel Iree.Succeeds Iree.prepareOutputBuffer
  simp only
  rcases vmListCreate (numOutput spec) _ with ⟨created, e₁⟩
  cases created with
  | false =>
    simp only [ne_eq, checkIreeStatus_false, not_false_eq_true, if_true, Bool.false_eq_true, false_and]
  | true =>
    simp only [checkIreeStatus_true, ne_eq, not_true_eq_false, if_false, true_and]
    rcases resolveFunction (entryFunc spec) e₁ with ⟨resolved, e₂⟩
    cases resolved with
    | false =>
      simp only [checkIreeStatus_false, not_false_eq_true, if_true, Bool.false_eq_true, false_and]
    | true =>
      simp only [checkIreeStatus_true, not_true_eq_false, if_false, true_and]
      exact ite_statusError

theorem iree_drops {E : Type} (L : Iree.Library E) (spec : List UInt8) : (iree L spec).DropsStatus :=
  ⟨fun _ => rfl, fun _ => rfl, fun s => iree_runtimeRunModel_ok L spec s⟩

theorem tflite_drops (C : ℕ) {E : Type} (L : TfliteLibrary E) (hcycles : ∀ e, (L.cycles e).2 = e) :
    (tflite C L).DropsStatus := by
  refine ⟨fun _ => rfl, ?_, fun _ => ite_statusError⟩
  intro s
  simp only [tflite, Tflite.runtimeRunModelBench, hcycles]
  rfl

theorem cnnWaitLoop_done {E : Type} (H : Ai8x.CnnHardware E) (left : ℕ) (e : E) :
    (Ai8x.cnnWaitLoop H left e).1 = true ↔
      ∃ time ≤ left, H.cnnDone ((H.kMsleep 1)^[time] e) = true := by
  -- The induction is on the milliseconds until the timeout.
  induction left generalizing e with
  | zero =>
    rw [Ai8x.cnnWaitLoop]
    by_cases hdone : H.cnnDone e = true
    · rw [if_pos hdone]
      exact iff_of_true rfl ⟨0, le_rfl, hdone⟩
    · rw [if_neg hdone]
      refine iff_of_false Bool.false_ne_true ?_
      intro h
      obtain ⟨time, hle, htime⟩ := h
      obtain rfl := Nat.le_zero.mp hle
      exact hdone htime
  | succ left ih =>
    rw [Ai8x.cnnWaitLoop]
    by_cases hdone : H.cnnDone e = true
    · rw [if_pos hdone]
      exact iff_of_true rfl ⟨0, Nat.zero_le _, hdone⟩
    rw [if_neg hdone, ih]
    -- It is done after one millisecond more than from there on.
    constructor
    · intro h
      obtain ⟨time, hle, htime⟩ := h
      exact ⟨time+1, Nat.succ_le_succ hle, htime⟩
    · intro h
      obtain ⟨time, hle, htime⟩ := h
      cases time with
      | zero => exact absurd htime hdone
      | succ time => exact ⟨time, Nat.le_of_succ_le_succ hle, htime⟩

theorem ai8x_drops {E : Type} (H : Ai8x.CnnHardware E) : (ai8x H).DropsStatus := by
  refine ⟨fun _ => rfl, fun _ => rfl, ?_⟩
  intro s
  exact ite_statusError.trans (cnnWaitLoop_done H _ _)

theorem Defined.drops (h : Defined b) : b.DropsStatus := by
  cases h with
  | tvm L => exact tvm_drops L
  | iree L spec => exact iree_drops L spec
  | tflite C L hcycles => exact tflite_drops C L hcycles
  | executorch L => exact executorch_drops L
  | ai8x H => exact ai8x_drops H
  | emlearn C L => exact emlearn_drops C L

/-- In each of the six backends the benchmark agrees with the inference from exactly the states from
which the inference succeeds. -/
theorem bench_agrees_iff (h : Defined b) (s : b.State) : b.Agrees s ↔ b.Succeeds s :=
  h.drops.agrees_iff s

/-! ### An accelerator that does not get done -/

/-- Its state is the number of milliseconds left. -/
def slowCnn : Ai8x.CnnHardware ℕ where
  cnnTimeoutMs := 2
  cnnSetClock _ _ left := left
  cnnStart left := left
  cnnDone left := decide (left = 0)
  kMsleep ms left := left-ms
  cycles left := left
  cycToNs cycles := cycles

theorem bench_agrees_inTime : (ai8x slowCnn).Agrees ⟨⟨0, 0⟩, 2⟩ :=
  (bench_agrees_iff (.ai8x slowCnn) ⟨⟨0, 0⟩, 2⟩).mpr ⟨2, le_rfl, rfl⟩

/-- After the timeout the inference has failed, the benchmark reports success, and so does the model
layer. -/
theorem bench_timeout :
    (Ai8x.runtimeRunModel slowCnn ⟨⟨0, 0⟩, 9⟩).1 = Module.runtimeWrapper.statusError ∧
      (Ai8x.runtimeRunModelBench slowCnn ⟨⟨0, 0⟩, 9⟩).1 = statusOk ∧
      ¬ (ai8x slowCnn).Agrees ⟨⟨0, 0⟩, 9⟩ := by
  refine ⟨rfl, rfl, ?_⟩
  intro h
  exact absurd h.status (by decide)

end BenchBackend

end KenningRuntime
