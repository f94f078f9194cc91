import KenningRuntime.InferenceServer

/-! The runtime over emlearn (runtimes/emlearn/emlearn.c): the model is compiled in, and computes
directly on the memory of the input loader. With a record of the memories that it computed on. -/
namespace KenningRuntime
open Memory

/-- The model that is compiled in, the memory behind the output buffer, and the clock, over their state
`E`. `D` is the size of the output buffer. -/
structure EmlearnModel (D : ℕ) (E : Type) where
  emlearnModel : List UInt8 → Buffer D → E → Buffer D × E
  behindOutput : E → ℕ → UInt8
  cycles : E → ℕ
  cycToNs : ℕ → ℕ

/-- The data of the runtime: the loaders, with the `C` bytes of `gp_emlearn_input_buffer` as the memory
of the one for inputs, the output buffer and the statistics. -/
structure Emlearn (C D : ℕ) (E : Type) where
  ldrTablePrepared : Bool
  input : BufLoader C
  output : Buffer D
  timeStats : ExecutionTime
  environment : E
  computed : List (List UInt8)

namespace Emlearn

variable {C D : ℕ} {E : Type}

@[simps] def inputLens : Lens (Emlearn C D E) (BufLoader C) where
  get s := s.input
  set s input := {s with input}
  get_set _ _ := rfl
  set_get _ := rfl
  set_set _ _ _ := rfl

/-- `msg_loader_model`: what it receives is ignored, and its `written` stays as it is. -/
def msgLoaderModel : MsgLoader (Emlearn C D E) where
  save s _ := (statusOk, s)
  reset s := (statusOk, s)
  written _ := 0

def msgLoaderInput : MsgLoader (Emlearn C D E) := (msgLoaderBuf C).lift inputLens

def runtimeInit (s : Emlearn C D E) : Status × Emlearn C D E :=
  (statusOk, {s with ldrTablePrepared := true})

def runtimeInitWeights (s : Emlearn C D E) : Status × Emlearn C D E := (statusOk, s)

def runtimeInitInput (s : Emlearn C D E) : Status × Emlearn C D E := (statusOk, s)

variable (L : EmlearnModel D E)

def runtimeRunModel (s : Emlearn C D E) : Status × Emlearn C D E :=
  match L.emlearnModel s.input.mem s.output s.environment with
  | (output, environment) =>
    (statusOk, {s with output, environment, computed := s.computed ++ [s.input.mem]})

def runtimeRunModelBench (s : Emlearn C D E) : Status × Emlearn C D E :=
  (statusOk, (measureTime (fun s => L.cycles s.environment) L.cycToNs
    (fun timeStats s => {s with timeStats}) (runtimeRunModel L) s).2)

/-- `output_size` after the call of `model_get_output_size`, whose status is dropped. The call passes the
check of the state: `model_get_output` has passed a stricter one. -/
def outputSize (modelSpec : List UInt8) : ℕ := (modelSize outputGeometry modelSpec).getD 0

/-- `size` bytes from `gp_emlearn_output_buffer` on, which may go on behind its end. -/
def readOutput (s : Emlearn C D E) (size : ℕ) : List UInt8 :=
  s.output.bytes.take size ++ (List.range (size-D)).map (L.behindOutput s.environment)

theorem readOutput_le {s : Emlearn C D E} {size : ℕ} (h : size ≤ D) :
    readOutput L s size = s.output.bytes.take size := by
  rw [readOutput, Nat.sub_eq_zero_of_le h]
  exact List.append_nil _

def runtimeGetModelOutput (modelSpec : List UInt8) {n : ℕ} (modelOutput : Buffer n)
    (s : Emlearn C D E) : Status × Buffer n × Emlearn C D E :=
  (statusOk, modelOutput.write 0 (readOutput L s (outputSize modelSpec)), s)

def runtimeGetStatistics {n : ℕ} (statisticsBufferSize : ℕ) (statisticsBuffer : Buffer n)
    (statisticsSize : ℕ) (s : Emlearn C D E) : Status × Buffer n × ℕ × Emlearn C D E :=
  let statsSize := 2*sizeofRuntimeStatistic
  if statisticsBufferSize < statsSize then
    (Module.runtimeWrapper.statusInvArg, statisticsBuffer, statisticsSize, s)
  else
    let stats := loadRuntimeStat statisticsBuffer 0 s.timeStats.targetInferenceStep
      "target_inference_step" runtimeStatisticsInferenceTime
    let stats := loadRuntimeStat stats 1 s.timeStats.targetInferenceStepTimestamp
      "target_inference_step_timestamp" runtimeStatisticsInferenceTime
    (statusOk, stats, statsSize, s)

/-- The runtime, as the model layer sees it. -/
def wrapper : RuntimeWrapper (Emlearn C D E) where
  runtimeInit := runtimeInit
  runtimeInitWeights := runtimeInitWeights
  runtimeInitInput := runtimeInitInput
  runtimeRunModel := runtimeRunModel L
  runtimeRunModelBench := runtimeRunModelBench L
  runtimeGetModelOutput := runtimeGetModelOutput L
  runtimeGetStatistics := runtimeGetStatistics
  modelLoader s := if s.ldrTablePrepared then some msgLoaderModel else none
  dataLoader s := if s.ldrTablePrepared then some msgLoaderInput else none

/-- The data of the runtime at boot. -/
def boot (C D : ℕ) (h : C < 2^32) (environment : E) : Emlearn C D E where
  ldrTablePrepared := false
  input := emptyBuffer C h
  output := {
    bytes := List.replicate D 0
    length_eq := length_zeros D }
  timeStats := ⟨0, 0⟩
  environment
  computed := []

end Emlearn

/-- The build with the emlearn runtime. -/
def emlearnBuild {C D : ℕ} {E : Type} (L : EmlearnModel D E) : Build (Emlearn C D E) :=
  ⟨Emlearn.wrapper L, none⟩

end KenningRuntime
