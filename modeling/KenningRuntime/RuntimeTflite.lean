import KenningRuntime.InferenceServer
import KenningRuntime.Library.Lifetime

/-! The runtime over TFLite Micro (runtimes/tflite/tflite.cpp), with a record of what happens to its
one `MicroInterpreter` object. -/
namespace KenningRuntime
open Lifetime Memory

/-- What TFLite Micro and the clock answer, over their state `E`. `version` reads the model in memory;
`construct` is given that memory and the size of the model, and `saveInput` an offset into the input
tensor. -/
structure TfliteLibrary (E : Type) where
  schemaVersion : ℕ
  version : List UInt8 → ℕ
  construct : List UInt8 → ℕ → E → E
  destroy : E → E
  allocateTensors : E → Bool × E
  inputBytes : E → ℕ
  saveInput : ℕ → List UInt8 → E → E
  invoke : E → Bool × E
  arenaUsedBytes : E → ℕ
  outputData : E → List UInt8
  cycles : E → ℕ × E
  cycToNs : ℕ → ℕ

/-- What a pointer to the interpreter may point to. -/
inductive Pointee where
  | null
  | interpreter
deriving DecidableEq, Repr

/-- The data of the runtime. `C` is the size of `g_tflite_buffer`, the memory of the model loader.
`gpTfliteInterpreter` says whether the pointer is set (it is only ever set to the static
`interpreter`), and `constructed` whether that static was initialized. -/
structure Tflite (C : ℕ) (E : Type) where
  ldrTablePrepared : Bool
  buffer : BufLoader C
  inputWritten : ℕ
  inputMaxSize : ℕ
  gpTfliteInterpreter : Bool
  constructed : Bool
  firstStart : Bool
  targetInferenceStep : ℕ
  targetInferenceStepTimestamp : ℕ
  peakAllocation : ℕ
  library : E
  record : List (Event Pointee)

namespace Tflite

variable {C : ℕ} {E : Type}

def bufferLens : Lens (Tflite C E) (BufLoader C) where
  get s := s.buffer
  set s buffer := {s with buffer}
  get_set _ _ := rfl
  set_get _ := rfl
  set_set _ _ _ := rfl

/-- What `gp_tflite_interpreter` points to. -/
def pointee (s : Tflite C E) : Pointee := if s.gpTfliteInterpreter then .interpreter else .null

def happened (e : Event Pointee) (s : Tflite C E) : Tflite C E := {s with record := s.record ++ [e]}

variable (L : TfliteLibrary E)

/-- The constructor, on the static object. -/
def constructInterpreter (s : Tflite C E) : Tflite C E :=
  ({s with library := L.construct s.buffer.mem s.buffer.written s.library}).happened
    (.create .interpreter)

/-- The destructor, on the static object. -/
def destroyInterpreter (s : Tflite C E) : Tflite C E :=
  ({s with library := L.destroy s.library}).happened (.destroy .interpreter)

def tfliteResetBuf (s : Tflite C E) : Status × Tflite C E :=
  let s := {s with buffer := (bufReset s.buffer).2}
  if s.gpTfliteInterpreter then
    (statusOk, {s.destroyInterpreter L with gpTfliteInterpreter := false})
  else (statusOk, s)

def msgLoaderModel : MsgLoader (Tflite C E) :=
  {(msgLoaderBuf C).lift bufferLens with reset := tfliteResetBuf L}

/-- `msg_loader_input`: its memory is in the tensor arena, its size is set when a model is loaded. -/
def msgLoaderInput : MsgLoader (Tflite C E) where
  save s src :=
    if s.inputWritten+src.length > s.inputMaxSize then (loadersStatusNotEnoughMemory, s)
    else (statusOk, {s with
      inputWritten := s.inputWritten+src.length
      library := L.saveInput s.inputWritten src s.library })
  reset s := (statusOk, {s with inputWritten := 0})
  written s := s.inputWritten

def prepareTfliteLdrTable (s : Tflite C E) : Status × Tflite C E :=
  (statusOk, {s with ldrTablePrepared := true})

def runtimeInit (s : Tflite C E) : Status × Tflite C E :=
  (statusOk, {(s.prepareTfliteLdrTable).2 with peakAllocation := 0})

/-- The static `interpreter` is initialized when control first passes its declaration, and destroyed
again on the first start. -/
def startInterpreter (s : Tflite C E) : Tflite C E :=
  let s := if s.constructed then s else {s.constructInterpreter L with constructed := true}
  let s := if s.firstStart then {s.destroyInterpreter L with firstStart := false} else s
  {s.constructInterpreter L with gpTfliteInterpreter := true}

def runtimeInitWeights (s : Tflite C E) : Status × Tflite C E :=
  if L.version s.buffer.mem ≠ L.schemaVersion then (Module.runtimeWrapper.statusError, s)
  else
    let s := (s.startInterpreter L).happened (.use .interpreter)
    -- The pointer to the interpreter is set by now, and stays set on an error.
    match L.allocateTensors s.library with
    | (false, library) => (Module.runtimeWrapper.statusError, {s with library})
    | (true, library) =>
      let s := ({s with library}).happened (.use s.pointee)
      (statusOk, {s with inputMaxSize := L.inputBytes s.library})

def runtimeInitInput (s : Tflite C E) : Status × Tflite C E := (statusOk, s)

def runtimeRunModel (s : Tflite C E) : Status × Tflite C E :=
  match L.invoke (s.happened (.use s.pointee)).library with
  | (invoked, library) =>
    let s := ({s.happened (.use s.pointee) with library}).happened (.use s.pointee)
    let s := {s with peakAllocation := max s.peakAllocation (L.arenaUsedBytes s.library)}
    (if invoked then statusOk else Module.runtimeWrapper.statusError, s)

/-- `MEASURE_TIME` around `runtime_run_model`, whose status is dropped. -/
def runtimeRunModelBench (s : Tflite C E) : Status × Tflite C E :=
  match L.cycles s.library with
  | (timerStart, library) =>
    match runtimeRunModel L {s with library} with
    | (_, s) =>
      match L.cycles s.library with
      | (timerEnd, library) => (statusOk, {s with
          library
          targetInferenceStep := L.cycToNs (timerEnd-timerStart)
          targetInferenceStepTimestamp := L.cycToNs timerStart })

/-- `memcpy` of the output tensor, of whatever size it is. -/
def runtimeGetModelOutput {n : ℕ} (modelOutput : Buffer n) (s : Tflite C E) :
    Status × Buffer n × Tflite C E :=
  let s := s.happened (.use s.pointee)
  (statusOk, modelOutput.write 0 (L.outputData s.library), s)

/-- The size that is checked and reported is the one of two statistics. -/
def runtimeGetStatistics {n : ℕ} (statisticsBufferSize : ℕ) (statisticsBuffer : Buffer n)
    (statisticsSize : ℕ) (s : Tflite C E) : Status × Buffer n × ℕ × Tflite C E :=
  let statsSize := sizeofRuntimeStatistic*2
  if statisticsBufferSize < statsSize then
    (Module.runtimeWrapper.statusInvArg, statisticsBuffer, statisticsSize, s)
  else
    let stats := loadRuntimeStat statisticsBuffer 0 s.peakAllocation "peak_allocated"
      runtimeStatisticsAllocation
    let stats := loadRuntimeStat stats 1 s.targetInferenceStep "target_inference_step"
      runtimeStatisticsInferenceTime
    let stats := loadRuntimeStat stats 2 s.targetInferenceStepTimestamp
      "target_inference_step_timestamp" runtimeStatisticsInferenceTime
    (statusOk, stats, statsSize, s)

/-- The runtime, as the model layer sees it. -/
def wrapper : RuntimeWrapper (Tflite C E) where
  runtimeInit := runtimeInit
  runtimeInitWeights := runtimeInitWeights L
  runtimeInitInput := runtimeInitInput
  runtimeRunModel := runtimeRunModel L
  runtimeRunModelBench := runtimeRunModelBench L
  runtimeGetModelOutput _ := runtimeGetModelOutput L
  runtimeGetStatistics := runtimeGetStatistics
  modelLoader s := if s.ldrTablePrepared then some (msgLoaderModel L) else none
  dataLoader s := if s.ldrTablePrepared then some (msgLoaderInput L) else none

/-- The data of the runtime at boot. -/
def boot (C : ℕ) (h : C < 2^32) (library : E) : Tflite C E where
  ldrTablePrepared := false
  buffer := emptyBuffer C h
  inputWritten := 0
  inputMaxSize := 0
  gpTfliteInterpreter := false
  constructed := false
  firstStart := true
  targetInferenceStep := 0
  targetInferenceStepTimestamp := 0
  peakAllocation := 0
  library
  record := []

end Tflite

/-- The build with the TFLite runtime. -/
def tfliteBuild {C : ℕ} {E : Type} (L : TfliteLibrary E) : Build (Tflite C E) :=
  ⟨Tflite.wrapper L, none⟩

end KenningRuntime
