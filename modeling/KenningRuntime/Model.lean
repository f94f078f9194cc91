import KenningRuntime.Loaders
import KenningRuntime.ModelSpec

/-! The model layer (core/model.c): a state that says what has been loaded so far guards the calls
into the runtime. -/
namespace KenningRuntime

/-- `MODEL_STATE`. -/
inductive ModelState where
  | uninitialized
  | initialized
  | structLoaded
  | weightsLoaded
  | inputLoaded
  | inferenceDone
deriving DecidableEq, Repr

namespace ModelState

def number : ModelState → ℕ
  | uninitialized => 0
  | initialized => 1
  | structLoaded => 2
  | weightsLoaded => 3
  | inputLoaded => 4
  | inferenceDone => 5

instance : LT ModelState := ⟨fun a b => a.number < b.number⟩
instance : LE ModelState := ⟨fun a b => a.number ≤ b.number⟩
instance (a b : ModelState) : Decidable (a < b) := inferInstanceAs (Decidable (a.number < b.number))
instance (a b : ModelState) : Decidable (a ≤ b) := inferInstanceAs (Decidable (a.number ≤ b.number))

theorem lt_iff {a b : ModelState} : a < b ↔ a.number < b.number := Iff.rfl
theorem le_iff {a b : ModelState} : a ≤ b ↔ a.number ≤ b.number := Iff.rfl

theorem not_lt {a b : ModelState} : ¬ a < b ↔ b ≤ a := Nat.not_lt

theorem le_trans {a b c : ModelState} (h : a ≤ b) (h' : b ≤ c) : a ≤ c := Nat.le_trans h h'

end ModelState

/-- A buffer of `n` bytes that a runtime writes into. -/
structure Buffer (n : ℕ) where
  bytes : List UInt8
  length_eq : bytes.length = n

theorem Buffer.length_write {n : ℕ} (buffer : Buffer n) (off : ℕ) (data : List UInt8) :
    ((Memory.splice buffer.bytes off data).take n).length = n := by
  simp only [Memory.splice, List.length_take, List.length_append, List.length_drop,
    buffer.length_eq]
  omega

/-- `data` copied into the buffer from `off` on. What would go behind the end of it is dropped. -/
def Buffer.write {n : ℕ} (buffer : Buffer n) (off : ℕ) (data : List UInt8) : Buffer n where
  bytes := (Memory.splice buffer.bytes off data).take n
  length_eq := buffer.length_write off data

/-- What fits is copied to the start, and the rest stays. -/
theorem Buffer.bytes_write {n : ℕ} (buffer : Buffer n) {data : List UInt8} (h : data.length ≤ n) :
    (buffer.write 0 data).bytes = data ++ buffer.bytes.drop data.length := by
  have hlength : (Memory.splice buffer.bytes 0 data).length = n := by
    rw [Memory.length_splice, buffer.length_eq]
    rw [buffer.length_eq, Nat.zero_add]
    exact h
  show (Memory.splice buffer.bytes 0 data).take n = _
  rw [List.take_of_length_le hlength.le, Memory.splice, List.take_zero, List.nil_append, Nat.zero_add]

/-! A runtime statistic (`runtime_statistic_t`): a name of 32 bytes, a type and a value. -/

def runtimeStatNameMaxLen : ℕ := 32
def sizeofRuntimeStatistic : ℕ := runtimeStatNameMaxLen+8+8
def runtimeStatisticsAllocation : ℕ := 1
def runtimeStatisticsInferenceTime : ℕ := 2

/-- `LOAD_RUNTIME_STAT_FROM_VALUE`: record `idx` of the statistics. -/
def loadRuntimeStat {n : ℕ} (stats : Buffer n) (idx value : ℕ) (name : String) (type : ℕ) : Buffer n :=
  let text := name.toUTF8.toList.take (runtimeStatNameMaxLen-1)
  stats.write (sizeofRuntimeStatistic*idx)
    (text ++ List.replicate (runtimeStatNameMaxLen-text.length) 0 ++ LittleEndian.toBytes 8 type ++
      LittleEndian.toBytes 8 value)

/-- `runtime_statistics_execution_time_t`. -/
structure ExecutionTime where
  targetInferenceStep : ℕ
  targetInferenceStepTimestamp : ℕ
deriving DecidableEq, Repr

/-- `MEASURE_TIME`, over the state `S` in which the cycle counter is read. -/
def measureTime {S : Type} (cycles : S → ℕ) (cycToNs : ℕ → ℕ) (setTime : ExecutionTime → S → S)
    (func : S → Status × S) (s : S) : Status × S :=
  let timerStart := cycles s
  match func s with
  | (status, s) => (status, setTime {
      targetInferenceStep := cycToNs (cycles s-timerStart)
      targetInferenceStepTimestamp := cycToNs timerStart } s)

/-- The runtime behind the model layer (core/runtime_wrapper.h), over its state `S`: the functions
that each runtime implements, and the loaders that it puts into `g_ldr_tables[1]`. The functions may
return any status. They write inside the buffer they are given, of whatever size it is. The output may
depend on `g_model_spec`, which the runtimes read as well. -/
structure RuntimeWrapper (S : Type) where
  runtimeInit : S → Status × S
  runtimeInitWeights : S → Status × S
  runtimeInitInput : S → Status × S
  runtimeRunModel : S → Status × S
  runtimeRunModelBench : S → Status × S
  runtimeGetModelOutput : List UInt8 → {n : ℕ} → Buffer n → S → Status × Buffer n × S
  runtimeGetStatistics : {n : ℕ} → ℕ → Buffer n → ℕ → S → Status × Buffer n × ℕ × S
  modelLoader : S → Option (MsgLoader S)
  dataLoader : S → Option (MsgLoader S)

/-- The data of the model layer. `g_model_spec` is the memory of the IOSPEC loader; the loader is in
`g_ldr_tables[0]` once it is prepared. -/
structure Model (S : Type) where
  modelState : ModelState
  iospec : BufLoader modelSpecSize
  iospecPrepared : Bool
  runtime : S

namespace Model

variable {S : Type}

/-- `g_model_spec`. -/
def modelSpec (m : Model S) : List UInt8 := m.iospec.mem

def modelResetState (m : Model S) : Model S := {m with modelState := .uninitialized}

def prepareIospecLoader (m : Model S) : Status × Model S :=
  (statusOk, {m with iospecPrepared := true})

/-- `model_load_struct_from_loader`; `none` if it reads `written` through a null loader. -/
def modelLoadStructFromLoader (m : Model S) : Option (Status × Model S) :=
  if m.modelState < .initialized then some (modelStatusInvState, m)
  else if m.iospecPrepared = false then none
  else if modelSpecSize ≠ m.iospec.written then some (Module.model.statusInvArg, m)
  else if validateTensors inputGeometry m.modelSpec then some (Module.model.statusInvArg, m)
  else if validateTensors outputGeometry m.modelSpec then some (Module.model.statusInvArg, m)
  else some (statusOk, {m with modelState := .structLoaded})

/-- `model_get_input_size` and `model_get_output_size`; `none` if an array of `g_model_spec` is read
behind its end. -/
def modelGetSize (g : TensorGeometry) (m : Model S) : Option (Except Status ℕ) :=
  if m.modelState < .structLoaded then some (.error modelStatusInvState)
  else (modelSize g m.modelSpec).map .ok

def modelGetInputSize : Model S → Option (Except Status ℕ) := modelGetSize inputGeometry

def modelGetOutputSize : Model S → Option (Except Status ℕ) := modelGetSize outputGeometry

def modelLoadStruct (data : Option (List UInt8)) (m : Model S) : Option (Status × Model S) :=
  match data with
  | none => some (Module.model.statusInvPtr, m)
  | some data =>
    if m.iospecPrepared = false then some (Module.model.statusInvPtr, m)
    else
      match bufSave (bufReset m.iospec).2 data with
      | (status, iospec) =>
        if status ≠ statusOk then some (status, {m with iospec})
        else modelLoadStructFromLoader {m with iospec}

variable (R : RuntimeWrapper S)

def modelInit (m : Model S) : Status × Model S :=
  match R.runtimeInit m.runtime with
  | (status, runtime) =>
    if status ≠ statusOk then (status, {m with runtime})
    else prepareIospecLoader {m with runtime, modelState := .initialized}

def modelLoadWeightsFromLoader (m : Model S) : Status × Model S :=
  if m.modelState < .structLoaded then (modelStatusInvState, m)
  else
    match R.runtimeInitWeights m.runtime with
    | (status, runtime) =>
      if status ≠ statusOk then (status, {m with runtime})
      else (statusOk, {m with runtime, modelState := .weightsLoaded})

/-- `model_load_input_from_loader`; `none` if it reads behind an array of `g_model_spec`. -/
def modelLoadInputFromLoader (expectedSize : ℕ) (m : Model S) : Option (Status × Model S) :=
  if m.modelState < .weightsLoaded then some (modelStatusInvState, m)
  else
    match m.modelGetInputSize with
    | none => none
    | some (.error status) => some (status, m)
    | some (.ok computedSize) =>
      if computedSize ≠ expectedSize then some (Module.model.statusInvArg, m)
      else
        match R.runtimeInitInput m.runtime with
        | (status, runtime) =>
          if status ≠ statusOk then some (status, {m with runtime})
          else some (statusOk, {m with runtime, modelState := .inputLoaded})

def modelLoadWeights (data : Option (List UInt8)) (m : Model S) : Status × Model S :=
  match data, R.modelLoader m.runtime with
  | none, _ => (Module.model.statusInvPtr, m)
  | some _, none => (Module.model.statusInvPtr, m)
  | some data, some ldr =>
    match ldr.save (ldr.reset m.runtime).2 data with
    | (status, runtime) =>
      if status ≠ statusOk then (status, {m with runtime})
      else modelLoadWeightsFromLoader R {m with runtime}

def modelLoadInput (data : Option (List UInt8)) (m : Model S) : Option (Status × Model S) :=
  match data, R.dataLoader m.runtime with
  | none, _ => some (Module.model.statusInvPtr, m)
  | some _, none => some (Module.model.statusInvPtr, m)
  | some data, some ldr =>
    match ldr.save (ldr.reset m.runtime).2 data with
    | (status, runtime) =>
      if status ≠ statusOk then some (status, {m with runtime})
      else modelLoadInputFromLoader R data.length {m with runtime}

/-- `model_run` and `model_run_bench`, which differ in the function of the runtime they call. -/
def runWith (runtimeRun : S → Status × S) (m : Model S) : Status × Model S :=
  if m.modelState < .inputLoaded then (modelStatusInvState, m)
  else
    match runtimeRun m.runtime with
    | (status, runtime) =>
      if status ≠ statusOk then (status, {m with runtime})
      else (status, {m with runtime, modelState := .inferenceDone})

def modelRun : Model S → Status × Model S := runWith R.runtimeRunModel

def modelRunBench : Model S → Status × Model S := runWith R.runtimeRunModelBench

/-- What `model_get_output` and `model_get_statistics` leave: the status, the buffer, the size that
was reported through the pointer, and the model. -/
structure Retrieved (S : Type) (n : ℕ) where
  status : Status
  buffer : Buffer n
  size : ℕ
  model : Model S

/-- `model_get_output`, when the caller's size holds `size` before. -/
def modelGetOutput {n : ℕ} (bufferSize : ℕ) (buffer : Buffer n) (size : ℕ) (m : Model S) :
    Option (Retrieved S n) :=
  if m.modelState < .inferenceDone then some ⟨modelStatusInvState, buffer, size, m⟩
  else
    match m.modelGetOutputSize with
    | none => none
    | some (.error status) => some ⟨status, buffer, size, m⟩
    | some (.ok outputSize) =>
      if bufferSize < outputSize then some ⟨Module.model.statusInvArg, buffer, size, m⟩
      else
        -- The size is reported before the runtime is asked, so also if it fails.
        match R.runtimeGetModelOutput m.modelSpec buffer m.runtime with
        | (status, buffer, runtime) => some ⟨status, buffer, outputSize, {m with runtime}⟩

/-- `model_get_statistics`, when the caller's size holds `size` before. -/
def modelGetStatistics {n : ℕ} (bufferSize : ℕ) (buffer : Buffer n) (size : ℕ) (m : Model S) :
    Retrieved S n :=
  if m.modelState < .weightsLoaded then ⟨modelStatusInvState, buffer, size, m⟩
  else
    match R.runtimeGetStatistics bufferSize buffer size m.runtime with
    | (status, buffer, size, runtime) => ⟨status, buffer, size, {m with runtime}⟩

end Model

/-- The calls into the model layer. A null pointer for the data is `none`. -/
inductive ModelCall where
  | init
  | resetState
  | loadStruct (data : Option (List UInt8))
  | loadStructFromLoader
  | loadWeights (data : Option (List UInt8))
  | loadWeightsFromLoader
  | loadInput (data : Option (List UInt8))
  | loadInputFromLoader (expectedSize : ℕ)
  | run
  | runBench
  | getOutput (bufferSize n : ℕ) (buffer : Buffer n)
  | getStatistics (bufferSize n : ℕ) (buffer : Buffer n)

/-- The model layer after a call; `none` if the call does not return. -/
def modelStep {S : Type} (R : RuntimeWrapper S) (m : Model S) : ModelCall → Option (Model S)
  | .init => some (m.modelInit R).2
  | .resetState => some m.modelResetState
  | .loadStruct data => (m.modelLoadStruct data).map Prod.snd
  | .loadStructFromLoader => m.modelLoadStructFromLoader.map Prod.snd
  | .loadWeights data => some (m.modelLoadWeights R data).2
  | .loadWeightsFromLoader => some (m.modelLoadWeightsFromLoader R).2
  | .loadInput data => (m.modelLoadInput R data).map Prod.snd
  | .loadInputFromLoader expectedSize => (m.modelLoadInputFromLoader R expectedSize).map Prod.snd
  | .run => some (m.modelRun R).2
  | .runBench => some (m.modelRunBench R).2
  | .getOutput bufferSize _ buffer =>
    (m.modelGetOutput R bufferSize buffer 0).map Model.Retrieved.model
  | .getStatistics bufferSize _ buffer => some (m.modelGetStatistics R bufferSize buffer 0).model

/-! ### Concrete models -/

/-- A runtime without loaders of its own: call `n` of its functions returns `status n`, and only the
calls are counted. -/
def scriptRuntime (status : ℕ → Status) : RuntimeWrapper ℕ where
  runtimeInit n := (status n, n+1)
  runtimeInitWeights n := (status n, n+1)
  runtimeInitInput n := (status n, n+1)
  runtimeRunModel n := (status n, n+1)
  runtimeRunModelBench n := (status n, n+1)
  runtimeGetModelOutput _ _ buffer n := (status n, buffer, n+1)
  runtimeGetStatistics _ buffer size n := (status n, buffer, size, n+1)
  modelLoader _ := none
  dataLoader _ := none

/-- The model layer after start-up, over a runtime in the state `s`. -/
def startedModel {S : Type} (s : S) : Model S where
  modelState := .uninitialized
  iospec := emptyBuffer modelSpecSize (by decide)
  iospecPrepared := false
  runtime := s

/-- One input and one output tensor, each a single `int8_t`. -/
def oneByteSpec : List UInt8 :=
  (List.range modelSpecSize).map fun i =>
    if i ∈ [0, 4, 12, 48, 52, 100] then 1 else if i ∈ [45, 293] then 8 else 0

end KenningRuntime
