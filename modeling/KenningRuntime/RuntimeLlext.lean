import KenningRuntime.InferenceServer
import KenningRuntime.Library.Lifetime

/-! The build with `CONFIG_LLEXT` (runtimes/llext/llext.c, and the parts of core/inference_server.c and
core/callbacks.c that it adds): the runtime is an extension that is received, loaded and unloaded. With
a record of which extension is loaded and which is followed by a pointer. -/
namespace KenningRuntime
open Lifetime LittleEndian Memory

/-- The functions that `FIND_P_FUNC` looks for. -/
inductive RuntimeSymbol where
  | runtimeInit
  | runtimeInitWeights
  | runtimeInitInput
  | runtimeRunModel
  | runtimeRunModelBench
  | runtimeGetModelOutput
  | runtimeGetStatistics
deriving DecidableEq, Repr

/-- What Zephyr answers, over its state `Z`: the functions of llext (a null file pointer is `none`) and
those of `llext_heap`, which has one block at most. Memory that was allocated holds anything. -/
structure LlextApi (Z : Type) where
  llextTeardown : Z → Status × Z
  llextUnload : Z → Status × Z
  llextLoad : Option (List UInt8) → ℕ → Z → Status × Z
  llextBringup : Z → Status × Z
  llextFindSym : RuntimeSymbol → Z → Bool
  kHeapFree : Z → Z
  kHeapAlignedAlloc : (n : ℕ) → Z → Option {mem : List UInt8 // mem.length = n} × Z

/-- The code of the extensions, over their data `E`, and the data of one that is loaded from a file.
`runtimeInit` also tells whether it got as far as to put its two loaders into `g_ldr_tables[1]`. -/
structure Extension (E : Type) where
  load : Option (List UInt8) → ℕ → E
  runtimeInit : E → Status × Bool × E
  runtimeInitWeights : E → Status × E
  runtimeInitInput : E → Status × E
  runtimeRunModel : E → Status × E
  runtimeRunModelBench : E → Status × E
  runtimeGetModelOutput : List UInt8 → {n : ℕ} → Buffer n → E → Status × Buffer n × E
  runtimeGetStatistics : {n : ℕ} → ℕ → Buffer n → ℕ → E → Status × Buffer n × ℕ × E
  msgLoaderModel : MsgLoader E
  msgLoaderInput : MsgLoader E

/-- The data of the server side. Extensions are told apart by a number, `next` is the next one;
`loaded` is what `llext_by_name` finds. `gpLlextRuntime` is the extension the pointer was set to, and
`ldrTable` the one whose loaders are in `g_ldr_tables[1]`, loaded or not. -/
structure Llext (E Z : Type) where
  addr : Option (List UInt8)
  written : ℕ
  maxSize : ℕ
  runtimeInitialized : Bool
  gpLlextRuntime : Option ℕ
  ldrTable : Option ℕ
  loaded : Option ℕ
  next : ℕ
  ext : E
  zephyr : Z
  record : List (Event ℕ)

namespace Llext

def runtimeSizeFieldSize : ℕ := 4

variable {E Z : Type} (A : LlextApi Z) (X : Extension E)

def happened (e : Event ℕ) (s : Llext E Z) : Llext E Z := {s with record := s.record ++ [e]}

/-! ### The loader of the runtime -/

/-- `reset_runtime`. The extension is unloaded here, before anything of the next one has come. -/
def resetRuntime (s : Llext E Z) : Status × Llext E Z :=
  let zephyr := if s.addr.isSome then A.kHeapFree s.zephyr else s.zephyr
  let s := {s with addr := none, written := 0, maxSize := 0, zephyr}
  -- The block is gone by now, also if the extension that was loaded from it stays.
  match s.loaded with
  | none => (statusOk, s)
  | some g =>
    match A.llextTeardown s.zephyr with
    | (status, zephyr) =>
      if status ≠ statusOk then (status, {s with zephyr})
      else
        match A.llextUnload zephyr with
        | (status, zephyr) =>
          if status ≠ statusOk then (status, {s with zephyr})
          else (statusOk, ({s with zephyr, loaded := none}).happened (.destroy g))

/-- `buf_save` into the block `mem` at `addr`. -/
def saveBlock (mem : List UInt8) (src : List UInt8) (s : Llext E Z) : Status × Llext E Z :=
  if s.written+src.length > s.maxSize then (loadersStatusNotEnoughMemory, s)
  else (statusOk, {s with
    addr := some (splice mem s.written src)
    written := s.written+src.length })

/-- `save_runtime`. The first chunk starts with the size of the file. -/
def saveRuntime (s : Llext E Z) (src : List UInt8) : Status × Llext E Z :=
  match s.addr with
  | some mem => s.saveBlock mem src
  | none =>
    -- A size field that comes in pieces is not put together.
    if src.length < runtimeSizeFieldSize then (Module.loaders.statusError, s)
    else
      let fullRuntimeSize := word src 0 runtimeSizeFieldSize
      match A.kHeapAlignedAlloc fullRuntimeSize s.zephyr with
      | (none, zephyr) => (loadersStatusNotEnoughMemory, {s with zephyr, written := 0, maxSize := 0})
      | (some mem, zephyr) =>
        let s := {s with zephyr, addr := some mem.1, written := 0, maxSize := fullRuntimeSize}
        if src.length > runtimeSizeFieldSize then
          s.saveBlock mem.1 (src.drop runtimeSizeFieldSize)
        else (statusOk, s)

def msgLoaderLlext : MsgLoader (Llext E Z) where
  save := saveRuntime A
  reset := resetRuntime A
  written s := s.written

/-! ### The runtime wrapper -/

def runtimeDeinit (s : Llext E Z) : Status × Llext E Z :=
  (statusOk, {s with runtimeInitialized := false})

/-- `FIND_P_FUNC`, and the call of the function if it was found: what it returns, or `none` with the
status that the macro returns. -/
def findPFunc {α : Type} (symbol : RuntimeSymbol) (call : Llext E Z → α × Llext E Z)
    (s : Llext E Z) : Except Status α × Llext E Z :=
  match s.gpLlextRuntime with
  | none => (.error Module.runtimeWrapper.statusError, s)
  | some g =>
    let s := s.happened (.use g)
    if A.llextFindSym symbol s.zephyr then (.ok (call s).1, (call s).2)
    else (.error Module.runtimeWrapper.statusError, s)

/-- The status of a wrapper that returns what the function of the extension returns. -/
def statusOf : Except Status Status → Status
  | .error status => status
  | .ok status => status

/-- A wrapper without arguments. -/
def callRuntime (symbol : RuntimeSymbol) (function : E → Status × E) (s : Llext E Z) :
    Status × Llext E Z :=
  match findPFunc A symbol (fun s => ((function s.ext).1, {s with ext := (function s.ext).2})) s with
  | (result, s) => (statusOf result, s)

/-- `runtime_init`. The function of the extension puts its loaders into `g_ldr_tables[1]`, if it gets
as far as that. -/
def runtimeInit (s : Llext E Z) : Status × Llext E Z :=
  if s.runtimeInitialized then (statusOk, s)
  else
    let s := {s with gpLlextRuntime := s.loaded}
    match findPFunc A .runtimeInit (fun s => ((X.runtimeInit s.ext).1, {s with
        ext := (X.runtimeInit s.ext).2.2
        ldrTable := if (X.runtimeInit s.ext).2.1 then s.gpLlextRuntime else s.ldrTable })) s with
    | (result, s) => (statusOf result, s)

def runtimeInitWeights : Llext E Z → Status × Llext E Z :=
  callRuntime A .runtimeInitWeights X.runtimeInitWeights

def runtimeInitInput : Llext E Z → Status × Llext E Z :=
  callRuntime A .runtimeInitInput X.runtimeInitInput

def runtimeRunModel : Llext E Z → Status × Llext E Z :=
  callRuntime A .runtimeRunModel X.runtimeRunModel

def runtimeRunModelBench : Llext E Z → Status × Llext E Z :=
  callRuntime A .runtimeRunModelBench X.runtimeRunModelBench

def runtimeGetModelOutput (modelSpec : List UInt8) {n : ℕ} (modelOutput : Buffer n) (s : Llext E Z) :
    Status × Buffer n × Llext E Z :=
  match findPFunc A .runtimeGetModelOutput (fun s =>
      (((X.runtimeGetModelOutput modelSpec modelOutput s.ext).1,
          (X.runtimeGetModelOutput modelSpec modelOutput s.ext).2.1),
        {s with ext := (X.runtimeGetModelOutput modelSpec modelOutput s.ext).2.2})) s with
  | (.error status, s) => (status, modelOutput, s)
  | (.ok (status, modelOutput), s) => (status, modelOutput, s)

def runtimeGetStatistics {n : ℕ} (statisticsBufferSize : ℕ) (statisticsBuffer : Buffer n)
    (statisticsSize : ℕ) (s : Llext E Z) : Status × Buffer n × ℕ × Llext E Z :=
  match findPFunc A .runtimeGetStatistics (fun s =>
      match X.runtimeGetStatistics statisticsBufferSize statisticsBuffer statisticsSize s.ext with
      | (status, buffer, size, ext) => ((status, buffer, size), {s with ext})) s with
  | (.error status, s) => (status, statisticsBuffer, statisticsSize, s)
  | (.ok (status, buffer, size), s) => (status, buffer, size, s)

/-- A loader of extension `g` in `g_ldr_tables[1]`. -/
def ownedLoader (ldr : MsgLoader E) (g : ℕ) : MsgLoader (Llext E Z) where
  save s src := ((ldr.save s.ext src).1, ({s with ext := (ldr.save s.ext src).2}).happened (.use g))
  reset s := ((ldr.reset s.ext).1, ({s with ext := (ldr.reset s.ext).2}).happened (.use g))
  written s := ldr.written s.ext

/-- The runtime, as the model layer sees it. -/
def wrapper : RuntimeWrapper (Llext E Z) where
  runtimeInit := runtimeInit A X
  runtimeInitWeights := runtimeInitWeights A X
  runtimeInitInput := runtimeInitInput A X
  runtimeRunModel := runtimeRunModel A X
  runtimeRunModelBench := runtimeRunModelBench A X
  runtimeGetModelOutput := runtimeGetModelOutput A X
  runtimeGetStatistics := runtimeGetStatistics A X
  modelLoader s := s.ldrTable.map (ownedLoader X.msgLoaderModel)
  dataLoader s := s.ldrTable.map (ownedLoader X.msgLoaderInput)

/-! ### The callback -/

/-- The block of `runtime_callback` that loads the extension from the first `llextSize` bytes at
`addr`. -/
def loadRuntime (llextSize : ℕ) (s : Llext E Z) : Status × Llext E Z :=
  match s.runtimeDeinit with
  | (status, s) =>
    if status ≠ statusOk then (status, s)
    else if s.loaded.isSome then (Module.callbacks.statusError, s)
    else
      match A.llextLoad s.addr llextSize s.zephyr with
      | (llextStatus, zephyr) =>
        if llextStatus ≠ statusOk then (Module.callbacks.statusError, {s with zephyr})
        else
          let s := ({s with
            zephyr
            loaded := some s.next
            next := s.next+1
            ext := X.load s.addr llextSize }).happened (.create s.next)
          -- An extension that is not brought up stays loaded.
          match A.llextBringup s.zephyr with
          | (llextStatus, zephyr) =>
            if llextStatus ≠ statusOk then (Module.callbacks.statusError, {s with zephyr})
            else (statusOk, {s with zephyr})

/-- The data at boot. -/
def boot (ext : E) (zephyr : Z) : Llext E Z where
  addr := none
  written := 0
  maxSize := 0
  runtimeInitialized := false
  gpLlextRuntime := none
  ldrTable := none
  loaded := none
  next := 0
  ext
  zephyr
  record := []

end Llext

/-- The build with `CONFIG_LLEXT`. -/
def llextBuild {E Z : Type} (A : LlextApi Z) (X : Extension E) : Build (Llext E Z) :=
  ⟨Llext.wrapper A X, some ⟨Llext.msgLoaderLlext A, Llext.loadRuntime A X⟩⟩

/-- The type of the event that `protocol_listen` starts, if it starts one. -/
def openedType (rx : Rx) : Option MessageType :=
  match receiveMessageHeader rx with
  | (.error _, _) => none
  | (.ok header, _) =>
    if header.flowControlFlags ≠ flowControlTransmission ∧
        header.flowControlFlags ≠ flowControlRequest then none
    else if header.flags.first = false then none
    else MessageType.ofNumber? header.messageType.toNat

section
variable {cfg : Config} {E Z : Type} (checksum : ℕ → BitVec 8) (A : LlextApi Z) (X : Extension E)

/-- `protocol_listen` reads `written` through the loader pointer of a data or model event, also where
it does not call the loader. -/
def readsWritten (rx : Rx) (s : Llext E Z) : Llext E Z :=
  match openedType rx, s.ldrTable with
  | some .data, some g => s.happened (.use g)
  | some .model, some g => s.happened (.use g)
  | _, _ => s

/-- A round of the main loop, with a note of that read. -/
def llextRound (server : Server cfg (Llext E Z)) (io : Rx × Tx) : Option (Server cfg (Llext E Z)) :=
  serveRound checksum (llextBuild A X)
    {server with model := {server.model with runtime := readsWritten io.1 server.model.runtime}} io

end

end KenningRuntime
