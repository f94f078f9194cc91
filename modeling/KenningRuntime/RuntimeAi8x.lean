import KenningRuntime.Model

/-! The runtime on the ai8x accelerator (runtimes/ai8x): the loader that decodes a model into the
accelerator's memories, and the inference. -/
namespace KenningRuntime
open LittleEndian

namespace Ai8x

/-! ### The model loader -/

/-- `enum cnn_load_state`. -/
inductive CnnLoadState where
  | weightsStart
  | weightsLength
  | weights
  | biasesStart
  | biasesLength
  | biases
  | loadEnd
deriving DecidableEq, Repr

/-- A write to the accelerator. -/
inductive CnnWrite where
  | byte (addr : BitVec 32) (val : UInt8)
  | word (addr val : BitVec 32)
deriving DecidableEq, Repr

/-- `msg_loader_model`, with the writes that it has made. Pointers and sizes have 32 bits. -/
structure CnnLoader where
  state : CnnLoadState
  addr : BitVec 32
  written : BitVec 32
  maxSize : BitVec 32
  writes : List CnnWrite

/-- `*(addr + written++) = val`, then `next` if the entry is complete. -/
def CnnLoader.append (l : CnnLoader) (val : BitVec 32) (next : CnnLoadState) : CnnLoader :=
  let l := {l with
    writes := l.writes ++ [.word (l.addr+4*l.written) val]
    written := l.written+1 }
  -- The count is compared after the write, so an entry of length 0 does not end here.
  if l.written = l.maxSize then {l with state := next} else l

def bufSaveOneCnn (l : CnnLoader) (val : BitVec 32) : Status × CnnLoader :=
  match l.state with
  | .weightsStart =>
    let l := {l with addr := val}
    if val = 0 then (statusOk, {l with state := .biasesStart})
    else (statusOk, {l with writes := l.writes ++ [.byte (val ||| 1) 1], state := .weightsLength})
  | .weightsLength => (statusOk, {l with maxSize := val, written := 0, state := .weights})
  | .weights => (statusOk, l.append val .weightsStart)
  | .biasesStart =>
    let l := {l with addr := val}
    if val = 0 then (statusOk, {l with state := .loadEnd})
    else (statusOk, {l with state := .biasesLength})
  | .biasesLength => (statusOk, {l with maxSize := val, written := 0, state := .biases})
  | .biases => (statusOk, l.append val .biasesStart)
  | .loadEnd => (statusOk, l)

/-- The loop of `buf_save_cnn` from word `i` on. -/
def bufSaveCnnLoop (src : List UInt8) : ℕ → ℕ → CnnLoader → Status × CnnLoader
  | 0, _, l => (statusOk, l)
  | left+1, i, l =>
    match bufSaveOneCnn l (BitVec.ofNat 32 (word src (4*i) 4)) with
    | (status, l) => if status ≠ statusOk then (status, l) else bufSaveCnnLoop src left (i+1) l

def bufSaveCnn (l : CnnLoader) (src : List UInt8) : Status × CnnLoader :=
  bufSaveCnnLoop src (src.length/4) 0 l

def bufResetCnn (l : CnnLoader) : Status × CnnLoader :=
  (statusOk, {l with state := .weightsStart, addr := 0, written := 0, maxSize := 0})

def msgLoaderModel : MsgLoader CnnLoader where
  save := bufSaveCnn
  reset := bufResetCnn
  written l := l.written.toNat

/-! ### The inference -/

/-- The accelerator, and the system as far as the inference uses it, over their state `E`. `cnnDone`
is the variable that the interrupt of the accelerator sets. -/
structure CnnHardware (E : Type) where
  cnnTimeoutMs : ℕ
  cnnSetClock : ℕ → ℕ → E → E
  cnnStart : E → E
  cnnDone : E → Bool
  kMsleep : ℕ → E → E
  cycles : E → ℕ
  cycToNs : ℕ → ℕ

/-- `gp_ai8x_time_stats`, and the hardware. -/
structure State (E : Type) where
  timeStats : ExecutionTime
  hardware : E

section
variable {E : Type} (H : CnnHardware E)

/-- The loop of `cnn_wait`, with `left` milliseconds until the timeout: whether it saw `cnn_done`. -/
def cnnWaitLoop : ℕ → E → Bool × E
  | 0, e => if H.cnnDone e then (true, e) else (false, H.kMsleep 1 e)
  | left+1, e => if H.cnnDone e then (true, e) else cnnWaitLoop left (H.kMsleep 1 e)

/-- `CNN_FAIL` is false. -/
def cnnWait : E → Bool × E := cnnWaitLoop H H.cnnTimeoutMs

def runtimeRunModel (s : State E) : Status × State E :=
  match cnnWait H (H.cnnStart (H.cnnSetClock 4 3 s.hardware)) with
  | (done, hardware) =>
    (if done then statusOk else Module.runtimeWrapper.statusError,
      {s with hardware := H.cnnSetClock 1 3 hardware})

def runtimeRunModelBench (s : State E) : Status × State E :=
  (statusOk, (measureTime (fun s => H.cycles s.hardware) H.cycToNs
    (fun timeStats s => {s with timeStats}) (runtimeRunModel H) s).2)

end

end Ai8x

end KenningRuntime
