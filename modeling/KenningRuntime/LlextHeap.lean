import KenningRuntime.RuntimeLlext

/-! The loader and the callback of the runtime once more, one statement after the other, with the blocks
of `llext_heap` told apart: which of them `ldr->addr` points to, and which the loaded extension is in
(with `CONFIG_LLEXT_STORAGE_WRITABLE` an extension stays in the block that it is loaded from). -/
namespace KenningRuntime
open LittleEndian Llext

/-- The number of blocks that were obtained so far, those that were freed, `ldr->addr`, and the block
that the extension was loaded from, if one is loaded. -/
structure LlextHeap where
  obtained : ℕ
  freed : List ℕ
  addr : Option ℕ
  image : Option ℕ
deriving DecidableEq, Repr

namespace LlextHeap

def Allocated (heap : LlextHeap) (b : ℕ) : Prop := b < heap.obtained ∧ b ∉ heap.freed

/-- No block was freed twice, and `ldr->addr` points to a block until it is freed. -/
structure Owned (heap : LlextHeap) : Prop where
  freedOnce : heap.freed.Nodup
  referenced : ∀ b, heap.Allocated b → heap.addr = some b

/-- The block that the loaded extension is in is allocated. -/
def ImageAllocated (heap : LlextHeap) : Prop := ∀ b, heap.image = some b → heap.Allocated b

def boot : LlextHeap := ⟨0, [], none, none⟩

end LlextHeap

/-- The data of the server side with the heap, and all heaps that they have passed through. -/
structure Elf (E Z : Type) where
  llext : Llext E Z
  heap : LlextHeap
  passed : List LlextHeap

namespace Elf

section
variable {E Z : Type} (A : LlextApi Z) (X : Extension E)

def llextLens : Lens (Elf E Z) (Llext E Z) where
  get s := s.llext
  set s llext := {s with llext}
  get_set _ _ := rfl
  set_get _ := rfl
  set_set _ _ _ := rfl

def passes (heap : LlextHeap) (s : Elf E Z) : Elf E Z := {s with heap, passed := s.passed ++ [heap]}

def withZephyr (zephyr : Z) (s : Elf E Z) : Elf E Z := {s with llext := {s.llext with zephyr}}

/-- `k_heap_free(&llext_heap, ldr->addr)`, where `ldr->addr` points to block `b`. -/
def kHeapFree (b : ℕ) (s : Elf E Z) : Elf E Z :=
  (s.withZephyr (A.kHeapFree s.llext.zephyr)).passes {s.heap with freed := s.heap.freed ++ [b]}

/-- `ldr->addr = NULL`. -/
def clearAddr (s : Elf E Z) : Elf E Z :=
  ({s with llext := {s.llext with addr := none}} : Elf E Z).passes {s.heap with addr := none}

/-- `ldr->addr = k_heap_aligned_alloc(..)`, where a block is obtained. -/
def obtainBlock (mem : List UInt8) (s : Elf E Z) : Elf E Z :=
  ({s with llext := {s.llext with addr := some mem}} : Elf E Z).passes {s.heap with
    obtained := s.heap.obtained+1
    addr := some s.heap.obtained }

/-- `llext_unload` has unloaded extension `g`. -/
def unloaded (g : ℕ) (s : Elf E Z) : Elf E Z :=
  ({s with llext := ({s.llext with loaded := none}).happened (.destroy g)} : Elf E Z).passes
    {s.heap with image := none}

/-- `llext_load` has loaded the next extension from the buffer at `ldr->addr`. -/
def loadedFrom (llextSize : ℕ) (s : Elf E Z) : Elf E Z :=
  ({s with llext := ({s.llext with
      loaded := some s.llext.next
      next := s.llext.next+1
      ext := X.load s.llext.addr llextSize }).happened (.create s.llext.next)} : Elf E Z).passes
    {s.heap with image := s.heap.addr}

/-- The first `if` of `reset_runtime`. -/
def releaseAddr (s : Elf E Z) : Elf E Z :=
  match s.heap.addr with
  | none => s
  | some b => (s.kHeapFree A b).clearAddr

def resetRuntime (s : Elf E Z) : Status × Elf E Z :=
  let s := s.releaseAddr A
  let s : Elf E Z := {s with llext := {s.llext with written := 0, maxSize := 0}}
  match s.llext.loaded with
  | none => (statusOk, s)
  | some g =>
    match A.llextTeardown s.llext.zephyr with
    | (status, zephyr) =>
      if status ≠ statusOk then (status, s.withZephyr zephyr)
      else
        match A.llextUnload zephyr with
        | (status, zephyr) =>
          if status ≠ statusOk then (status, s.withZephyr zephyr)
          else (statusOk, (s.withZephyr zephyr).unloaded g)

/-- `buf_save` into the block `mem` at `addr`. -/
def bufSave (mem src : List UInt8) (s : Elf E Z) : Status × Elf E Z :=
  match s.llext.saveBlock mem src with
  | (status, llext) => (status, {s with llext})

def saveRuntime (s : Elf E Z) (src : List UInt8) : Status × Elf E Z :=
  match s.llext.addr with
  | some mem => s.bufSave mem src
  | none =>
    if src.length < runtimeSizeFieldSize then (Module.loaders.statusError, s)
    else
      let fullRuntimeSize := word src 0 runtimeSizeFieldSize
      match A.kHeapAlignedAlloc fullRuntimeSize s.llext.zephyr with
      | (none, zephyr) => (loadersStatusNotEnoughMemory,
          {s with llext := {s.llext with zephyr, written := 0, maxSize := 0}})
      | (some mem, zephyr) =>
        let s := (s.withZephyr zephyr).obtainBlock mem.1
        let s : Elf E Z := {s with llext := {s.llext with written := 0, maxSize := fullRuntimeSize}}
        if src.length > runtimeSizeFieldSize then s.bufSave mem.1 (src.drop runtimeSizeFieldSize)
        else (statusOk, s)

/-- The block of `runtime_callback` that loads the extension. -/
def loadRuntime (llextSize : ℕ) (s : Elf E Z) : Status × Elf E Z :=
  match s.llext.runtimeDeinit with
  | (status, llext) =>
    let s : Elf E Z := {s with llext}
    if status ≠ statusOk then (status, s)
    else if s.llext.loaded.isSome then (Module.callbacks.statusError, s)
    else
      match A.llextLoad s.llext.addr llextSize s.llext.zephyr with
      | (llextStatus, zephyr) =>
        if llextStatus ≠ statusOk then (Module.callbacks.statusError, s.withZephyr zephyr)
        else
          let s := (s.withZephyr zephyr).loadedFrom X llextSize
          match A.llextBringup s.llext.zephyr with
          | (llextStatus, zephyr) =>
            if llextStatus ≠ statusOk then (Module.callbacks.statusError, s.withZephyr zephyr)
            else (statusOk, s.withZephyr zephyr)

def msgLoaderLlext : MsgLoader (Elf E Z) where
  save := saveRuntime A
  reset := resetRuntime A
  written s := s.llext.written

def boot (ext : E) (zephyr : Z) : Elf E Z := ⟨Llext.boot ext zephyr, LlextHeap.boot, [LlextHeap.boot]⟩

end

end Elf

/-- The runtime of a component, as a runtime of the whole state. -/
def RuntimeWrapper.lift {W S : Type} (L : Lens W S) (R : RuntimeWrapper S) : RuntimeWrapper W where
  runtimeInit w := ((R.runtimeInit (L.get w)).1, L.set w (R.runtimeInit (L.get w)).2)
  runtimeInitWeights w :=
    ((R.runtimeInitWeights (L.get w)).1, L.set w (R.runtimeInitWeights (L.get w)).2)
  runtimeInitInput w := ((R.runtimeInitInput (L.get w)).1, L.set w (R.runtimeInitInput (L.get w)).2)
  runtimeRunModel w := ((R.runtimeRunModel (L.get w)).1, L.set w (R.runtimeRunModel (L.get w)).2)
  runtimeRunModelBench w :=
    ((R.runtimeRunModelBench (L.get w)).1, L.set w (R.runtimeRunModelBench (L.get w)).2)
  runtimeGetModelOutput spec _ buffer w :=
    match R.runtimeGetModelOutput spec buffer (L.get w) with
    | (status, buffer, s) => (status, buffer, L.set w s)
  runtimeGetStatistics bufferSize buffer size w :=
    match R.runtimeGetStatistics bufferSize buffer size (L.get w) with
    | (status, buffer, size, s) => (status, buffer, size, L.set w s)
  modelLoader w := (R.modelLoader (L.get w)).map (MsgLoader.lift L)
  dataLoader w := (R.dataLoader (L.get w)).map (MsgLoader.lift L)

/-- The build with `CONFIG_LLEXT`, over the data with the heap. -/
def elfBuild {E Z : Type} (A : LlextApi Z) (X : Extension E) : Build (Elf E Z) :=
  ⟨(Llext.wrapper A X).lift Elf.llextLens, some ⟨Elf.msgLoaderLlext A, Elf.loadRuntime A X⟩⟩

end KenningRuntime
