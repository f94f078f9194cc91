import KenningRuntime.Loaders
import KenningRuntime.Library.LittleEndian

/-! The check of the TVM runtime that a received model is a graph and its parameters, on a target with
pointers and sizes of 32 bits (`runtime_init_weights` of runtimes/tvm/tvm.c). -/
namespace KenningRuntime
open LittleEndian

namespace Tvm

/-! ### The container (`tvm_graph_t`) -/

def sizeofTvmGraph : ℕ := 8

/-- Both sizes are words in the buffer, whether they were received or not. -/
def graphJsonSize (buffer : List UInt8) : ℕ := word buffer 0 4
def graphParamsSize (buffer : List UInt8) : ℕ := word buffer 4 4

/-- Where the pointers point: offsets from the start of `gp_tvm_graph_buffer`. A pointer has 32 bits, so
one that is computed with a large size wraps around. -/
def tvmGraphJsonPtr : ℕ := sizeofTvmGraph
def tvmGraphParamsPtr (buffer : List UInt8) : ℕ := (sizeofTvmGraph+graphJsonSize buffer)%2^32

/-! ### The initialization -/

/-- TVM, over its state `E`: each function also tells whether it has returned no error, and those that
set a pointer whether the pointer is not null. A buffer is given with the offset of the pointer. -/
structure GraphLibrary (E : Type) where
  graphExecutorRelease : E → Bool × E
  modFree : E → Bool × E
  systemLibEntryPoint : E → Bool × E
  modCreateFromCModule : E → Bool × Bool × E
  graphExecutorCreate : List UInt8 → ℕ → E → Bool × Bool × E
  graphExecutorLoadParams : List UInt8 → ℕ → ℕ → E → Bool × E

/-- The calls that come behind the check of the sizes. -/
inductive GraphCall where
  | systemLibEntryPoint
  | modCreateFromCModule
  | graphExecutorCreate (json : ℕ)
  | graphExecutorLoadParams (params size : ℕ)
deriving DecidableEq

/-- `msg_loader_model` with `gp_tvm_graph_buffer`, which pointers are set, TVM, and the calls so far. -/
structure GraphState (C : ℕ) (E : Type) where
  loader : BufLoader C
  gpTvmGraphExecutor : Bool
  gTvmModuleHandle : Bool
  library : E
  calls : List GraphCall

section
variable {C : ℕ} {E : Type} (L : GraphLibrary E)

/-- The graph executor of the last model. -/
def releaseExecutor (s : GraphState C E) : Bool × GraphState C E :=
  if s.gpTvmGraphExecutor then
    match L.graphExecutorRelease s.library with
    | (ok, library) =>
      (ok, {s with library, gpTvmGraphExecutor := if ok then false else s.gpTvmGraphExecutor})
  else (true, s)

/-- The module of the last model. -/
def freeModule (s : GraphState C E) : Bool × GraphState C E :=
  if s.gTvmModuleHandle then
    match L.modFree s.library with
    | (ok, library) =>
      (ok, {s with library, gTvmModuleHandle := if ok then false else s.gTvmModuleHandle})
  else (true, s)

/-- What is done with a model whose sizes are right. -/
def loadGraph (s : GraphState C E) : Status × GraphState C E :=
  let buffer := s.loader.mem
  match L.systemLibEntryPoint s.library with
  | (valid, library) =>
    let s := {s with library, calls := s.calls ++ [.systemLibEntryPoint]}
    if valid = false then (Module.runtimeWrapper.statusInvPtr, s)
    else
      match L.modCreateFromCModule s.library with
      | (ok, gTvmModuleHandle, library) =>
        let s := {s with library, gTvmModuleHandle, calls := s.calls ++ [.modCreateFromCModule]}
        if ok = false then (Module.runtimeWrapper.statusError, s)
        else
          match L.graphExecutorCreate buffer tvmGraphJsonPtr s.library with
          | (ok, gpTvmGraphExecutor, library) =>
            let s := {s with
              library, gpTvmGraphExecutor
              calls := s.calls ++ [.graphExecutorCreate tvmGraphJsonPtr] }
            if ok = false then (Module.runtimeWrapper.statusError, s)
            else
              match L.graphExecutorLoadParams buffer (tvmGraphParamsPtr buffer)
                (graphParamsSize buffer) s.library with
              | (ok, library) =>
                (if ok then statusOk else Module.runtimeWrapper.statusError, {s with
                  library
                  calls := s.calls ++ [.graphExecutorLoadParams (tvmGraphParamsPtr buffer)
                    (graphParamsSize buffer)] })

def runtimeInitWeights (s : GraphState C E) : Status × GraphState C E :=
  match releaseExecutor L s with
  | (false, s) => (Module.runtimeWrapper.statusError, s)
  | (true, s) =>
    match freeModule L s with
    | (false, s) => (Module.runtimeWrapper.statusError, s)
    | (true, s) =>
      -- The sum is one of 32-bit words.
      if s.loader.written ≠
          (sizeofTvmGraph+graphJsonSize s.loader.mem+graphParamsSize s.loader.mem)%2^32 then
        (Module.runtimeWrapper.statusInvArg, s)
      else loadGraph L s

end

/-! ### What the check is for -/

/-- Header, graph and parameters are exactly what was received. -/
def Covered {C : ℕ} (l : BufLoader C) : Prop :=
  sizeofTvmGraph ≤ l.written ∧
    sizeofTvmGraph+graphJsonSize l.mem+graphParamsSize l.mem = l.written

/-- The bytes that a call gets a pointer to lie in the received model, behind the header. -/
def GraphCall.InModel (written : ℕ) : GraphCall → Prop
  | systemLibEntryPoint | modCreateFromCModule => True
  | graphExecutorCreate json => sizeofTvmGraph ≤ json ∧ json ≤ written
  | graphExecutorLoadParams params size => sizeofTvmGraph ≤ params ∧ params+size ≤ written

/-- Whatever TVM does and has done: `runtime_init_weights` goes past its check only with a model that
is covered, and gives out pointers into the model only. -/
def ChecksContainer {C : ℕ} (l : BufLoader C) : Prop :=
  ∀ (E : Type) (L : GraphLibrary E) (s : GraphState C E), s.loader = l → s.calls = [] →
    (.systemLibEntryPoint ∈ (runtimeInitWeights L s).2.calls → Covered l) ∧
      ∀ call ∈ (runtimeInitWeights L s).2.calls, call.InModel l.written

/-- The sum of the sizes, without the wrap-around, is not the received size with a wrap-around. -/
def DoesNotWrap {C : ℕ} (l : BufLoader C) : Prop :=
  sizeofTvmGraph+graphJsonSize l.mem+graphParamsSize l.mem ≠ l.written+2^32 ∧
    sizeofTvmGraph+graphJsonSize l.mem+graphParamsSize l.mem ≠ l.written+2*2^32

/-! ### Which calls are made -/

section
variable {C : ℕ} {E : Type} {L : GraphLibrary E} {s : GraphState C E} {l : BufLoader C}

theorem releaseExecutor_frame (L : GraphLibrary E) (s : GraphState C E) :
    (releaseExecutor L s).2.loader = s.loader ∧ (releaseExecutor L s).2.calls = s.calls := by
  rw [releaseExecutor]
  split <;> exact ⟨rfl, rfl⟩

theorem freeModule_frame (L : GraphLibrary E) (s : GraphState C E) :
    (freeModule L s).2.loader = s.loader ∧ (freeModule L s).2.calls = s.calls := by
  rw [freeModule]
  split <;> exact ⟨rfl, rfl⟩

/-- The size check, as the code makes it. -/
def PassesCheck (l : BufLoader C) : Prop :=
  l.written = (sizeofTvmGraph+graphJsonSize l.mem+graphParamsSize l.mem)%2^32

/-- Without the check passed nothing is called; with it, what `loadGraph` calls. -/
theorem runtimeInitWeights_calls (L : GraphLibrary E) (s : GraphState C E) :
    (runtimeInitWeights L s).2.calls = s.calls ∨ PassesCheck s.loader ∧
      ∃ s', s'.loader = s.loader ∧ s'.calls = s.calls ∧
        (runtimeInitWeights L s).2.calls = (loadGraph L s').2.calls := by
  obtain ⟨hloader, hcalls⟩ := releaseExecutor_frame L s
  obtain ⟨hloader', hcalls'⟩ := freeModule_frame L (releaseExecutor L s).2
  rw [hloader] at hloader'
  rw [hcalls] at hcalls'
  rw [runtimeInitWeights]
  split
  · next s₁ hrelease =>
    rw [hrelease] at hcalls
    exact .inl hcalls
  · next s₁ hrelease =>
    rw [hrelease] at hloader' hcalls'
    split
    · next s₂ hfree =>
      rw [hfree] at hcalls'
      exact .inl hcalls'
    · next s₂ hfree =>
      rw [hfree] at hloader' hcalls'
      split
      · exact .inl hcalls'
      · next hpasses =>
        refine .inr ⟨?_, s₂, hloader', hcalls', rfl⟩
        rw [PassesCheck, ← hloader']
        exact not_not.mp hpasses

/-- The calls of `loadGraph`, if none of them fails. -/
def graphCalls (buffer : List UInt8) : List GraphCall :=
  [.systemLibEntryPoint, .modCreateFromCModule, .graphExecutorCreate tvmGraphJsonPtr,
    .graphExecutorLoadParams (tvmGraphParamsPtr buffer) (graphParamsSize buffer)]

theorem loadGraph_calls (L : GraphLibrary E) (s : GraphState C E) :
    ∃ k, (loadGraph L s).2.calls = s.calls ++ (graphCalls s.loader.mem).take k := by
  rw [loadGraph]
  simp only
  -- One case for each call that can be the last one.
  split
  · exact ⟨1, rfl⟩
  · split
    · exact ⟨2, List.append_assoc _ _ _⟩
    · split
      · refine ⟨3, ?_⟩
        simp only [List.append_assoc]
        rfl
      · refine ⟨4, ?_⟩
        simp only [List.append_assoc]
        rfl

/-- The size check compares with the sum, or with the sum less what is lost to one or two carries. -/
theorem passesCheck_cases (h : PassesCheck l) :
    sizeofTvmGraph+graphJsonSize l.mem+graphParamsSize l.mem = l.written ∨
      sizeofTvmGraph+graphJsonSize l.mem+graphParamsSize l.mem = l.written+2^32 ∨
      sizeofTvmGraph+graphJsonSize l.mem+graphParamsSize l.mem = l.written+2*2^32 := by
  have hjson : graphJsonSize l.mem < 2^32 := word_lt l.mem 0 4
  have hparams : graphParamsSize l.mem < 2^32 := word_lt l.mem 4 4
  rw [PassesCheck, sizeofTvmGraph] at h
  rw [sizeofTvmGraph]
  omega

theorem checksContainer_of_doesNotWrap (h : DoesNotWrap l) : ChecksContainer l := by
  intro E L s hloader hnone
  subst hloader
  rcases runtimeInitWeights_calls L s with hcalls | ⟨hpasses, s', hloader', hcalls', hcalls⟩
  · rw [hcalls, hnone]
    exact ⟨fun hmem => absurd hmem List.not_mem_nil, fun _ hmem => absurd hmem List.not_mem_nil⟩
  · have hsum : sizeofTvmGraph+graphJsonSize s.loader.mem+graphParamsSize s.loader.mem =
        s.loader.written := (passesCheck_cases hpasses).resolve_right (not_or.mpr h)
    have hcovered : Covered s.loader := ⟨by omega, hsum⟩
    refine ⟨fun _ => hcovered, ?_⟩
    intro call hcall
    obtain ⟨k, hk⟩ := loadGraph_calls L s'
    rw [hcalls, hk, hcalls', hnone, hloader', List.nil_append] at hcall
    have hpointers := List.mem_of_mem_take hcall
    simp only [graphCalls, List.mem_cons, List.not_mem_nil, or_false] at hpointers
    rcases hpointers with rfl | rfl | rfl | rfl
    · trivial
    · trivial
    · exact ⟨le_rfl, hcovered.1⟩
    · -- What is covered is less than 2^32, so the pointer has not wrapped around.
      have hlt : s.loader.written < 2^32 := s.loader.written_le.trans_lt s.loader.capacity_lt
      have hpointer : tvmGraphParamsPtr s.loader.mem = sizeofTvmGraph+graphJsonSize s.loader.mem :=
        Nat.mod_eq_of_lt (by omega)
      rw [GraphCall.InModel, hpointer]
      exact ⟨Nat.le_add_right _ _, hsum.le⟩

end

/-- A TVM in which everything succeeds. -/
def willingLibrary : GraphLibrary Unit where
  graphExecutorRelease e := (true, e)
  modFree e := (true, e)
  systemLibEntryPoint e := (true, e)
  modCreateFromCModule e := (true, true, e)
  graphExecutorCreate _ _ e := (true, true, e)
  graphExecutorLoadParams _ _ _ e := (true, e)

section
variable {C : ℕ} {l : BufLoader C}

theorem willing_calls (h : PassesCheck l) :
    .systemLibEntryPoint ∈ (runtimeInitWeights willingLibrary ⟨l, false, false, (), []⟩).2.calls := by
  have hpasses : ¬ l.written ≠ (sizeofTvmGraph+graphJsonSize l.mem+graphParamsSize l.mem)%2^32 :=
    not_not_intro h
  have hrun : (runtimeInitWeights willingLibrary ⟨l, false, false, (), []⟩).2.calls =
      (loadGraph willingLibrary ⟨l, false, false, (), []⟩).2.calls := by
    simp only [runtimeInitWeights, releaseExecutor, freeModule, Bool.false_eq_true, if_false,
      if_neg hpasses]
  rw [hrun]
  exact List.mem_cons_self

/-- A sum that wraps around to the received size passes the check. -/
theorem not_checksContainer {k : ℕ} (hk : 0 < k)
    (hsum : sizeofTvmGraph+graphJsonSize l.mem+graphParamsSize l.mem = l.written+k*2^32) :
    ¬ ChecksContainer l := by
  have hlt : l.written < 2^32 := l.written_le.trans_lt l.capacity_lt
  have hpasses : PassesCheck l := by
    rw [PassesCheck, hsum, Nat.add_mul_mod_self_right, Nat.mod_eq_of_lt hlt]
  intro h
  obtain ⟨hcovered, -⟩ := h Unit willingLibrary ⟨l, false, false, (), []⟩ rfl rfl
  have heq := (hcovered (willing_calls hpasses)).2
  rw [hsum] at heq
  omega

/-- The check does what it is for exactly if the sum of the sizes does not wrap around to the number of
bytes that were received. -/
theorem checksContainer_iff (l : BufLoader C) : ChecksContainer l ↔ DoesNotWrap l := by
  refine ⟨?_, checksContainer_of_doesNotWrap⟩
  intro h
  refine ⟨?_, ?_⟩
  · intro hsum
    exact not_checksContainer Nat.one_pos (by rw [hsum, Nat.one_mul]) h
  · intro hsum
    exact not_checksContainer Nat.two_pos hsum h

end

/-! ### A model that wraps around -/

theorem eightBytes_fit : 8 ≤ 1024 := by decide

/-- A buffer of 1024 bytes, with a header of which the sizes are 2^32-4 and 4, and nothing else. -/
def wrappingModel : BufLoader 1024 :=
  (emptyBuffer 1024 (by decide)).append [0xFC, 0xFF, 0xFF, 0xFF, 4, 0, 0, 0] eightBytes_fit

/-- The parameters are taken from the header: four bytes from the second size on. -/
theorem checksContainer_wrapping : wrappingModel.written = 8 ∧
    (runtimeInitWeights willingLibrary ⟨wrappingModel, false, false, (), []⟩).2.calls =
      [.systemLibEntryPoint, .modCreateFromCModule, .graphExecutorCreate 8,
        .graphExecutorLoadParams 4 4] ∧
    ¬ ChecksContainer wrappingModel := by
  have hjson : graphJsonSize wrappingModel.mem = 2^32-4 := by decide
  have hparams : graphParamsSize wrappingModel.mem = 4 := by decide
  refine ⟨rfl, by decide, ?_⟩
  apply not_checksContainer Nat.one_pos
  rw [hjson, hparams]
  rfl

end Tvm

end KenningRuntime
