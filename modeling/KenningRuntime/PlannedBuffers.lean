import KenningRuntime.Library.Ownership
import KenningRuntime.Library.Transition
import KenningRuntime.Status

/-! The buffers that the ExecuTorch runtime (runtimes/executorch/executorch.cpp) plans for a model: an
array of spans in the kernel heap, with a record of the accesses to the array and of the loads. -/
namespace KenningRuntime
namespace Executorch
open Ownership Transition

/-! ### The kernel heap -/

/-- A block, with its number in the order of the allocations. -/
structure Block where
  number : ℕ
  size : ℕ
deriving DecidableEq, Repr

/-- How many blocks there were so far, the numbers of those that were freed, and how many requests were
refused. -/
structure KernelHeap where
  issued : ℕ
  freed : List ℕ
  refused : ℕ
deriving DecidableEq, Repr

def kMalloc (size : ℕ) (granted : Bool) (h : KernelHeap) : Option Block × KernelHeap :=
  if granted then (some ⟨h.issued, size⟩, {h with issued := h.issued+1})
  else (none, {h with refused := h.refused+1})

/-- `k_free`, which does nothing on a null pointer. -/
def kFree (ptr : Option Block) (h : KernelHeap) : KernelHeap :=
  {h with freed := h.freed ++ (ptr.map Block.number).toList}

/-! ### The planned buffers -/

/-- `Span<uint8_t>`: a pointer and a length. -/
structure Span where
  data : Option Block
  size : ℕ
deriving DecidableEq, Repr

def sizeofPointer : ℕ := 4
def sizeofSpan : ℕ := sizeofPointer+4

structure Access where
  block : Block
  offset : ℕ
  size : ℕ
deriving DecidableEq, Repr

def Access.Inside (a : Access) : Prop := a.offset+a.size ≤ a.block.size

instance (a : Access) : Decidable a.Inside := inferInstanceAs (Decidable (_ ≤ _))

/-- `planned_buffers[i]`. -/
def elementAccess (array : Block) (i : ℕ) : Access := ⟨array, sizeofSpan*i, sizeofSpan⟩

/-- `g_planned_buffers`, with the elements that were stored in the array. Of each load `loads` says
whether `k_malloc` refused a request, and what the load returned. -/
structure PlannedBuffers where
  totalSize : ℕ
  numPlannedBuffers : ℕ
  plannedBuffers : Option Block
  elements : List Span
  heap : KernelHeap
  accesses : List Access
  loads : List (Bool × Status)
deriving DecidableEq, Repr

namespace PlannedBuffers

/-- The loop of `deallocate_planned_buffers` from element `i` on; `none` if it reads an element that was
never stored. -/
def freeElements (array : Block) : ℕ → ℕ → PlannedBuffers → Option PlannedBuffers
  | 0, _, s => some s
  | left+1, i, s =>
    match s.elements[i]? with
    | none => none
    | some span => freeElements array left (i+1) {s with
        heap := kFree span.data s.heap
        accesses := s.accesses ++ [elementAccess array i] }

def deallocatePlannedBuffers (s : PlannedBuffers) : Option PlannedBuffers :=
  let s := {s with totalSize := 0}
  -- The number of buffers is not reset, so it is only right while there is an array.
  match s.plannedBuffers with
  | none => some s
  | some array =>
    (freeElements array s.numPlannedBuffers 0 s).map fun s =>
      {s with heap := kFree (some array) s.heap, plannedBuffers := none}

def runtimeDeinit (s : PlannedBuffers) : Option (Status × PlannedBuffers) :=
  s.deallocatePlannedBuffers.map fun s => (statusOk, s)

/-- What the model says of one of its buffers, and whether `k_malloc` finds room for it. -/
structure BufferRequest where
  size : ℕ
  granted : Bool
deriving DecidableEq, Repr

/-- What a load finds: whether `Program::load`, `method_meta` and `load_method` succeed, whether there is
room for the array, and the buffers. -/
structure WeightsLoad where
  programOk : Bool
  methodMetaOk : Bool
  arrayGranted : Bool
  buffers : List BufferRequest
  methodOk : Bool
deriving DecidableEq, Repr

def statusOutOfMemory : Status := Module.runtimeWrapper.status 6

/-- The loop of `runtime_init_weights` from buffer `i` on. -/
def allocateElements (array : Block) :
    List BufferRequest → ℕ → PlannedBuffers → Status × PlannedBuffers
  | [], _, s => (statusOk, s)
  | request :: requests, i, s =>
    match kMalloc request.size request.granted s.heap with
    | (data, heap) =>
      let s := {s with
        heap
        elements := s.elements ++ [⟨data, request.size⟩]
        totalSize := (s.totalSize+request.size)%2^64
        accesses := s.accesses ++ [elementAccess array i] }
      -- The pointer that is checked is the one to the array.
      if s.plannedBuffers = none then (statusOutOfMemory, s)
      else allocateElements array requests (i+1) s

/-- `runtime_init_weights`. The size of the array is that of as many pointers, and may wrap. -/
def runtimeInitWeights (load : WeightsLoad) (s : PlannedBuffers) : Option (Status × PlannedBuffers) :=
  match s.deallocatePlannedBuffers with
  | none => none
  | some s =>
    if ¬ load.programOk then some (Module.runtimeWrapper.statusError, s)
    else if ¬ load.methodMetaOk then some (Module.runtimeWrapper.statusError, s)
    else
      let s := {s with numPlannedBuffers := load.buffers.length}
      match kMalloc (sizeofPointer*s.numPlannedBuffers%2^32) load.arrayGranted s.heap with
      | (none, heap) => some (statusOutOfMemory, {s with heap, plannedBuffers := none})
      | (some array, heap) =>
        match allocateElements array load.buffers 0
            {s with heap, plannedBuffers := some array, elements := [], totalSize := 0} with
        | (status, s) =>
          if status ≠ statusOk then some (status, s)
          else if ¬ load.methodOk then some (Module.runtimeWrapper.statusError, s)
          else some (statusOk, s)

inductive Call where
  | initWeights (load : WeightsLoad)
  | deinit
deriving DecidableEq, Repr

def step (s : PlannedBuffers) : Call → Option PlannedBuffers
  | .initWeights load => (runtimeInitWeights load s).map fun r =>
      {r.2 with loads := r.2.loads ++ [(decide (s.heap.refused < r.2.heap.refused), r.1)]}
  | .deinit => s.runtimeDeinit.map Prod.snd

def boot : PlannedBuffers where
  totalSize := 0
  numPlannedBuffers := 0
  plannedBuffers := none
  elements := []
  heap := ⟨0, [], 0⟩
  accesses := []
  loads := []

/-- The blocks that `g_planned_buffers` holds, in the order in which they are freed. -/
def held (s : PlannedBuffers) : List ℕ :=
  match s.plannedBuffers with
  | none => []
  | some array => s.elements.flatMap (fun span => (span.data.map Block.number).toList) ++ [array.number]

/-! ### What one call does -/

/-- While there is an array, all of its elements are stored, and the blocks are all accounted for. -/
structure Sound (s : PlannedBuffers) : Prop where
  stored : ∀ array, s.plannedBuffers = some array → s.elements.length = s.numPlannedBuffers
  accounted : Accounted s.heap.issued s.heap.freed s.held

variable {s : PlannedBuffers}

theorem freeElements_eq (array : Block) (pre rest : List Span) (h : s.elements = pre ++ rest) :
    freeElements array rest.length pre.length s = some {s with
      heap := {s.heap with freed :=
        s.heap.freed ++ rest.flatMap fun span => (span.data.map Block.number).toList}
      accesses := s.accesses ++ (List.range' pre.length rest.length).map (elementAccess array) } := by
  -- The elements that were freed become part of those before.
  induction rest generalizing s pre with
  | nil =>
    rw [List.flatMap_nil, List.append_nil, List.length_nil, List.range'_zero, List.map_nil,
      List.append_nil]
    rfl
  | cons span rest ih =>
    have helement : s.elements[pre.length]? = some span := by
      rw [h, List.getElem?_append_right le_rfl, Nat.sub_self]
      rfl
    rw [List.length_cons, freeElements, helement]
    simp only
    have hsplit : s.elements = (pre ++ [span]) ++ rest := by
      rw [h, List.append_assoc, List.singleton_append]
    have hrest := ih (s := {s with
        heap := kFree span.data s.heap
        accesses := s.accesses ++ [elementAccess array pre.length] }) (pre ++ [span]) hsplit
    rw [List.length_append, List.length_singleton] at hrest
    rw [hrest, List.flatMap_cons, List.range'_succ, List.map_cons]
    simp only [kFree, List.append_assoc, List.singleton_append]

def deallocationAccesses (s : PlannedBuffers) : List Access :=
  match s.plannedBuffers with
  | none => []
  | some array => (List.range' 0 s.numPlannedBuffers).map (elementAccess array)

def deallocated (s : PlannedBuffers) : PlannedBuffers :=
  {s with
    totalSize := 0
    plannedBuffers := none
    heap := {s.heap with freed := s.heap.freed ++ s.held}
    accesses := s.accesses ++ s.deallocationAccesses }

theorem deallocatePlannedBuffers_eq (h : Sound s) :
    s.deallocatePlannedBuffers = some s.deallocated := by
  obtain ⟨totalSize, num, plannedBuffers, elements, heap, accesses, loads⟩ := s
  cases plannedBuffers with
  | none =>
    simp only [deallocatePlannedBuffers, deallocated, held, deallocationAccesses, List.append_nil]
  | some array =>
    have hstored : elements.length = num := h.stored array rfl
    subst hstored
    simp only [deallocatePlannedBuffers, deallocated, held, deallocationAccesses]
    have hfree := freeElements_eq (s := ⟨0, elements.length, some array, elements, heap, accesses, loads⟩)
      array [] elements rfl
    rw [List.length_nil] at hfree
    rw [hfree]
    simp only [Option.map_some, kFree, Option.toList_some, List.append_assoc]

theorem deallocated_sound (h : Sound s) : Sound s.deallocated where
  stored _ harray := by cases harray
  accounted := h.accounted.release_all

theorem held_of_array {array : Block} (hp : s.plannedBuffers = some array) :
    s.held = s.elements.flatMap (fun span => (span.data.map Block.number).toList) ++ [array.number] := by
  rw [held, hp]

/-- What `k_malloc` returns is accounted for once it is stored. -/
theorem store_accounted {array : Block} (hp : s.plannedBuffers = some array)
    (h : Accounted s.heap.issued s.heap.freed s.held) (size : ℕ) (granted : Bool) {t : PlannedBuffers}
    (ht : t.plannedBuffers = some array) (hheap : t.heap = (kMalloc size granted s.heap).2)
    (helements : t.elements = s.elements ++ [⟨(kMalloc size granted s.heap).1, size⟩]) :
    Accounted t.heap.issued t.heap.freed t.held := by
  rw [held_of_array ht, helements, hheap, List.flatMap_append, List.flatMap_singleton]
  rw [held_of_array hp] at h
  cases granted with
  | false =>
    rw [kMalloc, if_neg Bool.false_ne_true, Option.map_none, Option.toList_none, List.append_nil]
    exact h
  | true =>
    rw [kMalloc, if_pos rfl, Option.map_some, Option.toList_some, List.append_assoc]
    have hnew := h.acquire
    rw [List.append_assoc] at hnew
    exact hnew.perm (List.Perm.append_left _ (List.Perm.swap _ _ _))

/-- The loop goes through all buffers, whatever `k_malloc` returns for them. -/
theorem allocateElements_spec (array : Block) (requests : List BufferRequest) (i : ℕ)
    (hp : s.plannedBuffers = some array) (h : Accounted s.heap.issued s.heap.freed s.held) :
    ∃ t, allocateElements array requests i s = (statusOk, t) ∧ t.plannedBuffers = some array ∧
      t.numPlannedBuffers = s.numPlannedBuffers ∧
      t.elements.length = s.elements.length+requests.length ∧
      t.accesses = s.accesses ++ (List.range' i requests.length).map (elementAccess array) ∧
      Accounted t.heap.issued t.heap.freed t.held := by
  induction requests generalizing s i with
  | nil => exact ⟨s, rfl, hp, rfl, rfl, (List.append_nil _).symm, h⟩
  | cons request requests ih =>
    -- The state behind the first buffer.
    let t : PlannedBuffers := {s with
      heap := (kMalloc request.size request.granted s.heap).2
      elements := s.elements ++ [⟨(kMalloc request.size request.granted s.heap).1, request.size⟩]
      totalSize := (s.totalSize+request.size)%2^64
      accesses := s.accesses ++ [elementAccess array i] }
    have htp : t.plannedBuffers = some array := hp
    have hstored := store_accounted hp h request.size request.granted htp rfl rfl
    obtain ⟨u, hu, hup, hnum, hlength, haccesses, haccounted⟩ := ih (i+1) htp hstored
    refine ⟨u, ?_, hup, hnum, ?_, ?_, haccounted⟩
    · have hne : ¬ t.plannedBuffers = none := by
        rw [htp]
        exact Option.some_ne_none _
      rw [← hu, allocateElements]
      exact if_neg hne
    · rw [hlength, List.length_append, List.length_singleton, List.length_cons]
      omega
    · rw [haccesses, List.length_cons, List.range'_succ, List.map_cons, List.append_assoc,
        List.singleton_append]

/-- The load gets as far as to allocate a buffer. -/
def WeightsLoad.AllocatesBuffers (load : WeightsLoad) : Prop :=
  load.programOk = true ∧ load.methodMetaOk = true ∧ load.arrayGranted = true ∧ load.buffers ≠ []

/-- Right after `k_malloc` returned the array. -/
def withArray (size num : ℕ) (s : PlannedBuffers) : PlannedBuffers :=
  {s with
    totalSize := 0
    numPlannedBuffers := num
    plannedBuffers := some ⟨s.heap.issued, size⟩
    elements := []
    heap := {s.heap with issued := s.heap.issued+1} }

theorem withArray_accounted (h : Accounted s.heap.issued s.heap.freed s.held)
    (hp : s.plannedBuffers = none) (size num : ℕ) :
    Accounted (s.withArray size num).heap.issued (s.withArray size num).heap.freed
      (s.withArray size num).held := by
  rw [held, hp] at h
  exact h.acquire

theorem runtimeInitWeights_granted (h : Sound s) {load : WeightsLoad} (hprogram : load.programOk = true)
    (hmeta : load.methodMetaOk = true) (harray : load.arrayGranted = true) :
    runtimeInitWeights load s =
      match allocateElements ⟨s.heap.issued, sizeofPointer*load.buffers.length%2^32⟩ load.buffers 0
          (s.deallocated.withArray (sizeofPointer*load.buffers.length%2^32) load.buffers.length) with
      | (status, s) =>
        if status ≠ statusOk then some (status, s)
        else if ¬ load.methodOk then some (Module.runtimeWrapper.statusError, s)
        else some (statusOk, s) := by
  rw [runtimeInitWeights, deallocatePlannedBuffers_eq h]
  simp only [hprogram, hmeta, harray, kMalloc, not_true_eq_false, if_false, if_true]
  rfl

/-- The last element that is stored lies behind the array: it is as large as a pointer and a length. -/
theorem runtimeInitWeights_allocates (h : Sound s) {load : WeightsLoad} (hload : load.AllocatesBuffers) :
    ∃ status t, runtimeInitWeights load s = some (status, t) ∧ Sound t ∧
      ∃ a ∈ t.accesses, ¬ a.Inside := by
  obtain ⟨hprogram, hmeta, harray, hbuffers⟩ := hload
  let array : Block := ⟨s.heap.issued, sizeofPointer*load.buffers.length%2^32⟩
  obtain ⟨t, ht, htp, hnum, hlength, haccesses, haccounted⟩ := allocateElements_spec
    (s := s.deallocated.withArray array.size load.buffers.length) array load.buffers 0 rfl
    (withArray_accounted (deallocated_sound h).accounted rfl _ _)
  have hsound : Sound t := by
    refine ⟨?_, haccounted⟩
    intro _ _
    rw [hlength, hnum]
    exact Nat.zero_add _
  have hpos : 0 < load.buffers.length := List.length_pos_iff.mpr hbuffers
  -- The last element ends at eight bytes for each, where the array has four at most.
  have hlast : ∃ a ∈ t.accesses, ¬ a.Inside := by
    refine ⟨elementAccess array (load.buffers.length-1), ?_, ?_⟩
    · rw [haccesses]
      apply List.mem_append_right
      apply List.mem_map_of_mem
      rw [List.mem_range'_1]
      omega
    · have hsize : array.size ≤ 4*load.buffers.length := Nat.mod_le _ _
      simp only [Access.Inside, elementAccess, sizeofSpan, sizeofPointer]
      omega
  rw [runtimeInitWeights_granted h hprogram hmeta harray, ht]
  simp only [ne_eq, not_true_eq_false, if_false]
  by_cases hmethod : load.methodOk = true
  · rw [if_neg (not_not.mpr hmethod)]
    exact ⟨_, t, rfl, hsound, hlast⟩
  · rw [if_pos hmethod]
    exact ⟨_, t, rfl, hsound, hlast⟩

/-- Without buffers the array is not accessed, and a request that is refused is reported. -/
theorem runtimeInitWeights_empty (h : Sound s) {load : WeightsLoad} (hload : ¬ load.AllocatesBuffers) :
    ∃ status t, runtimeInitWeights load s = some (status, t) ∧ Sound t ∧
      t.accesses = s.deallocated.accesses ∧ t.loads = s.loads ∧
      (s.heap.refused < t.heap.refused → status = statusOutOfMemory) ∧
      ∀ array, t.plannedBuffers = some array → t.numPlannedBuffers = 0 := by
  have hdeallocated := deallocated_sound h
  have hnone (array : Block) : none ≠ some array := (Option.some_ne_none array).symm
  by_cases hprogram : load.programOk = true
  swap
  · rw [runtimeInitWeights, deallocatePlannedBuffers_eq h]
    simp only [if_pos hprogram]
    exact ⟨_, _, rfl, hdeallocated, rfl, rfl, fun hlt => absurd hlt (lt_irrefl _),
      fun array harray => absurd harray (hnone array)⟩
  by_cases hmeta : load.methodMetaOk = true
  swap
  · rw [runtimeInitWeights, deallocatePlannedBuffers_eq h]
    simp only [if_neg (not_not.mpr hprogram), if_pos hmeta]
    exact ⟨_, _, rfl, hdeallocated, rfl, rfl, fun hlt => absurd hlt (lt_irrefl _),
      fun array harray => absurd harray (hnone array)⟩
  by_cases harray : load.arrayGranted = true
  swap
  · rw [runtimeInitWeights, deallocatePlannedBuffers_eq h]
    simp only [if_neg (not_not.mpr hprogram), if_neg (not_not.mpr hmeta), kMalloc, if_neg harray]
    have hsound : Sound {s.deallocated with
        heap := {s.deallocated.heap with refused := s.deallocated.heap.refused+1}
        numPlannedBuffers := load.buffers.length
        plannedBuffers := none } :=
      ⟨fun array harray => absurd harray (hnone array), hdeallocated.accounted⟩
    exact ⟨_, _, rfl, hsound, rfl, rfl, fun _ => rfl, fun array harray => absurd harray (hnone array)⟩
  -- The array is there, and has no elements.
  have hnil : load.buffers = [] := by
    by_contra hbuffers
    exact hload ⟨hprogram, hmeta, harray, hbuffers⟩
  have hsound : Sound (s.deallocated.withArray (sizeofPointer*0%2^32) 0) :=
    ⟨fun _ _ => rfl, withArray_accounted hdeallocated.accounted rfl _ _⟩
  rw [runtimeInitWeights_granted h hprogram hmeta harray, hnil, List.length_nil, allocateElements]
  simp only [ne_eq, not_true_eq_false, if_false]
  by_cases hmethod : load.methodOk = true
  · rw [if_neg (not_not.mpr hmethod)]
    exact ⟨_, _, rfl, hsound, rfl, rfl, fun hlt => absurd hlt (lt_irrefl _), fun _ _ => rfl⟩
  · rw [if_pos hmethod]
    exact ⟨_, _, rfl, hsound, rfl, rfl, fun hlt => absurd hlt (lt_irrefl _), fun _ _ => rfl⟩

/-! ### Runs -/

theorem step_sound (h : Sound s) (c : Call) : ∃ t, step s c = some t ∧ Sound t := by
  cases c with
  | deinit =>
    refine ⟨s.deallocated, ?_, deallocated_sound h⟩
    rw [step, runtimeDeinit, deallocatePlannedBuffers_eq h]
    rfl
  | initWeights load =>
    have hreturns : ∃ status t, runtimeInitWeights load s = some (status, t) ∧ Sound t := by
      by_cases hload : load.AllocatesBuffers
      · obtain ⟨status, t, ht, hsound, -⟩ := runtimeInitWeights_allocates h hload
        exact ⟨status, t, ht, hsound⟩
      · obtain ⟨status, t, ht, hsound, -⟩ := runtimeInitWeights_empty h hload
        exact ⟨status, t, ht, hsound⟩
    obtain ⟨status, t, ht, hsound⟩ := hreturns
    rw [step, ht]
    exact ⟨_, rfl, hsound.stored, hsound.accounted⟩

theorem boot_sound : Sound boot := ⟨fun _ _ => rfl, .initial⟩

/-- The calls always return. Whatever they do, each block is held or was freed once. -/
theorem exists_reaches_accounted (calls : List Call) :
    ∃ t, Reaches step boot calls t ∧ Accounted t.heap.issued t.heap.freed t.held := by
  obtain ⟨t, hreach, hsound⟩ := exists_reaches_of_step (fun _ c h => step_sound h c) boot_sound calls
  exact ⟨t, hreach, hsound.accounted⟩

/-- The array was only accessed inside its block, a load that was refused memory said so, and each block
is held or was freed once. -/
structure Holds (s : PlannedBuffers) : Prop where
  inside : ∀ a ∈ s.accesses, a.Inside
  reported : ∀ l ∈ s.loads, l.1 = true → l.2 = statusOutOfMemory
  accounted : Accounted s.heap.issued s.heap.freed s.held

/-- The invariant of the runs that allocate no buffers: an array that is there has no elements. -/
structure Unused (s : PlannedBuffers) : Prop where
  sound : Sound s
  holds : Holds s
  empty : ∀ array, s.plannedBuffers = some array → s.numPlannedBuffers = 0

theorem Unused.deallocated_accesses (h : Unused s) : s.deallocated.accesses = s.accesses := by
  have hnil : s.deallocationAccesses = [] := by
    rw [deallocationAccesses]
    split
    · rfl
    · next array hp => rw [h.empty array hp, List.range'_zero, List.map_nil]
  rw [deallocated, hnil, List.append_nil]

def Call.AllocatesBuffers : Call → Prop
  | .initWeights load => load.AllocatesBuffers
  | .deinit => False

theorem step_unused (h : Unused s) {c : Call} (hc : ¬ c.AllocatesBuffers) {t : PlannedBuffers}
    (ht : step s c = some t) : Unused t := by
  cases c with
  | deinit =>
    rw [step, runtimeDeinit, deallocatePlannedBuffers_eq h.sound] at ht
    cases ht
    have hsound := deallocated_sound h.sound
    refine ⟨hsound, ⟨?_, h.holds.reported, hsound.accounted⟩, ?_⟩
    · rw [h.deallocated_accesses]
      exact h.holds.inside
    · intro _ hnone
      exact absurd hnone.symm (Option.some_ne_none _)
  | initWeights load =>
    obtain ⟨status, u, hu, hsound, haccesses, hloads, hrefused, hempty⟩ :=
      runtimeInitWeights_empty h.sound hc
    rw [step, hu] at ht
    cases ht
    refine ⟨⟨hsound.stored, hsound.accounted⟩, ⟨?_, ?_, hsound.accounted⟩, hempty⟩
    · show ∀ a ∈ u.accesses, a.Inside
      rw [haccesses, h.deallocated_accesses]
      exact h.holds.inside
    · intro l hl
      rcases List.mem_append.mp hl with hl | hl
      · rw [hloads] at hl
        exact h.holds.reported l hl
      · rw [List.mem_singleton.mp hl]
        exact fun hlt => hrefused (of_decide_eq_true hlt)

/-- Exactly when no load gets as far as to allocate a buffer, the array is only accessed inside its block
and every request that is refused is reported, in every state that a sequence of calls reaches. -/
theorem reaches_holds_iff (calls : List Call) :
    (∀ p s, p <+: calls → Reaches step boot p s → Holds s) ↔ ∀ c ∈ calls, ¬ c.AllocatesBuffers := by
  rw [← guarded_iff_forall (fun _ c h => step_sound h c) boot_sound calls]
  have hboot : Unused boot := by
    refine ⟨boot_sound, ⟨?_, ?_, .initial⟩, ?_⟩
    · exact fun _ ha => absurd ha List.not_mem_nil
    · exact fun _ hl => absurd hl List.not_mem_nil
    · exact fun _ hnone => absurd hnone.symm (Option.some_ne_none _)
  refine always_iff_guarded_of (fun _ h => h.holds) (fun _ _ _ h hc ht => step_unused h hc ht) ?_
    hboot calls
  intro s c h hholds hc
  cases c with
  | deinit => exact hc
  | initWeights load =>
    -- The state that the load leaves has an access behind the array.
    obtain ⟨status, t, ht, -, a, ha, houtside⟩ := runtimeInitWeights_allocates h.sound hc
    have hstep : step s (.initWeights load) =
        some {t with loads := t.loads ++ [(decide (s.heap.refused < t.heap.refused), status)]} := by
      rw [step, ht]
      rfl
    exact houtside ((hholds _ hstep).inside a ha)

/-- A model with one planned buffer, for which there is no room. -/
def refusedLoad : WeightsLoad where
  programOk := true
  methodMetaOk := true
  arrayGranted := true
  buffers := [⟨64, false⟩]
  methodOk := true

/-- Eight bytes are written to the array of four, and the load succeeds without the buffer. -/
theorem reaches_refused :
    ∃ t, Reaches step boot [.initWeights refusedLoad] t ∧ t.accesses = [⟨⟨0, 4⟩, 0, 8⟩] ∧
      t.loads = [(true, statusOk)] ∧ ¬ Holds t := by
  let p (t : PlannedBuffers) : Bool :=
    decide (t.accesses = [⟨⟨0, 4⟩, 0, 8⟩] ∧ t.loads = [(true, statusOk)])
  have hrun : (run step boot [.initWeights refusedLoad]).any p = true := by decide
  obtain ⟨t, hreach, hp⟩ := exists_reaches hrun
  obtain ⟨haccesses, hloads⟩ := of_decide_eq_true hp
  refine ⟨t, hreach, haccesses, hloads, ?_⟩
  intro hholds
  have hinside := hholds.inside _ (haccesses ▸ List.mem_singleton_self _)
  exact absurd hinside (by decide)

end PlannedBuffers

end Executorch

end KenningRuntime
