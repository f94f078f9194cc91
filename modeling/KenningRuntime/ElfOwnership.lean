import KenningRuntime.LlextHeap
import KenningRuntime.ModelFrame

/-! What the statements and the functions of the loader and of the callback do to the blocks of
`llext_heap`. -/
namespace KenningRuntime

namespace Elf

section
variable {E Z : Type} {A : LlextApi Z} {X : Extension E} {s s' : Elf E Z}

/-! ### The coarser model -/

/-- The loader and the callback do what they do in the coarser model. -/
theorem resetRuntime_llext (h : s.llext.addr.isSome = s.heap.addr.isSome) :
    ((resetRuntime A s).1, (resetRuntime A s).2.llext) = Llext.resetRuntime A s.llext := by
  have hrelease : (s.releaseAddr A).llext = {s.llext with
      addr := none
      zephyr := if s.llext.addr.isSome then A.kHeapFree s.llext.zephyr else s.llext.zephyr } := by
    rw [h, releaseAddr]
    rcases ha : s.heap.addr with _ | b
    · rw [ha, Option.isSome_none, Option.isSome_eq_false_iff, Option.isNone_iff_eq_none] at h
      simp only [Option.isSome_none, Bool.false_eq_true, if_false, ← h]
    · rfl
  simp only [resetRuntime, Llext.resetRuntime, hrelease]
  generalize (if s.llext.addr.isSome then A.kHeapFree s.llext.zephyr else s.llext.zephyr) = zephyr
  -- The exits of the function, in the order of the source.
  rcases s.llext.loaded with _ | g
  · rfl
  by_cases ht : (A.llextTeardown zephyr).1 = statusOk
  swap
  · simp only [ht, ne_eq, not_false_eq_true, if_true, withZephyr]
  by_cases hu : (A.llextUnload (A.llextTeardown zephyr).2).1 = statusOk
  swap
  · simp only [ht, hu, ne_eq, not_true_eq_false, not_false_eq_true, if_true, if_false, withZephyr]
  · simp only [ht, hu, ne_eq, not_true_eq_false, if_false, withZephyr, unloaded, passes]

theorem saveRuntime_llext (src : List UInt8) :
    ((saveRuntime A s src).1, (saveRuntime A s src).2.llext) = Llext.saveRuntime A s.llext src := by
  rw [saveRuntime, Llext.saveRuntime]
  rcases ha : s.llext.addr with _ | mem
  swap
  · rfl
  by_cases hsize : src.length < Llext.runtimeSizeFieldSize
  · simp only [if_pos hsize]
  simp only [if_neg hsize]
  rcases A.kHeapAlignedAlloc _ s.llext.zephyr with ⟨_ | mem, zephyr⟩
  · simp only [ha]
  by_cases hmore : src.length > Llext.runtimeSizeFieldSize
  · simp only [if_pos hmore]
    rfl
  · simp only [if_neg hmore]
    rfl

theorem loadRuntime_llext (llextSize : ℕ) :
    ((loadRuntime A X llextSize s).1, (loadRuntime A X llextSize s).2.llext) =
      Llext.loadRuntime A X llextSize s.llext := by
  simp only [loadRuntime, Llext.loadRuntime, Llext.runtimeDeinit, ne_eq, not_true_eq_false, if_false]
  by_cases hl : s.llext.loaded.isSome = true
  · simp only [hl, if_true]
  simp only [hl, Bool.false_eq_true, if_false]
  by_cases hload : (A.llextLoad s.llext.addr llextSize s.llext.zephyr).1 = statusOk
  swap
  · simp only [hload, not_false_eq_true, if_true]
    rfl
  simp only [hload, not_true_eq_false, if_false]
  by_cases hbringup : (A.llextBringup (A.llextLoad s.llext.addr llextSize s.llext.zephyr).2).1 = statusOk
  · simp only [hbringup, withZephyr, loadedFrom, passes, Llext.happened, not_true_eq_false, if_false]
  · simp only [hbringup, withZephyr, loadedFrom, passes, Llext.happened, not_false_eq_true, if_true]

/-! ### What the statements do to the heap -/

/-- The two states have the same heap and have passed through the same ones. -/
structure Same (s s' : Elf E Z) : Prop where
  addr : s'.llext.addr.isSome = s.llext.addr.isSome
  loaded : s'.llext.loaded = s.llext.loaded
  heap : s'.heap = s.heap
  passed : s'.passed = s.passed

theorem Same.refl (s : Elf E Z) : Same s s := ⟨rfl, rfl, rfl, rfl⟩

theorem Same.trans {s'' : Elf E Z} (h : Same s s') (h' : Same s' s'') : Same s s'' :=
  ⟨h'.addr.trans h.addr, h'.loaded.trans h.loaded, h'.heap.trans h.heap, h'.passed.trans h.passed⟩

/-- What holds before and after each function: `ldr->addr` is null or points to an allocated block, and
on the way here every block was freed at most once and referenced until then. -/
structure Settled (s : Elf E Z) : Prop where
  synced : s.llext.addr.isSome = s.heap.addr.isSome
  unloaded : s.llext.loaded = none → s.heap.image = none
  freed_lt : ∀ b ∈ s.heap.freed, b < s.heap.obtained
  allocated : ∀ b, s.heap.addr = some b → s.heap.Allocated b
  current : s.heap ∈ s.passed
  owned : ∀ heap ∈ s.passed, heap.Owned

/-- On the way here the block of a loaded extension was always allocated. -/
def ImageKept (s : Elf E Z) : Prop := ∀ heap ∈ s.passed, heap.ImageAllocated

theorem Settled.same (h : Settled s) (hs : Same s s') : Settled s' := by
  constructor
  · rw [hs.addr, hs.heap]
    exact h.synced
  · rw [hs.loaded, hs.heap]
    exact h.unloaded
  · rw [hs.heap]
    exact h.freed_lt
  · rw [hs.heap]
    exact h.allocated
  · rw [hs.heap, hs.passed]
    exact h.current
  · rw [hs.passed]
    exact h.owned

theorem Same.imageKept_iff (hs : Same s s') : ImageKept s' ↔ ImageKept s := by
  rw [ImageKept, hs.passed]
  rfl

theorem forall_passes {P : LlextHeap → Prop} {heap : LlextHeap} :
    (∀ h ∈ (s.passes heap).passed, P h) ↔ (∀ h ∈ s.passed, P h) ∧ P heap := by
  rw [passes, List.forall_mem_append, List.forall_mem_singleton]

theorem current_passes (heap : LlextHeap) (s : Elf E Z) :
    (s.passes heap).heap ∈ (s.passes heap).passed :=
  List.mem_append_right _ (List.mem_singleton_self heap)

/-- No block is allocated, as far as `ldr->addr` is null. -/
theorem Settled.not_allocated (h : Settled s) (ha : s.heap.addr = none) (b : ℕ) :
    ¬ s.heap.Allocated b := by
  intro hb
  have hsome := (h.owned _ h.current).referenced b hb
  rw [ha] at hsome
  cases hsome

theorem Settled.addr_eq_none (h : Settled s) (ha : s.llext.addr = none) : s.heap.addr = none := by
  have hsynced := h.synced
  rw [ha, Option.isSome_none] at hsynced
  exact Option.isNone_iff_eq_none.mp (Option.isSome_eq_false_iff.mp hsynced.symm)

theorem Settled.obtainBlock (h : Settled s) (ha : s.llext.addr = none) (mem : List UInt8) :
    Settled (s.obtainBlock mem) := by
  have hnone := h.not_allocated (h.addr_eq_none ha)
  refine ⟨rfl, h.unloaded, fun b hb => Nat.lt_succ_of_lt (h.freed_lt b hb), ?_,
    current_passes _ _, ?_⟩
  · intro b hb
    cases hb
    exact ⟨Nat.lt_succ_self _, fun hfreed => Nat.lt_irrefl _ (h.freed_lt _ hfreed)⟩
  · refine forall_passes.mpr ⟨h.owned, (h.owned _ h.current).freedOnce, ?_⟩
    intro b hb
    obtain ⟨hlt, hfree⟩ := hb
    -- An older block would have to be referenced, but the pointer was null.
    rcases Nat.lt_succ_iff_lt_or_eq.mp hlt with hlt | rfl
    · exact absurd ⟨hlt, hfree⟩ (hnone b)
    · rfl

/-- `ldr->addr` pointed to the only block that was allocated. -/
theorem Settled.releaseAddr (h : Settled s) : Settled (s.releaseAddr A) := by
  rw [Elf.releaseAddr]
  rcases ha : s.heap.addr with _ | b
  · exact h
  obtain ⟨hlt, hfree⟩ := h.allocated b ha
  have hnodup : (s.heap.freed ++ [b]).Nodup := by
    rw [List.nodup_append]
    refine ⟨(h.owned _ h.current).freedOnce, List.nodup_singleton b, ?_⟩
    intro b' hb' c hc
    rw [List.mem_singleton.mp hc]
    exact fun heq => hfree (heq ▸ hb')
  -- After it was freed none is, so `ldr->addr` may dangle until it is set to null.
  have hnone : ∀ b', ¬ (b' < s.heap.obtained ∧ b' ∉ s.heap.freed ++ [b]) := by
    intro b' hb'
    obtain ⟨hlt', hfree'⟩ := hb'
    rw [List.mem_append, List.mem_singleton, not_or] at hfree'
    have hsome := (h.owned _ h.current).referenced b' ⟨hlt', hfree'.1⟩
    rw [ha] at hsome
    exact hfree'.2 (Option.some.inj hsome).symm
  refine ⟨rfl, h.unloaded, ?_, fun b' hb' => (nomatch hb'), current_passes _ _, ?_⟩
  · intro b' hb'
    rcases List.mem_append.mp hb' with hb' | hb'
    · exact h.freed_lt b' hb'
    · rw [List.mem_singleton.mp hb']
      exact hlt
  · refine forall_passes.mpr ⟨forall_passes.mpr ⟨h.owned, hnodup, ?_⟩, hnodup, ?_⟩
    · exact fun b' hb' => absurd hb' (hnone b')
    · exact fun b' hb' => absurd hb' (hnone b')

theorem Settled.unloads (h : Settled s) (g : ℕ) : Settled (s.unloaded g) := by
  have howned := h.owned _ h.current
  exact ⟨h.synced, fun _ => rfl, h.freed_lt, h.allocated, current_passes _ _,
    forall_passes.mpr ⟨h.owned, howned.freedOnce, howned.referenced⟩⟩

theorem Settled.loadedFrom (h : Settled s) (llextSize : ℕ) : Settled (s.loadedFrom X llextSize) := by
  have howned := h.owned _ h.current
  exact ⟨h.synced, fun hl => (nomatch hl), h.freed_lt, h.allocated, current_passes _ _,
    forall_passes.mpr ⟨h.owned, howned.freedOnce, howned.referenced⟩⟩

theorem ImageKept.obtainBlock (h : ImageKept s) (hs : Settled s) (mem : List UInt8) :
    ImageKept (s.obtainBlock mem) := by
  refine forall_passes.mpr ⟨h, fun b hb => ?_⟩
  obtain ⟨hlt, hfree⟩ := h _ hs.current b hb
  exact ⟨Nat.lt_succ_of_lt hlt, hfree⟩

theorem ImageKept.unloads (h : ImageKept s) (g : ℕ) : ImageKept (s.unloaded g) :=
  forall_passes.mpr ⟨h, fun _ hb => nomatch hb⟩

theorem ImageKept.loadedFrom (h : ImageKept s) (hs : Settled s) (llextSize : ℕ) :
    ImageKept (s.loadedFrom X llextSize) :=
  forall_passes.mpr ⟨h, hs.allocated⟩

/-- The block at `ldr->addr` is the one that a loaded extension is in. -/
theorem releaseAddr_imageKept_iff (h : Settled s) (hk : ImageKept s) :
    ImageKept (s.releaseAddr A) ↔ s.heap.image = none := by
  constructor
  · intro hkept
    rw [Option.eq_none_iff_forall_ne_some]
    intro b hb
    have haddr := (h.owned _ h.current).referenced b (hk _ h.current b hb)
    -- The state between `k_heap_free` and `ldr->addr = NULL` has the block free and in use.
    rw [releaseAddr, haddr] at hkept
    have hfreed := (forall_passes.mp (forall_passes.mp hkept).1).2 b hb
    exact hfreed.2 (List.mem_append_right _ (List.mem_singleton_self b))
  · intro hnone
    rw [releaseAddr]
    rcases s.heap.addr with _ | b
    · exact hk
    have hvacuous : ∀ heap : LlextHeap, heap.image = none → heap.ImageAllocated := by
      intro heap himage b' hb'
      rw [himage] at hb'
      cases hb'
    exact forall_passes.mpr ⟨forall_passes.mpr ⟨hk, hvacuous _ hnone⟩, hvacuous _ hnone⟩

/-! ### What the functions do to the heap -/

theorem resetRuntime_cases (s : Elf E Z) :
    Same (s.releaseAddr A) (resetRuntime A s).2 ∨
      ∃ g, Same ((s.releaseAddr A).unloaded g) (resetRuntime A s).2 := by
  rw [resetRuntime]
  generalize s.releaseAddr A = s₁
  simp only
  rcases hl : s₁.llext.loaded with _ | g
  · exact Or.inl ⟨rfl, hl.symm, rfl, rfl⟩
  by_cases ht : (A.llextTeardown s₁.llext.zephyr).1 = statusOk
  swap
  · simp only [ht, ne_eq, not_false_eq_true, if_true]
    exact Or.inl ⟨rfl, hl.symm, rfl, rfl⟩
  by_cases hu : (A.llextUnload (A.llextTeardown s₁.llext.zephyr).2).1 = statusOk
  swap
  · simp only [ht, hu, ne_eq, not_true_eq_false, not_false_eq_true, if_true, if_false]
    exact Or.inl ⟨rfl, hl.symm, rfl, rfl⟩
  · simp only [ht, hu, ne_eq, not_true_eq_false, if_false]
    exact Or.inr ⟨g, rfl, rfl, rfl, rfl⟩

theorem bufSave_same {mem : List UInt8} (src : List UInt8) (ha : s.llext.addr.isSome = true) :
    Same s (s.bufSave mem src).2 := by
  by_cases hfull : s.llext.written+src.length > s.llext.maxSize
  · simp only [bufSave, Llext.saveBlock, if_pos hfull]
    exact Same.refl s
  · simp only [bufSave, Llext.saveBlock, if_neg hfull]
    exact ⟨ha.symm, rfl, rfl, rfl⟩

theorem saveRuntime_cases (src : List UInt8) (s : Elf E Z) :
    Same s (saveRuntime A s src).2 ∨
      s.llext.addr = none ∧ ∃ mem, Same (s.obtainBlock mem) (saveRuntime A s src).2 := by
  rw [saveRuntime]
  rcases ha : s.llext.addr with _ | mem
  swap
  · exact Or.inl (bufSave_same src (ha ▸ rfl))
  by_cases hsize : src.length < Llext.runtimeSizeFieldSize
  · simp only [if_pos hsize]
    exact Or.inl (Same.refl s)
  simp only [if_neg hsize]
  rcases A.kHeapAlignedAlloc _ s.llext.zephyr with ⟨_ | mem, zephyr⟩
  · exact Or.inl ⟨rfl, rfl, rfl, rfl⟩
  -- A block is obtained, and the rest of the chunk may be saved into it.
  refine Or.inr ⟨trivial, mem.1, ?_⟩
  have hblock : Same (s.obtainBlock mem.1) {(s.withZephyr zephyr).obtainBlock mem.1 with
      llext := {((s.withZephyr zephyr).obtainBlock mem.1).llext with
        written := 0
        maxSize := LittleEndian.word src 0 Llext.runtimeSizeFieldSize }} :=
    ⟨rfl, rfl, rfl, rfl⟩
  by_cases hmore : src.length > Llext.runtimeSizeFieldSize
  · simp only [if_pos hmore]
    exact hblock.trans (bufSave_same _ rfl)
  · simp only [if_neg hmore]
    exact hblock

theorem loadRuntime_cases (llextSize : ℕ) (s : Elf E Z) :
    Same s (loadRuntime A X llextSize s).2 ∨
      Same (s.loadedFrom X llextSize) (loadRuntime A X llextSize s).2 := by
  rw [loadRuntime]
  simp only [Llext.runtimeDeinit, ne_eq, not_true_eq_false, if_false]
  by_cases hl : s.llext.loaded.isSome = true
  · simp only [hl, if_true]
    exact Or.inl ⟨rfl, rfl, rfl, rfl⟩
  simp only [hl, Bool.false_eq_true, if_false]
  by_cases hload : (A.llextLoad s.llext.addr llextSize s.llext.zephyr).1 = statusOk
  swap
  · simp only [hload, not_false_eq_true, if_true]
    exact Or.inl ⟨rfl, rfl, rfl, rfl⟩
  simp only [hload, not_true_eq_false, if_false]
  apply Or.inr
  -- The extension stays loaded if it is not brought up.
  by_cases hbringup : (A.llextBringup (A.llextLoad s.llext.addr llextSize s.llext.zephyr).2).1 = statusOk
  · simp only [withZephyr, loadedFrom, passes, Llext.happened, hbringup, not_true_eq_false, if_false]
    exact ⟨rfl, rfl, rfl, rfl⟩
  · simp only [withZephyr, loadedFrom, passes, Llext.happened, hbringup, not_false_eq_true, if_true]
    exact ⟨rfl, rfl, rfl, rfl⟩

theorem Settled.resetRuntime (h : Settled s) : Settled (resetRuntime A s).2 := by
  rcases resetRuntime_cases (A := A) s with hs | ⟨g, hs⟩
  · exact h.releaseAddr.same hs
  · exact (h.releaseAddr.unloads g).same hs

theorem resetRuntime_imageKept_iff (h : Settled s) (hk : ImageKept s) :
    ImageKept (resetRuntime A s).2 ↔ s.heap.image = none := by
  rw [← releaseAddr_imageKept_iff (A := A) h hk]
  rcases resetRuntime_cases (A := A) s with hs | ⟨g, hs⟩
  · exact hs.imageKept_iff
  · rw [hs.imageKept_iff]
    exact ⟨fun hkept => (forall_passes.mp hkept).1, fun hkept => hkept.unloads g⟩

/-- What an invariant has to do with the heaps that were passed through: it keeps if the states stay the
same in this respect, if a block is obtained and if an extension is loaded. -/
structure Stable (A : LlextApi Z) (X : Extension E) (P : Elf E Z → Prop) : Prop where
  same : ∀ s s', Same s s' → P s → P s'
  obtainBlock : ∀ s mem, s.llext.addr = none → P s → P (s.obtainBlock mem)
  loadedFrom : ∀ s llextSize, P s → P (s.loadedFrom X llextSize)

theorem Stable.saveRuntime {P : Elf E Z → Prop} (hP : Stable A X P) (s : Elf E Z) (src : List UInt8)
    (h : P s) : P (saveRuntime A s src).2 := by
  rcases saveRuntime_cases (A := A) src s with hs | ⟨ha, mem, hs⟩
  · exact hP.same _ _ hs h
  · exact hP.same _ _ hs (hP.obtainBlock s mem ha h)

theorem Stable.loadRuntime {P : Elf E Z → Prop} (hP : Stable A X P) (llextSize : ℕ) (s : Elf E Z)
    (h : P s) : P (loadRuntime A X llextSize s).2 := by
  rcases loadRuntime_cases (A := A) (X := X) llextSize s with hs | hs
  · exact hP.same _ _ hs h
  · exact hP.same _ _ hs (hP.loadedFrom s llextSize h)

theorem settled_stable : Stable A X Settled where
  same _ _ hs h := h.same hs
  obtainBlock _ mem ha h := h.obtainBlock ha mem
  loadedFrom _ llextSize h := h.loadedFrom llextSize

theorem kept_stable : Stable A X (fun s => Settled s ∧ ImageKept s) where
  same _ _ hs h := ⟨h.1.same hs, hs.imageKept_iff.mpr h.2⟩
  obtainBlock _ mem ha h := ⟨h.1.obtainBlock ha mem, h.2.obtainBlock h.1 mem⟩
  loadedFrom _ llextSize h := ⟨h.1.loadedFrom llextSize, h.2.loadedFrom h.1 llextSize⟩

/-- What was passed through is not forgotten. -/
theorem lost_stable : Stable A X (fun s => ¬ ImageKept s) where
  same _ _ hs h := hs.imageKept_iff.not.mpr h
  obtainBlock _ _ _ h hkept := h (forall_passes.mp hkept).1
  loadedFrom _ _ h hkept := h (forall_passes.mp hkept).1

/-! ### The runtime wrapper -/

/-- The two states have the same buffer and the same extension. -/
def SameFile (l l' : Llext E Z) : Prop := l'.addr = l.addr ∧ l'.loaded = l.loaded

theorem SameFile.same {l : Llext E Z} (h : SameFile s.llext l) : Same s {s with llext := l} :=
  ⟨congrArg Option.isSome h.1, h.2, rfl, rfl⟩

theorem findPFunc_sameFile {α : Type} (symbol : RuntimeSymbol)
    (call : Llext E Z → α × Llext E Z) (hcall : ∀ l, SameFile l (call l).2) (l : Llext E Z) :
    SameFile l (Llext.findPFunc A symbol call l).2 := by
  rw [Llext.findPFunc]
  rcases l.gpLlextRuntime with _ | g
  · exact ⟨rfl, rfl⟩
  simp only
  split
  · exact hcall _
  · exact ⟨rfl, rfl⟩

theorem callRuntime_sameFile (symbol : RuntimeSymbol) (function : E → Status × E)
    (l : Llext E Z) : SameFile l (Llext.callRuntime A symbol function l).2 :=
  findPFunc_sameFile symbol (fun l => ((function l.ext).1, {l with ext := (function l.ext).2}))
    (fun _ => ⟨rfl, rfl⟩) l

theorem runtimeInit_sameFile (l : Llext E Z) : SameFile l (Llext.runtimeInit A X l).2 := by
  rw [Llext.runtimeInit]
  by_cases hi : l.runtimeInitialized = true
  · rw [if_pos hi]
    exact ⟨rfl, rfl⟩
  · rw [if_neg hi]
    refine findPFunc_sameFile (A := A) .runtimeInit _ ?_ {l with gpLlextRuntime := l.loaded}
    exact fun _ => ⟨rfl, rfl⟩

theorem runtimeGetModelOutput_sameFile (spec : List UInt8) {n : ℕ} (buffer : Buffer n)
    (l : Llext E Z) : SameFile l (Llext.runtimeGetModelOutput A X spec buffer l).2.2 := by
  rw [Llext.runtimeGetModelOutput]
  split
  · next hfind =>
    rw [← congrArg Prod.snd hfind]
    exact findPFunc_sameFile _ _ (fun _ => ⟨rfl, rfl⟩) l
  · next hfind =>
    rw [← congrArg Prod.snd hfind]
    exact findPFunc_sameFile _ _ (fun _ => ⟨rfl, rfl⟩) l

theorem runtimeGetStatistics_sameFile {n : ℕ} (bufferSize : ℕ) (buffer : Buffer n) (size : ℕ)
    (l : Llext E Z) :
    SameFile l (Llext.runtimeGetStatistics A X bufferSize buffer size l).2.2.2 := by
  rw [Llext.runtimeGetStatistics]
  split
  · next hfind =>
    rw [← congrArg Prod.snd hfind]
    exact findPFunc_sameFile _ _ (fun _ => ⟨rfl, rfl⟩) l
  · next hfind =>
    rw [← congrArg Prod.snd hfind]
    exact findPFunc_sameFile _ _ (fun _ => ⟨rfl, rfl⟩) l

/-- The functions of the runtime have nothing to do with the heap. -/
theorem wrapper_same (s₀ : Elf E Z) : ((Llext.wrapper A X).lift llextLens).Preserves (Same s₀) where
  runtimeInitWeights _ h := h.trans (callRuntime_sameFile _ _ _).same
  runtimeInitInput _ h := h.trans (callRuntime_sameFile _ _ _).same
  runtimeRunModelBench _ h := h.trans (callRuntime_sameFile _ _ _).same
  runtimeGetModelOutput spec _ buffer _ h :=
    h.trans (runtimeGetModelOutput_sameFile spec buffer _).same
  runtimeGetStatistics bufferSize buffer size _ h :=
    h.trans (runtimeGetStatistics_sameFile bufferSize buffer size _).same

end

end Elf

end KenningRuntime
