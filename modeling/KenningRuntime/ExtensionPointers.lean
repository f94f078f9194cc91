import KenningRuntime.ModelFrame
import KenningRuntime.RuntimeLlext

/-! What loading, unloading and the functions of the runtime do to the pointers into an extension. -/
namespace KenningRuntime
open Lifetime

namespace Llext

variable {E Z : Type} {A : LlextApi Z} {X : Extension E} {s s' : Llext E Z}

/-- So far pointers were followed into loaded extensions only, and `llext_by_name` finds what the
record says is loaded. -/
structure Sound (s : Llext E Z) : Prop where
  disciplined : Disciplined nothing s.record
  alive : ∀ g, liveAfter nothing s.record g = decide (s.loaded = some g)

/-- Moreover the pointers that are set belong to the loaded extension. -/
structure Safe (s : Llext E Z) : Prop extends Sound s where
  gp : ∀ g, s.gpLlextRuntime = some g → s.loaded = some g
  table : ∀ g, s.ldrTable = some g → s.loaded = some g

/-- The two states have the same extension, the same pointers and the same record. -/
structure Same (s s' : Llext E Z) : Prop where
  gp : s'.gpLlextRuntime = s.gpLlextRuntime
  table : s'.ldrTable = s.ldrTable
  loaded : s'.loaded = s.loaded
  record : s'.record = s.record

theorem Same.refl (s : Llext E Z) : Same s s := ⟨rfl, rfl, rfl, rfl⟩

theorem Same.trans {s'' : Llext E Z} (h : Same s s') (h' : Same s' s'') : Same s s'' :=
  ⟨h'.gp.trans h.gp, h'.table.trans h.table, h'.loaded.trans h.loaded, h'.record.trans h.record⟩

theorem Sound.same (h : Sound s) (hs : Same s s') : Sound s' := by
  constructor
  · rw [hs.record]
    exact h.disciplined
  · intro g
    rw [hs.record, hs.loaded]
    exact h.alive g

theorem Safe.same (h : Safe s) (hs : Same s s') : Safe s' := by
  refine ⟨h.toSound.same hs, ?_, ?_⟩
  · intro g hg
    rw [hs.loaded]
    exact h.gp g (hs.gp ▸ hg)
  · intro g hg
    rw [hs.loaded]
    exact h.table g (hs.table ▸ hg)

theorem Sound.use (h : Sound s) {g : ℕ} (hg : s.loaded = some g) : Sound (s.happened (.use g)) := by
  refine ⟨disciplined_concat.mpr ⟨h.disciplined, ?_⟩, ?_⟩
  · exact (h.alive g).trans (decide_eq_true hg)
  · intro g'
    rw [happened, liveAfter_append]
    exact h.alive g'

theorem Safe.use (h : Safe s) {g : ℕ} (hg : s.loaded = some g) : Safe (s.happened (.use g)) :=
  ⟨h.toSound.use hg, h.gp, h.table⟩

theorem Sound.safe_of_none (h : Sound s) (hgp : s.gpLlextRuntime = none) (ht : s.ldrTable = none) :
    Safe s := by
  refine ⟨h, ?_, ?_⟩
  · intro g hg
    rw [hgp] at hg
    cases hg
  · intro g hg
    rw [ht] at hg
    cases hg

theorem Safe.gp_eq_none (h : Safe s) (hl : s.loaded = none) : s.gpLlextRuntime = none := by
  rw [Option.eq_none_iff_forall_ne_some]
  intro g hg
  rw [h.gp g hg] at hl
  cases hl

theorem Safe.table_eq_none (h : Safe s) (hl : s.loaded = none) : s.ldrTable = none := by
  rw [Option.eq_none_iff_forall_ne_some]
  intro g hg
  rw [h.table g hg] at hl
  cases hl

/-! ### The functions of the runtime wrapper -/

/-- `FIND_P_FUNC` follows the pointer only if it is set. -/
theorem findPFunc_safe {α : Type} (symbol : RuntimeSymbol) (call : Llext E Z → α × Llext E Z)
    (hcall : ∀ s, Same s (call s).2) (h : Safe s) : Safe (findPFunc A symbol call s).2 := by
  rw [findPFunc]
  -- A null pointer is not followed.
  rcases hgp : s.gpLlextRuntime with _ | g
  · exact h
  have huse := h.use (h.gp g hgp)
  simp only
  split
  · exact huse.same (hcall _)
  · exact huse

theorem Safe.of_findPFunc {α : Type} {symbol : RuntimeSymbol} {call : Llext E Z → α × Llext E Z}
    {r : Except Status α × Llext E Z} (h : Safe s) (hfind : findPFunc A symbol call s = r)
    (hcall : ∀ s, Same s (call s).2) : Safe r.2 := by
  have hsafe := findPFunc_safe (A := A) symbol call hcall h
  rwa [hfind] at hsafe

theorem callRuntime_safe (symbol : RuntimeSymbol) (function : E → Status × E) (h : Safe s) :
    Safe (callRuntime A symbol function s).2 := by
  have hfind := findPFunc_safe (A := A) symbol
    (fun s => ((function s.ext).1, {s with ext := (function s.ext).2}))
    (fun s => ⟨rfl, rfl, rfl, rfl⟩) h
  exact hfind

theorem runtimeGetModelOutput_safe (spec : List UInt8) {n : ℕ} (buffer : Buffer n) (h : Safe s) :
    Safe (runtimeGetModelOutput A X spec buffer s).2.2 := by
  rw [runtimeGetModelOutput]
  split
  · next hfind => exact h.of_findPFunc hfind fun s => ⟨rfl, rfl, rfl, rfl⟩
  · next hfind => exact h.of_findPFunc hfind fun s => ⟨rfl, rfl, rfl, rfl⟩

theorem runtimeGetStatistics_safe {n : ℕ} (bufferSize : ℕ) (buffer : Buffer n) (size : ℕ)
    (h : Safe s) : Safe (runtimeGetStatistics A X bufferSize buffer size s).2.2.2 := by
  rw [runtimeGetStatistics]
  split
  · next hfind => exact h.of_findPFunc hfind fun s => ⟨rfl, rfl, rfl, rfl⟩
  · next hfind => exact h.of_findPFunc hfind fun s => ⟨rfl, rfl, rfl, rfl⟩

theorem wrapper_preserves : (wrapper A X).Preserves Safe where
  runtimeInitWeights _ h := callRuntime_safe _ _ h
  runtimeInitInput _ h := callRuntime_safe _ _ h
  runtimeRunModelBench _ h := callRuntime_safe _ _ h
  runtimeGetModelOutput spec _ buffer _ h := runtimeGetModelOutput_safe spec buffer h
  runtimeGetStatistics bufferSize buffer size _ h := runtimeGetStatistics_safe bufferSize buffer size h

/-! ### Unloading and loading -/

/-- Extension `g` is unloaded, and the pointers are left as they were. -/
structure Unloads (g : ℕ) (s s' : Llext E Z) : Prop where
  was : s.loaded = some g
  gp : s'.gpLlextRuntime = s.gpLlextRuntime
  table : s'.ldrTable = s.ldrTable
  loaded : s'.loaded = none
  record : s'.record = s.record ++ [.destroy g]

theorem Sound.unloads {g : ℕ} (h : Sound s) (hu : Unloads g s s') : Sound s' := by
  constructor
  · rw [hu.record]
    exact disciplined_concat.mpr ⟨h.disciplined, (h.alive g).trans (decide_eq_true hu.was)⟩
  · intro g'
    rw [hu.record, hu.loaded, liveAfter_append, liveAfter_singleton, Event.after]
    by_cases hg : g' = g
    · rw [hg, Function.update_self]
      rfl
    · rw [Function.update_of_ne hg, h.alive g', hu.was]
      simp only [Option.some.injEq, Ne.symm hg, reduceCtorEq]

/-- The reset of the runtime loader unloads the extension, or it leaves it alone. -/
theorem resetRuntime_cases (s : Llext E Z) :
    (Same s (resetRuntime A s).2 ∧ (s.loaded = none ∨ (resetRuntime A s).1 ≠ statusOk)) ∨
      ((resetRuntime A s).1 = statusOk ∧ ∃ g, Unloads g s (resetRuntime A s).2) := by
  rw [resetRuntime]
  -- Three exits: nothing is loaded, Zephyr refuses, or the extension goes.
  generalize (if s.addr.isSome then A.kHeapFree s.zephyr else s.zephyr) = zephyr
  rcases hl : s.loaded with _ | g
  · exact Or.inl ⟨⟨rfl, rfl, hl.symm, rfl⟩, Or.inl rfl⟩
  simp only
  by_cases ht : (A.llextTeardown zephyr).1 = statusOk
  swap
  · rw [if_pos ht]
    exact Or.inl ⟨⟨rfl, rfl, hl.symm, rfl⟩, Or.inr ht⟩
  rw [if_neg (not_not_intro ht)]
  by_cases hu : (A.llextUnload (A.llextTeardown zephyr).2).1 = statusOk
  swap
  · rw [if_pos hu]
    exact Or.inl ⟨⟨rfl, rfl, hl.symm, rfl⟩, Or.inr hu⟩
  · rw [if_neg (not_not_intro hu)]
    exact Or.inr ⟨rfl, g, hl, rfl, rfl, rfl, rfl⟩

theorem saveBlock_same (mem src : List UInt8) (s : Llext E Z) : Same s (s.saveBlock mem src).2 := by
  rw [saveBlock]
  split
  · exact Same.refl s
  · exact ⟨rfl, rfl, rfl, rfl⟩

theorem saveRuntime_same (src : List UInt8) (s : Llext E Z) : Same s (saveRuntime A s src).2 := by
  rw [saveRuntime]
  split
  · exact saveBlock_same _ src s
  split
  · exact Same.refl s
  simp only
  split
  · exact ⟨rfl, rfl, rfl, rfl⟩
  next mem zephyr _ =>
    split
    · have hblock := saveBlock_same mem.1 (src.drop runtimeSizeFieldSize) ({s with
        zephyr
        addr := some mem.1
        written := 0
        maxSize := LittleEndian.word src 0 runtimeSizeFieldSize } : Llext E Z)
      exact ⟨hblock.gp, hblock.table, hblock.loaded, hblock.record⟩
    · exact ⟨rfl, rfl, rfl, rfl⟩

/-- The next extension is loaded, and the pointers are left as they were. -/
structure Loads (s s' : Llext E Z) : Prop where
  was : s.loaded = none
  gp : s'.gpLlextRuntime = s.gpLlextRuntime
  table : s'.ldrTable = s.ldrTable
  loaded : s'.loaded = some s.next
  record : s'.record = s.record ++ [.create s.next]
  runtimeInitialized : s'.runtimeInitialized = false

theorem Sound.loads (h : Sound s) (hl : Loads s s') : Sound s' := by
  have hdead : liveAfter nothing s.record s.next = false := by
    rw [h.alive, hl.was]
    rfl
  constructor
  · rw [hl.record]
    exact disciplined_concat.mpr ⟨h.disciplined, hdead⟩
  · intro g
    rw [hl.record, hl.loaded, liveAfter_append, liveAfter_singleton, Event.after]
    by_cases hg : g = s.next
    · rw [hg, Function.update_self, decide_eq_true rfl]
    · rw [Function.update_of_ne hg, h.alive g, hl.was]
      simp only [Option.some.injEq, Ne.symm hg, reduceCtorEq]

/-- Loading fails before anything is loaded, or it loads the next extension. -/
theorem loadRuntime_cases (size : ℕ) (s : Llext E Z) :
    (Same s (loadRuntime A X size s).2 ∧ (loadRuntime A X size s).1 ≠ statusOk) ∨
      Loads s (loadRuntime A X size s).2 := by
  have hne : Module.callbacks.statusError ≠ statusOk := status_ne_ok _ (by decide)
  rw [loadRuntime]
  simp only [runtimeDeinit, ne_eq, not_true_eq_false, if_false]
  by_cases hl : s.loaded = none
  swap
  · have hsome : s.loaded.isSome = true := Option.isSome_iff_ne_none.mpr hl
    simp only [hsome, if_true]
    exact Or.inl ⟨⟨rfl, rfl, rfl, rfl⟩, hne⟩
  have hsome : s.loaded.isSome = false := by
    rw [hl]
    rfl
  simp only [hsome, Bool.false_eq_true, if_false]
  by_cases hload : (A.llextLoad s.addr size s.zephyr).1 = statusOk
  swap
  · simp only [hload, not_false_eq_true, if_true]
    exact Or.inl ⟨⟨rfl, rfl, rfl, rfl⟩, hne⟩
  simp only [hload, not_true_eq_false, if_false]
  apply Or.inr
  -- From here on the extension is loaded, whether it is brought up or not.
  by_cases hbringup : (A.llextBringup (A.llextLoad s.addr size s.zephyr).2).1 = statusOk
  · simp only [happened, hbringup, not_true_eq_false, if_false]
    exact ⟨hl, rfl, rfl, rfl, rfl, rfl⟩
  · simp only [happened, hbringup, not_false_eq_true, if_true]
    exact ⟨hl, rfl, rfl, rfl, rfl, rfl⟩

/-- The function `runtime_init` of the extension that was loaded last is there, and it gets as far as
to put its loaders into the table. -/
structure Registers (A : LlextApi Z) (X : Extension E) (s : Llext E Z) : Prop where
  found : A.llextFindSym .runtimeInit s.zephyr = true
  registers : (X.runtimeInit s.ext).2.1 = true

theorem runtimeInit_safe (h : Sound s) {g : ℕ} (hl : s.loaded = some g)
    (hi : s.runtimeInitialized = false) (ht : s.ldrTable = none ∨ Registers A X s) :
    Safe (runtimeInit A X s).2 := by
  have huse := h.use hl
  have hsound : ∀ s' : Llext E Z, s'.loaded = s.loaded → s'.record = s.record ++ [.use g] →
      Sound s' := by
    intro s' hloaded hrecord
    constructor
    · rw [hrecord]
      exact huse.disciplined
    · intro g'
      rw [hrecord, hloaded]
      exact huse.alive g'
  rw [runtimeInit]
  simp only [hi, Bool.false_eq_true, if_false, findPFunc, hl]
  by_cases hfound : A.llextFindSym .runtimeInit s.zephyr = true
  swap
  · -- Nothing is called, so nothing may be in the table.
    have hnone : s.ldrTable = none := ht.resolve_right fun hr => hfound hr.found
    simp only [happened, hfound]
    refine ⟨hsound _ hl.symm rfl, fun g' hg' => hg', ?_⟩
    intro g' hg'
    cases hnone.symm.trans hg'
  simp only [happened, hfound, if_true]
  refine ⟨hsound _ hl.symm rfl, fun g' hg' => hg', ?_⟩
  intro g' hg'
  -- Either the function puts its own loaders into the table, or none are there.
  by_cases hregisters : (X.runtimeInit s.ext).2.1 = true
  · simp only [hregisters, if_true] at hg'
    exact hg'
  · simp only [hregisters] at hg'
    have hnone : s.ldrTable = none := ht.resolve_right fun hr => hregisters hr.registers
    cases hnone.symm.trans hg'

/-- The runtime that is received instead of the one that the pointers belong to sets them anew: it is
loaded, and if there are loaders in the table, it puts its own there. -/
structure Replaces (A : LlextApi Z) (X : Extension E) (size : ℕ) (s : Llext E Z) : Prop where
  gp : s.gpLlextRuntime ≠ none → (loadRuntime A X size s).1 = statusOk
  table : s.ldrTable ≠ none →
    (loadRuntime A X size s).1 = statusOk ∧ Registers A X (loadRuntime A X size s).2

theorem Safe.replaces (h : Safe s) (hl : s.loaded = none) (size : ℕ) : Replaces A X size s :=
  ⟨fun hgp => absurd (h.gp_eq_none hl) hgp, fun ht => absurd (h.table_eq_none hl) ht⟩

/-- Loading keeps what was safe; where nothing is loaded, it is enough that the pointers are set anew
if they were set. -/
theorem loadRuntime_safe {size : ℕ} (h : Sound s) (hsafe : s.loaded ≠ none → Safe s)
    (hr : s.loaded = none → Replaces A X size s) :
    ((loadRuntime A X size s).1 ≠ statusOk → Safe (loadRuntime A X size s).2) ∧
      ((loadRuntime A X size s).1 = statusOk →
        Safe (runtimeInit A X (loadRuntime A X size s).2).2) := by
  -- Either the old state stays, or a new extension is loaded and sets the pointers.
  rcases loadRuntime_cases (A := A) (X := X) size s with ⟨hsame, hfail⟩ | hloads
  · refine ⟨?_, fun hok => absurd hok hfail⟩
    intro _
    by_cases hl : s.loaded = none
    · have hgp : s.gpLlextRuntime = none := of_not_not fun hgp => hfail ((hr hl).gp hgp)
      have htable : s.ldrTable = none := of_not_not fun ht => hfail ((hr hl).table ht).1
      exact (h.safe_of_none hgp htable).same hsame
    · exact (hsafe hl).same hsame
  have hsound := h.loads hloads
  have hr := hr hloads.was
  constructor
  · intro hfail
    apply hsound.safe_of_none
    · exact hloads.gp.trans (of_not_not fun hgp => hfail (hr.gp hgp))
    · exact hloads.table.trans (of_not_not fun ht => hfail (hr.table ht).1)
  · intro _
    apply runtimeInit_safe hsound hloads.loaded hloads.runtimeInitialized
    rw [hloads.table]
    by_cases ht : s.ldrTable = none
    · exact Or.inl ht
    · exact Or.inr (hr.table ht).2

end Llext

end KenningRuntime
