import KenningRuntime.Library.Ownership
import KenningRuntime.Library.Transition
import KenningRuntime.OutputCopy

/-! The references that the IREE runtime (runtimes/iree/iree.c) gets from create and allocate calls, with
a record of those that it released and of those that it moved into a list. -/
namespace KenningRuntime
namespace Iree
open Ownership Transition

inductive Resource where
  | vmModule
  | context
  | list
  | bufferView
deriving DecidableEq, Repr

/-- The references so far, numbered in the order of `created`, and the three that are kept in globals. -/
structure References where
  gpContext : Option ℕ
  gpModelInputs : Option ℕ
  gpModelOutputs : Option ℕ
  created : List Resource
  released : List ℕ
  moved : List ℕ
deriving DecidableEq, Repr

/-- What the IREE calls of `create_context` return, as far as they are made. -/
structure ContextCalls where
  halModule : Bool
  bytecodeModule : Bool
  context : Bool
deriving DecidableEq, Repr

/-- What the IREE calls of `prepare_input_buffer` return: the one that creates the list, and for each of
`numInput` inputs the one that allocates its view and the one that pushes it. -/
structure InputCalls where
  list : Bool
  numInput : ℕ
  allocated : ℕ → Bool
  pushed : ℕ → Bool

structure RunCalls where
  list : Bool
  resolved : Bool
  invoked : Bool
deriving DecidableEq, Repr

namespace References

/-- A reference from a create or allocate call that succeeded. -/
def create (kind : Resource) (s : References) : ℕ × References :=
  (s.created.length, {s with created := s.created ++ [kind]})

/-- A release call, which is only made if the pointer is valid. -/
def release (ref : Option ℕ) (s : References) : References :=
  {s with released := s.released ++ ref.toList}

def releaseContext (s : References) : References := {s.release s.gpContext with gpContext := none}

def releaseInputBuffer (s : References) : References :=
  {s.release s.gpModelInputs with gpModelInputs := none}

def releaseOutputBuffer (s : References) : References :=
  {s.release s.gpModelOutputs with gpModelOutputs := none}

/-- The body of the `do … while (0)` in `create_context`: whether all calls succeeded, and what is left in
`hal_module` and `module`. -/
def createModules (calls : ContextCalls) (s : References) :
    Bool × Option ℕ × Option ℕ × References :=
  if ¬ calls.halModule then (false, none, none, s)
  else
    match s.create .vmModule with
    | (halModule, s) =>
      if ¬ calls.bytecodeModule then (false, some halModule, none, s)
      else
        match s.create .vmModule with
        | (bytecodeModule, s) =>
          if ¬ calls.context then (false, some halModule, some bytecodeModule, s)
          else
            match s.create .context with
            | (context, s) =>
              (true, some halModule, some bytecodeModule, {s with gpContext := some context})

def createContext (calls : ContextCalls) (s : References) : Status × References :=
  match createModules calls s.releaseContext with
  | (ok, halModule, bytecodeModule, s) =>
    let s := (s.release halModule).release bytecodeModule
    if ok then (statusOk, s) else (Module.runtimeWrapper.statusError, s.releaseContext)

/-- The loop of `prepare_input_hal_buffer_views` from input `i` on, and the views that it stores. -/
def prepareInputHalBufferViews (allocated : ℕ → Bool) :
    ℕ → ℕ → References → Bool × List ℕ × References
  | 0, _, s => (true, [], s)
  | left+1, i, s =>
    if ¬ allocated i then (false, [], s)
    else
      match s.create .bufferView with
      | (view, s) =>
        match prepareInputHalBufferViews allocated left (i+1) s with
        | (ok, views, s) => (ok, view :: views, s)

/-- The loop of `prepare_input_buffer` over the views, from input `i` on. -/
def pushViews (pushed : ℕ → Bool) : List ℕ → ℕ → References → Bool × References
  | [], _, s => (true, s)
  | view :: views, i, s =>
    if ¬ pushed i then (false, s)
    else pushViews pushed views (i+1) {s with moved := s.moved ++ [view]}

def prepareInputBuffer (calls : InputCalls) (s : References) : Status × References :=
  if ¬ calls.list then (Module.runtimeWrapper.statusError, s)
  else
    match s.create .list with
    | (list, s) =>
      match prepareInputHalBufferViews calls.allocated calls.numInput 0
          {s with gpModelInputs := some list} with
      -- The views that were allocated go out of scope with the local array.
      | (false, _, s) => (Module.runtimeWrapper.statusError, s)
      | (true, views, s) =>
        match pushViews calls.pushed views 0 s with
        | (false, s) => (Module.runtimeWrapper.statusError, s)
        | (true, s) => (statusOk, s)

def prepareOutputBuffer (created : Bool) (s : References) : Status × References :=
  if ¬ created then (Module.runtimeWrapper.statusError, s)
  else
    match s.create .list with
    | (list, s) => (statusOk, {s with gpModelOutputs := some list})

def runtimeInitWeights (calls : ContextCalls) (s : References) : Status × References :=
  createContext calls s.releaseOutputBuffer.releaseInputBuffer

def runtimeInitInput (calls : InputCalls) (s : References) : Status × References :=
  prepareInputBuffer calls s.releaseInputBuffer

def runtimeRunModel (calls : RunCalls) (s : References) : Status × References :=
  match prepareOutputBuffer calls.list s.releaseOutputBuffer with
  | (status, s) =>
    if status ≠ statusOk then (status, s)
    else if ¬ calls.resolved then (Module.runtimeWrapper.statusError, s)
    else if ¬ calls.invoked then (Module.runtimeWrapper.statusError, s)
    else (statusOk, s)

/-- `runtime_get_model_output`, for what it finds of each output: the views are borrowed from the list, so
that no reference changes hands. -/
def runtimeGetModelOutput (views : List OutputView) (s : References) : Status × References :=
  match views.find? fun view => view.missing ≠ statusOk with
  | some view => (view.missing, s)
  | none => (statusOk, s)

inductive Call where
  | initWeights (calls : ContextCalls)
  | initInput (calls : InputCalls)
  | runModel (calls : RunCalls)
  | getModelOutput (views : List OutputView)

def call (s : References) : Call → Status × References
  | .initWeights calls => s.runtimeInitWeights calls
  | .initInput calls => s.runtimeInitInput calls
  | .runModel calls => s.runtimeRunModel calls
  | .getModelOutput views => s.runtimeGetModelOutput views

def step (s : References) (c : Call) : Option References := some (s.call c).2

def boot : References := ⟨none, none, none, [], [], []⟩

def held (s : References) : List ℕ :=
  s.gpContext.toList ++ s.gpModelInputs.toList ++ s.gpModelOutputs.toList

/-- Apart from those that are still in local variables, each reference was released once, was moved into a
list, or is in one of the globals. -/
def BalancedBut (inLocals : List ℕ) (s : References) : Prop :=
  Accounted s.created.length s.released (s.moved ++ s.held ++ inLocals)

def Balanced (s : References) : Prop := BalancedBut [] s

/-! ### What the single calls do to the balance -/

section
variable {s : References} {inLocals : List ℕ}

theorem create_balanced (h : BalancedBut inLocals s) (kind : Resource) :
    BalancedBut (inLocals ++ [(s.create kind).1]) (s.create kind).2 := by
  have hnew := h.acquire
  rw [List.append_assoc] at hnew
  rw [BalancedBut, create, List.length_append]
  exact hnew

theorem release_balanced {ref : Option ℕ} (h : BalancedBut (ref.toList ++ inLocals) s) :
    BalancedBut inLocals (s.release ref) := by
  apply h.release_of_count
  intro r
  simp only [release, held, List.count_append]
  omega

/-- A reference that one of the globals held is released. -/
theorem balanced_of_release {t : References} {ref : Option ℕ} (h : BalancedBut inLocals s)
    (hcreated : t.created = s.created) (hreleased : t.released = s.released ++ ref.toList)
    (hmoved : t.moved = s.moved) (hheld : ∀ r, s.held.count r = ref.toList.count r+t.held.count r) :
    BalancedBut inLocals t := by
  rw [BalancedBut, hcreated, hreleased, hmoved]
  apply h.release_of_count
  intro r
  have hr := hheld r
  simp only [List.count_append]
  omega

theorem releaseContext_balanced (h : BalancedBut inLocals s) : BalancedBut inLocals s.releaseContext := by
  refine balanced_of_release h rfl rfl rfl ?_
  intro r
  simp only [releaseContext, release, held, List.count_append, Option.toList_none, List.count_nil]
  omega

theorem releaseInputBuffer_balanced (h : BalancedBut inLocals s) :
    BalancedBut inLocals s.releaseInputBuffer := by
  refine balanced_of_release h rfl rfl rfl ?_
  intro r
  simp only [releaseInputBuffer, release, held, List.count_append, Option.toList_none, List.count_nil]
  omega

theorem releaseOutputBuffer_balanced (h : BalancedBut inLocals s) :
    BalancedBut inLocals s.releaseOutputBuffer := by
  refine balanced_of_release h rfl rfl rfl ?_
  intro r
  simp only [releaseOutputBuffer, release, held, List.count_append, Option.toList_none, List.count_nil]
  omega

theorem balanced_of_count {t : References} {inLocals' : List ℕ} (h : BalancedBut inLocals s)
    (hcreated : t.created = s.created) (hreleased : t.released = s.released)
    (hc : ∀ r, (s.moved ++ s.held ++ inLocals).count r = (t.moved ++ t.held ++ inLocals').count r) :
    BalancedBut inLocals' t := by
  rw [BalancedBut, hcreated, hreleased]
  exact h.of_count hc

theorem createModules_balanced (h : Balanced s) (hcontext : s.gpContext = none) (calls : ContextCalls)
    {ok : Bool} {halModule bytecodeModule : Option ℕ} {t : References}
    (ht : createModules calls s = (ok, halModule, bytecodeModule, t)) :
    BalancedBut (halModule.toList ++ bytecodeModule.toList) t := by
  -- One exit for each call that fails, with what is in the local variables there.
  unfold createModules at ht
  split at ht
  · cases ht
    exact h
  have hhal := create_balanced h .vmModule
  simp only at ht
  split at ht
  · cases ht
    exact hhal
  have hboth := create_balanced hhal .vmModule
  split at ht
  · cases ht
    exact hboth
  · cases ht
    -- The third reference goes to `gp_context`.
    refine balanced_of_count (create_balanced hboth .context) rfl rfl ?_
    intro r
    simp only [create, held, hcontext, List.count_append, Option.toList_none, Option.toList_some,
      List.count_nil]
    omega

theorem createContext_balanced (h : Balanced s) (calls : ContextCalls) :
    Balanced (createContext calls s).2 := by
  rw [createContext]
  split
  next ok halModule bytecodeModule t ht =>
    have hmodules := createModules_balanced (releaseContext_balanced h) rfl calls ht
    -- The cleanup is the same on all exits: it releases what the locals hold.
    have hreleased : Balanced ((t.release halModule).release bytecodeModule) := by
      apply release_balanced
      rw [List.append_nil]
      exact release_balanced hmodules
    simp only
    split
    · exact hreleased
    · exact releaseContext_balanced hreleased

theorem runtimeInitWeights_balanced (h : Balanced s) (calls : ContextCalls) :
    Balanced (s.runtimeInitWeights calls).2 :=
  createContext_balanced (releaseInputBuffer_balanced (releaseOutputBuffer_balanced h)) calls

theorem prepareOutputBuffer_balanced (h : Balanced s) (hnone : s.gpModelOutputs = none) (created : Bool) :
    Balanced (prepareOutputBuffer created s).2 := by
  rw [prepareOutputBuffer]
  split
  · exact h
  · refine balanced_of_count (create_balanced h .list) rfl rfl ?_
    intro r
    simp only [create, held, hnone, List.count_append, Option.toList_none, Option.toList_some,
      List.count_nil]
    omega

theorem runtimeRunModel_balanced (h : Balanced s) (calls : RunCalls) :
    Balanced (s.runtimeRunModel calls).2 := by
  have hprepared := prepareOutputBuffer_balanced (releaseOutputBuffer_balanced h) rfl calls.list
  rw [runtimeRunModel]
  split
  next status t ht =>
    rw [ht] at hprepared
    -- The calls behind the list create nothing, and the list stays where it is when one fails.
    split
    · exact hprepared
    · split
      · exact hprepared
      · split
        · exact hprepared
        · exact hprepared

theorem runtimeGetModelOutput_state (views : List OutputView) :
    (s.runtimeGetModelOutput views).2 = s := by
  rw [runtimeGetModelOutput]
  split
  · rfl
  · rfl

/-! ### The inputs -/

/-- Either all views are allocated, or those before the first one that is not. -/
theorem prepareInputHalBufferViews_spec {allocated : ℕ → Bool} {left i : ℕ} {ok : Bool}
    {views : List ℕ} {t : References} (h : BalancedBut inLocals s)
    (ht : prepareInputHalBufferViews allocated left i s = (ok, views, t)) :
    BalancedBut (inLocals ++ views) t ∧
      ((ok = true ∧ views.length = left ∧ ∀ k < left, allocated (i+k) = true) ∨
        (ok = false ∧ views.length < left ∧ allocated (i+views.length) = false ∧
          ∀ k < views.length, allocated (i+k) = true)) := by
  induction left generalizing i s inLocals ok views t with
  | zero =>
    cases ht
    rw [List.append_nil]
    exact ⟨h, Or.inl ⟨rfl, rfl, fun k hk => absurd hk (Nat.not_lt_zero k)⟩⟩
  | succ left ih =>
    rw [prepareInputHalBufferViews] at ht
    split at ht
    · next hi =>
      cases ht
      rw [List.append_nil]
      refine ⟨h, Or.inr ⟨rfl, Nat.succ_pos _, Bool.eq_false_of_not_eq_true hi, ?_⟩⟩
      exact fun k hk => absurd hk (Nat.not_lt_zero k)
    next hi =>
      have hi : allocated i = true := not_not.mp hi
      simp only at ht
      rcases hrest : prepareInputHalBufferViews allocated left (i+1) (s.create .bufferView).2 with
        ⟨ok', views', t'⟩
      rw [hrest] at ht
      simp only [Prod.mk.injEq] at ht
      obtain ⟨rfl, rfl, rfl⟩ := ht
      obtain ⟨hbalanced, hcases⟩ := ih (create_balanced h .bufferView) hrest
      rw [List.append_assoc, List.singleton_append] at hbalanced
      refine ⟨hbalanced, ?_⟩
      -- The view of input `i` comes before those of the rest of the loop.
      have hshift {n : ℕ} (hn : ∀ k < n, allocated (i+1+k) = true) :
          ∀ k < n+1, allocated (i+k) = true := by
        intro k hk
        cases k with
        | zero => exact hi
        | succ k =>
          rw [Nat.add_comm k 1, ← Nat.add_assoc]
          exact hn k (by omega)
      rw [List.length_cons]
      rcases hcases with ⟨hok, hlength, hall⟩ | ⟨hok, hlength, hfails, hall⟩
      · exact Or.inl ⟨hok, by omega, hshift hall⟩
      · refine Or.inr ⟨hok, by omega, ?_, hshift hall⟩
        rw [Nat.add_comm _ 1, ← Nat.add_assoc]
        exact hfails

/-- The views from the first one on whose push fails stay in the local array. -/
theorem pushViews_spec {pushed : ℕ → Bool} {views : List ℕ} {i : ℕ} {ok : Bool} {t : References}
    (h : BalancedBut views s) (ht : pushViews pushed views i s = (ok, t)) :
    ∃ rest, BalancedBut rest t ∧ (rest ≠ [] ↔ ∃ k < views.length, pushed (i+k) = false) := by
  induction views generalizing i s with
  | nil =>
    cases ht
    refine ⟨[], h, fun hne => absurd rfl hne, ?_⟩
    intro hk
    obtain ⟨k, hk, -⟩ := hk
    exact absurd hk (Nat.not_lt_zero k)
  | cons view views ih =>
    rw [pushViews] at ht
    split at ht
    · next hi =>
      cases ht
      refine ⟨view :: views, h, ?_⟩
      have hfails : ∃ k < (view :: views).length, pushed (i+k) = false :=
        ⟨0, Nat.succ_pos _, Bool.eq_false_of_not_eq_true hi⟩
      exact ⟨fun _ => hfails, fun _ => List.cons_ne_nil _ _⟩
    next hi =>
      have hi : pushed i = true := not_not.mp hi
      -- A push that succeeds takes the head of the local views.
      have hmoved : BalancedBut views {s with moved := s.moved ++ [view]} := by
        refine balanced_of_count h rfl rfl ?_
        intro r
        simp only [held, List.count_append, List.count_cons, List.count_nil]
        omega
      obtain ⟨rest, hrest, hiff⟩ := ih hmoved ht
      refine ⟨rest, hrest, hiff.trans ?_⟩
      constructor
      · intro hfails
        obtain ⟨k, hk, hfails⟩ := hfails
        refine ⟨k+1, Nat.succ_lt_succ hk, ?_⟩
        rw [Nat.add_comm k 1, ← Nat.add_assoc]
        exact hfails
      · intro hfails
        obtain ⟨k, hk, hfails⟩ := hfails
        cases k with
        | zero => exact absurd (hi.symm.trans hfails) (by decide)
        | succ k =>
          rw [Nat.add_comm k 1, ← Nat.add_assoc] at hfails
          exact ⟨k, Nat.lt_of_succ_lt_succ hk, hfails⟩

end

end References

/-- After views were allocated, a call fails: the one for another view, or one that pushes a view. -/
def InputCalls.Leaks (calls : InputCalls) : Prop :=
  calls.list = true ∧
    ((∃ i < calls.numInput, i ≠ 0 ∧ calls.allocated i = false ∧ ∀ j < i, calls.allocated j = true) ∨
      ((∀ i < calls.numInput, calls.allocated i = true) ∧ ∃ i < calls.numInput, calls.pushed i = false))

namespace References

variable {s : References}

theorem prepareInputBuffer_lost (h : Balanced s) (hnone : s.gpModelInputs = none) (calls : InputCalls) :
    ∃ lost, BalancedBut lost (prepareInputBuffer calls s).2 ∧ (lost ≠ [] ↔ calls.Leaks) := by
  rw [prepareInputBuffer]
  split
  · next hlist => exact ⟨[], h, fun hne => absurd rfl hne, fun hleaks => absurd hleaks.1 hlist⟩
  next hlist =>
    have hlist : calls.list = true := not_not.mp hlist
    have hcreated : Balanced {(s.create .list).2 with gpModelInputs := some (s.create .list).1} := by
      refine balanced_of_count (create_balanced h .list) rfl rfl ?_
      intro r
      simp only [create, held, hnone, List.count_append, Option.toList_none, Option.toList_some,
        List.count_nil]
      omega
    simp only
    split
    next views t ht =>
      obtain ⟨hbalanced, ⟨hok, -⟩ | ⟨-, hlength, hfails, hall⟩⟩ :=
        prepareInputHalBufferViews_spec hcreated ht
      · cases hok
      simp only [Nat.zero_add] at hfails hall
      -- The views before the one that fails are lost.
      refine ⟨views, hbalanced, ?_⟩
      constructor
      · intro hne
        have hpos := List.length_pos_iff.mpr hne
        exact ⟨hlist, Or.inl ⟨views.length, hlength, by omega, hfails, hall⟩⟩
      · intro hleaks hnil
        rw [hnil, List.length_nil] at hfails hlength
        rcases hleaks.2 with ⟨i, -, hne, -, hbefore⟩ | ⟨hevery, -⟩
        · exact absurd (hfails.symm.trans (hbefore 0 (Nat.pos_of_ne_zero hne))) (by decide)
        · exact absurd (hfails.symm.trans (hevery 0 hlength)) (by decide)
    next views t ht =>
      obtain ⟨hbalanced, ⟨-, hlength, hall⟩ | ⟨hok, -⟩⟩ := prepareInputHalBufferViews_spec hcreated ht
      swap
      · cases hok
      rw [List.nil_append] at hbalanced
      simp only [Nat.zero_add] at hall
      have hpush : ∀ ok u, pushViews calls.pushed views 0 t = (ok, u) →
          ∃ lost, BalancedBut lost u ∧ (lost ≠ [] ↔ calls.Leaks) := by
        intro ok u hu
        obtain ⟨rest, hrest, hiff⟩ := pushViews_spec hbalanced hu
        simp only [Nat.zero_add, hlength] at hiff
        refine ⟨rest, hrest, hiff.trans ?_⟩
        constructor
        · exact fun hfails => ⟨hlist, Or.inr ⟨hall, hfails⟩⟩
        · intro hleaks
          rcases hleaks.2 with ⟨i, hi, -, hfails, -⟩ | ⟨-, hfails⟩
          · exact absurd (hfails.symm.trans (hall i hi)) (by decide)
          · exact hfails
      split
      next u hu => exact hpush _ _ hu
      next u hu => exact hpush _ _ hu

/-- The references of a call for the inputs are balanced exactly if it does not leak views. -/
theorem runtimeInitInput_balanced_iff (h : Balanced s) (calls : InputCalls) :
    Balanced (s.runtimeInitInput calls).2 ↔ ¬ calls.Leaks := by
  obtain ⟨lost, hlost, hiff⟩ := prepareInputBuffer_lost (releaseInputBuffer_balanced h) rfl calls
  rw [← hiff, not_not]
  constructor
  · intro hbalanced
    rw [Balanced, BalancedBut, List.append_nil] at hbalanced
    exact hlost.eq_nil_of_append hbalanced
  · intro hnil
    rw [hnil] at hlost
    exact hlost

def Call.Leaks : Call → Prop
  | .initInput calls => calls.Leaks
  | _ => False

theorem step_balanced_iff (h : Balanced s) (c : Call) :
    (∀ t, step s c = some t → Balanced t) ↔ ¬ c.Leaks := by
  have hstep : (∀ t, step s c = some t → Balanced t) ↔ Balanced (s.call c).2 := by
    simp only [step, Option.some.injEq, forall_eq']
  rw [hstep]
  cases c with
  | initWeights calls => exact ⟨fun _ hf => hf, fun _ => runtimeInitWeights_balanced h calls⟩
  | initInput calls => exact runtimeInitInput_balanced_iff h calls
  | runModel calls => exact ⟨fun _ hf => hf, fun _ => runtimeRunModel_balanced h calls⟩
  | getModelOutput views =>
    refine ⟨fun _ hf => hf, fun _ => ?_⟩
    rw [call, runtimeGetModelOutput_state]
    exact h

/-- Exactly when no call for the inputs fails after it has allocated a view, each reference is, in every
state that a sequence of calls reaches, released once, moved into a list or held by one of the globals. -/
theorem reaches_balanced_iff (calls : List Call) :
    (∀ p s, p <+: calls → Reaches step boot p s → Balanced s) ↔ ∀ c ∈ calls, ¬ c.Leaks := by
  have hboot : Balanced boot := .initial
  have htotal : ∀ (s : References) (c : Call), True → ∃ t, step s c = some t ∧ True :=
    fun _ _ _ => ⟨_, rfl, trivial⟩
  rw [always_iff_guarded (fun _ c h => step_balanced_iff h c) hboot calls]
  exact guarded_iff_forall (fun s c => htotal s c) trivial calls

/-- Two inputs, of which the second cannot be given a view. -/
def secondViewFails : InputCalls where
  list := true
  numInput := 2
  allocated i := decide (i = 0)
  pushed _ := true

/-- The first view is lost: after the list, which is number 0, it is number 1. -/
theorem reaches_lost_view :
    ∃ s, Reaches step boot [.initInput secondViewFails] s ∧ s.created = [.list, .bufferView] ∧
      s.gpModelInputs = some 0 ∧ s.moved = [] ∧ s.released = [] ∧ ¬ Balanced s := by
  refine ⟨_, .next rfl (.refl _), by decide, by decide, by decide, by decide, ?_⟩
  rw [Balanced, BalancedBut]
  decide

end References

end Iree

end KenningRuntime
