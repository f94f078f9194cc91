import Mathlib.Tactic

/-! Steps that read and write values of which several share a storage. A plan gives each value its storage;
it is sound if no step needs a value that another one has taken the place of. -/
namespace StoragePlan

/-- What a step does, with the values that it reads and the one that it writes. -/
structure Step (E A : Type) where
  action : A
  inputs : List E
  output : E

section
variable {E A S C : Type} [DecidableEq S] (storage : E → S)

/-- The steps one after the other on the contents of the storages. An action gets the contents of its
inputs and what the storage of its output held before; one that writes what it reads is a fault. -/
def run (act : A → List C → C → Option C) : List (Step E A) → (S → C) → Option (S → C)
  | [], m => some m
  | step :: steps, m =>
    if ∃ e ∈ step.inputs, storage e = storage step.output then none
    else (act step.action (step.inputs.map fun e => m (storage e)) (m (storage step.output))).bind fun c =>
      run act steps (Function.update m (storage step.output) c)

/-- The values that are there after a step. -/
def after (there : List E) (step : Step E A) : List E :=
  step.output :: there.filter fun e => storage e ≠ storage step.output

/-- The values that are there at the end. -/
def atEnd (there : List E) (steps : List (Step E A)) : List E := steps.foldl (after storage) there

/-- Each step reads values that are there, in other storages than the one that it writes. -/
def Sound : List E → List (Step E A) → Prop
  | _, [] => True
  | there, step :: steps =>
    (∀ e ∈ step.inputs, e ∈ there ∧ storage e ≠ storage step.output) ∧ Sound (after storage there step) steps

instance decidableSound [DecidableEq E] :
    (there : List E) → (steps : List (Step E A)) → Decidable (Sound storage there steps)
  | _, [] => inferInstanceAs (Decidable True)
  | there, step :: steps =>
    have := decidableSound (after storage there step) steps
    inferInstanceAs (Decidable (_ ∧ _))

variable {storage}

/-- Steps that do what they should with their inputs do so in a sound plan. `Inv` is about the storages,
whatever they hold. -/
theorem run_eq {act : A → List C → C → Option C} {Holds : E → C → Prop} {Inv : S → C → Prop}
    {there : List E} {steps : List (Step E A)} {m : S → C} (hsound : Sound storage there steps)
    (hact : ∀ step ∈ steps, ∀ m : S → C, (∀ s, Inv s (m s)) → (∀ e ∈ step.inputs, Holds e (m (storage e))) →
      ∃ c, act step.action (step.inputs.map fun e => m (storage e)) (m (storage step.output)) = some c ∧
        Holds step.output c ∧ Inv (storage step.output) c)
    (hinv : ∀ s, Inv s (m s)) (hthere : ∀ e ∈ there, Holds e (m (storage e))) :
    ∃ m', run storage act steps m = some m' ∧ (∀ s, Inv s (m' s)) ∧
      ∀ e ∈ atEnd storage there steps, Holds e (m' (storage e)) := by
  induction steps generalizing there m with
  | nil => exact ⟨m, rfl, hinv, hthere⟩
  | cons step steps ih =>
    obtain ⟨hinputs, hrest⟩ := hsound
    have hshares : ¬∃ e ∈ step.inputs, storage e = storage step.output := by
      rintro ⟨e, he, heq⟩
      exact (hinputs e he).2 heq
    have hholds : ∀ e ∈ step.inputs, Holds e (m (storage e)) := fun e he => hthere e (hinputs e he).1
    obtain ⟨c, hstep, houtput, hc⟩ := hact step List.mem_cons_self m hinv hholds
    have hinv' : ∀ s, Inv s (Function.update m (storage step.output) c s) := by
      intro s
      by_cases h : s = storage step.output
      · rw [h, Function.update_self]
        exact hc
      · rw [Function.update_of_ne h]
        exact hinv s
    -- The values that stay are in other storages.
    have hthere' : ∀ e ∈ after storage there step,
        Holds e (Function.update m (storage step.output) c (storage e)) := by
      intro e he
      rcases List.mem_cons.mp he with rfl | he
      · rw [Function.update_self]
        exact houtput
      · rw [List.mem_filter, decide_eq_true_eq] at he
        rw [Function.update_of_ne he.2]
        exact hthere e he.1
    obtain ⟨m', hrun, hend⟩ := ih hrest (fun step' h => hact step' (List.mem_cons_of_mem _ h)) hinv' hthere'
    refine ⟨m', ?_, hend⟩
    rw [run, if_neg hshares, hstep, Option.bind_some, hrun]

end

end StoragePlan
