import Mathlib.Tactic

/-! The lives of objects, as a record of what was done to them. -/
namespace Lifetime

/-- An object comes to life, is used, or ends. -/
inductive Event (ι : Type*) where
  | create (i : ι)
  | use (i : ι)
  | destroy (i : ι)
deriving DecidableEq, Repr

variable {ι : Type*} [DecidableEq ι]

/-- Whether each object is alive after an event. -/
def Event.after (live : ι → Bool) : Event ι → ι → Bool
  | create i => Function.update live i true
  | use _ => live
  | destroy i => Function.update live i false

/-- Only what is alive is used or ends, and only what is not comes to life. -/
def Event.Allowed (live : ι → Bool) : Event ι → Prop
  | create i => live i = false
  | use i => live i = true
  | destroy i => live i = true

instance (live : ι → Bool) (e : Event ι) : Decidable (e.Allowed live) := by
  cases e <;> exact inferInstanceAs (Decidable (_ = _))

/-- Whether each object is alive at the end of a record. -/
def liveAfter (live : ι → Bool) (es : List (Event ι)) : ι → Bool := es.foldl Event.after live

/-- Every event of the record was allowed when it happened. -/
def Disciplined : (ι → Bool) → List (Event ι) → Prop
  | _, [] => True
  | live, e :: es => e.Allowed live ∧ Disciplined (e.after live) es

instance decidableDisciplined : (live : ι → Bool) → (es : List (Event ι)) →
    Decidable (Disciplined live es)
  | _, [] => isTrue trivial
  | live, e :: es =>
    have := decidableDisciplined (e.after live) es
    inferInstanceAs (Decidable (e.Allowed live ∧ Disciplined (e.after live) es))

/-- Nothing is alive yet. -/
def nothing (_ : ι) : Bool := false

@[simp] theorem liveAfter_append (live : ι → Bool) (es es' : List (Event ι)) :
    liveAfter live (es ++ es') = liveAfter (liveAfter live es) es' := List.foldl_append

@[simp] theorem liveAfter_singleton (live : ι → Bool) (e : Event ι) :
    liveAfter live [e] = e.after live := rfl

theorem disciplined_append {live : ι → Bool} {es es' : List (Event ι)} :
    Disciplined live (es ++ es') ↔ Disciplined live es ∧ Disciplined (liveAfter live es) es' := by
  induction es generalizing live with
  | nil => exact ⟨fun h => ⟨trivial, h⟩, fun h => h.2⟩
  | cons e es ih =>
    rw [List.cons_append, Disciplined, Disciplined, ih, and_assoc]
    rfl

theorem disciplined_concat {live : ι → Bool} {es : List (Event ι)} {e : Event ι} :
    Disciplined live (es ++ [e]) ↔ Disciplined live es ∧ e.Allowed (liveAfter live es) := by
  rw [disciplined_append]
  exact and_congr_right fun _ => ⟨fun h => h.1, fun h => ⟨h, trivial⟩⟩

end Lifetime
