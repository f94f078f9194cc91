import Mathlib.Tactic

/-! Traces that grow at the end: what has happened and was not undone since, and whether every
element comes in order after those before it. -/
namespace Trace

variable {α : Type*}

/-- An element with `p` is in the trace, and none with `q` behind it. -/
def Since (p q : α → Prop) (xs : List α) : Prop :=
  ∃ before e after, xs = before ++ e :: after ∧ p e ∧ ∀ f ∈ after, ¬ q f

/-- Every element is in the relation `R` to what comes before it. -/
def Always (R : List α → α → Prop) (xs : List α) : Prop :=
  ∀ before e after, xs = before ++ e :: after → R before e

variable {p q : α → Prop} {R : List α → α → Prop} {xs : List α} {e : α}

theorem Since.last (xs : List α) (h : p e) : Since p q (xs ++ [e]) :=
  ⟨xs, e, [], rfl, h, fun _ hf => absurd hf List.not_mem_nil⟩

theorem Since.concat (h : Since p q xs) (hq : ¬ q e) : Since p q (xs ++ [e]) := by
  obtain ⟨before, e', after, rfl, hp, hafter⟩ := h
  refine ⟨before, e', after ++ [e], by rw [List.append_assoc, List.cons_append], hp, ?_⟩
  intro f hf
  rcases List.mem_append.mp hf with hf | hf
  · exact hafter f hf
  · rw [List.mem_singleton.mp hf]
    exact hq

theorem always_nil : Always R [] := by
  intro before e after h
  exact absurd h (List.append_ne_nil_of_right_ne_nil _ (List.cons_ne_nil _ _)).symm

theorem Always.concat (h : Always R xs) (he : R xs e) : Always R (xs ++ [e]) := by
  intro before f after hsplit
  -- The element is the last one, or one of those before it.
  rcases List.eq_nil_or_concat after with rfl | ⟨after, g, rfl⟩
  · obtain ⟨rfl, hef⟩ := List.append_inj' hsplit rfl
    obtain rfl := List.singleton_injective hef
    exact he
  · have hsplit' : xs ++ [e] = (before ++ f :: after) ++ [g] := by
      rw [hsplit, List.concat_eq_append, List.append_assoc, List.cons_append]
    obtain ⟨hxs, -⟩ := List.append_inj' hsplit' rfl
    exact h before f after hxs

end Trace
