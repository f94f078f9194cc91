import Mathlib.Data.List.Perm.Basic
import Mathlib.Tactic

/-! References that are handed out under the numbers 0, 1, 2, …: each is given back once, or still held
in one place. -/
namespace Ownership

/-- Of the first `issued` references each was either released once or is held once, and there are no
others. -/
def Accounted (issued : ℕ) (released held : List ℕ) : Prop :=
  (released ++ held).Perm (List.range issued)

instance (issued : ℕ) (released held : List ℕ) : Decidable (Accounted issued released held) :=
  inferInstanceAs (Decidable (List.Perm _ _))

namespace Accounted

variable {issued : ℕ} {released held held' : List ℕ}

theorem initial : Accounted 0 [] [] := List.Perm.refl _

theorem perm (h : Accounted issued released held) (hp : held.Perm held') :
    Accounted issued released held' := (hp.symm.append_left released).trans h

/-- One more reference, which is held. -/
theorem acquire (h : Accounted issued released held) :
    Accounted (issued+1) released (held ++ [issued]) := by
  rw [Accounted, List.range_succ, ← List.append_assoc]
  exact h.append_right _

/-- References that are given back are not held any more. -/
theorem release {given : List ℕ} (h : Accounted issued released (given ++ held)) :
    Accounted issued (released ++ given) held := by
  rw [Accounted, List.append_assoc]
  exact h

/-- The same, wherever among the others they are held. -/
theorem release_of_perm {given : List ℕ} (h : Accounted issued released held)
    (hp : held.Perm (given ++ held')) : Accounted issued (released ++ given) held' :=
  (h.perm hp).release

/-- It is enough to count. -/
theorem of_count (h : Accounted issued released held) (hc : ∀ r, held.count r = held'.count r) :
    Accounted issued released held' := h.perm (List.perm_iff_count.mpr hc)

theorem release_of_count {given : List ℕ} (h : Accounted issued released held)
    (hc : ∀ r, held.count r = given.count r+held'.count r) :
    Accounted issued (released ++ given) held' := by
  apply h.release_of_perm
  apply List.perm_iff_count.mpr
  intro r
  rw [List.count_append]
  exact hc r

theorem release_all (h : Accounted issued released held) :
    Accounted issued (released ++ held) [] := by
  apply release
  rw [List.append_nil]
  exact h

theorem length_add (h : Accounted issued released held) : released.length+held.length = issued := by
  have hlength := h.length_eq
  rwa [List.length_append, List.length_range] at hlength

/-- As long as there is anything else to account for, the rest is not all that there is. -/
theorem eq_nil_of_append {rest : List ℕ} (h : Accounted issued released (held ++ rest))
    (hall : Accounted issued released held) : rest = [] := by
  have hlength := h.length_add
  have hlength' := hall.length_add
  rw [List.length_append] at hlength
  exact List.eq_nil_of_length_eq_zero (by omega)

end Accounted

end Ownership
