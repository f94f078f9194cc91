import Mathlib.Tactic

/-! Slices of a buffer, one after the other. -/
namespace Slices

/-- The bytes from an offset on. -/
structure Slice where
  offset : ℕ
  size : ℕ
deriving DecidableEq, Repr

def Slice.Contains (s : Slice) (p : ℕ) : Prop := s.offset ≤ p ∧ p < s.offset+s.size

/-- Every one of the first `n` bytes is in exactly one of the slices, and no other byte is in any. -/
structure Tiles (n : ℕ) (slices : List Slice) : Prop where
  disjoint : slices.Pairwise fun s t => ∀ p, s.Contains p → ¬ t.Contains p
  covers : ∀ p, p < n ↔ ∃ s ∈ slices, s.Contains p

/-- Slices tile one number of bytes only. -/
theorem Tiles.unique {n m : ℕ} {slices : List Slice} (h : Tiles n slices) (h' : Tiles m slices) :
    n = m := by
  have hiff (p : ℕ) : p < n ↔ p < m := (h.covers p).trans (h'.covers p).symm
  have hn := hiff n
  have hm := hiff m
  omega

/-- Slices of these sizes that follow each other, from an offset on. -/
def consecutive : ℕ → List ℕ → List Slice
  | _, [] => []
  | offset, size :: sizes => ⟨offset, size⟩ :: consecutive (offset+size) sizes

theorem consecutive_covers (sizes : List ℕ) (offset p : ℕ) :
    (∃ s ∈ consecutive offset sizes, s.Contains p) ↔ offset ≤ p ∧ p < offset+sizes.sum := by
  induction sizes generalizing offset with
  | nil =>
    constructor
    · intro h
      obtain ⟨s, hs, -⟩ := h
      exact absurd hs List.not_mem_nil
    · intro h
      have hend : p < offset := h.2
      omega
  | cons size sizes ih =>
    rw [consecutive, List.exists_mem_cons_iff, ih, Slice.Contains, List.sum_cons]
    simp only
    omega

theorem consecutive_disjoint (sizes : List ℕ) (offset : ℕ) :
    (consecutive offset sizes).Pairwise fun s t => ∀ p, s.Contains p → ¬ t.Contains p := by
  induction sizes generalizing offset with
  | nil => exact List.Pairwise.nil
  | cons size sizes ih =>
    refine List.Pairwise.cons ?_ (ih _)
    -- What comes later starts where this slice ends.
    intro t ht p hp htp
    have hlater := ((consecutive_covers sizes (offset+size) p).mp ⟨t, ht, htp⟩).1
    have hend : p < offset+size := hp.2
    omega

theorem tiles_consecutive (sizes : List ℕ) : Tiles sizes.sum (consecutive 0 sizes) := by
  refine ⟨consecutive_disjoint sizes 0, ?_⟩
  intro p
  rw [consecutive_covers, Nat.zero_add]
  exact (and_iff_right (Nat.zero_le p)).symm

/-- Slice `i` starts at the sum of the sizes before it. -/
theorem consecutive_map_range (f : ℕ → ℕ) (n offset : ℕ) :
    consecutive offset ((List.range n).map f) =
      (List.range n).map fun i => ⟨offset+∑ k ∈ Finset.range i, f k, f i⟩ := by
  induction n generalizing f offset with
  | zero => rfl
  | succ n ih =>
    rw [List.range_succ_eq_map, List.map_cons, List.map_map, consecutive, ih, List.map_cons,
      List.map_map, Finset.range_zero, Finset.sum_empty, Nat.add_zero]
    congr 1
    apply List.map_congr_left
    intro i _
    simp only [Function.comp_apply, Finset.sum_range_succ']
    rw [Nat.add_right_comm, Nat.add_assoc]

theorem tiles_map_range (f : ℕ → ℕ) (n : ℕ) : Tiles (∑ i ∈ Finset.range n, f i)
    ((List.range n).map fun i => ⟨∑ k ∈ Finset.range i, f k, f i⟩) := by
  have htiles := tiles_consecutive ((List.range n).map f)
  rw [consecutive_map_range] at htiles
  simp only [Nat.zero_add] at htiles
  exact htiles

end Slices
