import Mathlib.Tactic

/-! Overwriting a stretch of a memory, and looking at one component of a state. -/
namespace Memory

variable {α : Type*}

/-- `mem` with `src` copied over it from position `off` on. -/
def splice (mem : List α) (off : ℕ) (src : List α) : List α :=
  mem.take off ++ src ++ mem.drop (off+src.length)

theorem length_splice {mem src : List α} {off : ℕ} (h : off+src.length ≤ mem.length) :
    (splice mem off src).length = mem.length := by
  simp only [splice, List.length_append, List.length_take, List.length_drop]
  omega

@[simp] theorem splice_nil (mem : List α) (off : ℕ) : splice mem off [] = mem := by
  simp only [splice, List.append_nil, List.length_nil, Nat.add_zero, List.take_append_drop]

theorem take_splice {mem src : List α} {off : ℕ} (h : off+src.length ≤ mem.length) :
    (splice mem off src).take (off+src.length) = mem.take off ++ src := by
  have hlen : (mem.take off ++ src).length = off+src.length := by
    simp only [List.length_append, List.length_take]
    omega
  rw [splice, ← hlen, List.take_left]

theorem drop_splice {mem src : List α} {off : ℕ} (h : off+src.length ≤ mem.length) :
    (splice mem off src).drop (off+src.length) = mem.drop (off+src.length) := by
  have hlen : (mem.take off ++ src).length = off+src.length := by
    simp only [List.length_append, List.length_take]
    omega
  rw [splice]
  conv_lhs => rw [← hlen, List.drop_left, hlen]

/-- An assignment to one element, and a copy behind it, are one copy. -/
theorem splice_set {mem : List α} {off : ℕ} (h : off < mem.length) (a : α) (src : List α) :
    splice (mem.set off a) (off+1) src = splice mem off (a :: src) := by
  have hset : mem.set off a = mem.take off ++ a :: mem.drop (off+1) := by
    rw [List.set_eq_take_append_cons_drop, if_pos h]
  have hlen : (mem.take off ++ [a]).length = off+1 := by
    rw [List.length_append, List.length_take, min_eq_left h.le]
    rfl
  have htake : (mem.set off a).take (off+1) = mem.take off ++ [a] := by
    rw [hset, ← List.singleton_append, ← List.append_assoc, ← hlen, List.take_left]
  have hdrop : (mem.set off a).drop (off+1+src.length) = mem.drop (off+(a :: src).length) := by
    rw [← List.drop_drop, hset, ← List.singleton_append, ← List.append_assoc, ← hlen, List.drop_left,
      hlen, List.drop_drop, List.length_cons]
    congr 1
    omega
  -- Both are the memory up to `off`, the element, the source and the rest of the memory.
  rw [splice, splice, htake, hdrop, List.append_assoc, List.append_assoc, List.append_assoc]
  rfl

theorem set_splice {mem : List α} {off : ℕ} (h : off < mem.length) (a : α) (src : List α) :
    (splice mem (off+1) src).set off a = splice mem off (a :: src) := by
  have hlt : off < (splice mem (off+1) src).length := by
    simp only [splice, List.length_append, List.length_take]
    omega
  have htake : (splice mem (off+1) src).take off = mem.take off := by
    rw [splice, List.append_assoc, List.take_append_of_le_length (by rw [List.length_take]; omega),
      List.take_take, min_eq_left (Nat.le_succ off)]
  have hdrop : (splice mem (off+1) src).drop (off+1) = src ++ mem.drop (off+1+src.length) := by
    have hlen : (mem.take (off+1)).length = off+1 := by
      rw [List.length_take, min_eq_left h]
    rw [splice, List.append_assoc, List.drop_append_of_le_length hlen.ge, List.drop_of_length_le hlen.le]
    rfl
  have hrest : off+1+src.length = off+(a :: src).length := by
    rw [List.length_cons]
    omega
  rw [List.set_eq_take_append_cons_drop, if_pos hlt, htake, hdrop, hrest, splice, List.append_assoc]
  rfl

theorem take_splice_le {mem src : List α} {off n : ℕ} (h : off ≤ mem.length) (hn : n ≤ src.length) :
    (splice mem off src).take (off+n) = mem.take off ++ src.take n := by
  have hlen : (mem.take off).length = off := by
    rw [List.length_take, min_eq_left h]
  rw [splice, List.append_assoc, List.take_append, List.take_of_length_le (by omega), hlen,
    Nat.add_sub_cancel_left, List.take_append_of_le_length hn]

/-- What is copied to the start of a memory spares the data there if and only if it agrees with them. -/
theorem take_splice_iff {mem src data : List α} (h : mem.take data.length = data) :
    (splice mem 0 src).take data.length = data ↔ src.take data.length = data.take src.length := by
  rw [splice, List.take_zero, List.nil_append, Nat.zero_add, List.take_append]
  rcases Nat.le_total data.length src.length with hle | hle
  · rw [Nat.sub_eq_zero_of_le hle, List.take_zero, List.append_nil, List.take_of_length_le hle]
  · -- Behind the source the data are still there.
    have hrest : (mem.drop src.length).take (data.length-src.length) = data.drop src.length := by
      rw [List.take_drop, Nat.add_sub_cancel' hle, h]
    have hsplit : data.take src.length ++ data.drop src.length = data := List.take_append_drop _ _
    rw [hrest, List.take_of_length_le hle]
    constructor
    · intro heq
      exact List.append_cancel_right (heq.trans hsplit.symm)
    · intro heq
      calc src ++ data.drop src.length = data.take src.length ++ data.drop src.length :=
            congrArg (· ++ _) heq
        _ = data := hsplit

/-- What comes before a filling is the same if the whole is, whatever fills it. -/
theorem append_replicate_cancel {x y : α} (hne : x ≠ y) {xs ys : List α} {a b : ℕ}
    (h : ∀ fill : α, xs ++ List.replicate a fill = ys ++ List.replicate b fill) : xs = ys := by
  have hnil {rest : List α} {a b : ℕ}
      (h : ∀ fill : α, List.replicate a fill = rest ++ List.replicate b fill) : rest = [] := by
    cases rest with
    | nil => rfl
    | cons byte rest =>
      have heq (fill : α) : byte = fill := by
        apply List.eq_of_mem_replicate (n := a)
        rw [h fill]
        exact List.mem_cons_self
      exact absurd ((heq x).symm.trans (heq y)) hne
  rcases List.append_eq_append_iff.mp (h x) with ⟨rest, rfl, -⟩ | ⟨rest, rfl, -⟩
  · have hrest := hnil fun fill => by
      have hfill := h fill
      rwa [List.append_assoc, List.append_cancel_left_eq] at hfill
    rw [hrest, List.append_nil]
  · have hrest := hnil fun fill => by
      have hfill := (h fill).symm
      rwa [List.append_assoc, List.append_cancel_left_eq] at hfill
    rw [hrest, List.append_nil]

end Memory

/-- A component `S` of a state `W`, with the laws that make it one. -/
structure Lens (W S : Type*) where
  get : W → S
  set : W → S → W
  get_set : ∀ w s, get (set w s) = s
  set_get : ∀ w, set w (get w) = w
  set_set : ∀ w s s', set (set w s) s' = set w s'

namespace Lens

variable {W S T : Type*}

attribute [simp] get_set set_get set_set

/-- The whole state. -/
def whole (W : Type*) : Lens W W where
  get w := w
  set _ w := w
  get_set _ _ := rfl
  set_get _ := rfl
  set_set _ _ _ := rfl

/-- The first of two components. -/
@[simps] def fst (S T : Type*) : Lens (S × T) S where
  get w := w.1
  set w s := (s, w.2)
  get_set _ _ := rfl
  set_get _ := rfl
  set_set _ _ _ := rfl

end Lens
