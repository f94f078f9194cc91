import Mathlib.Tactic

/-! Cutting a list into pieces of one size, and offering the pieces to a store of
limited room that takes a piece whole or leaves it. -/
namespace Chunks

variable {α : Type*}

/-- Consecutive pieces of `size` elements; the last one may be shorter. -/
def chunks (size : ℕ) (xs : List α) : List (List α) :=
  if xs = [] ∨ size = 0 then [] else xs.take size :: chunks size (xs.drop size)
termination_by xs.length
decreasing_by
  rename_i h
  have hx : 0 < xs.length := List.length_pos_iff.mpr fun hx => h (Or.inl hx)
  simp only [List.length_drop]
  omega

@[simp] theorem chunks_nil (size : ℕ) : chunks size ([] : List α) = [] := by
  rw [chunks]
  simp only [true_or, ↓reduceIte]

theorem chunks_cons (size : ℕ) (hs : 0 < size) (xs : List α) (hx : xs ≠ []) :
    chunks size xs = xs.take size :: chunks size (xs.drop size) := by
  rw [chunks, if_neg]
  intro hor
  rcases hor with h | h
  · exact hx h
  · omega

theorem chunks_of_le (size : ℕ) (xs : List α) (hx : xs ≠ []) (hl : xs.length ≤ size) :
    chunks size xs = [xs] := by
  have hs : 0 < size := (List.length_pos_iff.mpr hx).trans_le hl
  rw [chunks_cons size hs xs hx, List.take_of_length_le hl, List.drop_of_length_le hl, chunks_nil]

theorem flatten_chunks (size : ℕ) (hs : 0 < size) (xs : List α) :
    (chunks size xs).flatten = xs := by
  induction xs using chunks.induct size with
  | case1 xs h =>
    obtain rfl : xs = [] := by
      rcases h with h | h
      · exact h
      · omega
    rw [chunks_nil, List.flatten_nil]
  | case2 xs h ih =>
    rw [chunks_cons size hs xs fun hx => h (Or.inl hx), List.flatten_cons, ih, List.take_append_drop]

/-- All pieces are full but the last, which holds the remainder if there is one. -/
theorem map_length_chunks (size : ℕ) (hs : 0 < size) (xs : List α) :
    (chunks size xs).map List.length =
      List.replicate (xs.length/size) size ++
        (if xs.length%size = 0 then [] else [xs.length%size]) := by
  induction xs using chunks.induct size with
  | case1 xs h =>
    obtain rfl : xs = [] := by
      rcases h with h | h
      · exact h
      · omega
    simp only [chunks_nil, List.map_nil, List.length_nil, Nat.zero_div, List.replicate_zero,
      Nat.zero_mod, ↓reduceIte, List.append_nil]
  | case2 xs h ih =>
    have hx : xs ≠ [] := fun hx => h (Or.inl hx)
    rcases Nat.lt_or_ge xs.length size with hl | hl
    · -- All that is left is one short piece.
      have hpos : xs.length ≠ 0 := fun h0 => hx (List.length_eq_zero_iff.mp h0)
      rw [chunks_of_le size xs hx hl.le, Nat.div_eq_of_lt hl, Nat.mod_eq_of_lt hl, if_neg hpos]
      rfl
    · -- A full piece comes off, and the quotient goes down by one.
      have hlen : xs.length = (xs.drop size).length+size := by
        rw [List.length_drop]
        omega
      have hdiv : xs.length/size = (xs.drop size).length/size+1 := by
        rw [hlen, Nat.add_div_right _ hs]
      have hmod : xs.length%size = (xs.drop size).length%size := by
        rw [hlen, Nat.add_mod_right]
      rw [chunks_cons size hs xs hx, List.map_cons, ih, List.length_take, min_eq_left hl, hdiv, hmod,
        List.replicate_succ, List.cons_append]

/-! ### A store with limited room -/

/-- Offer a piece of `n` elements: whether it was taken, and the room left. -/
def offer (s : Bool × ℕ) (n : ℕ) : Bool × ℕ :=
  if n ≤ s.2 then (true, s.2-n) else (false, s.2)

/-- While everything offered fits, everything is taken. -/
theorem offers_fit (sizes : List ℕ) (b : Bool) (room : ℕ) (h : sizes.sum ≤ room) :
    sizes.foldl offer (b, room) = (b || !sizes.isEmpty, room-sizes.sum) := by
  induction sizes generalizing b room with
  | nil => simp only [List.foldl_nil, List.isEmpty_nil, Bool.not_true, Bool.or_false,
      List.sum_nil, Nat.sub_zero]
  | cons n sizes ih =>
    rw [List.sum_cons] at h
    have hn : offer (b, room) n = (true, room-n) := if_pos (show n ≤ room by omega)
    rw [List.foldl_cons, hn, ih true (room-n) (by omega), List.sum_cons, List.isEmpty_cons,
      Bool.not_false, Bool.true_or, Bool.or_true, Nat.sub_sub]

/-- Full pieces are taken until the room left is smaller than one of them. -/
theorem offers_replicate (size : ℕ) (hs : 0 < size) (count : ℕ) (b : Bool) (room : ℕ) :
    (List.replicate count size).foldl offer (b, room) =
      (if count = 0 then b else decide (count ≤ room/size), room-min count (room/size)*size) := by
  induction count generalizing b room with
  | zero => simp only [List.replicate_zero, List.foldl_nil, ↓reduceIte, Nat.zero_min, Nat.zero_mul,
      Nat.sub_zero]
  | succ count ih =>
    rw [List.replicate_succ, List.foldl_cons, if_neg (Nat.succ_ne_zero count)]
    rcases Nat.lt_or_ge room size with hr | hr
    · -- The first piece does not fit, and neither does any other.
      have hn : offer (b, room) size = (false, room) := if_neg (by simpa using hr)
      have hz : room/size = 0 := Nat.div_eq_of_lt hr
      rw [hn, ih, hz, Nat.min_zero, Nat.min_zero, Nat.zero_mul, Nat.sub_zero]
      rcases Nat.eq_zero_or_pos count with h0 | h0
      · rw [if_pos h0]
        simp
      · rw [if_neg (by omega)]
        simp
        omega
    · -- The first piece is taken, and the room holds one full piece less.
      have hn : offer (b, room) size = (true, room-size) := if_pos hr
      have hd : room/size = (room-size)/size+1 := by
        conv_lhs => rw [show room = room-size+size by omega, Nat.add_div_right _ hs]
      rw [hn, ih, hd]
      have hmin : min (count+1) ((room-size)/size+1) = min count ((room-size)/size)+1 := by omega
      rw [hmin, Nat.add_mul, Nat.one_mul, Nat.add_comm _ size, Nat.sub_sub]
      refine Prod.ext ?_ rfl
      rcases Nat.eq_zero_or_pos count with h0 | h0
      · rw [if_pos h0, h0]
        simp
      · rw [if_neg (by omega)]
        simp

/-- More than fits was offered in pieces: the full pieces fill the room up to its remainder, and
only the short last one can still be taken. -/
theorem offers_overflow (size : ℕ) (hs : 0 < size) (xs : List α) (b : Bool) (room : ℕ)
    (h : room < xs.length) :
    ((chunks size xs).map List.length).foldl offer (b, room) =
      if 0 < xs.length%size ∧ xs.length%size ≤ room%size
      then (true, room%size-xs.length%size) else (false, room%size) := by
  have hx := Nat.div_add_mod xs.length size
  have hr := Nat.div_add_mod room size
  have hxm := Nat.mod_lt xs.length hs
  have hrm := Nat.mod_lt room hs
  have hle : room/size ≤ xs.length/size := Nat.div_le_div_right h.le
  have hroom : room-room/size*size = room%size := by
    rw [Nat.mul_comm]
    omega
  rw [map_length_chunks size hs, List.foldl_append, offers_replicate size hs, min_eq_right hle, hroom]
  by_cases h0 : xs.length%size = 0
  · -- No short piece: more full pieces were offered than the room has.
    have hlt : room/size < xs.length/size := by
      rcases hle.lt_or_eq with hlt | heq
      · exact hlt
      · rw [heq] at hr
        omega
    have hq : xs.length/size ≠ 0 := Nat.ne_zero_of_lt hlt
    have hz : ¬ (0 < xs.length%size ∧ xs.length%size ≤ room%size) := fun hc => hc.1.ne' h0
    rw [if_pos h0, List.foldl_nil, if_neg hq, if_neg hz]
    exact Prod.ext (decide_eq_false hlt.not_ge) rfl
  · -- The short piece is offered what the full ones left.
    rw [if_neg h0, List.foldl_cons, List.foldl_nil]
    by_cases hfit : xs.length%size ≤ room%size
    · rw [if_pos (⟨Nat.pos_of_ne_zero h0, hfit⟩ : 0 < xs.length%size ∧ _)]
      exact if_pos hfit
    · rw [if_neg (fun hc => hfit hc.2 : ¬ (0 < xs.length%size ∧ _))]
      exact if_neg hfit

end Chunks
