import Mathlib.Tactic

/-! The layers of a network over integers of eight bits: sums of products, scaled by a real factor and
rounded, and maxima. -/
namespace QuantizedLayers

/-- The closest value of eight bits. -/
def saturate (v : ℤ) : ℤ := max (-128) (min 127 v)

/-- The product with `multiplier / 2^31 / 2^shift`, rounded. -/
def scale (multiplier : ℤ) (shift : ℕ) (v : ℤ) : ℤ := round ((v*multiplier : ℤ)/(2^(31+shift) : ℕ) : ℚ)

def requantize (multiplier : ℤ) (shift : ℕ) (zeroPoint v : ℤ) : ℤ :=
  saturate (zeroPoint+scale multiplier shift v)

/-- An image with zeros around it. -/
def padded (top left height width : ℕ) (x : ℕ → ℕ → ℤ) (i j : ℕ) : ℤ :=
  if top ≤ i ∧ i < top+height ∧ left ≤ j ∧ j < left+width then x (i-top) (j-left) else 0

/-- A kernel of some channels at a position of an image. -/
def convolution (channels rows cols : ℕ) (x weights : ℕ → ℕ → ℕ → ℤ) (i j : ℕ) : ℤ :=
  ∑ c ∈ Finset.range channels, ∑ k ∈ Finset.range rows, ∑ l ∈ Finset.range cols,
    x c (i+k) (j+l)*weights c k l

def dense (n : ℕ) (x weights : ℕ → ℤ) : ℤ := ∑ k ∈ Finset.range n, x k*weights k

theorem window_nonempty (rows cols : ℕ) :
    (Finset.range (rows+1) ×ˢ Finset.range (cols+1)).Nonempty := by
  simp only [Finset.nonempty_product, Finset.nonempty_range_iff]
  omega

/-- The maximum of `rows+1` rows of `cols+1` values. -/
def maxPool (rows cols : ℕ) (x : ℕ → ℕ → ℤ) : ℤ :=
  (Finset.range (rows+1) ×ˢ Finset.range (cols+1)).sup' (window_nonempty rows cols) fun p => x p.1 p.2

theorem saturate_bounds (v : ℤ) : -128 ≤ saturate v ∧ saturate v ≤ 127 := by
  rw [saturate]
  omega

theorem abs_sum_range_le {n : ℕ} {f : ℕ → ℤ} {C : ℤ} (h : ∀ i < n, |f i| ≤ C) :
    |∑ i ∈ Finset.range n, f i| ≤ n*C := by
  calc |∑ i ∈ Finset.range n, f i| ≤ ∑ i ∈ Finset.range n, |f i| := Finset.abs_sum_le_sum_abs _ _
    _ ≤ (Finset.range n).card • C :=
      Finset.sum_le_card_nsmul _ _ _ fun i hi => h i (Finset.mem_range.mp hi)
    _ = n*C := by rw [Finset.card_range, nsmul_eq_mul]

theorem abs_padded_le {top left height width : ℕ} {x : ℕ → ℕ → ℤ} {C : ℤ} (hC : 0 ≤ C)
    (hx : ∀ i < height, ∀ j < width, |x i j| ≤ C) (i j : ℕ) :
    |padded top left height width x i j| ≤ C := by
  rw [padded]
  split
  case isTrue h => exact hx (i-top) (by omega) (j-left) (by omega)
  case isFalse h => rwa [abs_zero]

/-- Half of the divisor is added before a division that rounds down. -/
theorem scale_eq_ediv (multiplier : ℤ) (shift : ℕ) (v : ℤ) :
    scale multiplier shift v = (v*multiplier+2^(30+shift))/2^(31+shift) := by
  have hpow : (2 : ℚ)^(31+shift) = 2*2^(30+shift) := by ring
  have hne : (2 : ℚ)^(30+shift) ≠ 0 := by positivity
  have hsum : ((v*multiplier : ℤ)/(2^(31+shift) : ℕ) : ℚ)+1/2 =
      ((v*multiplier+2^(30+shift) : ℤ) : ℚ)/(2^(31+shift) : ℕ) := by
    push_cast
    rw [hpow]
    field_simp
  rw [scale, round_eq, hsum, Rat.floor_intCast_div_natCast]
  push_cast
  rfl

theorem abs_scale_le {multiplier : ℤ} (h : |multiplier| ≤ 2^31) (shift : ℕ) (v : ℤ) :
    |scale multiplier shift v| ≤ |v| := by
  let x : ℚ := (v*multiplier : ℤ)/(2^(31+shift) : ℕ)
  have hx : |x| ≤ |v| := by
    have hpos : (0 : ℚ) < (2^(31+shift) : ℕ) := by positivity
    have hpow : (2^31 : ℚ) ≤ (2^(31+shift) : ℕ) := by
      push_cast
      exact pow_le_pow_right₀ (by norm_num) (by omega)
    have hm : |(multiplier : ℚ)| ≤ (2^(31+shift) : ℕ) := le_trans (by exact_mod_cast h) hpow
    rw [abs_div, abs_of_pos hpos, div_le_iff₀ hpos]
    push_cast
    rw [abs_mul]
    exact mul_le_mul_of_nonneg_left (by exact_mod_cast hm) (abs_nonneg _)
  have hround := abs_sub_round x
  have hlt : (|round x| : ℚ) < |v|+1 := by
    have htri : |(round x : ℚ)| ≤ |x|+|x-round x| := by
      have := abs_sub_abs_le_abs_sub (round x : ℚ) x
      rw [abs_sub_comm] at this
      linarith
    linarith
  have hint : |round x| < |v|+1 := by exact_mod_cast hlt
  show |round x| ≤ |v|
  omega

/-- Channels in groups of `n`. -/
theorem sum_range_mul (m n : ℕ) (f : ℕ → ℤ) :
    ∑ c ∈ Finset.range (m*n), f c = ∑ g ∈ Finset.range m, ∑ b ∈ Finset.range n, f (g*n+b) := by
  induction m with
  | zero => rw [zero_mul, Finset.sum_range_zero, Finset.sum_range_zero]
  | succ m ih => rw [Nat.succ_mul, Finset.sum_range_add, ih, Finset.sum_range_succ]

theorem abs_convolution_le {channels rows cols : ℕ} {x weights : ℕ → ℕ → ℕ → ℤ} {i j : ℕ} {C : ℤ}
    (h : ∀ c < channels, ∀ k < rows, ∀ l < cols, |x c (i+k) (j+l)*weights c k l| ≤ C) :
    |convolution channels rows cols x weights i j| ≤ channels*(rows*(cols*C)) := by
  have hrow : ∀ c < channels, ∀ k < rows,
      |∑ l ∈ Finset.range cols, x c (i+k) (j+l)*weights c k l| ≤ cols*C := by
    intro c hc k hk
    apply abs_sum_range_le
    exact h c hc k hk
  apply abs_sum_range_le
  intro c hc
  apply abs_sum_range_le
  exact hrow c hc

theorem abs_dense_le {n : ℕ} {x weights : ℕ → ℤ} {C : ℤ} (h : ∀ k < n, |x k*weights k| ≤ C) :
    |dense n x weights| ≤ n*C :=
  abs_sum_range_le h

theorem maxPool_le_iff {rows cols : ℕ} {x : ℕ → ℕ → ℤ} {v : ℤ} :
    maxPool rows cols x ≤ v ↔ ∀ i < rows+1, ∀ j < cols+1, x i j ≤ v := by
  rw [maxPool, Finset.sup'_le_iff]
  constructor
  · intro h i hi j hj
    exact h (i, j) (Finset.mem_product.mpr ⟨Finset.mem_range.mpr hi, Finset.mem_range.mpr hj⟩)
  · intro h p hp
    rw [Finset.mem_product, Finset.mem_range, Finset.mem_range] at hp
    exact h p.1 hp.1 p.2 hp.2

/-! ### What a layer reads of its input -/

theorem padded_congr {top left height width : ℕ} {x x' : ℕ → ℕ → ℤ}
    (h : ∀ i < height, ∀ j < width, x i j = x' i j) (i j : ℕ) :
    padded top left height width x i j = padded top left height width x' i j := by
  rw [padded, padded]
  by_cases hinside : top ≤ i ∧ i < top+height ∧ left ≤ j ∧ j < left+width
  · rw [if_pos hinside, if_pos hinside]
    exact h (i-top) (by omega) (j-left) (by omega)
  · rw [if_neg hinside, if_neg hinside]

theorem convolution_congr {channels rows cols : ℕ} {x x' : ℕ → ℕ → ℕ → ℤ} (weights : ℕ → ℕ → ℕ → ℤ)
    (h : ∀ c < channels, ∀ i j, x c i j = x' c i j) (i j : ℕ) :
    convolution channels rows cols x weights i j = convolution channels rows cols x' weights i j := by
  apply Finset.sum_congr rfl
  intro c hc
  apply Finset.sum_congr rfl
  intro k _
  apply Finset.sum_congr rfl
  intro l _
  rw [h c (Finset.mem_range.mp hc)]

theorem dense_congr {n : ℕ} {x x' : ℕ → ℤ} (weights : ℕ → ℤ) (h : ∀ k < n, x k = x' k) :
    dense n x weights = dense n x' weights := by
  apply Finset.sum_congr rfl
  intro k hk
  rw [h k (Finset.mem_range.mp hk)]

theorem maxPool_congr {rows cols : ℕ} {x x' : ℕ → ℕ → ℤ}
    (h : ∀ i < rows+1, ∀ j < cols+1, x i j = x' i j) : maxPool rows cols x = maxPool rows cols x' := by
  apply Finset.sup'_congr _ rfl
  intro p hp
  rw [Finset.mem_product, Finset.mem_range, Finset.mem_range] at hp
  exact h p.1 hp.1 p.2 hp.2

end QuantizedLayers
