import KenningRuntime.Library.QuantizedLayers
import KenningRuntime.TvmOperators

/-! What the convolutions of the int8 model compute. -/
namespace KenningRuntime.MagicWandInt8
open CountedLoops CountedLoops.IntArray QuantizedLayers

theorem clip_eq_saturate (v : ℤ) : clip v = saturate v := by
  rw [clip, saturate]
  split <;> split <;> omega

theorem requantize_fits (multiplier : ℤ) (shift : ℕ) (zeroPoint v : ℤ) :
    Fits 8 (requantize multiplier shift zeroPoint v) := by
  have h := saturate_bounds (zeroPoint+scale multiplier shift v)
  exact ⟨h.1, Int.lt_add_one_of_le h.2⟩

/-- Within these bounds no step overflows, and the result is the scaled and rounded number. -/
theorem fixedPointMultiply_eq {v multiplier shift : ℤ} (hv : |v| ≤ 2^30) (hm : Fits 32 multiplier)
    (hshift : 0 ≤ shift ∧ shift ≤ 31) :
    fixedPointMultiply v multiplier shift = some (scale multiplier shift.toNat v) := by
  obtain ⟨n, rfl⟩ := Int.eq_ofNat_of_zero_le hshift.1
  have hn : n ≤ 31 := by omega
  have hm' : |multiplier| ≤ 2^31 := abs_le.mpr ⟨hm.1, hm.2.le⟩
  have hproduct : |v*multiplier| ≤ 2^61 := by
    rw [abs_mul]
    calc |v| * |multiplier| ≤ 2^30*2^31 := mul_le_mul hv hm' (abs_nonneg _) (by norm_num)
      _ = 2^61 := by norm_num
  have hhalf : (2 : ℤ)^(n+30) ≤ 2^61 := pow_le_pow_right₀ (by norm_num) (by omega)
  have hhalfPos : (0 : ℤ) < 2^(n+30) := by positivity
  -- What is checked on the way, step by step.
  rw [abs_le] at hproduct
  have hfitsProduct : Fits 64 (v*multiplier) := ⟨by norm_num; linarith, by norm_num; linarith⟩
  have hfitsHalf : Fits 64 ((2 : ℤ)^(n+30)) := ⟨by norm_num; linarith, by norm_num; linarith⟩
  have hfitsSum : Fits 64 (v*multiplier+2^(n+30)) := ⟨by norm_num; linarith, by norm_num; linarith⟩
  have hfitsBits : Fits 32 ((n : ℤ)+31) := ⟨by norm_num; omega, by norm_num; omega⟩
  have hleft : oneShiftLeft ((n : ℤ)+31-1) = some (2^(n+30)) := by
    have hto : ((n : ℤ)+31-1).toNat = n+30 := by omega
    rw [oneShiftLeft, if_pos (by omega), hto, checked_eq hfitsHalf]
  have hright : shiftRight (v*multiplier+2^(n+30)) ((n : ℤ)+31) =
      some (scale multiplier n v) := by
    have hto : ((n : ℤ)+31).toNat = 31+n := by omega
    rw [shiftRight, if_pos (by omega), hto, scale_eq_ediv, add_comm n 30]
  have hfits : Fits 32 (scale multiplier n v) :=
    fits_of_abs_lt (((abs_scale_le hm' n v).trans hv).trans_lt (by norm_num))
  simp only [fixedPointMultiply, Int.toNat_natCast, checked_eq hfitsProduct,
    checked_eq hfitsBits, hleft, checked_eq hfitsSum, hright, Option.bind_eq_bind, Option.bind_some,
    Option.pure_def, convert_eq (by norm_num : 0 < 32) hfits]

/-- The steps behind a sum of products: none of them overflows. -/
theorem requantize_steps {sum bias multiplier shift zeroPoint : ℤ} (hsum : |sum| ≤ 2^29)
    (hbias : |bias| ≤ 2^29) (hm : Fits 32 multiplier) (hshift : 0 ≤ shift ∧ shift ≤ 31)
    (hzero : |zeroPoint| ≤ 128) :
    checked 32 (sum+bias) = some (sum+bias) ∧
      fixedPointMultiply (sum+bias) multiplier shift = some (scale multiplier shift.toNat (sum+bias)) ∧
      checked 32 (zeroPoint+scale multiplier shift.toNat (sum+bias)) =
        some (zeroPoint+scale multiplier shift.toNat (sum+bias)) := by
  have hbiased : |sum+bias| ≤ 2^30 := by
    have := abs_add_le sum bias
    linarith
  have hm' : |multiplier| ≤ 2^31 := abs_le.mpr ⟨hm.1, hm.2.le⟩
  have hresult : |zeroPoint+scale multiplier shift.toNat (sum+bias)| < 2^31 := by
    have hscale := abs_scale_le hm' shift.toNat (sum+bias)
    have := abs_add_le zeroPoint (scale multiplier shift.toNat (sum+bias))
    linarith
  exact ⟨checked_eq (fits_of_abs_lt (hbiased.trans_lt (by norm_num))),
    fixedPointMultiply_eq hbiased hm hshift, checked_eq (fits_of_abs_lt hresult)⟩

/-- The parameters of the channels of a convolution. -/
structure ChannelParams (channels : ℕ) (p2 p3 p5 p6 : IntArray 32) : Prop where
  size2 : channels ≤ p2.size
  size3 : channels ≤ p3.size
  size5 : channels ≤ p5.size
  size6 : 1 ≤ p6.size
  bias : ∀ c < channels, |p2.val c| ≤ 2^29
  shift : ∀ c < channels, 0 ≤ p5.val c ∧ p5.val c ≤ 31
  zeroPoint : |p6.val 0| ≤ 128

theorem requantizeChannel_eq {channels : ℕ} {p2 p3 p5 p6 : IntArray 32}
    (h : ChannelParams channels p2 p3 p5 p6) {sum : ℤ} (hsum : |sum| ≤ 2^29) {c : ℕ}
    (hc : c < channels) :
    requantizeChannel sum p2 p3 p5 p6 c =
      some (requantize (p3.val c) (p5.val c).toNat (p6.val 0) (sum+p2.val c)) := by
  obtain ⟨hbiased, hmultiply, hresult⟩ :=
    requantize_steps hsum (h.bias c hc) (p3.val_fits c) (h.shift c hc) h.zeroPoint
  have h2 : p2.get c = some (p2.val c) := get_eq (hc.trans_le h.size2)
  have h3 : p3.get c = some (p3.val c) := get_eq (hc.trans_le h.size3)
  have h5 : p5.get c = some (p5.val c) := get_eq (hc.trans_le h.size5)
  have h6 : p6.get 0 = some (p6.val 0) := get_eq h.size6
  simp only [requantizeChannel, h2, h3, h5, h6, Option.bind_eq_bind, Option.bind_some, Option.pure_def,
    hbiased, hmultiply, hresult, clip_eq_saturate, requantize]

/-! ### Sums of products -/

theorem multiplyAdd_eq {acc : IntArray 32} {c : ℕ} {x y : ℤ} (hc : c < acc.size)
    (hproduct : Fits 32 (x*y)) (hsum : Fits 32 (acc.val c+x*y)) :
    multiplyAdd acc c x y = acc.set c (acc.val c+x*y) := by
  simp only [multiplyAdd, get_eq hc, checked_eq hproduct, checked_eq hsum, Option.bind_eq_bind,
    Option.bind_some]

/-- `n` elements from `off` on. -/
theorem forRange_multiplyAdd {off n : ℕ} {x y : ℕ → ℤ} {acc : IntArray 32}
    {body : ℕ → IntArray 32 → Option (IntArray 32)} (hsize : off+n ≤ acc.size)
    (hproduct : ∀ c < n, Fits 32 (x c*y c)) (hsum : ∀ c < n, Fits 32 (acc.val (c+off)+x c*y c))
    (hbody : ∀ c < n, ∀ a : IntArray 32, body c a = multiplyAdd a (c+off) (x c) (y c)) :
    ∃ acc', forRange n acc body = some acc' ∧ acc'.size = acc.size ∧
      (∀ c < n, acc'.val (c+off) = acc.val (c+off)+x c*y c) ∧
      ∀ k, k < off ∨ off+n ≤ k → acc'.val k = acc.val k := by
  have hbound : ∀ c < n, c+off < acc.size := fun c hc => by omega
  have hinj : ∀ c < n, ∀ c' < n, c+off = c'+off → c = c' := fun c _ c' _ h => by omega
  obtain ⟨acc', hloop, hsize', hset, hothers⟩ := @forRange_set 32 n acc body (fun c => c+off)
    (fun c => acc.val (c+off)+x c*y c) (by decide) hbound hinj hsum (by
      intro c hc a hasize haval
      have hca : c+off < a.size := hasize ▸ hbound c hc
      rw [hbody c hc, multiplyAdd_eq hca (hproduct c hc) (haval ▸ hsum c hc), haval])
  refine ⟨acc', hloop, hsize', hset, fun k hk => hothers k fun c hc => ?_⟩
  omega

/-- `n` elements from `off` on. -/
theorem forRange_clear {off n : ℕ} {acc : IntArray 32}
    {body : ℕ → IntArray 32 → Option (IntArray 32)} (hsize : off+n ≤ acc.size)
    (hbody : ∀ c < n, ∀ a : IntArray 32, body c a = a.set (c+off) 0) :
    ∃ acc', forRange n acc body = some acc' ∧ acc'.size = acc.size ∧
      (∀ c < n, acc'.val (c+off) = 0) ∧ ∀ k, k < off ∨ off+n ≤ k → acc'.val k = acc.val k := by
  have hbound : ∀ c < n, c+off < acc.size := fun c hc => by omega
  have hinj : ∀ c < n, ∀ c' < n, c+off = c'+off → c = c' := fun c _ c' _ h => by omega
  have hzero : ∀ c < n, Fits 32 0 := fun _ _ => by decide
  obtain ⟨acc', hloop, hsize', hset, hothers⟩ := @forRange_set 32 n acc body (fun c => c+off)
    (fun _ => 0) (by decide) hbound hinj hzero fun c hc a _ _ => hbody c hc a
  refine ⟨acc', hloop, hsize', hset, fun k hk => hothers k fun c hc => ?_⟩
  omega

/-- The first `n` elements are differences of two values of eight bits. -/
structure Small (n : ℕ) (a : IntArray 16) : Prop where
  size : n ≤ a.size
  bound : ∀ i < n, |a.val i| ≤ 255

theorem abs_product_le {x y : ℤ} (hx : |x| ≤ 255) (hy : |y| ≤ 255) : |x*y| ≤ 65025 := by
  rw [abs_mul]
  calc |x| * |y| ≤ 255*255 := mul_le_mul hx hy (abs_nonneg _) (by norm_num)
    _ = 65025 := by norm_num

/-- `n` elements from `off` on, each with a product of one element of `x`. -/
def addBlock (n : ℕ) (x y : IntArray 16) (off pad weights : ℕ) (acc : IntArray 32) :
    Option (IntArray 32) :=
  forRange n acc fun c acc => do multiplyAdd acc (c+off) (← x.get pad) (← y.get (weights+c))

section
variable {M N n : ℕ} {x y : IntArray 16}

theorem addBlock_eq (hx : Small M x) (hy : Small N y) (off : ℕ) {pad weights : ℕ} {acc : IntArray 32}
    (hsize : off+n ≤ acc.size) (hpad : pad < M) (hweights : weights+n ≤ N)
    (hsum : ∀ c < n, Fits 32 (acc.val (c+off)+x.val pad*y.val (weights+c))) :
    ∃ acc', addBlock n x y off pad weights acc = some acc' ∧ acc'.size = acc.size ∧
      (∀ c < n, acc'.val (c+off) = acc.val (c+off)+x.val pad*y.val (weights+c)) ∧
      ∀ k, k < off ∨ off+n ≤ k → acc'.val k = acc.val k := by
  have hproduct : ∀ c < n, Fits 32 (x.val pad*y.val (weights+c)) := by
    intro c hc
    have hle := abs_product_le (hx.bound pad hpad) (hy.bound (weights+c) (by omega))
    exact fits_of_abs_lt (hle.trans_lt (by norm_num))
  have hxsize := hx.size
  have hysize := hy.size
  apply forRange_multiplyAdd hsize hproduct hsum
  intro c hc a
  have hgetx : x.get pad = some (x.val pad) := get_eq (by omega)
  have hgety : y.get (weights+c) = some (y.val (weights+c)) := get_eq (by omega)
  simp only [hgetx, hgety, Option.bind_eq_bind, Option.bind_some]

/-- Blocks one after the other, where each round has a position in `x` and one in `y`. -/
theorem forEach_addBlock {ι : Type} {l : List ι} {pad weights : ι → ℕ} {acc : IntArray 32}
    (hx : Small M x) (hy : Small N y) (hsize : n ≤ acc.size) (hzero : ∀ c < n, acc.val c = 0)
    (hpad : ∀ i ∈ l, pad i < M) (hweights : ∀ i ∈ l, weights i+n ≤ N) (hl : l.length ≤ 1000) :
    ∃ acc', forEach l acc (fun i acc => addBlock n x y 0 (pad i) (weights i) acc) = some acc' ∧
      acc'.size = acc.size ∧
      ∀ c < n, acc'.val c = (l.map fun i => x.val (pad i)*y.val (weights i+c)).sum := by
  have hterms : ∀ i ∈ l, ∀ c < n, |x.val (pad i)*y.val (weights i+c)| ≤ 65025 := by
    intro i hi c hc
    have hle := hweights i hi
    exact abs_product_le (hx.bound _ (hpad i hi)) (hy.bound _ (by omega))
  have hbound : (l.length : ℤ)*65025 < 2^31 := by
    norm_num
    omega
  apply forEach_sum hzero hterms hbound
  intro i hi a hasize hfits
  have hsize' : 0+n ≤ a.size := by omega
  obtain ⟨a', hblock, hkeeps, hset, -⟩ := addBlock_eq hx hy 0 hsize' (hpad i hi) (hweights i hi) hfits
  exact ⟨a', hblock, hkeeps.trans hasize, hset⟩

end

namespace Conv2d

variable {M N : ℕ} {dataPad dataVec : IntArray 16}

/-- The three blocks of a round of `accumulate`. Element `r` belongs to column `r/4` and channel `r%4`. -/
theorem addBlocks_eq (hx : Small M dataPad) (hy : Small N dataVec) {pad weights : ℕ} (hpad : pad+3 ≤ M)
    (hweights : weights+4 ≤ N) {acc : IntArray 32} (hacc : acc.size = 12)
    (hfits : ∀ r < 12, Fits 32 (acc.val r+dataPad.val (pad+r/4)*dataVec.val (weights+r%4))) :
    ∃ acc', (addBlock 4 dataPad dataVec 0 pad weights acc).bind (fun acc =>
        (addBlock 4 dataPad dataVec 4 (pad+1) weights acc).bind fun acc =>
          addBlock 4 dataPad dataVec 8 (pad+2) weights acc) = some acc' ∧ acc'.size = acc.size ∧
      ∀ r < 12, acc'.val r = acc.val r+dataPad.val (pad+r/4)*dataVec.val (weights+r%4) := by
  -- Accumulator `r` belongs to column `r/4` and output channel `r%4`.
  have hcell (b c : ℕ) (hc : c < 4) : (c+b*4)/4 = b ∧ (c+b*4)%4 = c := by omega
  have hfit (b : ℕ) (hb : b < 3) (c : ℕ) (hc : c < 4) :
      Fits 32 (acc.val (c+b*4)+dataPad.val (pad+b)*dataVec.val (weights+c)) := by
    have h := hfits (c+b*4) (by omega)
    rwa [(hcell b c hc).1, (hcell b c hc).2] at h
  obtain ⟨acc1, hblock1, hsize1, hset1, hkept1⟩ := @addBlock_eq M N 4 dataPad dataVec hx hy 0 pad weights
    acc (by omega) (by omega) hweights (hfit 0 (by omega))
  obtain ⟨acc2, hblock2, hsize2, hset2, hkept2⟩ := @addBlock_eq M N 4 dataPad dataVec hx hy 4 (pad+1)
    weights acc1 (by omega) (by omega) hweights (by
      intro c hc
      rw [hkept1 (c+4) (by omega)]
      exact hfit 1 (by omega) c hc)
  obtain ⟨acc3, hblock3, hsize3, hset3, hkept3⟩ := @addBlock_eq M N 4 dataPad dataVec hx hy 8 (pad+2)
    weights acc2 (by omega) (by omega) hweights (by
      intro c hc
      rw [hkept2 (c+8) (by omega), hkept1 (c+8) (by omega)]
      exact hfit 2 (by omega) c hc)
  refine ⟨acc3, ?_, by omega, fun r hr => ?_⟩
  · rw [hblock1, Option.bind_some, hblock2, Option.bind_some, hblock3]
  obtain ⟨b, c, hc, rfl⟩ : ∃ b c, c < 4 ∧ r = c+b*4 := ⟨r/4, r%4, by omega, by omega⟩
  rw [(hcell b c hc).1, (hcell b c hc).2]
  -- Each block changes its own four accumulators only.
  rcases (by omega : b = 0 ∨ b = 1 ∨ b = 2) with rfl | rfl | rfl
  · rw [hkept3 (c+0*4) (by omega), hkept2 (c+0*4) (by omega)]
    exact hset1 c hc
  · rw [hkept3 (c+1*4) (by omega), ← hkept1 (c+1*4) (by omega)]
    exact hset2 c hc
  · rw [← hkept1 (c+2*4) (by omega), ← hkept2 (c+2*4) (by omega)]
    exact hset3 c hc

theorem accumulate_eq (hx : Small 655 dataPad) (hy : Small 96 dataVec) {ax : ℕ} (hax : ax < 256)
    {acc : IntArray 32} (hacc : acc.size = 12) :
    ∃ acc', accumulate dataPad dataVec ax acc = some acc' ∧ acc'.size = 12 ∧
      ∀ t < 3, ∀ c < 4, acc'.val (t*4+c) =
        ∑ kh ∈ Finset.range 4, ∑ kw ∈ Finset.range 3,
          dataPad.val (kh*5+ax%128*5+kw+t)*dataVec.val (ax/128*48+kh*12+kw*4+c) := by
  obtain ⟨acc0, hloop0, hsize0, hclear0, -⟩ := @forRange_clear 0 4 acc (fun c a => a.set c 0)
    (by omega) fun _ _ _ => rfl
  obtain ⟨acc1, hloop1, hsize1, hclear1, hkept1⟩ := @forRange_clear 4 4 acc0 (fun c a => a.set (c+4) 0)
    (by omega) fun _ _ _ => rfl
  obtain ⟨acc2, hloop2, hsize2, hclear2, hkept2⟩ := @forRange_clear 8 4 acc1 (fun c a => a.set (c+8) 0)
    (by omega) fun _ _ _ => rfl
  have hzero : ∀ r < 12, acc2.val r = 0 := by
    intro r hr
    rcases (by omega : r < 4 ∨ (4 ≤ r ∧ r < 8) ∨ 8 ≤ r) with h | h | h
    · rw [hkept2 r (by omega), hkept1 r (by omega)]
      exact hclear0 r h
    · rw [hkept2 r (by omega)]
      have h4 := hclear1 (r-4) (by omega)
      rwa [Nat.sub_add_cancel h.1] at h4
    · have h8 := hclear2 (r-8) (by omega)
      rwa [Nat.sub_add_cancel h] at h8
  -- Where the data and the weights of a position of the kernel are.
  let pad (p : ℕ × ℕ) : ℕ := p.1*5+ax%128*5+p.2
  let weights (p : ℕ × ℕ) : ℕ := ax/128*48+p.1*12+p.2*4
  let t (p : ℕ × ℕ) (r : ℕ) : ℤ := dataPad.val (pad p+r/4)*dataVec.val (weights p+r%4)
  have hmem : ∀ p ∈ List.range 4 ×ˢ List.range 3, pad p+3 ≤ 655 ∧ weights p+4 ≤ 96 := by
    intro p hp
    rw [List.mem_product, List.mem_range, List.mem_range] at hp
    show p.1*5+ax%128*5+p.2+3 ≤ 655 ∧ ax/128*48+p.1*12+p.2*4+4 ≤ 96
    omega
  have ht : ∀ p ∈ List.range 4 ×ˢ List.range 3, ∀ r < 12, |t p r| ≤ 65025 := by
    intro p hp r hr
    obtain ⟨hpad, hweights⟩ := hmem p hp
    exact abs_product_le (hx.bound _ (by omega)) (hy.bound _ (by omega))
  have hlength : ((List.range 4 ×ˢ List.range 3).length : ℤ)*65025 < 2^31 := by decide
  -- The three blocks of four accumulators belong to three neighbouring columns.
  let round (p : ℕ × ℕ) (a : IntArray 32) : Option (IntArray 32) :=
    (addBlock 4 dataPad dataVec 0 (pad p) (weights p) a).bind fun a =>
      (addBlock 4 dataPad dataVec 4 (pad p+1) (weights p) a).bind fun a =>
        addBlock 4 dataPad dataVec 8 (pad p+2) (weights p) a
  have hround : ∀ p ∈ List.range 4 ×ˢ List.range 3, ∀ a : IntArray 32, a.size = acc2.size →
      (∀ r < 12, Fits 32 (a.val r+t p r)) →
        ∃ a', round p a = some a' ∧ a'.size = acc2.size ∧ ∀ r < 12, a'.val r = a.val r+t p r := by
    intro p hp a hasize hfits
    obtain ⟨hpad, hweights⟩ := hmem p hp
    obtain ⟨a', hblocks, hsize, hset⟩ := addBlocks_eq hx hy hpad hweights (by omega) hfits
    exact ⟨a', hblocks, hsize.trans hasize, hset⟩
  obtain ⟨acc', hloop, hsize, hsum⟩ := forEach_sum hzero ht hlength hround
  have hnest : accumulate dataPad dataVec ax acc = forEach (List.range 4 ×ˢ List.range 3) acc2 round := by
    have hrounds : forRange 4 acc2 (fun kh acc => forRange 3 acc fun kw acc => round (kh, kw) acc) =
        forEach (List.range 4 ×ˢ List.range 3) acc2 round := by
      simp only [forRange_eq_forEach, forEach_forEach]
    rw [← hrounds, accumulate]
    have h0 : (forRange 4 acc fun ocBlockCInit acc => acc.set ocBlockCInit 0) = some acc0 := hloop0
    simp only [h0, hloop1, hloop2, Option.bind_eq_bind, Option.bind_some]
    rfl
  refine ⟨acc', hnest.trans hloop, by omega, fun b hb c hc => ?_⟩
  have hcell : (b*4+c)/4 = b ∧ (b*4+c)%4 = c := by omega
  rw [hsum (b*4+c) (by omega), sum_map_product, sum_map_range]
  apply Finset.sum_congr rfl
  intro kh _
  rw [sum_map_range]
  apply Finset.sum_congr rfl
  intro kw _
  simp only [t, pad, weights, hcell.1, hcell.2]

theorem padData_eq {p0 dataPad : IntArray 16} (hvec : 384 ≤ dataVec.size)
    (hval : ∀ k < 384, dataVec.val k = p0.val k) (hpad : 655 ≤ dataPad.size) :
    ∃ dataPad', padData dataVec dataPad = some dataPad' ∧ dataPad'.size = dataPad.size ∧
      ∀ k < 655, dataPad'.val k = padded 1 1 128 3 (fun i j => p0.val (i*3+j)) (k/5) (k%5) := by
  have hfits : ∀ k < 131*5, Fits 16 (padded 1 1 128 3 (fun i j => p0.val (i*3+j)) (k/5) (k%5)) := by
    intro k _
    rw [padded]
    split
    · exact p0.val_fits _
    · decide
  refine forRange_set_rows (by decide) hpad hfits fun i hi j hj a _ => ?_
  have hcell : (i*5+j)/5 = i ∧ (i*5+j)%5 = j := by omega
  rw [hcell.1, hcell.2, padded]
  by_cases h : 1 ≤ i ∧ i < 129 ∧ 1 ≤ j ∧ j < 4
  · have hindex : (i-1)*3+(j-1) = i*3+j-4 := by omega
    rw [if_pos h, if_pos h, get_eq (by omega), hval _ (by omega), hindex]
    rfl
  · rw [if_neg h, if_neg h]
    rfl

theorem packWeights_eq {p1 : IntArray 16} (hp1 : 96 ≤ p1.size) (hvec : 96 ≤ dataVec.size) :
    ∃ dataVec', packWeights p1 dataVec = some dataVec' ∧ dataVec'.size = dataVec.size ∧
      ∀ k < 8, ∀ kw < 3, ∀ c < 4,
        dataVec'.val (k*12+kw*4+c) = p1.val (k/4*48+c*12+k%4*3+kw) := by
  have hbound : ∀ k < 8, ∀ kw < 3, ∀ c < 4, k*12+kw*4+c < dataVec.size := by
    intro k hk kw hkw c hc
    omega
  have hinj : ∀ k < 8, ∀ kw < 3, ∀ c < 4, ∀ k' < 8, ∀ kw' < 3, ∀ c' < 4,
      k*12+kw*4+c = k'*12+kw'*4+c' → k = k' ∧ kw = kw' ∧ c = c' := by
    intro k _ kw hkw c hc k' _ kw' hkw' c' hc' h
    omega
  apply forRange_set_triples (by decide) hbound hinj fun _ _ _ _ _ _ => p1.val_fits _
  intro k hk kw hkw c hc a _
  have hget : p1.get (k/4*48+c*12+k%4*3+kw) = some (p1.val (k/4*48+c*12+k%4*3+kw)) :=
    get_eq (by omega)
  simp only [hget, Option.bind_eq_bind, Option.bind_some]

/-- The input as an image with zeros around it. -/
def image (x : ℕ → ℤ) (_ : ℕ) : ℕ → ℕ → ℤ := padded 1 1 128 3 fun i j => x (i*3+j)

/-- The kernel of an output channel. -/
def kernel (weights : ℕ → ℤ) (channel _ k l : ℕ) : ℤ := weights (channel*12+k*3+l)

/-- What the layer computes for a channel at a row and a column. -/
def output (x weights bias multiplier shift : ℕ → ℤ) (zeroPoint : ℤ) (channel i j : ℕ) : ℤ :=
  requantize (multiplier channel) (shift channel).toNat zeroPoint
    (convolution 1 4 3 (image x) (kernel weights channel) i j+bias channel)

theorem abs_convolution_image_le {p0 p1 : IntArray 16} (h0 : Small 384 p0) (h1 : Small 96 p1)
    {channel : ℕ} (hchannel : channel < 8) (i j : ℕ) :
    |convolution 1 4 3 (image p0.val) (kernel p1.val channel) i j| ≤ 2^29 := by
  have himage : ∀ i j, |image p0.val 0 i j| ≤ 255 := by
    apply abs_padded_le (by norm_num)
    intro i hi j hj
    exact h0.bound _ (by omega)
  have hle := @abs_convolution_le 1 4 3 (image p0.val) (kernel p1.val channel) i j 65025 (by
    intro c _ k hk l hl
    exact abs_product_le (himage _ _) (h1.bound _ (by omega)))
  exact hle.trans (by norm_num)

theorem sum_eq_convolution {p0 p1 : IntArray 16}
    (hpad : ∀ k < 655, dataPad.val k = padded 1 1 128 3 (fun i j => p0.val (i*3+j)) (k/5) (k%5))
    (hweights : ∀ k < 8, ∀ kw < 3, ∀ c < 4,
      dataVec.val (k*12+kw*4+c) = p1.val (k/4*48+c*12+k%4*3+kw))
    {ax : ℕ} (hax : ax < 256) {t : ℕ} (ht : t < 3) {c : ℕ} (hc : c < 4) :
    ∑ kh ∈ Finset.range 4, ∑ kw ∈ Finset.range 3,
        dataPad.val (kh*5+ax%128*5+kw+t)*dataVec.val (ax/128*48+kh*12+kw*4+c) =
      convolution 1 4 3 (image p0.val) (kernel p1.val (ax/128*4+c)) (ax%128) t := by
  rw [convolution, Finset.sum_range_one]
  apply Finset.sum_congr rfl
  intro kh hkh
  apply Finset.sum_congr rfl
  intro kw hkw
  rw [Finset.mem_range] at hkh hkw
  have hrow : (kh*5+ax%128*5+kw+t)/5 = ax%128+kh := by omega
  have hcol : (kh*5+ax%128*5+kw+t)%5 = t+kw := by omega
  have hweight : ax/128*48+kh*12+kw*4+c = (ax/128*4+kh)*12+kw*4+c := by omega
  have hkernel : (ax/128*4+kh)/4*48+c*12+(ax/128*4+kh)%4*3+kw = (ax/128*4+c)*12+kh*3+kw := by omega
  rw [hpad _ (by omega), hrow, hcol, hweight, hweights _ (by omega) kw hkw c hc, hkernel]
  rfl

theorem fusedNnConv2d_eq {B : TvmBackend} {workspace : IntArray 16}
    (halloc : B.allocWorkspace 1310 = some workspace) (hworkspace : 655 ≤ workspace.size)
    {p0 p1 : IntArray 16} (h0 : Small 384 p0) (h1 : Small 96 p1) {p2 p3 p5 p6 : IntArray 32}
    (hparams : ChannelParams 8 p2 p3 p5 p6) (hvec : dataVec.size = 384) {acc : IntArray 32}
    (hacc : acc.size = 12) {tCast : IntArray 8} (hcast : 3072 ≤ tCast.size) :
    ∃ tCast', fusedNnConv2d B p0 p1 p2 p3 p5 p6 dataVec acc tCast =
        some (if B.freeWorkspace ≠ 0 then -1 else 0, tCast') ∧ tCast'.size = tCast.size ∧
      ∀ channel < 8, ∀ i < 128, ∀ j < 3, tCast'.val (channel*384+i*3+j) =
        output p0.val p1.val p2.val p3.val p5.val (p6.val 0) channel i j := by
  have hp0 := h0.size
  have hp1 := h1.size
  -- The copy, the copy with zeros around it, and the weights in the place of the first copy.
  obtain ⟨copied, hcopy, hcopied, hval⟩ := @forRange_set_rows 16 128 3 dataVec
    (fun i j a => do a.set (i*3+j) (← p0.get (i*3+j))) (fun k => p0.val k)
    (by decide) (by omega) (fun k _ => p0.val_fits k) (by
      intro i hi j hj a _
      have hget : p0.get (i*3+j) = some (p0.val (i*3+j)) := get_eq (by omega)
      simp only [hget, Option.bind_eq_bind, Option.bind_some])
  obtain ⟨dataPad, hpad, hpadSize, hpadVal⟩ := padData_eq (by omega) hval hworkspace
  obtain ⟨weights, hpack, hpackSize, hpackVal⟩ := packWeights_eq hp1 (by omega : 96 ≤ copied.size)
  have hpadSmall : Small 655 dataPad := by
    refine ⟨hpadSize ▸ hworkspace, fun k hk => ?_⟩
    rw [hpadVal k hk]
    apply abs_padded_le (by norm_num)
    intro i hi j hj
    exact h0.bound _ (by omega)
  have hpackSmall : Small 96 weights := by
    refine ⟨by omega, fun k hk => ?_⟩
    have hk' : k = k/12*12+k%12/4*4+k%4 := by omega
    rw [hk', hpackVal (k/12) (by omega) (k%12/4) (by omega) (k%4) (by omega)]
    exact h1.bound _ (by omega)
  have hround : ∀ ax, ∃ r : IntArray 32, ax < 256 → accumulate dataPad weights ax acc = some r ∧
      r.size = 12 ∧ ∀ t < 3, ∀ c < 4, r.val (t*4+c) =
        convolution 1 4 3 (image p0.val) (kernel p1.val (ax/128*4+c)) (ax%128) t := by
    intro ax
    by_cases hax : ax < 256
    · obtain ⟨r, hr, hrSize, hsum⟩ := accumulate_eq hpadSmall hpackSmall hax hacc
      refine ⟨r, fun _ => ⟨hr, hrSize, fun t ht c hc => ?_⟩⟩
      rw [hsum t ht c hc, sum_eq_convolution hpadVal hpackVal hax ht hc]
    · exact ⟨acc, fun h => absurd h hax⟩
  choose result hresult using hround
  let index (ax t c : ℕ) : ℕ := ax/128*1536+c*384+ax%128*3+t
  let out := output p0.val p1.val p2.val p3.val p5.val (p6.val 0)
  let value (ax t c : ℕ) : ℤ := out (ax/128*4+c) (ax%128) t
  obtain ⟨tCast', hwrite, hsize, hset⟩ := @forRange_set_triples 8 256 3 4 tCast
    (fun ax t c a => do
      let v ← requantizeChannel (← (result ax).get (t*4+c)) p2 p3 p5 p6 (ax/128*4+c)
      a.set (index ax t c) v) index value (by decide)
    (by
      intro ax hax t ht c hc
      show ax/128*1536+c*384+ax%128*3+t < tCast.size
      omega)
    (by
      intro ax hax t ht c hc ax' hax' t' ht' c' hc' h
      have h' : ax/128*1536+c*384+ax%128*3+t = ax'/128*1536+c'*384+ax'%128*3+t' := h
      omega)
    (by
      intro ax _ t _ c _
      exact requantize_fits _ _ _ _)
    (by
      intro ax hax t ht c hc a _
      obtain ⟨-, hrSize, hrVal⟩ := hresult ax hax
      have hchannel : ax/128*4+c < 8 := by omega
      have hget : (result ax).get (t*4+c) = some ((result ax).val (t*4+c)) := get_eq (by omega)
      have hle := abs_convolution_image_le h0 h1 hchannel (ax%128) t
      simp only [hget, hrVal t ht c hc, requantizeChannel_eq hparams hle hchannel, Option.bind_eq_bind,
        Option.bind_some]
      rfl)
  refine ⟨tCast', ?_, hsize, fun channel hchannel i hi j hj => ?_⟩
  · have hrounds : (forRange 256 tCast fun ax tCast => do
        let acc ← accumulate dataPad weights ax acc
        forRange 3 tCast fun t tCast => forRange 4 tCast fun c tCast => do
          let v ← requantizeChannel (← acc.get (t*4+c)) p2 p3 p5 p6 (ax/128*4+c)
          tCast.set (ax/128*1536+c*384+ax%128*3+t) v) = some tCast' := by
      rw [← hwrite]
      apply forRange_congr
      intro ax hax tCast
      rw [(hresult ax hax).1, Option.bind_eq_bind, Option.bind_some]
    simp only [Option.bind_eq_bind] at hcopy hrounds
    simp only [fusedNnConv2d, halloc, hcopy, hpad, hpack, hrounds, Option.bind_eq_bind, Option.bind_some,
      Option.pure_def]
  · have h := hset (channel/4*128+i) (by omega) j hj (channel%4) (by omega)
    have hindex : index (channel/4*128+i) j (channel%4) = channel*384+i*3+j := by
      show (channel/4*128+i)/128*1536+channel%4*384+(channel/4*128+i)%128*3+j = _
      omega
    have hvalue : value (channel/4*128+i) j (channel%4) = out channel i j := by
      have hgroup : (channel/4*128+i)/128*4+channel%4 = channel := by omega
      have hrow : (channel/4*128+i)%128 = i := by omega
      show out ((channel/4*128+i)/128*4+channel%4) ((channel/4*128+i)%128) j = _
      rw [hgroup, hrow]
    rwa [hindex, hvalue] at h

end Conv2d

namespace Conv2d1

variable {p0 p1 dataPad dataVec : IntArray 16}

/-- A channel of the input, as a column with zeros around it. -/
def image (x : ℕ → ℤ) (c : ℕ) : ℕ → ℕ → ℤ := padded 1 0 42 1 fun i _ => x (c*42+i)

/-- The kernel of an output channel. -/
def kernel (weights : ℕ → ℤ) (channel c k _ : ℕ) : ℤ := weights (channel*32+c*4+k)

/-- What the layer computes for a channel at a row. -/
def output (x weights bias multiplier shift : ℕ → ℤ) (zeroPoint : ℤ) (channel i : ℕ) : ℤ :=
  requantize (multiplier channel) (shift channel).toNat zeroPoint
    (convolution 8 4 1 (image x) (kernel weights channel) i 0+bias channel)

theorem packData_eq (h0 : 336 ≤ p0.size) (hvec : 336 ≤ dataVec.size) :
    ∃ dataVec', packData p0 dataVec = some dataVec' ∧ dataVec'.size = dataVec.size ∧
      ∀ k < 336, dataVec'.val k = p0.val (k/168*168+k%4*42+k/4%42) := by
  refine @forRange_set_rows 16 84 4 dataVec _ (fun k => p0.val (k/168*168+k%4*42+k/4%42)) (by decide) hvec
    (fun _ _ => p0.val_fits _) fun i hi j hj a _ => ?_
  have hindex : (i*4+j)/168*168+(i*4+j)%4*42+(i*4+j)/4%42 = i/42*168+j*42+i%42 := by omega
  have hget : p0.get (i/42*168+j*42+i%42) = some (p0.val (i/42*168+j*42+i%42)) := get_eq (by omega)
  simp only [hindex, hget, Option.bind_eq_bind, Option.bind_some]

theorem padData_eq (hvec : 336 ≤ dataVec.size)
    (hval : ∀ k < 336, dataVec.val k = p0.val (k/168*168+k%4*42+k/4%42)) (hpad : 360 ≤ dataPad.size) :
    ∃ dataPad', padData dataVec dataPad = some dataPad' ∧ dataPad'.size = dataPad.size ∧
      ∀ k < 360, dataPad'.val k = image p0.val (k/180*4+k%4) (k/4%45) 0 := by
  have hfits : ∀ k < 90*4, Fits 16 (image p0.val (k/180*4+k%4) (k/4%45) 0) := by
    intro k _
    rw [image, padded]
    split
    · exact p0.val_fits _
    · decide
  refine forRange_set_rows (by decide) hpad hfits fun i hi j hj a _ => ?_
  have hchannel : (i*4+j)/180*4+(i*4+j)%4 = i/45*4+j := by omega
  have hrow : (i*4+j)/4%45 = i%45 := by omega
  rw [hchannel, hrow, image, padded]
  by_cases h : 1 ≤ i%45 ∧ i%45 < 43
  · have hinside : 1 ≤ i%45 ∧ i%45 < 1+42 ∧ 0 ≤ 0 ∧ 0 < 0+1 := by omega
    have hvalue : dataVec.val (i/45*168+i%45*4+j-4) = p0.val ((i/45*4+j)*42+(i%45-1)) := by
      rw [hval _ (by omega)]
      congr 1
      omega
    rw [if_pos h, if_pos hinside, get_eq (by omega), hvalue]
    rfl
  · have houtside : ¬(1 ≤ i%45 ∧ i%45 < 1+42 ∧ 0 ≤ 0 ∧ 0 < 0+1) := by omega
    rw [if_neg h, if_neg houtside]
    rfl

theorem packWeights_eq (h1 : 512 ≤ p1.size) (hvec : 512 ≤ dataVec.size) :
    ∃ dataVec', packWeights p1 dataVec = some dataVec' ∧ dataVec'.size = dataVec.size ∧
      ∀ k < 16, ∀ g < 2, ∀ b < 4, ∀ c < 4, dataVec'.val (k/4*128+g*64+k%4*16+b*4+c) =
        kernel p1.val (k/4*4+c) (g*4+b) (k%4) 0 := by
  let l := List.range 16 ×ˢ List.range 2 ×ˢ List.range 4 ×ˢ List.range 4
  let f (p : ℕ × ℕ × ℕ × ℕ) : ℕ := p.1/4*128+p.2.1*64+p.1%4*16+p.2.2.1*4+p.2.2.2
  let v (p : ℕ × ℕ × ℕ × ℕ) : ℤ := kernel p1.val (p.1/4*4+p.2.2.2) (p.2.1*4+p.2.2.1) (p.1%4) 0
  have hmem : ∀ p, p ∈ l ↔ p.1 < 16 ∧ p.2.1 < 2 ∧ p.2.2.1 < 4 ∧ p.2.2.2 < 4 := by
    intro p
    rw [List.mem_product, List.mem_product, List.mem_product, List.mem_range, List.mem_range,
      List.mem_range, List.mem_range]
  have hnodup : l.Nodup :=
    List.nodup_range.product (List.nodup_range.product (List.nodup_range.product List.nodup_range))
  have hbound : ∀ p ∈ l, f p < dataVec.size := by
    intro p hp
    rw [hmem] at hp
    show p.1/4*128+p.2.1*64+p.1%4*16+p.2.2.1*4+p.2.2.2 < dataVec.size
    omega
  -- No two weights are stored at the same place.
  have hinj : ∀ p ∈ l, ∀ q ∈ l, f p = f q → p = q := by
    rintro ⟨k, g, b, c⟩ hp ⟨k', g', b', c'⟩ hq heq
    obtain ⟨-, hg, hb, hc⟩ := (hmem (k, g, b, c)).mp hp
    obtain ⟨-, hg', hb', hc'⟩ := (hmem (k', g', b', c')).mp hq
    have heq' : k/4*128+g*64+k%4*16+b*4+c = k'/4*128+g'*64+k'%4*16+b'*4+c' := heq
    dsimp only at hg hb hc hg' hb' hc'
    simp only [Prod.mk.injEq]
    omega
  obtain ⟨dataVec', hloop, hsize, hset⟩ := @forEach_set_val 16 (ℕ × ℕ × ℕ × ℕ) l dataVec
    (fun p a => do
      a.set (f p) (← p1.get (p.1/4*128+p.2.2.2*32+p.2.1*16+p.2.2.1*4+p.1%4))) f v (by decide) hnodup
    hbound hinj (fun _ _ => p1.val_fits _) (by
      intro p hp a _
      rw [hmem] at hp
      have hindex : p.1/4*128+p.2.2.2*32+p.2.1*16+p.2.2.1*4+p.1%4 =
          (p.1/4*4+p.2.2.2)*32+(p.2.1*4+p.2.2.1)*4+p.1%4 := by omega
      rw [hindex, get_eq (by omega)]
      rfl)
  refine ⟨dataVec', ?_, hsize, fun k hk g hg b hb c hc => ?_⟩
  · rw [← hloop, packWeights]
    simp only [forRange_eq_forEach, forEach_forEach]
    rfl
  · exact hset (k, g, b, c) ((hmem (k, g, b, c)).mpr ⟨hk, hg, hb, hc⟩)

theorem accumulate_eq (hx : Small 360 dataPad) (hy : Small 512 dataVec) {ax : ℕ} (hax : ax < 168)
    {acc : IntArray 32} (hacc : acc.size = 4) :
    ∃ acc', accumulate dataPad dataVec ax acc = some acc' ∧ acc'.size = 4 ∧ ∀ c < 4, acc'.val c =
      ∑ g ∈ Finset.range 2, ∑ kh ∈ Finset.range 4, ∑ b ∈ Finset.range 4,
        dataPad.val (g*180+kh*4+ax%42*4+b)*dataVec.val (ax/42*128+g*64+kh*16+b*4+c) := by
  obtain ⟨acc0, hclear, hsize0, hzero, -⟩ := @forRange_clear 0 4 acc (fun c a => a.set c 0)
    (by omega) fun _ _ _ => rfl
  let l := List.range 2 ×ˢ List.range 4 ×ˢ List.range 4
  -- Two groups of four input channels, each with four rows.
  let pad (p : ℕ × ℕ × ℕ) : ℕ := p.1*180+p.2.1*4+ax%42*4+p.2.2
  let weights (p : ℕ × ℕ × ℕ) : ℕ := ax/42*128+p.1*64+p.2.1*16+p.2.2*4
  have hmem : ∀ p ∈ l, pad p < 360 ∧ weights p+4 ≤ 512 := by
    rintro ⟨g, kh, b⟩ hp
    have hlt : g < 2 ∧ kh < 4 ∧ b < 4 := by
      rwa [List.mem_product, List.mem_product, List.mem_range, List.mem_range, List.mem_range] at hp
    show g*180+kh*4+ax%42*4+b < 360 ∧ ax/42*128+g*64+kh*16+b*4+4 ≤ 512
    omega
  obtain ⟨acc', hloop, hsize, hsum⟩ := @forEach_addBlock 360 512 4 dataPad dataVec _ l pad weights acc0
    hx hy (by omega) hzero (fun p hp => (hmem p hp).1) (fun p hp => (hmem p hp).2) (by decide)
  refine ⟨acc', ?_, by omega, fun c hc => ?_⟩
  · have hclear' : (forRange 4 acc fun c acc => acc.set c 0) = some acc0 := hclear
    have hnest : (forRange 2 acc0 fun g acc => forRange 4 acc fun kh acc => forRange 4 acc fun b acc =>
        addBlock 4 dataPad dataVec 0 (pad (g, kh, b)) (weights (g, kh, b)) acc) = some acc' := by
      rw [← hloop]
      simp only [forRange_eq_forEach, forEach_forEach]
      rfl
    rw [accumulate, hclear']
    exact hnest
  · rw [hsum c hc, sum_map_product, sum_map_range]
    apply Finset.sum_congr rfl
    intro g _
    rw [sum_map_product, sum_map_range]
    apply Finset.sum_congr rfl
    intro kh _
    rw [sum_map_range]

theorem sum_eq_convolution (hpad : ∀ k < 360, dataPad.val k = image p0.val (k/180*4+k%4) (k/4%45) 0)
    (hweights : ∀ k < 16, ∀ g < 2, ∀ b < 4, ∀ c < 4, dataVec.val (k/4*128+g*64+k%4*16+b*4+c) =
      kernel p1.val (k/4*4+c) (g*4+b) (k%4) 0)
    {ax : ℕ} (hax : ax < 168) {c : ℕ} (hc : c < 4) :
    ∑ g ∈ Finset.range 2, ∑ kh ∈ Finset.range 4, ∑ b ∈ Finset.range 4,
        dataPad.val (g*180+kh*4+ax%42*4+b)*dataVec.val (ax/42*128+g*64+kh*16+b*4+c) =
      convolution 8 4 1 (image p0.val) (kernel p1.val (ax/42*4+c)) (ax%42) 0 := by
  rw [convolution, sum_range_mul 2 4]
  apply Finset.sum_congr rfl
  intro g hg
  rw [Finset.sum_comm]
  apply Finset.sum_congr rfl
  intro b hb
  apply Finset.sum_congr rfl
  intro kh hkh
  rw [Finset.mem_range] at hg hb hkh
  have hchannel : (g*180+kh*4+ax%42*4+b)/180*4+(g*180+kh*4+ax%42*4+b)%4 = g*4+b := by omega
  have hrow : (g*180+kh*4+ax%42*4+b)/4%45 = ax%42+kh := by omega
  have hgroup : (ax/42*4+kh)/4 = ax/42 ∧ (ax/42*4+kh)%4 = kh := by omega
  have hweight := hweights (ax/42*4+kh) (by omega) g hg b hb c hc
  rw [hgroup.1, hgroup.2] at hweight
  rw [hpad _ (by omega), hchannel, hrow, hweight, Finset.sum_range_one]

theorem abs_convolution_image_le (h0 : Small 336 p0) (h1 : Small 512 p1) {channel : ℕ}
    (hchannel : channel < 16) (i : ℕ) :
    |convolution 8 4 1 (image p0.val) (kernel p1.val channel) i 0| ≤ 2^29 := by
  have himage : ∀ c < 8, ∀ i j, |image p0.val c i j| ≤ 255 := by
    intro c hc
    apply abs_padded_le (by norm_num)
    intro i hi _ _
    exact h0.bound _ (by omega)
  have hle := @abs_convolution_le 8 4 1 (image p0.val) (kernel p1.val channel) i 0 65025 (by
    intro c hc k hk _ _
    exact abs_product_le (himage c hc _ _) (h1.bound _ (by omega)))
  exact hle.trans (by norm_num)

theorem fusedNnConv2d1_eq {B : TvmBackend} {workspace : IntArray 16}
    (halloc : B.allocWorkspace 1024 = some workspace) (hworkspace : 512 ≤ workspace.size)
    (h0 : Small 336 p0) (h1 : Small 512 p1) {p2 p3 p5 p6 : IntArray 32}
    (hparams : ChannelParams 16 p2 p3 p5 p6) (hpad : dataPad.size = 360) {acc : IntArray 32}
    (hacc : acc.size = 4) {tCast : IntArray 8} (hcast : 672 ≤ tCast.size) :
    ∃ tCast', fusedNnConv2d1 B p0 p1 p2 p3 p5 p6 dataPad acc tCast =
        some (if B.freeWorkspace ≠ 0 then -1 else 0, tCast') ∧ tCast'.size = tCast.size ∧
      ∀ channel < 16, ∀ i < 42, tCast'.val (channel*42+i) =
        output p0.val p1.val p2.val p3.val p5.val (p6.val 0) channel i := by
  obtain ⟨packed, hdata, hdataSize, hdataVal⟩ := packData_eq h0.size (by omega : 336 ≤ workspace.size)
  obtain ⟨padded', hpadData, hpadSize, hpadVal⟩ := padData_eq (by omega) hdataVal hpad.ge
  obtain ⟨weights, hpack, hpackSize, hpackVal⟩ := packWeights_eq h1.size (by omega : 512 ≤ packed.size)
  have hpadSmall : Small 360 padded' := by
    refine ⟨by omega, fun k hk => ?_⟩
    rw [hpadVal k hk, image]
    apply abs_padded_le (by norm_num)
    intro i hi _ _
    exact h0.bound _ (by omega)
  -- The packed weights are the weights in another order, so they keep the bound.
  have hpackSmall : Small 512 weights := by
    refine ⟨by omega, fun k hk => ?_⟩
    have hk' : k = (k/128*4+k%64/16)/4*128+k%128/64*64+(k/128*4+k%64/16)%4*16+k%16/4*4+k%4 := by omega
    rw [hk', hpackVal (k/128*4+k%64/16) (by omega) (k%128/64) (by omega) (k%16/4) (by omega) (k%4)
      (by omega)]
    exact h1.bound _ (by omega)
  -- Each round leaves the sums of four output channels for one row.
  have hround : ∀ ax, ∃ r : IntArray 32, ax < 168 → accumulate padded' weights ax acc = some r ∧
      r.size = 4 ∧ ∀ c < 4, r.val c =
        convolution 8 4 1 (image p0.val) (kernel p1.val (ax/42*4+c)) (ax%42) 0 := by
    intro ax
    by_cases hax : ax < 168
    · obtain ⟨r, hr, hrSize, hsum⟩ := accumulate_eq hpadSmall hpackSmall hax hacc
      refine ⟨r, fun _ => ⟨hr, hrSize, fun c hc => ?_⟩⟩
      rw [hsum c hc, sum_eq_convolution hpadVal hpackVal hax hc]
    · exact ⟨acc, fun h => absurd h hax⟩
  choose result hresult using hround
  let index (ax c : ℕ) : ℕ := ax/42*168+c*42+ax%42
  let out := output p0.val p1.val p2.val p3.val p5.val (p6.val 0)
  let value (ax c : ℕ) : ℤ := out (ax/42*4+c) (ax%42)
  -- The stores of all rounds go to different elements, so each one keeps its value.
  obtain ⟨tCast', hwrite, hsize, hset⟩ := @forRange_set_pairs 8 168 4 tCast
    (fun ax c a => do
      let v ← requantizeChannel (← (result ax).get c) p2 p3 p5 p6 (ax/42*4+c)
      a.set (index ax c) v) index value (by decide)
    (by
      intro ax hax c hc
      show ax/42*168+c*42+ax%42 < tCast.size
      omega)
    (by
      intro ax hax c hc ax' hax' c' hc' h
      have h' : ax/42*168+c*42+ax%42 = ax'/42*168+c'*42+ax'%42 := h
      omega)
    (by
      intro ax _ c _
      exact requantize_fits _ _ _ _)
    (by
      intro ax hax c hc a _
      obtain ⟨-, hrSize, hrVal⟩ := hresult ax hax
      have hchannel : ax/42*4+c < 16 := by omega
      have hget : (result ax).get c = some ((result ax).val c) := get_eq (by omega)
      have hle := abs_convolution_image_le h0 h1 hchannel (ax%42)
      simp only [hget, hrVal c hc, requantizeChannel_eq hparams hle hchannel, Option.bind_eq_bind,
        Option.bind_some]
      rfl)
  refine ⟨tCast', ?_, hsize, fun channel hchannel i hi => ?_⟩
  · have hrounds : (forRange 168 tCast fun ax tCast => do
        let acc ← accumulate padded' weights ax acc
        forRange 4 tCast fun c tCast => do
          let v ← requantizeChannel (← acc.get c) p2 p3 p5 p6 (ax/42*4+c)
          tCast.set (ax/42*168+c*42+ax%42) v) = some tCast' := by
      rw [← hwrite]
      apply forRange_congr
      intro ax hax tCast
      rw [(hresult ax hax).1, Option.bind_eq_bind, Option.bind_some]
    simp only [Option.bind_eq_bind] at hrounds
    simp only [fusedNnConv2d1, halloc, hdata, hpadData, hpack, hrounds, Option.bind_eq_bind,
      Option.bind_some, Option.pure_def]
  · have h := hset (channel/4*42+i) (by omega) (channel%4) (by omega)
    have hindex : index (channel/4*42+i) (channel%4) = channel*42+i := by
      show (channel/4*42+i)/42*168+channel%4*42+(channel/4*42+i)%42 = _
      omega
    have hvalue : value (channel/4*42+i) (channel%4) = out channel i := by
      have hgroup : (channel/4*42+i)/42*4+channel%4 = channel := by omega
      have hrow : (channel/4*42+i)%42 = i := by omega
      show out ((channel/4*42+i)/42*4+channel%4) ((channel/4*42+i)%42) = _
      rw [hgroup, hrow]
    rwa [hindex, hvalue] at h

end Conv2d1

/-- A workspace has the size that was asked for. -/
def TvmBackend.Allocates (B : TvmBackend) : Prop :=
  ∀ n a, B.allocWorkspace n = some a → n ≤ 2*a.size

section
variable {B : TvmBackend} {p0 p1 : IntArray 16} {p2 p3 p5 p6 : IntArray 32} {acc : IntArray 32}
  {tCast : IntArray 8}

theorem first_convolution (hB : B.Allocates) (h0 : Small 384 p0) (h1 : Small 96 p1)
    (hparams : ChannelParams 8 p2 p3 p5 p6) {dataVec : IntArray 16} (hvec : dataVec.size = 384)
    (hacc : acc.size = 12) (hcast : 3072 ≤ tCast.size) :
    ∃ tCast', fusedNnConv2d B p0 p1 p2 p3 p5 p6 dataVec acc tCast =
        some (if (B.allocWorkspace 1310).isSome ∧ B.freeWorkspace = 0 then 0 else -1, tCast') ∧
      (B.allocWorkspace 1310 = none → tCast' = tCast) ∧
      ((B.allocWorkspace 1310).isSome → ∀ channel < 8, ∀ i < 128, ∀ j < 3,
        tCast'.val (channel*384+i*3+j) = requantize (p3.val channel) (p5.val channel).toNat (p6.val 0)
          (convolution 1 4 3 (Conv2d.image p0.val) (Conv2d.kernel p1.val channel) i j+p2.val channel)) := by
  cases halloc : B.allocWorkspace 1310 with
  | none =>
    refine ⟨tCast, ?_, fun _ => rfl, fun h => absurd h Bool.false_ne_true⟩
    rw [fusedNnConv2d, halloc]
    rfl
  | some workspace =>
    have hworkspace := hB 1310 workspace halloc
    obtain ⟨tCast', hrun, -, hval⟩ :=
      Conv2d.fusedNnConv2d_eq halloc (by omega) h0 h1 hparams hvec hacc hcast
    refine ⟨tCast', ?_, fun h => absurd h (Option.some_ne_none workspace), fun _ => hval⟩
    rw [hrun]
    by_cases hfree : B.freeWorkspace = 0
    · rw [if_neg (not_not.mpr hfree), if_pos ⟨rfl, hfree⟩]
    · rw [if_pos hfree, if_neg fun h => hfree h.2]

theorem second_convolution (hB : B.Allocates) (h0 : Small 336 p0) (h1 : Small 512 p1)
    (hparams : ChannelParams 16 p2 p3 p5 p6) {dataPad : IntArray 16} (hpad : dataPad.size = 360)
    (hacc : acc.size = 4) (hcast : 672 ≤ tCast.size) :
    ∃ tCast', fusedNnConv2d1 B p0 p1 p2 p3 p5 p6 dataPad acc tCast =
        some (if (B.allocWorkspace 1024).isSome ∧ B.freeWorkspace = 0 then 0 else -1, tCast') ∧
      (B.allocWorkspace 1024 = none → tCast' = tCast) ∧
      ((B.allocWorkspace 1024).isSome → ∀ channel < 16, ∀ i < 42, tCast'.val (channel*42+i) =
        requantize (p3.val channel) (p5.val channel).toNat (p6.val 0)
          (convolution 8 4 1 (Conv2d1.image p0.val) (Conv2d1.kernel p1.val channel) i 0+p2.val channel)) := by
  cases halloc : B.allocWorkspace 1024 with
  | none =>
    refine ⟨tCast, ?_, fun _ => rfl, fun h => absurd h Bool.false_ne_true⟩
    rw [fusedNnConv2d1, halloc]
    rfl
  | some workspace =>
    have hworkspace := hB 1024 workspace halloc
    obtain ⟨tCast', hrun, -, hval⟩ :=
      Conv2d1.fusedNnConv2d1_eq halloc (by omega) h0 h1 hparams hpad hacc hcast
    refine ⟨tCast', ?_, fun h => absurd h (Option.some_ne_none workspace), fun _ => hval⟩
    rw [hrun]
    by_cases hfree : B.freeWorkspace = 0
    · rw [if_neg (not_not.mpr hfree), if_pos ⟨rfl, hfree⟩]
    · rw [if_pos hfree, if_neg fun h => hfree h.2]

end

/-- Workspaces of the size that is asked for. -/
def plainBackend : TvmBackend := ⟨fun n => some ⟨n, fun _ => 0⟩, 0⟩

theorem plainBackend_allocates : plainBackend.Allocates := by
  intro n a h
  rw [← Option.some.inj h]
  show n ≤ 2*n
  omega

theorem small_ones (n : ℕ) : Small n ⟨n, fun _ => 1⟩ := by
  have hone : |(1 : BitVec 16).toInt| ≤ 255 := by decide
  exact ⟨le_rfl, fun _ _ => hone⟩

/-- Half of the sums. -/
theorem channelParams_halving (n : ℕ) :
    ChannelParams n ⟨n, fun _ => 0⟩ ⟨n, fun _ => 1073741824⟩ ⟨n, fun _ => 0⟩ ⟨1, fun _ => 0⟩ where
  size2 := le_rfl
  size3 := le_rfl
  size5 := le_rfl
  size6 := le_rfl
  bias _ _ := (by decide : |(0 : BitVec 32).toInt| ≤ 2^29)
  shift _ _ := (by decide : 0 ≤ (0 : BitVec 32).toInt ∧ (0 : BitVec 32).toInt ≤ 31)
  zeroPoint := by decide

theorem first_convolution_ones : ∃ tCast' : IntArray 8,
    fusedNnConv2d plainBackend ⟨384, fun _ => 1⟩ ⟨96, fun _ => 1⟩ ⟨8, fun _ => 0⟩
      ⟨8, fun _ => 1073741824⟩ ⟨8, fun _ => 0⟩ ⟨1, fun _ => 0⟩ ⟨384, fun _ => 0⟩ ⟨12, fun _ => 0⟩
      ⟨3072, fun _ => 0⟩ = some (0, tCast') ∧ tCast'.val (0*384+1*3+1) = 6 := by
  obtain ⟨tCast', hrun, -, hval⟩ := @first_convolution plainBackend _ _ _ _ _ _ ⟨12, fun _ => 0⟩
    ⟨3072, fun _ => 0⟩ plainBackend_allocates (small_ones 384) (small_ones 96) (channelParams_halving 8)
    ⟨384, fun _ => 0⟩ rfl rfl le_rfl
  refine ⟨tCast', hrun, ?_⟩
  rw [hval rfl 0 (by decide) 1 (by decide) 1 (by decide), requantize, scale_eq_ediv]
  decide

theorem second_convolution_ones : ∃ tCast' : IntArray 8,
    fusedNnConv2d1 plainBackend ⟨336, fun _ => 1⟩ ⟨512, fun _ => 1⟩ ⟨16, fun _ => 0⟩
      ⟨16, fun _ => 1073741824⟩ ⟨16, fun _ => 0⟩ ⟨1, fun _ => 0⟩ ⟨360, fun _ => 0⟩ ⟨4, fun _ => 0⟩
      ⟨672, fun _ => 0⟩ = some (0, tCast') ∧ tCast'.val (0*42+1) = 16 := by
  obtain ⟨tCast', hrun, -, hval⟩ := @second_convolution plainBackend _ _ _ _ _ _ ⟨4, fun _ => 0⟩
    ⟨672, fun _ => 0⟩ plainBackend_allocates (small_ones 336) (small_ones 512) (channelParams_halving 16)
    ⟨360, fun _ => 0⟩ rfl rfl le_rfl
  refine ⟨tCast', hrun, ?_⟩
  rw [hval rfl 0 (by decide) 1 (by decide), requantize, scale_eq_ediv]
  decide

end KenningRuntime.MagicWandInt8
