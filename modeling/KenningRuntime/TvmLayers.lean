import KenningRuntime.TvmConvolutions

/-! What the dense layers, the pools and the changes of the layout of the int8 model compute. -/
namespace KenningRuntime.MagicWandInt8
open CountedLoops CountedLoops.IntArray QuantizedLayers

/-! ### Changes of the layout -/

section
variable {p0 : IntArray 8} {p1 tSubtract : IntArray 16}

/-- The zero point of a tensor of eight bits. -/
structure ZeroPoint (p : IntArray 16) : Prop where
  size : 1 ≤ p.size
  fits : Fits 8 (p.val 0)

theorem ZeroPoint.get_eq (h : ZeroPoint p1) : p1.get 0 = some (p1.val 0) :=
  IntArray.get_eq h.size

theorem ZeroPoint.abs_sub_le (h : ZeroPoint p1) {v : ℤ} (hv : Fits 8 v) : |v-p1.val 0| ≤ 255 := by
  have hzero : -128 ≤ p1.val 0 ∧ p1.val 0 < 128 := h.fits
  have hvalue : -128 ≤ v ∧ v < 128 := hv
  rw [abs_le]
  omega

theorem ZeroPoint.fits_sub (h : ZeroPoint p1) {v : ℤ} (hv : Fits 8 v) : Fits 16 (v-p1.val 0) :=
  fits_of_abs_lt ((h.abs_sub_le hv).trans_lt (by norm_num))

theorem fusedLayoutTransformCastSubtract_eq (h0 : 384 ≤ p0.size) (h1 : ZeroPoint p1)
    (hsize : 384 ≤ tSubtract.size) :
    ∃ tSubtract', fusedLayoutTransformCastSubtract p0 p1 tSubtract = some tSubtract' ∧
      tSubtract'.size = tSubtract.size ∧ ∀ k < 384, tSubtract'.val k = p0.val k-p1.val 0 := by
  refine @forRange_set_rows 16 128 3 tSubtract _ (fun k => p0.val k-p1.val 0) (by decide) hsize
    (fun k _ => h1.fits_sub (p0.val_fits k)) fun i hi j hj a _ => ?_
  have hget : p0.get (i*3+j) = some (p0.val (i*3+j)) := get_eq (by omega)
  simp only [hget, h1.get_eq, Option.bind_eq_bind, Option.bind_some]

/-- Channels of columns become columns of channels. -/
theorem fusedLayoutTransformReshapeCastSubtract_eq (h0 : 224 ≤ p0.size) (h1 : ZeroPoint p1)
    (hsize : 224 ≤ tSubtract.size) :
    ∃ tSubtract', fusedLayoutTransformReshapeCastSubtract p0 p1 tSubtract = some tSubtract' ∧
      tSubtract'.size = tSubtract.size ∧
      ∀ k < 224, tSubtract'.val k = p0.val (k%16*14+k/16)-p1.val 0 := by
  refine @forRange_set_rows 16 14 16 tSubtract _ (fun k => p0.val (k%16*14+k/16)-p1.val 0) (by decide)
    hsize (fun _ _ => h1.fits_sub (p0.val_fits _)) fun i hi j hj a _ => ?_
  have hindex : (i*16+j)%16*14+(i*16+j)/16 = j*14+i := by omega
  have hget : p0.get (j*14+i) = some (p0.val (j*14+i)) := get_eq (by omega)
  simp only [hindex, hget, h1.get_eq, Option.bind_eq_bind, Option.bind_some]

theorem fusedReshapeCastSubtract_eq (h0 : 16 ≤ p0.size) (h1 : ZeroPoint p1)
    (hsize : 16 ≤ tSubtract.size) :
    ∃ tSubtract', fusedReshapeCastSubtract p0 p1 tSubtract = some tSubtract' ∧
      tSubtract'.size = tSubtract.size ∧ ∀ k < 16, tSubtract'.val k = p0.val k-p1.val 0 := by
  obtain ⟨tSubtract', hloop, hsize', hset, -⟩ := @forRange_set 16 16 tSubtract
    (fun k a => do a.set k ((← p0.get k)-(← p1.get 0))) (fun k => k) (fun k => p0.val k-p1.val 0)
    (by decide) (fun k hk => hk.trans_le hsize) (fun _ _ _ _ h => h)
    (fun k _ => h1.fits_sub (p0.val_fits k)) (by
      intro k hk a _ _
      have hget : p0.get k = some (p0.val k) := get_eq (by omega)
      simp only [hget, h1.get_eq, Option.bind_eq_bind, Option.bind_some])
  exact ⟨tSubtract', hloop, hsize', hset⟩

end

/-! ### Pools -/

/-- A loop that keeps the maximum in an element. -/
theorem forEach_max {ι : Type} {p0 a : IntArray 8} {k : ℕ} (hk : k < a.size) {l : List ι} {g : ι → ℕ}
    (hg : ∀ i ∈ l, g i < p0.size) {m : ℤ} (hm : Fits 8 m) :
    forEach l (a.put k m) (fun i a => do
      let v ← a.get k
      let v1 ← p0.get (g i)
      a.set k (if v > v1 then v else v1)) =
        some (a.put k ((l.map fun i => p0.val (g i)).foldl max m)) := by
  induction l generalizing m with
  | nil => rfl
  | cons i l ih =>
    rw [List.forall_mem_cons] at hg
    have hmax : (if m > p0.val (g i) then m else p0.val (g i)) = max m (p0.val (g i)) := by
      split <;> omega
    have hfits : Fits 8 (max m (p0.val (g i))) := by
      rcases max_choice m (p0.val (g i)) with h | h
      · rwa [h]
      · rw [h]
        exact p0.val_fits _
    have hget : (a.put k m).get k = some m := by
      have hk' : k < (a.put k m).size := hk
      rw [get_eq hk', val_put_self a k (by decide) hm]
    have hset := @set_eq 8 (a.put k m) k hk (max m (p0.val (g i)))
    rw [forEach, hget, get_eq hg.1]
    simp only [Option.bind_eq_bind, Option.bind_some, hmax, hset, put_put]
    exact ih hg.2 hfits

theorem foldl_max_le_iff (l : List ℤ) (m v : ℤ) : l.foldl max m ≤ v ↔ m ≤ v ∧ ∀ x ∈ l, x ≤ v := by
  induction l generalizing m with
  | nil => simp only [List.foldl_nil, List.not_mem_nil, false_imp_iff, implies_true, and_true]
  | cons x l ih => rw [List.foldl_cons, ih, max_le_iff, List.forall_mem_cons, and_assoc]

/-- From the least value on, the loops keep the maximum of a window. -/
theorem forRange_max {p0 a : IntArray 8} {k : ℕ} (hk : k < a.size) {rows cols : ℕ} {g : ℕ → ℕ → ℕ}
    (hg : ∀ i < rows+1, ∀ j < cols+1, g i j < p0.size) :
    forRange (rows+1) (a.put k (-128)) (fun i a => forRange (cols+1) a fun j a => do
      let v ← a.get k
      let v1 ← p0.get (g i j)
      a.set k (if v > v1 then v else v1)) =
        some (a.put k (maxPool rows cols fun i j => p0.val (g i j))) := by
  have hmem : ∀ p, p ∈ List.range (rows+1) ×ˢ List.range (cols+1) ↔ p.1 < rows+1 ∧ p.2 < cols+1 := by
    intro p
    rw [List.mem_product, List.mem_range, List.mem_range]
  have hmax : ((List.range (rows+1) ×ˢ List.range (cols+1)).map fun p => p0.val (g p.1 p.2)).foldl max
      (-128) = maxPool rows cols fun i j => p0.val (g i j) := by
    apply eq_of_forall_ge_iff
    intro v
    rw [foldl_max_le_iff, maxPool_le_iff, List.forall_mem_map]
    constructor
    · rintro ⟨-, h⟩ i hi j hj
      exact h (i, j) ((hmem (i, j)).mpr ⟨hi, hj⟩)
    · intro h
      have hleast : -128 ≤ p0.val (g 0 0) := (p0.val_fits _).1
      have hfirst := h 0 (Nat.succ_pos rows) 0 (Nat.succ_pos cols)
      refine ⟨hleast.trans hfirst, fun p hp => ?_⟩
      rw [hmem] at hp
      exact h p.1 hp.1 p.2 hp.2
  have hwindow : ∀ p ∈ List.range (rows+1) ×ˢ List.range (cols+1), g p.1 p.2 < p0.size := by
    intro p hp
    rw [hmem] at hp
    exact hg p.1 hp.1 p.2 hp.2
  simp only [forRange_eq_forEach, forEach_forEach]
  rw [forEach_max hk hwindow (by decide), hmax]

theorem maxPool_fits {rows cols : ℕ} {x : ℕ → ℕ → ℤ}
    (hx : ∀ i < rows+1, ∀ j < cols+1, Fits 8 (x i j)) : Fits 8 (maxPool rows cols x) := by
  have hfirst : x 0 0 ≤ maxPool rows cols x :=
    maxPool_le_iff.mp le_rfl 0 (Nat.succ_pos rows) 0 (Nat.succ_pos cols)
  have hlast : maxPool rows cols x ≤ 127 := maxPool_le_iff.mpr fun i hi j hj =>
    Int.le_of_lt_add_one (hx i hi j hj).2
  exact ⟨(hx 0 (Nat.succ_pos rows) 0 (Nat.succ_pos cols)).1.trans hfirst, Int.lt_add_one_of_le hlast⟩

theorem fusedNnMaxPool2d_eq {p0 poolMax : IntArray 8} (h0 : 672 ≤ p0.size) (hsize : 224 ≤ poolMax.size) :
    ∃ poolMax', fusedNnMaxPool2d p0 poolMax = some poolMax' ∧ poolMax'.size = poolMax.size ∧
      ∀ k < 224, poolMax'.val k = maxPool 0 2 fun _ j => p0.val (k*3+j) := by
  refine @forRange_set_rows 8 16 14 poolMax _ (fun k => maxPool 0 2 fun _ j => p0.val (k*3+j)) (by decide)
    hsize (fun k _ => maxPool_fits fun _ _ j _ => p0.val_fits _) fun i hi j hj a ha => ?_
  have hk : i*14+j < a.size := by omega
  have hloop := @forRange_max p0 a _ hk 0 2 (fun _ l => i*42+j*3+l) (by
    intro _ _ l hl
    omega)
  have hstart : (i*14+j)*3 = i*42+j*3 := by omega
  simp only [hstart, set_eq hk, Option.bind_eq_bind, Option.bind_some]
  exact hloop

theorem fusedNnMaxPool2dCastSubtract_eq {p0 poolMax : IntArray 8} {p1 tSubtract : IntArray 16}
    (h0 : 3072 ≤ p0.size) (h1 : ZeroPoint p1) (hpool : poolMax.size = 336)
    (hsize : 336 ≤ tSubtract.size) :
    ∃ tSubtract', fusedNnMaxPool2dCastSubtract p0 p1 poolMax tSubtract = some tSubtract' ∧
      tSubtract'.size = tSubtract.size ∧ ∀ k < 336, tSubtract'.val k =
        (maxPool 2 2 fun i j => p0.val (k/42*384+k%42*9+i*3+j))-p1.val 0 := by
  have hpoolFits (k : ℕ) : Fits 8 (maxPool 2 2 fun i j => p0.val (k/42*384+k%42*9+i*3+j)) :=
    maxPool_fits fun i _ j _ => p0.val_fits _
  obtain ⟨pool, hmax, hmaxSize, hmaxVal⟩ := @forRange_set_rows 8 8 42 poolMax
    (fun i j a => do
      let a ← a.set (i*42+j) (-128)
      forRange 3 a fun rv0 a => forRange 3 a fun rv1 a => do
        let v ← a.get (i*42+j)
        let v1 ← p0.get (i*384+j*9+rv0*3+rv1)
        a.set (i*42+j) (if v > v1 then v else v1))
    (fun k => maxPool 2 2 fun i j => p0.val (k/42*384+k%42*9+i*3+j)) (by decide) hpool.ge
    (fun k _ => hpoolFits k) (by
      intro i hi j hj a ha
      have hk : i*42+j < a.size := by omega
      have hcell : (i*42+j)/42 = i ∧ (i*42+j)%42 = j := by omega
      have hloop := @forRange_max p0 a _ hk 2 2 (fun rv0 rv1 => i*384+j*9+rv0*3+rv1) (by
        intro rv0 hrv0 rv1 hrv1
        omega)
      simp only [hcell.1, hcell.2, set_eq hk, Option.bind_eq_bind, Option.bind_some]
      exact hloop)
  obtain ⟨tSubtract', hloop, hsize', hset⟩ := @forRange_set_rows 16 8 42 tSubtract
    (fun i j a => do a.set (i*42+j) ((← pool.get (i*42+j))-(← p1.get 0)))
    (fun k => (maxPool 2 2 fun i j => p0.val (k/42*384+k%42*9+i*3+j))-p1.val 0) (by decide) hsize
    (fun k _ => h1.fits_sub (hpoolFits k)) (by
      intro i hi j hj a _
      have hget : pool.get (i*42+j) = some (pool.val (i*42+j)) := get_eq (by omega)
      simp only [hget, hmaxVal (i*42+j) (by omega), h1.get_eq, Option.bind_eq_bind, Option.bind_some])
  refine ⟨tSubtract', ?_, hsize', hset⟩
  simp only [Option.bind_eq_bind] at hmax hloop
  simp only [fusedNnMaxPool2dCastSubtract, hmax, hloop, Option.bind_eq_bind, Option.bind_some]

/-! ### Dense layers -/

namespace Dense

variable {p0 p1 packedWeight : IntArray 16}

/-- The weights of an output. -/
def weights (w : ℕ → ℤ) (o k : ℕ) : ℤ := w (o*224+k)

def output (x w bias : ℕ → ℤ) (zeroPoint : ℤ) (o : ℕ) : ℤ :=
  requantize 1450140262 7 zeroPoint (dense 224 x (weights w o)+bias o)

theorem packWeights_eq (h1 : 3584 ≤ p1.size) (hsize : 3584 ≤ packedWeight.size) :
    ∃ packedWeight', packWeights p1 packedWeight = some packedWeight' ∧
      packedWeight'.size = packedWeight.size ∧ ∀ z < 2, ∀ y < 224, ∀ x < 8,
        packedWeight'.val (z*1792+y*8+x) = weights p1.val (z*8+x) y := by
  have hbound : ∀ z < 2, ∀ y < 224, ∀ x < 8, z*1792+y*8+x < packedWeight.size := by
    intro z hz y hy x hx
    omega
  have hinj : ∀ z < 2, ∀ y < 224, ∀ x < 8, ∀ z' < 2, ∀ y' < 224, ∀ x' < 8,
      z*1792+y*8+x = z'*1792+y'*8+x' → z = z' ∧ y = y' ∧ x = x' := by
    intro z _ y hy x hx z' _ y' hy' x' hx' h
    omega
  apply forRange_set_triples (by decide) hbound hinj fun _ _ _ _ _ _ => p1.val_fits _
  intro z hz y hy x hx a _
  have hindex : z*1792+x*224+y = (z*8+x)*224+y := by omega
  have hget : p1.get ((z*8+x)*224+y) = some (weights p1.val (z*8+x) y) := get_eq (by omega)
  simp only [hindex, hget, Option.bind_eq_bind, Option.bind_some]
  rfl

theorem accumulate_eq (hx : Small 224 p0) (hy : Small 3584 packedWeight) {ax : ℕ} (hax : ax < 2)
    {acc : IntArray 32} (hacc : acc.size = 8) :
    ∃ acc', accumulate p0 packedWeight ax acc = some acc' ∧ acc'.size = 8 ∧ ∀ c < 8, acc'.val c =
      ∑ k ∈ Finset.range 224, p0.val k*packedWeight.val (ax*1792+k*8+c) := by
  obtain ⟨acc0, hclear, hsize0, hzero, -⟩ := @forRange_clear 0 8 acc (fun c a => a.set c 0)
    (by omega) fun _ _ _ => rfl
  obtain ⟨acc', hloop, hsize, hsum⟩ := @forEach_addBlock 224 3584 8 p0 packedWeight ℕ (List.range 224)
    (fun k => k) (fun k => ax*1792+k*8) acc0 hx hy (by omega) hzero (fun k => List.mem_range.mp)
    (by
      intro k hk
      have hk' : k < 224 := List.mem_range.mp hk
      omega)
    (by rw [List.length_range]; norm_num)
  refine ⟨acc', ?_, by omega, fun c hc => ?_⟩
  · have hclear' : (forRange 8 acc fun c acc => acc.set c 0) = some acc0 := hclear
    have hrounds : (forRange 224 acc0 fun k acc =>
        addBlock 8 p0 packedWeight 0 k (ax*1792+k*8) acc) = some acc' := by
      rw [forRange_eq_forEach]
      exact hloop
    simp only [addBlock, add_zero, Option.bind_eq_bind] at hrounds
    simp only [accumulate, hclear', hrounds, Option.bind_eq_bind, Option.bind_some]
  · rw [hsum c hc, sum_map_range]

theorem abs_dense_weights_le (h0 : Small 224 p0) (h1 : Small 3584 p1) {o : ℕ} (ho : o < 16) :
    |dense 224 p0.val (weights p1.val o)| ≤ 2^29 := by
  have hle := @abs_dense_le 224 p0.val (weights p1.val o) 65025 (by
    intro k hk
    exact abs_product_le (h0.bound k hk) (h1.bound _ (by omega)))
  exact hle.trans (by norm_num)

end Dense

theorem fusedNnDense_eq {B : TvmBackend} {workspace : IntArray 16}
    (halloc : B.allocWorkspace 7168 = some workspace) (hworkspace : 3584 ≤ workspace.size)
    {p0 p1 : IntArray 16} (h0 : Small 224 p0) (h1 : Small 3584 p1) {p2 p3 : IntArray 32}
    (h2size : 16 ≤ p2.size) (h2 : ∀ o < 16, |p2.val o| ≤ 2^29) (h3size : 1 ≤ p3.size)
    (h3 : |p3.val 0| ≤ 128) {acc : IntArray 32} (hacc : acc.size = 8) {tCast : IntArray 8}
    (hcast : 16 ≤ tCast.size) :
    ∃ tCast', fusedNnDense B p0 p1 p2 p3 acc tCast =
        some (if B.freeWorkspace ≠ 0 then -1 else 0, tCast') ∧ tCast'.size = tCast.size ∧
      ∀ o < 16, tCast'.val o = Dense.output p0.val p1.val p2.val (p3.val 0) o := by
  obtain ⟨packed, hpack, hpackSize, hpackVal⟩ := Dense.packWeights_eq h1.size hworkspace
  have hpackSmall : Small 3584 packed := by
    refine ⟨by omega, fun k hk => ?_⟩
    have hk' : k = k/1792*1792+k%1792/8*8+k%8 := by omega
    rw [hk', hpackVal (k/1792) (by omega) (k%1792/8) (by omega) (k%8) (by omega)]
    exact h1.bound _ (by omega)
  -- Each of the two rounds leaves eight sums.
  have hround : ∀ ax, ∃ r : IntArray 32, ax < 2 → Dense.accumulate p0 packed ax acc = some r ∧
      r.size = 8 ∧ ∀ c < 8, r.val c = dense 224 p0.val (Dense.weights p1.val (ax*8+c)) := by
    intro ax
    by_cases hax : ax < 2
    · obtain ⟨r, hr, hrSize, hsum⟩ := Dense.accumulate_eq h0 hpackSmall hax hacc
      refine ⟨r, fun _ => ⟨hr, hrSize, fun c hc => ?_⟩⟩
      rw [hsum c hc, dense]
      apply Finset.sum_congr rfl
      intro k hk
      rw [hpackVal ax hax k (Finset.mem_range.mp hk) c hc]
    · exact ⟨acc, fun h => absurd h hax⟩
  choose result hresult using hround
  obtain ⟨tCast', hwrite, hsize, hset⟩ := @forRange_set_rows 8 2 8 tCast
    (fun ax c a => do
      let biased ← checked 32 ((← (result ax).get c)+(← p2.get (ax*8+c)))
      let scaled ← fixedPointMultiply biased 1450140262 7
      a.set (ax*8+c) (clip (← checked 32 ((← p3.get 0)+scaled))))
    (Dense.output p0.val p1.val p2.val (p3.val 0)) (by decide) hcast (fun _ _ => requantize_fits _ _ _ _) (by
      intro ax hax c hc a _
      obtain ⟨-, hrSize, hrVal⟩ := hresult ax hax
      have ho : ax*8+c < 16 := by omega
      have hget : (result ax).get c = some ((result ax).val c) := get_eq (by omega)
      have hget2 : p2.get (ax*8+c) = some (p2.val (ax*8+c)) := get_eq (by omega)
      have hget3 : p3.get 0 = some (p3.val 0) := get_eq (by omega)
      obtain ⟨hbiased, hmultiply, hresult'⟩ := @requantize_steps _ _ 1450140262 7 _
        (Dense.abs_dense_weights_le h0 h1 ho) (h2 _ ho) (by decide) (by decide) h3
      simp only [hget, hrVal c hc, hget2, hget3, hbiased, hmultiply, hresult', clip_eq_saturate,
        Option.bind_eq_bind, Option.bind_some]
      rfl)
  refine ⟨tCast', ?_, hsize, hset⟩
  have hrounds : (forRange 2 tCast fun ax tCast => do
      let acc ← Dense.accumulate p0 packed ax acc
      forRange 8 tCast fun c tCast => do
        let biased ← checked 32 ((← acc.get c)+(← p2.get (ax*8+c)))
        let scaled ← fixedPointMultiply biased 1450140262 7
        tCast.set (ax*8+c) (clip (← checked 32 ((← p3.get 0)+scaled)))) = some tCast' := by
    rw [← hwrite]
    apply forRange_congr
    intro ax hax tCast
    rw [(hresult ax hax).1, Option.bind_eq_bind, Option.bind_some]
  simp only [Option.bind_eq_bind] at hrounds
  simp only [fusedNnDense, halloc, hpack, hrounds, Option.bind_eq_bind, Option.bind_some, Option.pure_def]

section
variable {F : Type} (O : FloatOps F)

theorem FloatArray.get_eq {a : FloatArray F} {i : ℕ} (h : i < a.size) : a.get i = some (a.elem i) :=
  if_pos h

theorem FloatArray.forRange_set {n : ℕ} {a : FloatArray F}
    {body : ℕ → FloatArray F → Option (FloatArray F)} {v : ℕ → F} (hsize : n ≤ a.size)
    (hbody : ∀ i < n, ∀ a' : FloatArray F, a'.size = a.size → a'.elem i = a.elem i →
      body i a' = a'.set i (v i)) :
    ∃ a', forRange n a body = some a' ∧ a'.size = a.size ∧ (∀ i < n, a'.elem i = v i) ∧
      ∀ i, n ≤ i → a'.elem i = a.elem i := by
  induction n with
  | zero => exact ⟨a, rfl, rfl, fun i hi => absurd hi (Nat.not_lt_zero i), fun _ _ => rfl⟩
  | succ n ih =>
    obtain ⟨a', hloop, hsize', hset, hothers⟩ := ih (by omega) fun i hi => hbody i (by omega)
    have hn : n < a'.size := by omega
    refine ⟨{a' with elem := Function.update a'.elem n (v n)}, ?_, hsize', ?_, ?_⟩
    · rw [forRange, hloop, Option.bind_some, hbody n n.lt_succ_self a' hsize' (hothers n le_rfl)]
      exact if_pos hn
    · intro i hi
      rcases Nat.lt_succ_iff_lt_or_eq.mp hi with h | rfl
      · have hne : i ≠ n := by omega
        exact (Function.update_of_ne hne _ _).trans (hset i h)
      · exact Function.update_self i _ _
    · intro i hi
      have hne : i ≠ n := by omega
      exact (Function.update_of_ne hne _ _).trans (hothers i (by omega))

namespace DenseSubtract

/-- The weights of an output. -/
def weights (w : ℕ → ℤ) (o k : ℕ) : ℤ := w (o*16+k)

def output (x w bias : ℕ → ℤ) (o : ℕ) : F :=
  O.mul (O.ofInt (requantize 1223677426 6 (-77) (dense 16 x (weights w o)+bias o)+77))
    (O.literal 2.622537)

theorem packWeights_eq {p1 packedWeight : IntArray 16} (h1 : 64 ≤ p1.size)
    (hsize : 64 ≤ packedWeight.size) :
    ∃ packedWeight', packWeights p1 packedWeight = some packedWeight' ∧
      packedWeight'.size = packedWeight.size ∧ ∀ k < 64, packedWeight'.val k = weights p1.val (k%4) (k/4) := by
  refine @forRange_set_rows 16 16 4 packedWeight _ (fun k => weights p1.val (k%4) (k/4)) (by decide) hsize
    (fun _ _ => p1.val_fits _) fun y hy x hx a _ => ?_
  have hcell : (y*4+x)/4 = y ∧ (y*4+x)%4 = x := by omega
  have hget : p1.get (x*16+y) = some (weights p1.val x y) := get_eq (by omega)
  simp only [hcell.1, hcell.2, hget, Option.bind_eq_bind, Option.bind_some]

theorem accumulate_eq {p0 packedWeight : IntArray 16} (hx : Small 16 p0) (hy : Small 64 packedWeight)
    {acc : IntArray 32} (hacc : acc.size = 4) :
    ∃ acc', accumulate p0 packedWeight acc = some acc' ∧ acc'.size = 4 ∧ ∀ c < 4, acc'.val c =
      ∑ k ∈ Finset.range 16, p0.val k*packedWeight.val (k*4+c) := by
  obtain ⟨acc0, hclear, hsize0, hzero, -⟩ := @forRange_clear 0 4 acc (fun c a => a.set c 0)
    (by omega) fun _ _ _ => rfl
  obtain ⟨acc', hloop, hsize, hsum⟩ := @forEach_addBlock 16 64 4 p0 packedWeight ℕ (List.range 16)
    (fun k => k) (fun k => k*4) acc0 hx hy (by omega) hzero (fun k => List.mem_range.mp)
    (by
      intro k hk
      have hk' : k < 16 := List.mem_range.mp hk
      omega)
    (by rw [List.length_range]; norm_num)
  refine ⟨acc', ?_, by omega, fun c hc => ?_⟩
  · have hclear' : (forRange 4 acc fun c acc => acc.set c 0) = some acc0 := hclear
    have hrounds : (forRange 16 acc0 fun k acc => addBlock 4 p0 packedWeight 0 k (k*4) acc) = some acc' := by
      rw [forRange_eq_forEach]
      exact hloop
    simp only [addBlock, add_zero, Option.bind_eq_bind] at hrounds
    simp only [accumulate, hclear', hrounds, Option.bind_eq_bind, Option.bind_some]
  · rw [hsum c hc, sum_map_range]

end DenseSubtract

theorem fusedNnDenseSubtract_eq {p0 p1 packedWeight : IntArray 16} (h0 : Small 16 p0) (h1 : Small 64 p1)
    {p2 : IntArray 32} (h2size : 4 ≤ p2.size) (h2 : ∀ o < 4, |p2.val o| ≤ 2^29)
    (hpacked : packedWeight.size = 64) {acc : IntArray 32} (hacc : acc.size = 4)
    {tMultiply : FloatArray F} (hsize : 4 ≤ tMultiply.size) :
    ∃ tMultiply', fusedNnDenseSubtract O p0 p1 p2 packedWeight acc tMultiply = some tMultiply' ∧
      tMultiply'.size = tMultiply.size ∧
      ∀ o < 4, tMultiply'.elem o = DenseSubtract.output O p0.val p1.val p2.val o := by
  obtain ⟨packed, hpack, hpackSize, hpackVal⟩ := DenseSubtract.packWeights_eq h1.size hpacked.ge
  have hpackSmall : Small 64 packed := by
    refine ⟨by omega, fun k hk => ?_⟩
    rw [hpackVal k hk]
    exact h1.bound _ (by omega)
  obtain ⟨r, hr, hrSize, hrVal⟩ := DenseSubtract.accumulate_eq h0 hpackSmall hacc
  have hsum : ∀ o < 4, r.val o = dense 16 p0.val (DenseSubtract.weights p1.val o) := by
    intro o ho
    rw [hrVal o ho, dense]
    apply Finset.sum_congr rfl
    intro k hk
    have hcell : (k*4+o)%4 = o ∧ (k*4+o)/4 = k := by omega
    rw [Finset.mem_range] at hk
    rw [hpackVal (k*4+o) (by omega), hcell.1, hcell.2]
  -- The zero point of the next layer, -77, is a constant of the kernel.
  obtain ⟨tMultiply', hloop, hsize', hset, -⟩ := @FloatArray.forRange_set F 4 tMultiply
    (fun o a => do
      let biased ← checked 32 ((← r.get o)+(← p2.get o))
      let scaled ← fixedPointMultiply biased 1223677426 6
      let v := clip (← checked 32 (scaled-77))
      a.set o (O.mul (O.ofInt (v+77)) (O.literal 2.622537)))
    (DenseSubtract.output O p0.val p1.val p2.val) hsize (by
      intro o ho a _ _
      have hget : r.get o = some (r.val o) := get_eq (by omega)
      have hget2 : p2.get o = some (p2.val o) := get_eq (by omega)
      have hle := @abs_dense_le 16 p0.val (DenseSubtract.weights p1.val o) 65025 (by
        intro k hk
        exact abs_product_le (h0.bound k hk) (h1.bound _ (by omega)))
      obtain ⟨hbiased, hmultiply, hresult⟩ := @requantize_steps _ _ 1223677426 6 (-77)
        (hle.trans (by norm_num)) (h2 o ho) (by decide) (by decide) (by norm_num)
      rw [neg_add_eq_sub] at hresult
      simp only [hget, hsum o ho, hget2, hbiased, hmultiply, hresult, clip_eq_saturate,
        Option.bind_eq_bind, Option.bind_some]
      rw [DenseSubtract.output, requantize, neg_add_eq_sub]
      rfl)
  refine ⟨tMultiply', ?_, hsize', hset⟩
  simp only [Option.bind_eq_bind] at hloop
  simp only [fusedNnDenseSubtract, hpack, hr, hloop, Option.bind_eq_bind, Option.bind_some]

/-! ### Softmax -/

/-- A loop whose rounds do not fault. -/
theorem forRange_some {σ : Type} (n : ℕ) (s : σ) {body : ℕ → σ → Option σ} {f : σ → ℕ → σ}
    (hbody : ∀ i < n, ∀ s, body i s = some (f s i)) :
    forRange n s body = some ((List.range n).foldl f s) := by
  induction n with
  | zero => rfl
  | succ n ih =>
    rw [forRange, ih fun i hi => hbody i (by omega), Option.bind_some, hbody n n.lt_succ_self,
      List.range_succ, List.foldl_append]
    rfl

namespace Softmax

variable (x : ℕ → F)

def maxelem : F :=
  (List.range 4).foldl (fun m k => if O.gt m (x k) then m else x k) (O.literal (-3.402823e38))

def exp (k : ℕ) : F := O.expf (O.sub (x k) (maxelem O x))

def expsum : F := (List.range 4).foldl (fun s k => O.add s (exp O x k)) (O.literal 0)

/-- The share of a class, on the scale of eight bits. -/
def output (k : ℕ) : ℤ :=
  let v2 := O.add (O.roundf (O.mul (O.div (exp O x k) (expsum O x)) (O.literal 256))) (O.literal (-128))
  let v3 := if O.lt v2 (O.literal 127) then v2 else O.literal 127
  convert 8 (O.toInt8 (if O.gt v3 (O.literal (-128)) then v3 else O.literal (-128)))

end Softmax

theorem fusedNnSoftmax_eq {p0 tSoftmaxExp : FloatArray F} (h0 : 4 ≤ p0.size)
    (hexp : tSoftmaxExp.size = 4) {tCast : IntArray 8} (hcast : 4 ≤ tCast.size) :
    ∃ tCast', fusedNnSoftmax O p0 tSoftmaxExp tCast = some tCast' ∧ tCast'.size = tCast.size ∧
      ∀ k < 4, tCast'.val k = Softmax.output O p0.elem k := by
  have hget0 : ∀ k < 4, p0.get k = some (p0.elem k) := fun k hk => FloatArray.get_eq (by omega)
  have hmax : (forRange 4 (O.literal (-3.402823e38)) fun k m => do
      let v1 ← p0.get k
      return if O.gt m v1 then m else v1) = some (Softmax.maxelem O p0.elem) :=
    forRange_some 4 _ fun k hk m => by
      rw [hget0 k hk]
      rfl
  obtain ⟨exps, hexps, hexpsSize, hexpsVal, -⟩ := @FloatArray.forRange_set F 4 tSoftmaxExp
    (fun k a => do a.set k (O.expf (O.sub (← p0.get k) (Softmax.maxelem O p0.elem))))
    (Softmax.exp O p0.elem) hexp.ge (by
      intro k hk a _ _
      rw [hget0 k hk]
      rfl)
  have hsum : (forRange 4 (O.literal 0) fun k s => do return O.add s (← exps.get k)) =
      some (Softmax.expsum O p0.elem) :=
    forRange_some 4 _ fun k hk s => by
      rw [FloatArray.get_eq (by omega), hexpsVal k hk]
      rfl
  obtain ⟨shares, hshares, hsharesSize, hsharesVal, -⟩ := @FloatArray.forRange_set F 4 exps
    (fun k a => do a.set k (O.div (← a.get k) (Softmax.expsum O p0.elem)))
    (fun k => O.div (Softmax.exp O p0.elem k) (Softmax.expsum O p0.elem)) (by omega) (by
      intro k hk a ha helem
      rw [FloatArray.get_eq (by omega), helem, hexpsVal k hk]
      rfl)
  -- A store keeps only the low eight bits.
  have hconvert (v : ℤ) (a : IntArray 8) (k : ℕ) : a.set k v = a.set k (convert 8 v) := by
    have hsame : a.put k v = a.put k (convert 8 v) := by
      simp only [put, convert, BitVec.ofInt_toInt]
    simp only [IntArray.set, hsame]
  obtain ⟨tCast', hloop, hsize, hset, -⟩ := @forRange_set 8 4 tCast
    (fun k a => do
      let v2 := O.add (O.roundf (O.mul (← shares.get k) (O.literal 256))) (O.literal (-128))
      let v3 := if O.lt v2 (O.literal 127) then v2 else O.literal 127
      a.set k (O.toInt8 (if O.gt v3 (O.literal (-128)) then v3 else O.literal (-128))))
    (fun k => k) (Softmax.output O p0.elem) (by decide) (fun k hk => hk.trans_le hcast) (fun _ _ _ _ h => h)
    (fun _ _ => ⟨BitVec.le_toInt _, BitVec.toInt_lt⟩) (by
      intro k hk a _ _
      rw [FloatArray.get_eq (by omega), hsharesVal k hk]
      exact hconvert _ a k)
  refine ⟨tCast', ?_, hsize, hset⟩
  simp only [Option.bind_eq_bind, Option.pure_def] at hmax hexps hsum hshares hloop
  simp only [fusedNnSoftmax, hmax, hexps, hsum, hshares, hloop, Option.bind_eq_bind, Option.bind_some,
    Option.pure_def]

end

end KenningRuntime.MagicWandInt8
