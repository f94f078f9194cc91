import KenningRuntime.TvmNetwork

/-! What the graph of the int8 model computes, and that its operators compute this on shared storages. -/
namespace KenningRuntime.MagicWandInt8
open CountedLoops CountedLoops.IntArray QuantizedLayers StoragePlan

/-! ### The network -/

/-- The values of two and four bytes in the entries of parameters. -/
def param16 (w : ℕ → IntArray 8) (entry : ℕ) : ℕ → ℤ := (asInt16 (w entry)).val

def param32 (w : ℕ → IntArray 8) (entry : ℕ) : ℕ → ℤ := (asInt32 (w entry)).val

namespace Network

section
variable (w : ℕ → IntArray 8) (x : ℕ → ℤ)

/-- The values of the nodes, with all the elements of an entry in one row. -/
def node2 (k : ℕ) : ℤ := x k-param16 w 1 0

def node9 (k : ℕ) : ℤ :=
  Conv2d.output (node2 w x) (param16 w 3) (param32 w 4) (param32 w 5) (param32 w 7) (param32 w 8 0)
    (k/384) (k%384/3) (k%3)

def node11 (k : ℕ) : ℤ :=
  (maxPool 2 2 fun i j => node9 w x (k/42*384+k%42*9+i*3+j))-param16 w 10 0

def node17 (k : ℕ) : ℤ :=
  Conv2d1.output (node11 w x) (param16 w 12) (param32 w 13) (param32 w 14) (param32 w 16) (param32 w 8 0)
    (k/42) (k%42)

def node18 (k : ℕ) : ℤ := maxPool 0 2 fun _ j => node17 w x (k*3+j)

def node19 (k : ℕ) : ℤ := node18 w x (k%16*14+k/16)-param16 w 10 0

def node22 (k : ℕ) : ℤ :=
  Dense.output (node19 w x) (param16 w 20) (param32 w 21) (param32 w 8 0) k

def node23 (k : ℕ) : ℤ := node22 w x k-param16 w 10 0

variable {F : Type} (O : FloatOps F)

def node26 (k : ℕ) : F := DenseSubtract.output O (node23 w x) (param16 w 24) (param32 w 25) k

def node27 (k : ℕ) : ℤ := Softmax.output O (node26 w x O) k

end

end Network

/-- The parameters: weights and zero points of eight bits, with the scales and the biases of the channels. -/
structure Params (w : ℕ → IntArray 8) : Prop where
  zero1 : ZeroPoint (asInt16 (w 1))
  weights3 : Small 96 (asInt16 (w 3))
  channels9 : ChannelParams 8 (asInt32 (w 4)) (asInt32 (w 5)) (asInt32 (w 7)) (asInt32 (w 8))
  zero10 : ZeroPoint (asInt16 (w 10))
  weights12 : Small 512 (asInt16 (w 12))
  channels17 : ChannelParams 16 (asInt32 (w 13)) (asInt32 (w 14)) (asInt32 (w 16)) (asInt32 (w 8))
  weights20 : Small 3584 (asInt16 (w 20))
  size21 : 16 ≤ (asInt32 (w 21)).size
  bias21 : ∀ o < 16, |param32 w 21 o| ≤ 2^29
  weights24 : Small 64 (asInt16 (w 24))
  size25 : 4 ≤ (asInt32 (w 25)).size
  bias25 : ∀ o < 4, |param32 w 25 o| ≤ 2^29

/-! ### What a layer reads of its input -/

section
variable {x x' weights bias multiplier shift : ℕ → ℤ} {zeroPoint : ℤ}

theorem Conv2d.output_congr (h : ∀ k < 384, x k = x' k) :
    Conv2d.output x weights bias multiplier shift zeroPoint =
      Conv2d.output x' weights bias multiplier shift zeroPoint := by
  funext channel i j
  have himage : ∀ c < 1, ∀ i j, image x c i j = image x' c i j := by
    intro c _
    apply padded_congr
    intro i hi j hj
    exact h _ (by omega)
  rw [output, output, convolution_congr _ himage]

theorem Conv2d1.output_congr (h : ∀ k < 336, x k = x' k) :
    Conv2d1.output x weights bias multiplier shift zeroPoint =
      Conv2d1.output x' weights bias multiplier shift zeroPoint := by
  funext channel i
  have himage : ∀ c < 8, ∀ i j, image x c i j = image x' c i j := by
    intro c hc
    apply padded_congr
    intro i hi _ _
    exact h _ (by omega)
  rw [output, output, convolution_congr _ himage]

theorem Dense.output_congr (h : ∀ k < 224, x k = x' k) :
    Dense.output x weights bias zeroPoint = Dense.output x' weights bias zeroPoint := by
  funext o
  rw [output, output, dense_congr _ h]

theorem DenseSubtract.output_congr {F : Type} (O : FloatOps F) (h : ∀ k < 16, x k = x' k) :
    DenseSubtract.output O x weights bias = DenseSubtract.output O x' weights bias := by
  funext o
  rw [output, output, dense_congr _ h]

end

theorem Softmax.output_congr {F : Type} (O : FloatOps F) {x x' : ℕ → F} (h : ∀ k < 4, x k = x' k)
    {k : ℕ} (hk : k < 4) : Softmax.output O x k = Softmax.output O x' k := by
  have hmax : maxelem O x = maxelem O x' := by
    apply List.foldl_ext
    intro m j hj
    rw [h j (List.mem_range.mp hj)]
  have hexp : ∀ j < 4, exp O x j = exp O x' j := by
    intro j hj
    rw [exp, exp, hmax, h j hj]
  have hsum : expsum O x = expsum O x' := by
    apply List.foldl_ext
    intro s j hj
    rw [hexp j (List.mem_range.mp hj)]
  rw [output, output, hsum, hexp k hk]

/-! ### The storages -/

theorem small_of_val {n : ℕ} {a : IntArray 16} {v : ℕ → ℤ} (hsize : n ≤ a.size)
    (hval : ∀ k < n, a.val k = v k) (hv : ∀ k, |v k| ≤ 255) : Small n a := by
  refine ⟨hsize, fun k hk => ?_⟩
  rw [hval k hk]
  exact hv k

/-- What is in the storage of an entry, when it is there. -/
def Holds {F : Type} (O : FloatOps F) (L : FloatBits F) (w : ℕ → IntArray 8) (x : ℕ → ℤ) (entry : ℕ)
    (s : IntArray 8) : Prop :=
  match entry with
  | 0 => ∀ k < 384, s.val k = x k
  | 2 => ∀ k < 384, (asInt16 s).val k = Network.node2 w x k
  | 9 => ∀ k < 3072, s.val k = Network.node9 w x k
  | 11 => ∀ k < 336, (asInt16 s).val k = Network.node11 w x k
  | 17 => ∀ k < 672, s.val k = Network.node17 w x k
  | 18 => ∀ k < 224, s.val k = Network.node18 w x k
  | 19 => ∀ k < 224, (asInt16 s).val k = Network.node19 w x k
  | 22 => ∀ k < 16, s.val k = Network.node22 w x k
  | 23 => ∀ k < 16, (asInt16 s).val k = Network.node23 w x k
  | 26 => ∀ k < 4, (asFloat L s).elem k = Network.node26 w x O k
  | 27 => ∀ k < 4, s.val k = Network.node27 w x O k
  | entry => s = w entry

/-- The workspaces of the operators are there, and are given back without an error. -/
structure TvmBackend.Serves (B : TvmBackend) : Prop where
  alloc : ∀ n ≤ 7168, ∃ a, B.allocWorkspace n = some a ∧ n ≤ 2*a.size
  free : B.freeWorkspace = 0

section
variable {F : Type} {O : FloatOps F} {L : FloatBits F} {w : ℕ → IntArray 8} {x : ℕ → ℤ} {B : TvmBackend}
  {stack : Stack F} {p0 out : IntArray 8}

/-! The nodes in their order: the bounds of the values, and the call. -/

theorem abs_node2_le (hw : Params w) (hx : ∀ k, Fits 8 (x k)) (k : ℕ) : |Network.node2 w x k| ≤ 255 :=
  hw.zero1.abs_sub_le (hx k)

theorem call_node2 (hw : Params w) (h0 : 384 ≤ p0.size) (hp0 : ∀ k < 384, p0.val k = x k)
    (hout : 768 ≤ out.size) :
    ∃ s, call O L B stack .fusedLayoutTransformCastSubtract [p0, w 1] out = some s ∧
      (∀ k < 384, (asInt16 s).val k = Network.node2 w x k) ∧ 768 ≤ s.size := by
  have hsize : 384 ≤ (asInt16 out).size := @Nat.div_le_div_right _ _ 2 hout
  obtain ⟨t, ht, htSize, hval⟩ := fusedLayoutTransformCastSubtract_eq h0 hw.zero1 hsize
  refine ⟨fromInt16 out t, ?_, fun k hk => ?_, hout⟩
  · simp only [call_fusedLayoutTransformCastSubtract, ht, Option.map_some]
  · rw [val_asInt16_fromInt16 out (by omega), hval k hk, hp0 k hk]
    rfl

theorem node9_fits (k : ℕ) : Fits 8 (Network.node9 w x k) := requantize_fits _ _ _ _

theorem call_node9 (hw : Params w) (hx : ∀ k, Fits 8 (x k)) (hB : B.Serves) (h0 : 768 ≤ p0.size)
    (hp0 : ∀ k < 384, (asInt16 p0).val k = Network.node2 w x k) (hout : 3072 ≤ out.size) :
    ∃ s, call O L B stack .fusedNnConv2d [p0, w 3, w 4, w 5, w 6, w 7, w 8] out = some s ∧
      (∀ k < 3072, s.val k = Network.node9 w x k) ∧ 3072 ≤ s.size := by
  obtain ⟨workspace, halloc, hworkspace⟩ := hB.alloc 1310 (by norm_num)
  have hsmall : Small 384 (asInt16 p0) :=
    small_of_val (@Nat.div_le_div_right _ _ 2 h0) hp0 (abs_node2_le hw hx)
  obtain ⟨t, ht, htSize, hval⟩ := @Conv2d.fusedNnConv2d_eq ⟨384, stack.int16⟩ B workspace halloc (by omega)
    _ _ hsmall hw.weights3 _ _ _ _ hw.channels9 rfl ⟨12, stack.int32⟩ rfl out hout
  refine ⟨t, ?_, fun k hk => ?_, by omega⟩
  · simp only [call_fusedNnConv2d, ht, hB.free, ne_eq, not_true_eq_false, if_false, Option.bind_some, if_true]
  · have hk' : k/384*384+k%384/3*3+k%3 = k := by omega
    have h := hval (k/384) (by omega) (k%384/3) (by omega) (k%3) (by omega)
    rw [hk', Conv2d.output_congr hp0] at h
    exact h

theorem abs_node11_le (hw : Params w) (k : ℕ) : |Network.node11 w x k| ≤ 255 :=
  hw.zero10.abs_sub_le (maxPool_fits fun _ _ _ _ => node9_fits _)

theorem call_node11 (hw : Params w) (h0 : 3072 ≤ p0.size)
    (hp0 : ∀ k < 3072, p0.val k = Network.node9 w x k) (hout : 768 ≤ out.size) :
    ∃ s, call O L B stack .fusedNnMaxPool2dCastSubtract [p0, w 10] out = some s ∧
      (∀ k < 336, (asInt16 s).val k = Network.node11 w x k) ∧ 768 ≤ s.size := by
  have hsize : 384 ≤ (asInt16 out).size := @Nat.div_le_div_right _ _ 2 hout
  obtain ⟨t, ht, htSize, hval⟩ := @fusedNnMaxPool2dCastSubtract_eq p0 ⟨336, stack.int8⟩ _ (asInt16 out) h0
    hw.zero10 rfl (by omega)
  refine ⟨fromInt16 out t, ?_, fun k hk => ?_, hout⟩
  · simp only [call_fusedNnMaxPool2dCastSubtract, ht, Option.map_some]
  · rw [val_asInt16_fromInt16 out (by omega), hval k hk, Network.node11, maxPool_congr]
    · rfl
    · intro i hi j hj
      exact hp0 _ (by omega)

theorem node17_fits (k : ℕ) : Fits 8 (Network.node17 w x k) := requantize_fits _ _ _ _

theorem call_node17 (hw : Params w) (hB : B.Serves) (h0 : 768 ≤ p0.size)
    (hp0 : ∀ k < 336, (asInt16 p0).val k = Network.node11 w x k) (hout : 3072 ≤ out.size) :
    ∃ s, call O L B stack .fusedNnConv2d1 [p0, w 12, w 13, w 14, w 15, w 16, w 8] out = some s ∧
      (∀ k < 672, s.val k = Network.node17 w x k) ∧ 3072 ≤ s.size := by
  obtain ⟨workspace, halloc, hworkspace⟩ := hB.alloc 1024 (by norm_num)
  have hsize : 384 ≤ (asInt16 p0).size := @Nat.div_le_div_right _ _ 2 h0
  have hsmall : Small 336 (asInt16 p0) := small_of_val (by omega) hp0 (abs_node11_le hw)
  obtain ⟨t, ht, htSize, hval⟩ := @Conv2d1.fusedNnConv2d1_eq _ _ ⟨360, stack.int16⟩ B workspace halloc
    (by omega) hsmall hw.weights12 _ _ _ _ hw.channels17 rfl ⟨4, stack.int32⟩ rfl out (by omega)
  refine ⟨t, ?_, fun k hk => ?_, by omega⟩
  · simp only [call_fusedNnConv2d1, ht, hB.free, ne_eq, not_true_eq_false, if_false, Option.bind_some, if_true]
  · have hk' : k/42*42+k%42 = k := by omega
    have h := hval (k/42) (by omega) (k%42) (by omega)
    rw [hk', Conv2d1.output_congr hp0] at h
    exact h

theorem node18_fits (k : ℕ) : Fits 8 (Network.node18 w x k) := maxPool_fits fun _ _ _ _ => node17_fits _

theorem call_node18 (h0 : 3072 ≤ p0.size) (hp0 : ∀ k < 672, p0.val k = Network.node17 w x k)
    (hout : 768 ≤ out.size) :
    ∃ s, call O L B stack .fusedNnMaxPool2d [p0] out = some s ∧
      (∀ k < 224, s.val k = Network.node18 w x k) ∧ 768 ≤ s.size := by
  obtain ⟨t, ht, htSize, hval⟩ := fusedNnMaxPool2d_eq (by omega : 672 ≤ p0.size) (by omega : 224 ≤ out.size)
  refine ⟨t, ht, fun k hk => ?_, by omega⟩
  rw [hval k hk, Network.node18]
  apply maxPool_congr
  intro i _ j hj
  exact hp0 _ (by omega)

theorem abs_node19_le (hw : Params w) (k : ℕ) : |Network.node19 w x k| ≤ 255 :=
  hw.zero10.abs_sub_le (node18_fits _)

theorem call_node19 (hw : Params w) (h0 : 768 ≤ p0.size)
    (hp0 : ∀ k < 224, p0.val k = Network.node18 w x k) (hout : 3072 ≤ out.size) :
    ∃ s, call O L B stack .fusedLayoutTransformReshapeCastSubtract [p0, w 10] out = some s ∧
      (∀ k < 224, (asInt16 s).val k = Network.node19 w x k) ∧ 3072 ≤ s.size := by
  have hsize : 1536 ≤ (asInt16 out).size := @Nat.div_le_div_right _ _ 2 hout
  obtain ⟨t, ht, htSize, hval⟩ := fusedLayoutTransformReshapeCastSubtract_eq (by omega : 224 ≤ p0.size)
    hw.zero10 (by omega : 224 ≤ (asInt16 out).size)
  refine ⟨fromInt16 out t, ?_, fun k hk => ?_, hout⟩
  · simp only [call_fusedLayoutTransformReshapeCastSubtract, ht, Option.map_some]
  · rw [val_asInt16_fromInt16 out (by omega), hval k hk, hp0 _ (by omega)]
    rfl

theorem node22_fits (k : ℕ) : Fits 8 (Network.node22 w x k) := requantize_fits _ _ _ _

theorem call_node22 (hw : Params w) (hB : B.Serves) (h0 : 3072 ≤ p0.size)
    (hp0 : ∀ k < 224, (asInt16 p0).val k = Network.node19 w x k) (hout : 16 ≤ out.size) :
    ∃ s, call O L B stack .fusedNnDense [p0, w 20, w 21, w 8] out = some s ∧
      (∀ k < 16, s.val k = Network.node22 w x k) ∧ 16 ≤ s.size := by
  obtain ⟨workspace, halloc, hworkspace⟩ := hB.alloc 7168 (by norm_num)
  have hsize : 1536 ≤ (asInt16 p0).size := @Nat.div_le_div_right _ _ 2 h0
  have hsmall : Small 224 (asInt16 p0) := small_of_val (by omega) hp0 (abs_node19_le hw)
  obtain ⟨t, ht, htSize, hval⟩ := @fusedNnDense_eq B workspace halloc (by omega) _ _ hsmall hw.weights20 _ _
    hw.size21 hw.bias21 hw.channels9.size6 hw.channels9.zeroPoint ⟨8, stack.int32⟩ rfl out hout
  refine ⟨t, ?_, fun k hk => ?_, by omega⟩
  · simp only [call_fusedNnDense, ht, hB.free, ne_eq, not_true_eq_false, if_false, Option.bind_some, if_true]
  · have h := hval k hk
    rw [Dense.output_congr hp0] at h
    exact h

theorem abs_node23_le (hw : Params w) (k : ℕ) : |Network.node23 w x k| ≤ 255 :=
  hw.zero10.abs_sub_le (node22_fits _)

theorem call_node23 (hw : Params w) (h0 : 16 ≤ p0.size)
    (hp0 : ∀ k < 16, p0.val k = Network.node22 w x k) (hout : 32 ≤ out.size) :
    ∃ s, call O L B stack .fusedReshapeCastSubtract [p0, w 10] out = some s ∧
      (∀ k < 16, (asInt16 s).val k = Network.node23 w x k) ∧ 32 ≤ s.size := by
  have hsize : 16 ≤ (asInt16 out).size := @Nat.div_le_div_right _ _ 2 hout
  obtain ⟨t, ht, htSize, hval⟩ := fusedReshapeCastSubtract_eq h0 hw.zero10 hsize
  refine ⟨fromInt16 out t, ?_, fun k hk => ?_, hout⟩
  · simp only [call_fusedReshapeCastSubtract, ht, Option.map_some]
  · rw [val_asInt16_fromInt16 out (by omega), hval k hk, hp0 k hk]
    rfl

theorem call_node26 (hw : Params w) (h0 : 32 ≤ p0.size)
    (hp0 : ∀ k < 16, (asInt16 p0).val k = Network.node23 w x k) (hout : 16 ≤ out.size) :
    ∃ s, call O L B stack .fusedNnDenseSubtract [p0, w 24, w 25] out = some s ∧
      (∀ k < 4, (asFloat L s).elem k = Network.node26 w x O k) ∧ 16 ≤ s.size := by
  have hsmall : Small 16 (asInt16 p0) :=
    small_of_val (@Nat.div_le_div_right _ _ 2 h0) hp0 (abs_node23_le hw)
  have hsize : 4 ≤ (asFloat L out).size := @Nat.div_le_div_right _ _ 4 hout
  obtain ⟨t, ht, htSize, hval⟩ := @fusedNnDenseSubtract_eq F O _ _ ⟨64, stack.int16⟩ hsmall hw.weights24 _
    hw.size25 hw.bias25 rfl ⟨4, stack.int32⟩ rfl (asFloat L out) hsize
  refine ⟨fromFloat L out t, ?_, fun k hk => ?_, hout⟩
  · simp only [call_fusedNnDenseSubtract, ht, Option.map_some]
  · have h := hval k hk
    rw [DenseSubtract.output_congr O hp0] at h
    rw [elem_asFloat_fromFloat L out (by omega), h]
    rfl

theorem call_node27 (h0 : 16 ≤ p0.size) (hp0 : ∀ k < 4, (asFloat L p0).elem k = Network.node26 w x O k)
    (hout : 32 ≤ out.size) :
    ∃ s, call O L B stack .fusedNnSoftmax [p0] out = some s ∧
      (∀ k < 4, s.val k = Network.node27 w x O k) ∧ 32 ≤ s.size := by
  obtain ⟨t, ht, htSize, hval⟩ := @fusedNnSoftmax_eq F O (asFloat L p0) ⟨4, stack.float⟩
    (@Nat.div_le_div_right _ _ 4 h0) rfl out (by omega)
  refine ⟨t, ht, fun k hk => ?_, by omega⟩
  rw [hval k hk]
  exact Softmax.output_congr O hp0 hk

/-! ### The run of the graph -/

theorem sound_nodes : Sound storageId argNodes nodes := by decide

/-- The operators compute what the nodes stand for, and leave the parameters in their storages. -/
theorem run_nodes (hw : Params w) (hx : ∀ k, Fits 8 (x k)) (hB : B.Serves) (stack : Operator → Stack F)
    {m : ℕ → IntArray 8} (hm : ∀ s, storageSize s ≤ (m s).size)
    (hargs : ∀ e ∈ argNodes, Holds O L w x e (m (storageId e))) :
    ∃ m', StoragePlan.run storageId (fun op => call O L B (stack op) op) nodes m = some m' ∧
      (∀ s, storageSize s ≤ (m' s).size) ∧
      ∀ e ∈ atEnd storageId argNodes nodes, Holds O L w x e (m' (storageId e)) := by
  have hsize0 : storageSize 0 = 384 := by decide
  have hsize2 : storageSize 2 = 768 := by decide
  have hsize9 : storageSize 9 = 3072 := by decide
  have hsize18 : storageSize 18 = 16 := by decide
  have hsize19 : storageSize 19 = 32 := by decide
  have hact : ∀ step ∈ nodes, ∀ m : ℕ → IntArray 8, (∀ s, storageSize s ≤ (m s).size) →
      (∀ e ∈ step.inputs, Holds O L w x e (m (storageId e))) →
      ∃ c, call O L B (stack step.action) step.action (step.inputs.map fun e => m (storageId e))
          (m (storageId step.output)) = some c ∧ Holds O L w x step.output c ∧
        storageSize (storageId step.output) ≤ c.size := by
    intro step hstep m hm hin
    have hm0 : 384 ≤ (m 0).size := hsize0 ▸ hm 0
    have hm2 : 768 ≤ (m 2).size := hsize2 ▸ hm 2
    have hm9 : 3072 ≤ (m 9).size := hsize9 ▸ hm 9
    have hm18 : 16 ≤ (m 18).size := hsize18 ▸ hm 18
    have hm19 : 32 ≤ (m 19).size := hsize19 ▸ hm 19
    -- One case for each node: its parameters are as they were, and its output storage is large enough.
    simp only [nodes, List.mem_cons, List.not_mem_nil, or_false] at hstep
    rcases hstep with rfl | rfl | rfl | rfl | rfl | rfl | rfl | rfl | rfl | rfl
    · have h1 : m 1 = w 1 := hin 1 (by decide)
      have hcall := @call_node2 F O L w x B (stack .fusedLayoutTransformCastSubtract) (m 0) (m 2) hw hm0
        (hin 0 (by decide)) hm2
      rw [← h1, ← hsize2] at hcall
      exact hcall
    · have h3 : m 3 = w 3 := hin 3 (by decide)
      have h4 : m 4 = w 4 := hin 4 (by decide)
      have h5 : m 5 = w 5 := hin 5 (by decide)
      have h6 : m 6 = w 6 := hin 6 (by decide)
      have h7 : m 7 = w 7 := hin 7 (by decide)
      have h8 : m 8 = w 8 := hin 8 (by decide)
      have hcall := @call_node9 F O L w x B (stack .fusedNnConv2d) (m 2) (m 9) hw hx hB hm2 (hin 2 (by decide)) hm9
      rw [← h3, ← h4, ← h5, ← h6, ← h7, ← h8, ← hsize9] at hcall
      exact hcall
    · have h10 : m 10 = w 10 := hin 10 (by decide)
      have hcall := @call_node11 F O L w x B (stack .fusedNnMaxPool2dCastSubtract) (m 9) (m 2) hw hm9
        (hin 9 (by decide)) hm2
      rw [← h10, ← hsize2] at hcall
      exact hcall
    · have h12 : m 11 = w 12 := hin 12 (by decide)
      have h13 : m 12 = w 13 := hin 13 (by decide)
      have h14 : m 13 = w 14 := hin 14 (by decide)
      have h15 : m 14 = w 15 := hin 15 (by decide)
      have h16 : m 15 = w 16 := hin 16 (by decide)
      have h8 : m 8 = w 8 := hin 8 (by decide)
      have hcall := @call_node17 F O L w x B (stack .fusedNnConv2d1) (m 2) (m 9) hw hB hm2 (hin 11 (by decide)) hm9
      rw [← h12, ← h13, ← h14, ← h15, ← h16, ← h8, ← hsize9] at hcall
      exact hcall
    · have hcall := @call_node18 F O L w x B (stack .fusedNnMaxPool2d) (m 9) (m 2) hm9 (hin 17 (by decide)) hm2
      rw [← hsize2] at hcall
      exact hcall
    · have h10 : m 10 = w 10 := hin 10 (by decide)
      have hcall := @call_node19 F O L w x B (stack .fusedLayoutTransformReshapeCastSubtract) (m 2) (m 9) hw hm2
        (hin 18 (by decide)) hm9
      rw [← h10, ← hsize9] at hcall
      exact hcall
    · have h20 : m 16 = w 20 := hin 20 (by decide)
      have h21 : m 17 = w 21 := hin 21 (by decide)
      have h8 : m 8 = w 8 := hin 8 (by decide)
      have hcall := @call_node22 F O L w x B (stack .fusedNnDense) (m 9) (m 18) hw hB hm9 (hin 19 (by decide)) hm18
      rw [← h20, ← h21, ← h8, ← hsize18] at hcall
      exact hcall
    · have h10 : m 10 = w 10 := hin 10 (by decide)
      have hcall := @call_node23 F O L w x B (stack .fusedReshapeCastSubtract) (m 18) (m 19) hw hm18
        (hin 22 (by decide)) hm19
      rw [← h10, ← hsize19] at hcall
      exact hcall
    · have h24 : m 20 = w 24 := hin 24 (by decide)
      have h25 : m 21 = w 25 := hin 25 (by decide)
      have hcall := @call_node26 F O L w x B (stack .fusedNnDenseSubtract) (m 19) (m 18) hw hm19 (hin 23 (by decide)) hm18
      rw [← h24, ← h25, ← hsize18] at hcall
      exact hcall
    · have hcall := @call_node27 F O L w x B (stack .fusedNnSoftmax) (m 18) (m 19) hm18 (hin 26 (by decide)) hm19
      rw [← hsize19] at hcall
      exact hcall
  exact @StoragePlan.run_eq ℕ Operator ℕ (IntArray 8) _ storageId (fun op => call O L B (stack op) op)
    (Holds O L w x) (fun s c => storageSize s ≤ c.size) argNodes nodes m sound_nodes hact hm hargs

/-- An entry of parameters is in its storage as it was. -/
theorem holds_arg {c : IntArray 8} : ∀ e ∈ argNodes, e ≠ 0 → (Holds O L w x e c ↔ c = w e) := by
  intro e he h0
  simp only [argNodes, List.mem_cons, List.not_mem_nil, or_false, h0, false_or] at he
  rcases he with rfl | rfl | rfl | rfl | rfl | rfl | rfl | rfl | rfl | rfl | rfl | rfl | rfl | rfl | rfl |
    rfl | rfl <;> exact Iff.rfl

theorem infer_eq (hw : Params w) {m : ℕ → IntArray 8} (hm : ∀ s, storageSize s ≤ (m s).size)
    (hparams : ∀ e ∈ argNodes, e ≠ 0 → m (storageId e) = w e) {l : List (Inference F)}
    (hB : ∀ i ∈ l, i.backend.Serves) :
    infer O L l m =
      some (l.map fun i => (List.range 4).map (Network.node27 w (fun k => (i.input k).toInt) O)) := by
  induction l generalizing m with
  | nil => rfl
  | cons i l ih =>
    rw [List.forall_mem_cons] at hB
    have hm' : ∀ s, storageSize s ≤ (setInput i.input m s).size := by
      intro s
      by_cases hs : s = storageId 0
      · rw [setInput, hs, Function.update_self]
        exact hm (storageId 0)
      · rw [setInput, Function.update_of_ne hs]
        exact hm s
    -- The input has a storage of its own.
    have hothers : ∀ e ∈ argNodes, e ≠ 0 → storageId e ≠ storageId 0 := by decide
    have hargs : ∀ e ∈ argNodes,
        Holds O L w (fun k => (i.input k).toInt) e (setInput i.input m (storageId e)) := by
      intro e he
      by_cases h0 : e = 0
      · rw [h0]
        intro k hk
        have hself := @Function.update_self ℕ (fun _ => IntArray 8) _ (storageId 0)
          {m (storageId 0) with elem := fun i' => if i' < 384 then i.input i' else (m (storageId 0)).elem i'} m
        rw [setInput, hself, val]
        simp only [if_pos hk]
      · rw [holds_arg e he h0, setInput, Function.update_of_ne (hothers e he h0)]
        exact hparams e he h0
    obtain ⟨m', hrun, hsizes, hend⟩ := run_nodes hw (fun k => ⟨BitVec.le_toInt _, BitVec.toInt_lt⟩) hB.1
      i.stack hm' hargs
    -- No node writes to a storage of parameters, so the next inference finds them.
    have hkept : ∀ e ∈ argNodes, e ∈ atEnd storageId argNodes nodes := by decide
    have hparams' : ∀ e ∈ argNodes, e ≠ 0 → m' (storageId e) = w e := fun e he h0 =>
      (holds_arg e he h0).mp (hend e (hkept e he))
    have hresult : (List.range 4).map (m' (storageId 27)).val =
        (List.range 4).map (Network.node27 w (fun k => (i.input k).toInt) O) := by
      apply List.map_congr_left
      intro k hk
      exact hend 27 (by decide) k (List.mem_range.mp hk)
    simp only [infer, hrun, ih hsizes hparams' hB.2, hresult, Option.bind_eq_bind, Option.bind_some,
      Option.pure_def, List.map_cons]

end

/-- Each output is that of the network for its input, whatever was computed before. -/
theorem int8_inferences {F : Type} (O : FloatOps F) (L : FloatBits F) {m : ℕ → IntArray 8}
    (hm : ∀ s, storageSize s ≤ (m s).size) (hw : Params fun e => m (storageId e))
    {l : List (Inference F)} (hB : ∀ i ∈ l, i.backend.Serves) :
    infer O L l m = some (l.map fun i => (List.range 4).map
      (Network.node27 (fun e => m (storageId e)) (fun k => (i.input k).toInt) O)) :=
  infer_eq hw hm (fun _ _ _ => rfl) hB

theorem foldr_max_le {l : List ℕ} {n : ℕ} (h : ∀ k ∈ l, k ≤ n) : l.foldr max 0 ≤ n := by
  induction l with
  | nil => exact Nat.zero_le n
  | cons k l ih =>
    rw [List.forall_mem_cons] at h
    exact max_le h.1 (ih h.2)

theorem storageSize_le (s : ℕ) : storageSize s ≤ 7168 := by
  have hentries : ∀ entry < 28, entrySize entry ≤ 7168 := by decide
  apply foldr_max_le
  intro k hk
  obtain ⟨entry, hentry, rfl⟩ := List.mem_map.mp hk
  exact hentries entry (List.mem_range.mp (List.mem_filter.mp hentry).1)

/-- Numbers with eight binary places for `float`. -/
def fixedOps : FloatOps (BitVec 32) where
  literal q := BitVec.ofInt 32 (max (-2147483648) (round (q*256)))
  ofInt v := BitVec.ofInt 32 (v*256)
  toInt8 x := x.toInt/256
  add x y := x+y
  sub x y := x-y
  mul x y := BitVec.ofInt 32 (x.toInt*y.toInt/256)
  div x y := BitVec.ofInt 32 (x.toInt*256/y.toInt)
  gt x y := y.slt x
  lt x y := x.slt y
  expf x := if x = 0 then 256 else 0
  roundf x := BitVec.ofInt 32 ((x.toInt+128)/256*256)

/-- Words of two bytes and of four bytes with the value 1. -/
def ones16 : IntArray 8 := ⟨7168, fun k => if k%2 = 0 then 1 else 0⟩

def ones32 : IntArray 8 := ⟨7168, fun k => if k%4 = 0 then 1 else 0⟩

/-- Words of four bytes with the value 2^30, which halves what it is multiplied with. -/
def halves32 : IntArray 8 := ⟨7168, fun k => if k%4 = 3 then 64 else 0⟩

/-- Weights, biases, shifts and zero points of 1, and multipliers that halve. -/
def onesStorages (storage : ℕ) : IntArray 8 :=
  if storage ∈ [1, 3, 10, 11, 16, 20] then ones16
  else if storage ∈ [5, 13] then halves32
  else ones32

theorem val_ones16 (k : ℕ) : (asInt16 ones16).val k = 1 := by
  show ((if (2*k+1)%2 = 0 then 1 else 0 : BitVec 8) ++ (if 2*k%2 = 0 then 1 else 0 : BitVec 8)).toInt = 1
  rw [if_neg (by omega), if_pos (by omega)]
  decide

theorem val_ones32 (k : ℕ) : (asInt32 ones32).val k = 1 := by
  show ((if (4*k+3)%4 = 0 then 1 else 0 : BitVec 8) ++ ((if (4*k+2)%4 = 0 then 1 else 0 : BitVec 8) ++
    ((if (4*k+1)%4 = 0 then 1 else 0 : BitVec 8) ++ (if 4*k%4 = 0 then 1 else 0 : BitVec 8)))).toInt = 1
  rw [if_neg (by omega), if_neg (by omega), if_neg (by omega), if_pos (by omega)]
  decide

theorem size_onesStorages (storage : ℕ) : (onesStorages storage).size = 7168 := by
  rw [onesStorages]
  split
  · rfl
  · split <;> rfl

theorem small_ones16 {n : ℕ} (hn : n ≤ 3584) : Small n (asInt16 ones16) := by
  refine ⟨hn, ?_⟩
  intro k _
  rw [val_ones16]
  decide

theorem zeroPoint_ones16 : ZeroPoint (asInt16 ones16) := by
  refine ⟨(by decide : 1 ≤ 7168/2), ?_⟩
  rw [val_ones16]
  decide

theorem channelParams_ones32 {n : ℕ} (hn : n ≤ 1792) :
    ChannelParams n (asInt32 ones32) (asInt32 halves32) (asInt32 ones32) (asInt32 ones32) := by
  refine ⟨hn, hn, hn, (by decide : 1 ≤ 7168/4), fun c _ => ?_, fun c _ => ?_, ?_⟩
  all_goals
    rw [val_ones32]
    decide

theorem params_onesStorages : Params fun e => onesStorages (storageId e) where
  zero1 := zeroPoint_ones16
  weights3 := small_ones16 (by decide)
  channels9 := channelParams_ones32 (by decide)
  zero10 := zeroPoint_ones16
  weights12 := small_ones16 (by decide)
  channels17 := channelParams_ones32 (by decide)
  weights20 := small_ones16 (by decide)
  size21 := (by decide : 16 ≤ 7168/4)
  bias21 := (channelParams_ones32 (by decide)).bias
  weights24 := small_ones16 (by decide)
  size25 := (by decide : 4 ≤ 7168/4)
  bias25 := (channelParams_ones32 (by decide)).bias

/-- Two inferences with other inputs. -/
def twoInferences : List (Inference (BitVec 32)) :=
  [⟨fun _ => 5, plainBackend, fun _ => ⟨fun _ => 0, fun _ => 0, fun _ => 0, fun _ => 0⟩⟩,
    ⟨fun k => BitVec.ofNat 8 k, plainBackend, fun _ => ⟨fun _ => 1, fun _ => 1, fun _ => 1, fun _ => 1⟩⟩]

theorem int8_inferences_ones :
    infer fixedOps ⟨id, id, fun _ => rfl⟩ twoInferences onesStorages =
      some (twoInferences.map fun i => (List.range 4).map
        (Network.node27 (fun e => onesStorages (storageId e)) (fun k => (i.input k).toInt) fixedOps)) := by
  have hserves : plainBackend.Serves := ⟨fun n _ => ⟨⟨n, fun _ => 0⟩, rfl, Nat.le_mul_of_pos_left n two_pos⟩, rfl⟩
  have hsize : ∀ s, storageSize s ≤ (onesStorages s).size := by
    intro s
    rw [size_onesStorages]
    exact storageSize_le s
  apply int8_inferences fixedOps ⟨id, id, fun _ => rfl⟩ hsize params_onesStorages
  intro i hi
  rcases List.mem_pair.mp hi with rfl | rfl <;> exact hserves

end KenningRuntime.MagicWandInt8
