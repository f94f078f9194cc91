import KenningRuntime.ModelFrame

/-! The sizes of the tensors of a specification: the numbers, and when the 32-bit arithmetic of the
code computes them. -/
namespace KenningRuntime

/-- A sum modulo `n` of numbers from below is the sum if each of them is exact and the sum fits. -/
theorem sum_mod_eq_iff {ι : Type*} {s : Finset ι} {f g : ι → ℕ} {n : ℕ} (hn : 0 < n)
    (h : ∀ i ∈ s, f i ≤ g i) :
    (∑ i ∈ s, f i)%n = ∑ i ∈ s, g i ↔ (∀ i ∈ s, f i = g i) ∧ ∑ i ∈ s, g i < n := by
  have hle := Finset.sum_le_sum h
  constructor
  · intro heq
    have hmod := Nat.mod_le (∑ i ∈ s, f i) n
    have hsum : ∑ i ∈ s, f i = ∑ i ∈ s, g i := by omega
    refine ⟨(Finset.sum_eq_sum_iff_of_le h).mp hsum, ?_⟩
    rw [← heq]
    exact Nat.mod_lt _ hn
  · intro hall
    obtain ⟨heach, hlt⟩ := hall
    rw [Finset.sum_congr rfl heach]
    exact Nat.mod_eq_of_lt hlt

theorem sum_range_shift (f : ℕ → ℕ) (i n : ℕ) :
    ∑ k ∈ Finset.range (n+1), f (i+k) = f i+∑ k ∈ Finset.range n, f (i+1+k) := by
  rw [Finset.sum_range_succ', Nat.add_comm, Nat.add_zero]
  congr 1
  apply Finset.sum_congr rfl
  intro k _
  rw [Nat.add_assoc, Nat.add_comm 1 k]

theorem prod_range_shift (f : ℕ → ℕ) (i n : ℕ) :
    ∏ k ∈ Finset.range (n+1), f (i+k) = f i*∏ k ∈ Finset.range n, f (i+1+k) := by
  rw [Finset.prod_range_succ', Nat.mul_comm, Nat.add_zero]
  congr 1
  apply Finset.prod_congr rfl
  intro k _
  rw [Nat.add_assoc, Nat.add_comm 1 k]

section
variable (g : TensorGeometry) (spec : List UInt8)

/-- The number of elements of tensor `i`. -/
def elements (i : ℕ) : ℕ := ∏ j ∈ Finset.range (numTensorDim g spec i), tensorShape g spec i j

/-- The size of all tensors together, in bytes. -/
def exactSize : ℕ :=
  ∑ i ∈ Finset.range (numTensors g spec), elements g spec i*dataTypeBits g spec i/8

/-- No multiplication of the code wraps for tensor `i`: not the product over its first dimensions,
however many, and not that of all of them with the number of bits. -/
structure Unwrapped (i : ℕ) : Prop where
  product : ∀ k ≤ numTensorDim g spec i, ∏ j ∈ Finset.range k, tensorShape g spec i j < 2^32
  bits : elements g spec i*dataTypeBits g spec i < 2^32

/-- The numbers that the code computes with fit into 32 bits. -/
structure SizesFit : Prop where
  elements : ∀ i < numTensors g spec, elements g spec i < 2^32
  bits : ∀ i < numTensors g spec, KenningRuntime.elements g spec i*dataTypeBits g spec i < 2^32
  total : exactSize g spec < 2^32

end

variable {g : TensorGeometry} {spec : List UInt8}

/-! ### What the code computes -/

theorem modelSpecLengthLoop_eq {index left j : ℕ} (h : j+left ≤ g.maxDim) (result : ℕ) :
    modelSpecLengthLoop g spec index left j (result%2^32) =
      some ((result*∏ k ∈ Finset.range left, tensorShape g spec index (j+k))%2^32) := by
  -- The accumulator may have wrapped before dimension `j`, so it is any number modulo 2^32.
  induction left generalizing j result with
  | zero => simp only [modelSpecLengthLoop, Finset.range_zero, Finset.prod_empty, mul_one]
  | succ left ih =>
    have hj : j < g.maxDim := by omega
    have hrest : j+1+left ≤ g.maxDim := by omega
    rw [modelSpecLengthLoop, if_pos hj, Nat.mod_mul_mod, ih hrest,
      prod_range_shift (tensorShape g spec index), Nat.mul_assoc]

theorem modelSpecLength_eq (h : TensorsValid g spec) {i : ℕ} (hi : i < numTensors g spec) :
    modelSpecLength g spec i = some (elements g spec i%2^32) := by
  have hdim := (h.tensors i hi).dim_le
  have hloop := @modelSpecLengthLoop_eq g spec i (numTensorDim g spec i) 0 (by omega) 1
  simp only [Nat.zero_add, Nat.one_mul] at hloop
  rw [modelSpecLength, if_neg (by omega), if_pos (hi.trans_le h.num_le)]
  exact hloop

/-- The size of tensor `i` as the code computes it. -/
def wrappedSize (g : TensorGeometry) (spec : List UInt8) (i : ℕ) : ℕ :=
  elements g spec i*dataTypeBits g spec i%2^32/8

theorem modelSizeLoop_eq (h : TensorsValid g spec) {left i : ℕ} (hi : i+left ≤ numTensors g spec)
    (size : ℕ) : modelSizeLoop g spec left i (size%2^32) =
      some ((size+∑ k ∈ Finset.range left, wrappedSize g spec (i+k))%2^32) := by
  induction left generalizing i size with
  | zero => simp only [modelSizeLoop, Finset.range_zero, Finset.sum_empty, Nat.add_zero]
  | succ left ih =>
    have hlt : i < numTensors g spec := by omega
    have hrest : i+1+left ≤ numTensors g spec := by omega
    simp only [modelSizeLoop, modelSpecLength_eq h hlt, if_pos (hlt.trans_le h.num_le),
      kenningBitsPerByte]
    have hterm : elements g spec i%2^32*dataTypeBits g spec i%2^32/8 = wrappedSize g spec i := by
      rw [Nat.mod_mul_mod, wrappedSize]
    rw [hterm, Nat.mod_add_mod, ih hrest, sum_range_shift (wrappedSize g spec), Nat.add_assoc]

theorem modelSize_eq (h : TensorsValid g spec) :
    modelSize g spec =
      some ((∑ i ∈ Finset.range (numTensors g spec), wrappedSize g spec i)%2^32) := by
  have hloop := @modelSizeLoop_eq g spec h (numTensors g spec) 0 (by omega) 0
  simp only [Nat.zero_add] at hloop
  rw [modelSize]
  exact hloop

/-! ### When it is exact -/

theorem wrappedSize_le (i : ℕ) : wrappedSize g spec i ≤ elements g spec i*dataTypeBits g spec i/8 :=
  Nat.div_le_div_right (Nat.mod_le _ _)

/-- Whole bytes, so nothing is lost in the division. -/
theorem wrappedSize_eq_iff {i : ℕ} (h : TensorValid g spec i) :
    wrappedSize g spec i = elements g spec i*dataTypeBits g spec i/8 ↔
      elements g spec i*dataTypeBits g spec i < 2^32 := by
  obtain ⟨b, hb⟩ := Nat.dvd_of_mod_eq_zero h.bits
  have hbytes : elements g spec i*dataTypeBits g spec i = 8*(elements g spec i*b) := by
    rw [hb]
    ring
  rw [wrappedSize, hbytes]
  -- 8 divides 2^32, so the wrapped number of bits is a multiple of 8 as well.
  omega

theorem modelSize_exact_iff (h : TensorsValid g spec) :
    modelSize g spec = some (exactSize g spec) ↔
      (∀ i < numTensors g spec, elements g spec i*dataTypeBits g spec i < 2^32) ∧
        exactSize g spec < 2^32 := by
  rw [modelSize_eq h, Option.some_inj, exactSize,
    sum_mod_eq_iff (by decide) fun i _ => wrappedSize_le i]
  apply and_congr_left
  intro _
  -- What is left is a statement about each tensor.
  constructor
  · intro hall i hi
    exact (wrappedSize_eq_iff (h.tensors i hi)).mp (hall i (Finset.mem_range.mpr hi))
  · intro hall i hi
    have hi := Finset.mem_range.mp hi
    exact (wrappedSize_eq_iff (h.tensors i hi)).mpr (hall i hi)

/-- No dimension is zero, so a product of some of them is at most that of all. -/
theorem prod_tensorShape_le {i k : ℕ} (h : TensorValid g spec i) (hk : k ≤ numTensorDim g spec i) :
    ∏ j ∈ Finset.range k, tensorShape g spec i j ≤ elements g spec i := by
  apply Finset.prod_le_prod_of_subset_of_one_le' (Finset.range_subset_range.mpr hk)
  intro j hj _
  exact Nat.one_le_iff_ne_zero.mpr (h.shape j (Finset.mem_range.mp hj))

theorem exact_and_unwrapped_iff (h : TensorsValid g spec) :
    (modelSize g spec = some (exactSize g spec) ∧ ∀ i < numTensors g spec, Unwrapped g spec i) ↔
      SizesFit g spec := by
  rw [modelSize_exact_iff h]
  constructor
  · intro hall
    obtain ⟨⟨hbits, htotal⟩, hunwrapped⟩ := hall
    exact ⟨fun i hi => (hunwrapped i hi).product _ le_rfl, hbits, htotal⟩
  · intro hfit
    refine ⟨⟨hfit.bits, hfit.total⟩, ?_⟩
    intro i hi
    refine ⟨?_, hfit.bits i hi⟩
    intro k hk
    -- The product over all dimensions is the largest one on the way.
    exact (prod_tensorShape_le (h.tensors i hi) hk).trans_lt (hfit.elements i hi)

/-! ### The sizes of an accepted specification -/

section
variable {S : Type} {m m' : Model S}

theorem modelGetSize_eq_iff (hstate : ModelState.structLoaded ≤ m.modelState) {size : ℕ} :
    m.modelGetSize g = some (.ok size) ↔ modelSize g m.modelSpec = some size := by
  rw [Model.modelGetSize, if_neg (ModelState.not_lt.mpr hstate), Option.map_eq_some_iff]
  constructor
  · intro h
    obtain ⟨size', hsize, heq⟩ := h
    rw [hsize, Except.ok.inj heq]
  · exact fun h => ⟨size, h, rfl⟩

/-- Both sizes are the exact ones, and no multiplication on the way to them wraps, if and only if the
numbers fit into 32 bits. -/
theorem modelGetSize_exact_iff (h : m.modelLoadStructFromLoader = some (statusOk, m')) :
    (m'.modelGetInputSize = some (.ok (exactSize inputGeometry m'.modelSpec)) ∧
      m'.modelGetOutputSize = some (.ok (exactSize outputGeometry m'.modelSpec)) ∧
      (∀ i < numTensors inputGeometry m'.modelSpec, Unwrapped inputGeometry m'.modelSpec i) ∧
      ∀ i < numTensors outputGeometry m'.modelSpec, Unwrapped outputGeometry m'.modelSpec i) ↔
    SizesFit inputGeometry m'.modelSpec ∧ SizesFit outputGeometry m'.modelSpec := by
  obtain ⟨-, hvalid, rfl⟩ := Model.modelLoadStructFromLoader_ok h
  have hin := exact_and_unwrapped_iff hvalid.input
  have hout := exact_and_unwrapped_iff hvalid.output
  have hstate : ModelState.structLoaded ≤
      ({m with modelState := .structLoaded} : Model S).modelState := Nat.le_refl _
  rw [Model.modelGetInputSize, Model.modelGetOutputSize, modelGetSize_eq_iff hstate,
    modelGetSize_eq_iff hstate]
  constructor
  · intro hall
    obtain ⟨hsizeIn, hsizeOut, hunwrappedIn, hunwrappedOut⟩ := hall
    exact ⟨hin.mp ⟨hsizeIn, hunwrappedIn⟩, hout.mp ⟨hsizeOut, hunwrappedOut⟩⟩
  · intro hall
    obtain ⟨hfitIn, hfitOut⟩ := hall
    obtain ⟨hsizeIn, hunwrappedIn⟩ := hin.mpr hfitIn
    obtain ⟨hsizeOut, hunwrappedOut⟩ := hout.mpr hfitOut
    exact ⟨hsizeIn, hsizeOut, hunwrappedIn, hunwrappedOut⟩

end

theorem modelSpecSize_lt : modelSpecSize < 2^32 := by decide

/-- The model layer with a specification in its loader. -/
def receivedSpec (spec : List UInt8) (h : spec.length = modelSpecSize) : Model Unit where
  modelState := .initialized
  iospec := {
    mem := spec
    written := modelSpecSize
    mem_length := h
    written_le := le_rfl
    capacity_lt := modelSpecSize_lt }
  iospecPrepared := true
  runtime := ()

theorem receivedSpec_accepted {h : spec.length = modelSpecSize} (hvalid : SpecValid spec) :
    (receivedSpec spec h).modelLoadStructFromLoader =
      some (statusOk, {receivedSpec spec h with modelState := .structLoaded}) :=
  Model.modelLoadStructFromLoader_valid (Nat.le_refl _) rfl rfl hvalid

/-- An input tensor of 2 × 3 values of type `float`, and two output tensors: 2 × 2 values of type `int8_t`
and 3 values of type `float`. -/
def severalSpec : List UInt8 :=
  (List.range modelSpecSize).map fun i =>
    if i ∈ [0, 56] then 1 else if i ∈ [4, 12, 44, 48, 52, 100, 104, 294] then 2
    else if i ∈ [16, 116] then 3 else if i = 293 then 8 else if i ∈ [45, 295] then 32 else 0

theorem severalSpec_valid : SpecValid severalSpec :=
  ⟨validateTensors_eq_false.mp (by decide +kernel), validateTensors_eq_false.mp (by decide +kernel)⟩

theorem length_severalSpec : severalSpec.length = modelSpecSize := by
  rw [severalSpec, List.length_map, List.length_range]

theorem modelGetSize_exact_several :
    (({receivedSpec severalSpec length_severalSpec with modelState := .structLoaded} : Model Unit)
      ).modelGetInputSize = some (.ok 24) ∧
    (({receivedSpec severalSpec length_severalSpec with modelState := .structLoaded} : Model Unit)
      ).modelGetOutputSize = some (.ok (4+12)) := by
  have hin : SizesFit inputGeometry severalSpec :=
    ⟨by decide +kernel, by decide +kernel, by decide +kernel⟩
  have hout : SizesFit outputGeometry severalSpec :=
    ⟨by decide +kernel, by decide +kernel, by decide +kernel⟩
  have hinput : exactSize inputGeometry severalSpec = 24 := by decide +kernel
  have houtput : exactSize outputGeometry severalSpec = 4+12 := by decide +kernel
  obtain ⟨hsizeIn, hsizeOut, -⟩ :=
    (modelGetSize_exact_iff (receivedSpec_accepted severalSpec_valid)).mpr ⟨hin, hout⟩
  rw [← hinput, ← houtput]
  exact ⟨hsizeIn, hsizeOut⟩

/-- One input tensor of 65536 × 65536 values of type `int8_t`. -/
def squareSpec : List UInt8 :=
  (List.range modelSpecSize).map fun i =>
    if i ∈ [0, 14, 18, 48, 52, 100] then 1 else if i = 4 then 2 else if i ∈ [45, 293] then 8 else 0

theorem length_squareSpec : squareSpec.length = modelSpecSize := by
  rw [squareSpec, List.length_map, List.length_range]

/-- The specification is accepted, and its input of 4 GiB is said to have no bytes. -/
theorem modelGetInputSize_square :
    ∃ m' : Model Unit, (receivedSpec squareSpec length_squareSpec).modelLoadStructFromLoader =
        some (statusOk, m') ∧
      m'.modelGetInputSize = some (.ok 0) ∧ exactSize inputGeometry m'.modelSpec = 2^32 := by
  have hvalid : SpecValid squareSpec :=
    ⟨validateTensors_eq_false.mp (by decide +kernel), validateTensors_eq_false.mp (by decide +kernel)⟩
  have hsize : modelSize inputGeometry squareSpec = some 0 := by decide +kernel
  have hexact : exactSize inputGeometry squareSpec = 2^32 := by decide +kernel
  exact ⟨_, receivedSpec_accepted hvalid, (modelGetSize_eq_iff (Nat.le_refl _)).mpr hsize, hexact⟩

end KenningRuntime
