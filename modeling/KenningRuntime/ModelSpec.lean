import KenningRuntime.Library.LittleEndian

/-! The model specification (`model_spec_t`, core/runtime_wrapper.h): its layout, its validation
(`validate_tensors`, core/model.c) and the sizes that are computed from it. The code for the inputs
and the code for the outputs differ in the offsets and the array sizes only. -/
namespace KenningRuntime
open LittleEndian

/-- Where the description of the input tensors, or of the output tensors, is in a `model_spec_t`,
and how long its arrays are. -/
structure TensorGeometry where
  numOffset : ℕ
  numDimOffset : ℕ
  shapeOffset : ℕ
  dataTypeOffset : ℕ
  maxNum : ℕ
  maxDim : ℕ

/-- `num_input`, `num_input_dim[2]`, `input_shape[2][4]`, `input_data_type[2]`. -/
def inputGeometry : TensorGeometry where
  numOffset := 0
  numDimOffset := 4
  shapeOffset := 12
  dataTypeOffset := 44
  maxNum := 2
  maxDim := 4

/-- `num_output`, `num_output_dim[12]`, `output_shape[12][4]`, `output_data_type[12]`. -/
def outputGeometry : TensorGeometry where
  numOffset := 48
  numDimOffset := 52
  shapeOffset := 100
  dataTypeOffset := 292
  maxNum := 12
  maxDim := 4

/-- `sizeof(model_spec_t)`: after the tensors come `entry_func[20]` and `model_name[20]`. -/
def modelSpecSize : ℕ := 356

/-- `offsetof(model_spec_t, entry_func)` -/
def entryFuncOffset : ℕ := 316

/-- The string that starts at an offset of the structure: it goes on up to a zero byte, over the ends of
the members. `none` if the structure ends before. -/
def cString (spec : List UInt8) (off : ℕ) : Option (List UInt8) :=
  let s := (spec.drop off).takeWhile (· ≠ 0)
  if off+s.length < spec.length then some s else none

/-- The entry function, as the runtimes of IREE and ExecuTorch read it. -/
def entryFunc (spec : List UInt8) : Option (List UInt8) := cString spec entryFuncOffset

def dataTypeCodeEnd : ℕ := 18
def kenningBitsPerByte : ℕ := 8

section
variable (g : TensorGeometry) (spec : List UInt8)

def numTensors : ℕ := word spec g.numOffset 4
def numTensorDim (i : ℕ) : ℕ := word spec (g.numDimOffset+4*i) 4
def tensorShape (i j : ℕ) : ℕ := word spec (g.shapeOffset+4*(g.maxDim*i+j)) 4
def dataTypeCode (i : ℕ) : ℕ := word spec (g.dataTypeOffset+2*i) 1
def dataTypeBits (i : ℕ) : ℕ := word spec (g.dataTypeOffset+2*i+1) 1

/-- The body of the loop of `validate_tensors`: whether tensor `i` is invalid. -/
def tensorInvalid (i : ℕ) : Bool :=
  decide (0 = numTensorDim g spec i ∨ numTensorDim g spec i > g.maxDim) ||
    decide (dataTypeBits g spec i%kenningBitsPerByte ≠ 0) ||
    decide (dataTypeCode g spec i ≥ dataTypeCodeEnd) ||
    (List.range (min (numTensorDim g spec i) g.maxDim)).any fun j =>
      decide (0 = tensorShape g spec i j)

/-- `validate_tensors`: true if the description is invalid. -/
def validateTensors : Bool :=
  decide (numTensors g spec < 1 ∨ numTensors g spec > g.maxNum) ||
    (List.range (min (numTensors g spec) g.maxNum)).any (tensorInvalid g spec)

/-- The loop of `model_spec_input_length` and `model_spec_output_length` from dimension `j` on;
`none` if it reads behind the row of the shape array. -/
def modelSpecLengthLoop (index : ℕ) : ℕ → ℕ → ℕ → Option ℕ
  | 0, _, result => some result
  | left+1, j, result =>
    if j < g.maxDim then
      modelSpecLengthLoop index left (j+1) (result*tensorShape g spec index j%2^32)
    else none

/-- `model_spec_input_length` and `model_spec_output_length`; `none` if an array is read behind its
end. -/
def modelSpecLength (index : ℕ) : Option ℕ :=
  if index ≥ numTensors g spec then some 0
  else if index < g.maxNum then modelSpecLengthLoop g spec index (numTensorDim g spec index) 0 1
  else none

/-- The loop of `model_get_input_size` and `model_get_output_size` from tensor `i` on. `size_t` has
32 bits. -/
def modelSizeLoop : ℕ → ℕ → ℕ → Option ℕ
  | 0, _, size => some size
  | left+1, i, size =>
    match modelSpecLength g spec i with
    | none => none
    | some length =>
      if i < g.maxNum then
        modelSizeLoop left (i+1)
          ((size + length*dataTypeBits g spec i%2^32/kenningBitsPerByte)%2^32)
      else none

def modelSize : Option ℕ := modelSizeLoop g spec (numTensors g spec) 0 0

end

def modelSpecInputLength : List UInt8 → ℕ → Option ℕ := modelSpecLength inputGeometry

def modelSpecOutputLength : List UInt8 → ℕ → Option ℕ := modelSpecLength outputGeometry

/-! ### What a valid specification is -/

/-- The description of one tensor makes sense. -/
structure TensorValid (g : TensorGeometry) (spec : List UInt8) (i : ℕ) : Prop where
  dim_pos : 1 ≤ numTensorDim g spec i
  dim_le : numTensorDim g spec i ≤ g.maxDim
  bits : dataTypeBits g spec i%8 = 0
  code : dataTypeCode g spec i < dataTypeCodeEnd
  shape : ∀ j < numTensorDim g spec i, tensorShape g spec i j ≠ 0

/-- The number of tensors is in range, and each of them is valid. -/
structure TensorsValid (g : TensorGeometry) (spec : List UInt8) : Prop where
  num_pos : 1 ≤ numTensors g spec
  num_le : numTensors g spec ≤ g.maxNum
  tensors : ∀ i < numTensors g spec, TensorValid g spec i

variable {g : TensorGeometry} {spec : List UInt8}

theorem tensorInvalid_eq_false {i : ℕ} : tensorInvalid g spec i = false ↔ TensorValid g spec i := by
  simp only [tensorInvalid, Bool.or_eq_false_iff, decide_eq_false_iff_not, List.any_eq_false,
    List.mem_range, decide_eq_true_eq, kenningBitsPerByte]
  constructor
  · intro h
    obtain ⟨⟨⟨hdim, hbits⟩, hcode⟩, hshape⟩ := h
    -- The loop of the check ends at the smaller of the two bounds, which is the number of dimensions.
    have hle : numTensorDim g spec i ≤ g.maxDim := by omega
    refine ⟨by omega, hle, not_not.mp (of_decide_eq_false hbits), not_le.mp hcode, ?_⟩
    intro j hj h0
    exact hshape j (lt_min hj (hj.trans_le hle)) h0.symm
  · intro h
    have hpos := h.dim_pos
    have hle := h.dim_le
    refine ⟨⟨⟨by omega, decide_eq_false (not_not.mpr h.bits)⟩, not_le.mpr h.code⟩, ?_⟩
    intro j hj h0
    exact h.shape j (hj.trans_le (min_le_left _ _)) h0.symm

/-- `validate_tensors` accepts exactly the valid descriptions. -/
theorem validateTensors_eq_false : validateTensors g spec = false ↔ TensorsValid g spec := by
  simp only [validateTensors, Bool.or_eq_false_iff, decide_eq_false_iff_not, List.any_eq_false,
    List.mem_range, Bool.not_eq_true, tensorInvalid_eq_false]
  constructor
  · intro h
    obtain ⟨hnum, htensors⟩ := h
    have hle : numTensors g spec ≤ g.maxNum := by omega
    exact ⟨by omega, hle, fun i hi => htensors i (lt_min hi (hi.trans_le hle))⟩
  · intro h
    have hpos := h.num_pos
    have hle := h.num_le
    exact ⟨by omega, fun i hi => h.tensors i (hi.trans_le (min_le_left _ _))⟩

/-- The product over the dimensions stays in the row as long as they fit into it. -/
theorem modelSpecLengthLoop_isSome {index left j : ℕ} (h : j+left ≤ g.maxDim) (result : ℕ) :
    (modelSpecLengthLoop g spec index left j result).isSome = true := by
  induction left generalizing j result with
  | zero => rfl
  | succ left ih =>
    rw [modelSpecLengthLoop, if_pos (show j < g.maxDim by omega)]
    exact ih (by omega) _

theorem modelSpecLength_isSome (h : TensorsValid g spec) (index : ℕ) :
    (modelSpecLength g spec index).isSome = true := by
  rw [modelSpecLength]
  split
  · rfl
  · next hindex =>
    have hlt : index < numTensors g spec := by omega
    rw [if_pos (hlt.trans_le h.num_le)]
    apply modelSpecLengthLoop_isSome
    have hle := (h.tensors index hlt).dim_le
    omega

theorem modelSizeLoop_isSome (h : TensorsValid g spec) {left i : ℕ} (hi : i+left ≤ g.maxNum)
    (size : ℕ) : (modelSizeLoop g spec left i size).isSome = true := by
  induction left generalizing i size with
  | zero => rfl
  | succ left ih =>
    obtain ⟨length, hlength⟩ := Option.isSome_iff_exists.mp (modelSpecLength_isSome h i)
    simp only [modelSizeLoop, hlength, if_pos (show i < g.maxNum by omega)]
    exact ih (by omega) _

theorem modelSize_isSome (h : TensorsValid g spec) : (modelSize g spec).isSome = true := by
  have hle := h.num_le
  exact modelSizeLoop_isSome h (by omega) 0

end KenningRuntime
