import KenningRuntime.Library.Slices
import KenningRuntime.ModelFrame

/-! The validation of the model specification (core/model.c) as it reads: through pointers that are
computed from offsets into the structure. -/
namespace KenningRuntime
open LittleEndian Slices

/-! ### The fields -/

/-- The sizes of the fields of `model_spec_t`, which is packed. -/
def modelSpecFieldSizes : List ℕ :=
  [4, 4*2, 4*(2*4), 2*2, 4, 4*12, 4*(12*4), 2*12, 20, 20]

namespace TensorGeometry

variable (g : TensorGeometry)

/-! `num_tensor_dim`, `tensor_shape` and `tensor_data_type`. -/

def numDimField : Slice := ⟨g.numDimOffset, 4*g.maxNum⟩
def shapeField : Slice := ⟨g.shapeOffset, 4*(g.maxNum*g.maxDim)⟩
def dataTypeField : Slice := ⟨g.dataTypeOffset, 2*g.maxNum⟩

/-- The three arrays are fields of their own. -/
structure Placed : Prop where
  numDim : g.numDimField ∈ consecutive 0 modelSpecFieldSizes
  shape : g.shapeField ∈ consecutive 0 modelSpecFieldSizes
  dataType : g.dataTypeField ∈ consecutive 0 modelSpecFieldSizes

end TensorGeometry

/-- No byte is in two fields, and none is behind the end of the structure. -/
theorem modelSpecFields_tile : Tiles modelSpecSize (consecutive 0 modelSpecFieldSizes) :=
  tiles_consecutive modelSpecFieldSizes

theorem inputGeometry_placed : inputGeometry.Placed := ⟨by decide, by decide, by decide⟩

theorem outputGeometry_placed : outputGeometry.Placed := ⟨by decide, by decide, by decide⟩

/-! ### `validate_tensors` -/

section
variable (g : TensorGeometry) (spec : List UInt8)

/-- A read through a pointer to a field; `none` if it is not inside the field. -/
def readField (field : Slice) (off width : ℕ) : Option ℕ :=
  if off+width ≤ field.size then some (word spec (field.offset+off) width) else none

/-- The loop over the dimensions of tensor `i`, from dimension `j` on. The index has 32 bits. -/
def validateShapeLoop (i : ℕ) : ℕ → ℕ → Bool → Option Bool
  | 0, _, tensorInvalid => some tensorInvalid
  | left+1, j, tensorInvalid =>
    match readField spec g.shapeField (4*((g.maxDim*i+j)%2^32)) 4 with
    | none => none
    | some tensorShape => validateShapeLoop i left (j+1) (tensorInvalid || decide (0 = tensorShape))

/-- The loop over the tensors, from tensor `i` on. -/
def validateTensorsLoop : ℕ → ℕ → Bool → Option Bool
  | 0, _, tensorInvalid => some tensorInvalid
  | left+1, i, tensorInvalid =>
    match readField spec g.numDimField (4*i) 4, readField spec g.dataTypeField (2*i+1) 1,
        readField spec g.dataTypeField (2*i) 1 with
    | some numTensorDim, some bits, some code =>
      -- The flag only collects; the loops go on, with their bounds cut to the sizes of the arrays.
      let tensorInvalid := tensorInvalid || decide (0 = numTensorDim ∨ numTensorDim > g.maxDim)
      let tensorInvalid := tensorInvalid || decide (bits%kenningBitsPerByte ≠ 0)
      let tensorInvalid := tensorInvalid || decide (code ≥ dataTypeCodeEnd)
      match validateShapeLoop g spec i (min numTensorDim g.maxDim) 0 tensorInvalid with
      | none => none
      | some tensorInvalid => validateTensorsLoop left (i+1) tensorInvalid
    | _, _, _ => none

/-- `validate_tensors`, for the number of tensors that is read before the call: true if the description
is invalid, and `none` if a read is not inside the field it is meant for. -/
def validateTensorsByOffsets : Option Bool :=
  let numTensors := numTensors g spec
  validateTensorsLoop g spec (min numTensors g.maxNum) 0
    (decide (numTensors < 1 ∨ numTensors > g.maxNum))

end

/-- `model_load_struct_from_loader`, with the number of bytes that the loader has written: its status and
the state after it. -/
def modelLoadStructByOffsets (modelState : ModelState) (written : ℕ) (spec : List UInt8) :
    Option (Status × ModelState) :=
  if modelState < .initialized then some (modelStatusInvState, modelState)
  else if modelSpecSize ≠ written then some (Module.model.statusInvArg, modelState)
  else
    match validateTensorsByOffsets inputGeometry spec with
    | none => none
    | some true => some (Module.model.statusInvArg, modelState)
    | some false =>
      match validateTensorsByOffsets outputGeometry spec with
      | none => none
      | some true => some (Module.model.statusInvArg, modelState)
      | some false => some (statusOk, .structLoaded)

/-! ### The reads are inside the fields -/

section
variable {g : TensorGeometry} {spec : List UInt8}

theorem readField_inside {field : Slice} {off width : ℕ} (h : off+width ≤ field.size) :
    readField spec field off width = some (word spec (field.offset+off) width) := if_pos h

/-- The row of a tensor is inside the array, and the index does not wrap. -/
theorem readField_shape (hg : g.maxNum*g.maxDim < 2^32) {i j : ℕ} (hi : i < g.maxNum)
    (hj : j < g.maxDim) :
    readField spec g.shapeField (4*((g.maxDim*i+j)%2^32)) 4 = some (tensorShape g spec i j) := by
  have hrow : g.maxDim*(i+1) ≤ g.maxNum*g.maxDim := by
    rw [Nat.mul_comm g.maxNum]
    exact Nat.mul_le_mul_left _ hi
  rw [Nat.mul_succ] at hrow
  have hindex : (g.maxDim*i+j)%2^32 = g.maxDim*i+j := Nat.mod_eq_of_lt (by omega)
  rw [hindex, readField_inside (by rw [TensorGeometry.shapeField]; simp only; omega)]
  rfl

theorem validateShapeLoop_eq (hg : g.maxNum*g.maxDim < 2^32) {i left j : ℕ} (hi : i < g.maxNum)
    (hj : j+left ≤ g.maxDim) (invalid : Bool) :
    validateShapeLoop g spec i left j invalid = some (invalid ||
      (List.range' j left).any fun j => decide (0 = tensorShape g spec i j)) := by
  induction left generalizing j invalid with
  | zero => rw [validateShapeLoop, List.range'_zero, List.any_nil, Bool.or_false]
  | succ left ih =>
    rw [validateShapeLoop, readField_shape hg hi (by omega)]
    simp only
    rw [ih (by omega), List.range'_succ, List.any_cons, Bool.or_assoc]

theorem validateTensorsLoop_eq (hg : g.maxNum*g.maxDim < 2^32) {left i : ℕ} (hi : i+left ≤ g.maxNum)
    (invalid : Bool) :
    validateTensorsLoop g spec left i invalid = some (invalid ||
      (List.range' i left).any (tensorInvalid g spec)) := by
  induction left generalizing i invalid with
  | zero => rw [validateTensorsLoop, List.range'_zero, List.any_nil, Bool.or_false]
  | succ left ih =>
    have hdim : readField spec g.numDimField (4*i) 4 = some (numTensorDim g spec i) :=
      readField_inside (by rw [TensorGeometry.numDimField]; simp only; omega)
    have hbits : readField spec g.dataTypeField (2*i+1) 1 = some (dataTypeBits g spec i) :=
      readField_inside (by rw [TensorGeometry.dataTypeField]; simp only; omega)
    have hcode : readField spec g.dataTypeField (2*i) 1 = some (dataTypeCode g spec i) :=
      readField_inside (by rw [TensorGeometry.dataTypeField]; simp only; omega)
    rw [validateTensorsLoop, hdim, hbits, hcode]
    simp only
    rw [validateShapeLoop_eq hg (by omega) (by omega)]
    simp only
    -- The flag collects what the body finds for tensor `i`.
    rw [ih (by omega), List.range'_succ, List.any_cons, tensorInvalid, List.range_eq_range']
    simp only [Bool.or_assoc]

theorem validateTensorsByOffsets_eq (hg : g.maxNum*g.maxDim < 2^32) :
    validateTensorsByOffsets g spec = some (validateTensors g spec) := by
  rw [validateTensorsByOffsets, validateTensorsLoop_eq hg (by omega), validateTensors,
    List.range_eq_range']

end

theorem modelLoadStructByOffsets_eq (modelState : ModelState) (written : ℕ) (spec : List UInt8) :
    modelLoadStructByOffsets modelState written spec =
      if modelState < .initialized then some (modelStatusInvState, modelState)
      else if modelSpecSize ≠ written then some (Module.model.statusInvArg, modelState)
      else if validateTensors inputGeometry spec then some (Module.model.statusInvArg, modelState)
      else if validateTensors outputGeometry spec then some (Module.model.statusInvArg, modelState)
      else some (statusOk, .structLoaded) := by
  rw [modelLoadStructByOffsets, validateTensorsByOffsets_eq (by decide),
    validateTensorsByOffsets_eq (by decide)]
  cases validateTensors inputGeometry spec with
  | true => rfl
  | false =>
    cases validateTensors outputGeometry spec with
    | true => rfl
    | false => rfl

/-- What the model layer does once it has prepared the loader. -/
theorem modelLoadStructFromLoader_eq {S : Type} {m : Model S} (hprepared : m.iospecPrepared = true) :
    m.modelLoadStructFromLoader =
      (modelLoadStructByOffsets m.modelState m.iospec.written m.modelSpec).map fun r =>
        (r.1, {m with modelState := r.2}) := by
  have hne : ¬ m.iospecPrepared = false := by
    rw [hprepared]
    decide
  rw [Model.modelLoadStructFromLoader, modelLoadStructByOffsets_eq, if_neg hne]
  split_ifs
  · rfl
  · rfl
  · rfl
  · rfl
  · rfl

/-- A specification is accepted exactly if the model layer is initialized, as many bytes were written as
the structure has, and the descriptions of the inputs and of the outputs are valid; and for every content
the reads are inside the fields they are meant for. -/
theorem modelLoadStructByOffsets_accepts_iff (modelState : ModelState) (written : ℕ)
    (spec : List UInt8) :
    ∃ status state, modelLoadStructByOffsets modelState written spec = some (status, state) ∧
      (status = statusOk ↔ .initialized ≤ modelState ∧ written = modelSpecSize ∧
        TensorsValid inputGeometry spec ∧ TensorsValid outputGeometry spec) ∧
      (status = statusOk → state = .structLoaded) ∧ (status ≠ statusOk → state = modelState) := by
  have hinvState : modelStatusInvState ≠ statusOk := status_ne_ok _ (by decide)
  have hinvArg : Module.model.statusInvArg ≠ statusOk := status_ne_ok _ (by decide)
  rw [modelLoadStructByOffsets_eq]
  split_ifs with hlow hwritten hin hout
  · refine ⟨_, _, rfl, ⟨fun h => absurd h hinvState, ?_⟩, fun h => absurd h hinvState, fun _ => rfl⟩
    exact fun h => absurd hlow (ModelState.not_lt.mpr h.1)
  · refine ⟨_, _, rfl, ⟨fun h => absurd h hinvArg, ?_⟩, fun h => absurd h hinvArg, fun _ => rfl⟩
    exact fun h => absurd h.2.1.symm hwritten
  · refine ⟨_, _, rfl, ⟨fun h => absurd h hinvArg, ?_⟩, fun h => absurd h hinvArg, fun _ => rfl⟩
    intro h
    rw [validateTensors_eq_false.mpr h.2.2.1] at hin
    cases hin
  · refine ⟨_, _, rfl, ⟨fun h => absurd h hinvArg, ?_⟩, fun h => absurd h hinvArg, fun _ => rfl⟩
    intro h
    rw [validateTensors_eq_false.mpr h.2.2.2] at hout
    cases hout
  · refine ⟨_, _, rfl, ⟨fun _ => ?_, fun _ => rfl⟩, fun _ => rfl, fun h => absurd rfl h⟩
    exact ⟨ModelState.not_lt.mp hlow, (not_not.mp hwritten).symm,
      validateTensors_eq_false.mp (Bool.eq_false_of_not_eq_true hin),
      validateTensors_eq_false.mp (Bool.eq_false_of_not_eq_true hout)⟩

end KenningRuntime
