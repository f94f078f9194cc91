import KenningRuntime.Library.Slices
import KenningRuntime.OutputCopy

/-! How the IREE runtime (runtimes/iree/iree.c) and the ExecuTorch runtime
(runtimes/executorch/executorch.cpp) take the inputs of a model out of the received buffer. -/
namespace KenningRuntime
open Slices

def numInput (spec : List UInt8) : ℕ := numTensors inputGeometry spec

def inputBits (spec : List UInt8) (i : ℕ) : ℕ := dataTypeBits inputGeometry spec i

/-- `input_shape[i]`, as far as `num_input_dim[i]` says. -/
def inputShape (spec : List UInt8) (i : ℕ) : List ℕ :=
  (List.range (numTensorDim inputGeometry spec i)).map (tensorShape inputGeometry spec i)

/-! ### IREE -/

namespace Iree

inductive ElementType where
  | int8
  | int16
  | int32
  | int64
  | uint8
  | uint16
  | uint32
  | uint64
  | float16
  | float32
  | none
deriving DecidableEq, Repr

/-- `kenning_elem_dtype_to_iree_hal_elem_type`. -/
def kenningElemDtypeToIreeHalElemType (code bits : ℕ) : ElementType :=
  match code, bits with
  -- `DATA_TYPE_INT`
  | 0, 8 => .int8
  | 0, 16 => .int16
  | 0, 32 => .int32
  | 0, 64 => .int64
  -- `DATA_TYPE_UINT`
  | 1, 8 => .uint8
  | 1, 16 => .uint16
  | 1, 32 => .uint32
  | 1, 64 => .uint64
  -- `DATA_TYPE_FLOAT`
  | 2, 16 => .float16
  | 2, 32 => .float32
  | _, _ => .none

/-- What `iree_hal_buffer_view_allocate_buffer_copy` gets for an input. -/
structure BufferCopy where
  shape : List ℕ
  elementType : ElementType
  byteSpan : Slice
deriving DecidableEq, Repr

/-- What the functions of IREE answer: true if the status is ok. -/
structure InputAnswers where
  listCreate : Bool
  allocateBufferCopy : ℕ → Bool
  listPushRefMove : ℕ → Bool

/-- The first loop of `prepare_input_hal_buffer_views`, from input `i` on. `none` if an array is read
or written behind its end. -/
def byteSpans (spec : List UInt8) : ℕ → ℕ → ℕ → Option (List Slice)
  | 0, _, _ => some []
  | left+1, i, offset =>
    match modelSpecInputLength spec i with
    | none => none
    | some length =>
      if i < inputGeometry.maxNum then
        let size := computeStructureSizeBytes length (inputBits spec i)
        match byteSpans spec left (i+1) ((offset+size)%2^32) with
        | none => none
        | some spans => some (⟨offset, size⟩ :: spans)
      else none

/-- The second loop, which stops at the first error. -/
def allocateCopies (spec : List UInt8) (allocateBufferCopy : ℕ → Bool) :
    ℕ → List Slice → Bool × List BufferCopy
  | _, [] => (true, [])
  | i, byteSpan :: byteSpans =>
    let copy : BufferCopy := {
      shape := inputShape spec i
      elementType := kenningElemDtypeToIreeHalElemType (dataTypeCode inputGeometry spec i)
        (inputBits spec i)
      byteSpan }
    if allocateBufferCopy i then
      match allocateCopies spec allocateBufferCopy (i+1) byteSpans with
      | (ok, copies) => (ok, copy :: copies)
    else (false, [copy])

/-- `runtime_init_input` and `prepare_input_buffer`. -/
def runtimeInitInput (spec : List UInt8) (answers : InputAnswers) :
    Option (Status × List BufferCopy) :=
  if answers.listCreate then
    match byteSpans spec (numInput spec) 0 0 with
    | none => none
    | some spans =>
      match allocateCopies spec answers.allocateBufferCopy 0 spans with
      | (false, copies) => some (Module.runtimeWrapper.statusError, copies)
      | (true, copies) =>
        if (List.range (numInput spec)).all answers.listPushRefMove then some (statusOk, copies)
        else some (Module.runtimeWrapper.statusError, copies)
  else some (Module.runtimeWrapper.statusError, [])

end Iree

/-! ### ExecuTorch -/

namespace Executorch

inductive ScalarType where
  | byte
  | char
  | short
  | int
  | long
  | half
  | float
  | double
  | complexHalf
  | complexFloat
  | complexDouble
  | bool
  | bFloat16
  | float8E5m2
  | float8E4m3fn
  | float8E5m2fnuz
  | float8E4m3fnuz
  | uInt16
  | uInt32
  | uInt64
  | undefined
deriving DecidableEq, Repr

/-- `kenning_elem_dtype_to_executorch_scalar_type`. A boolean may have any number of bits. -/
def kenningElemDtypeToExecutorchScalarType (code bits : ℕ) : ScalarType :=
  match code, bits with
  -- `DATA_TYPE_INT`
  | 0, 8 => .char
  | 0, 16 => .short
  | 0, 32 => .int
  | 0, 64 => .long
  -- `DATA_TYPE_UINT`
  | 1, 8 => .byte
  | 1, 16 => .uInt16
  | 1, 32 => .uInt32
  | 1, 64 => .uInt64
  -- `DATA_TYPE_FLOAT`
  | 2, 16 => .half
  | 2, 32 => .float
  | 2, 64 => .double
  -- `DATA_TYPE_COMPLEX`
  | 5, 16 => .complexHalf
  | 5, 32 => .complexFloat
  | 5, 64 => .complexDouble
  -- `DATA_TYPE_BFLOAT`
  | 4, 16 => .bFloat16
  -- `DATA_TYPE_FLOAT8_E4M3FN`, `_E4M3FNUZ`, `_E5M2` and `_E5M2FNUZ`
  | 10, 8 => .float8E4m3fn
  | 11, 8 => .float8E4m3fnuz
  | 12, 8 => .float8E5m2
  | 13, 8 => .float8E5m2fnuz
  -- `DATA_TYPE_BOOL`
  | 6, _ => .bool
  | _, _ => .undefined

/-- A `TensorImpl`, with the data at an offset in `gp_executorch_input_buffer`. -/
structure TensorImpl where
  scalarType : ScalarType
  sizes : List ℤ
  data : ℕ
  dimOrder : List ℕ
deriving DecidableEq, Repr

/-- The tensor for input `i`; `none` if an array is read or written behind its end. The data of each
tensor is at the start of the buffer. -/
def inputImpl (spec : List UInt8) (i : ℕ) : Option TensorImpl :=
  if i < inputGeometry.maxNum ∧ numTensorDim inputGeometry spec i ≤ inputGeometry.maxDim then
    some {
      scalarType := kenningElemDtypeToExecutorchScalarType (dataTypeCode inputGeometry spec i)
        (inputBits spec i)
      sizes := (inputShape spec i).map fun size => (BitVec.ofNat 32 size).toInt
      data := 0
      dimOrder := List.range (numTensorDim inputGeometry spec i) }
  else none

section
variable (nbytes : ScalarType → List ℤ → Option ℕ)

/-- The bytes of a tensor, when `nbytes` says how many a tensor of ExecuTorch has; `none` if its
constructor aborts. -/
def TensorImpl.slice (impl : TensorImpl) : Option Slice :=
  (nbytes impl.scalarType impl.sizes).map (⟨impl.data, ·⟩)

/-- The loop of `runtime_init_input` from input `i` on, when `setInput i` says whether `set_input`
takes input `i`. -/
def initInputLoop (spec : List UInt8) (setInput : ℕ → Bool) :
    ℕ → ℕ → Option (Status × List Slice)
  | 0, _ => some (statusOk, [])
  | left+1, i =>
    match (inputImpl spec i).bind (TensorImpl.slice nbytes) with
    | none => none
    | some slice =>
      if setInput i then
        match initInputLoop spec setInput left (i+1) with
        | none => none
        | some (status, slices) => some (status, slice :: slices)
      else some (Module.runtimeWrapper.statusError, [slice])

def runtimeInitInput (spec : List UInt8) (setInput : ℕ → Bool) : Option (Status × List Slice) :=
  initInputLoop nbytes spec setInput (numInput spec) 0

end

/-- The size of an element in bytes. -/
def ScalarType.width : ScalarType → ℕ
  | byte | char | bool | float8E5m2 | float8E4m3fn | float8E5m2fnuz | float8E4m3fnuz => 1
  | short | half | bFloat16 | uInt16 => 2
  | int | float | complexHalf | uInt32 => 4
  | long | double | complexFloat | uInt64 => 8
  | complexDouble => 16
  | undefined => 0

theorem ScalarType.width_pos {scalarType : ScalarType} (h : scalarType ≠ .undefined) :
    0 < scalarType.width := by
  cases scalarType with
  | undefined => exact absurd rfl h
  | _ => decide

/-- What ExecuTorch documents: a tensor has as many bytes as its elements together, and cannot be
constructed without a type. It can be if its size is in range. -/
structure NbytesDocumented (nbytes : ScalarType → List ℤ → Option ℕ) : Prop where
  constructed : ∀ {scalarType sizes n}, nbytes scalarType sizes = some n →
    scalarType ≠ .undefined ∧ (n : ℤ) = sizes.prod*scalarType.width
  inRange : ∀ {scalarType sizes}, scalarType ≠ .undefined → (∀ size ∈ sizes, 0 ≤ size) →
    sizes.prod*(scalarType.width : ℤ) < 2^31 → (nbytes scalarType sizes).isSome = true

end Executorch

/-! ### Where the inputs are -/

/-- The size of input `i` in bytes. -/
def inputSize (spec : List UInt8) (i : ℕ) : ℕ :=
  elements inputGeometry spec i*inputBits spec i/8

/-- The slice of input `i` starts at the sum of the sizes of the inputs before it. -/
def inputLayout (spec : List UInt8) : List Slice :=
  (List.range (numInput spec)).map fun i =>
    ⟨∑ k ∈ Finset.range i, inputSize spec k, inputSize spec i⟩

/-- What a runtime takes is the layout, as far as it gets. -/
def Reads (spec : List UInt8) (run : Option (Status × List Slice)) : Prop :=
  ∃ status slices, run = some (status, slices) ∧ slices <+: inputLayout spec ∧
    (status = statusOk → slices = inputLayout spec)

/-- Both runtimes take the same slices, which tile the payload. -/
structure ReadAlike (spec : List UInt8) (size : ℕ)
    (nbytes : Executorch.ScalarType → List ℤ → Option ℕ) : Prop where
  iree : ∀ answers, Reads spec ((Iree.runtimeInitInput spec answers).map fun (status, copies) =>
    (status, copies.map Iree.BufferCopy.byteSpan))
  executorch : ∀ setInput, Reads spec (Executorch.runtimeInitInput nbytes spec setInput)
  tiles : Tiles size (inputLayout spec)

/-- There is one input, ExecuTorch has a type with as many bits, and the size in bits does not wrap. -/
structure OneInput (spec : List UInt8) : Prop where
  num : numInput spec = 1
  scalarType : Executorch.kenningElemDtypeToExecutorchScalarType
    (dataTypeCode inputGeometry spec 0) (inputBits spec 0) ≠ .undefined
  width : 8*(Executorch.kenningElemDtypeToExecutorchScalarType
    (dataTypeCode inputGeometry spec 0) (inputBits spec 0)).width = inputBits spec 0
  bits : elements inputGeometry spec 0*inputBits spec 0 < 2^32

/-- `model_load_input_from_loader` gets as far as to call the runtime for a payload of this size. -/
structure Model.InputAccepted {S : Type} (m : Model S) (expectedSize : ℕ) : Prop where
  state : ModelState.weightsLoaded ≤ m.modelState
  found : m.modelGetInputSize = some (.ok expectedSize)

section
variable {S : Type} {m m' : Model S} {spec : List UInt8} {size : ℕ}

/-- For an accepted payload the runtime decides, and for no other. -/
theorem modelLoadInputFromLoader_accepted {R : RuntimeWrapper S} (h : m.InputAccepted size) :
    m.modelLoadInputFromLoader R size =
      match R.runtimeInitInput m.runtime with
      | (status, runtime) =>
        if status ≠ statusOk then some (status, {m with runtime})
        else some (statusOk, {m with runtime, modelState := .inputLoaded}) := by
  rw [Model.modelLoadInputFromLoader, if_neg (ModelState.not_lt.mpr h.state), h.found]
  simp only [ne_eq, not_true, if_false]

/-! ### The sizes -/

/-- The layout tiles as many bytes as all inputs have. -/
theorem tiles_inputLayout (spec : List UInt8) :
    Tiles (exactSize inputGeometry spec) (inputLayout spec) := tiles_map_range _ _

theorem tiles_inputLayout_iff :
    Tiles size (inputLayout spec) ↔ exactSize inputGeometry spec = size := by
  constructor
  · exact fun h => (tiles_inputLayout spec).unique h
  · rintro rfl
    exact tiles_inputLayout spec

theorem inputSize_eq {i : ℕ} (h : TensorValid inputGeometry spec i) :
    inputSize spec i = elements inputGeometry spec i*(inputBits spec i/8) := by
  obtain ⟨b, hb⟩ := Nat.dvd_of_mod_eq_zero h.bits
  rw [inputSize, inputBits, hb, Nat.mul_div_cancel_left b (by decide), Nat.mul_left_comm,
    Nat.mul_div_cancel_left _ (by decide)]

theorem elements_pos {i : ℕ} (h : TensorValid inputGeometry spec i) :
    0 < elements inputGeometry spec i := by
  apply Finset.prod_pos
  intro j hj
  exact Nat.pos_of_ne_zero (h.shape j (Finset.mem_range.mp hj))

/-! ### What IREE takes -/

/-- The span of input `i` is as large as the input. -/
theorem computeStructureSizeBytes_eq {i : ℕ} (h : TensorValid inputGeometry spec i)
    (hbits : inputBits spec i ≠ 0) (hfit : elements inputGeometry spec i*inputBits spec i < 2^32) :
    Iree.computeStructureSizeBytes (elements inputGeometry spec i%2^32) (inputBits spec i) =
      inputSize spec i := by
  have hsize := inputSize_eq h
  obtain ⟨b, hb⟩ := Nat.dvd_of_mod_eq_zero h.bits
  have hb : inputBits spec i = 8*b := hb
  have hbytes : elements inputGeometry spec i*b < 2^32 := by
    apply Nat.lt_of_le_of_lt _ hfit
    exact Nat.mul_le_mul_left _ (by omega)
  rw [hsize, hb, Nat.mul_div_cancel_left b (by decide), Iree.computeStructureSizeBytes,
    computeSizeBytes_eq, if_neg (by omega), Nat.mod_mul_mod, Nat.mod_eq_of_lt hbytes]

/-- The spans follow each other as long as their end does not wrap. -/
theorem byteSpans_eq (h : TensorsValid inputGeometry spec)
    (hbits : ∀ i < numInput spec, inputBits spec i ≠ 0)
    (hfit : ∀ i < numInput spec, elements inputGeometry spec i*inputBits spec i < 2^32)
    {left i offset : ℕ} (hi : i+left ≤ numInput spec)
    (hend : offset+∑ k ∈ Finset.range left, inputSize spec (i+k) < 2^32) :
    Iree.byteSpans spec left i offset =
      some (consecutive offset ((List.range left).map fun k => inputSize spec (i+k))) := by
  induction left generalizing i offset with
  | zero => rfl
  | succ left ih =>
    have hlt : i < numInput spec := by omega
    have hlength := modelSpecLength_eq h hlt
    have hsize := computeStructureSizeBytes_eq (h.tensors i hlt) (hbits i hlt) (hfit i hlt)
    rw [sum_range_shift (inputSize spec), ← Nat.add_assoc] at hend
    -- The end of all spans does not wrap, so neither does the start of the next one.
    have hoffset : (offset+inputSize spec i)%2^32 = offset+inputSize spec i :=
      Nat.mod_eq_of_lt (Nat.lt_of_le_of_lt (Nat.le_add_right _ _) hend)
    rw [Iree.byteSpans, modelSpecInputLength, hlength]
    simp only
    rw [if_pos (hlt.trans_le h.num_le), hsize, hoffset, ih (by omega) hend]
    simp only [List.range_succ_eq_map, List.map_cons, List.map_map, consecutive, Nat.add_zero]
    congr 3
    apply List.map_congr_left
    intro k _
    rw [Function.comp_apply, Nat.add_right_comm]
    rfl

/-- The copies are those of the spans, up to the first error. -/
theorem allocateCopies_spans (spec : List UInt8) (allocateBufferCopy : ℕ → Bool) (i : ℕ)
    (spans : List Slice) :
    (Iree.allocateCopies spec allocateBufferCopy i spans).2.map Iree.BufferCopy.byteSpan <+: spans ∧
      ((Iree.allocateCopies spec allocateBufferCopy i spans).1 = true →
        (Iree.allocateCopies spec allocateBufferCopy i spans).2.map Iree.BufferCopy.byteSpan =
          spans) := by
  induction spans generalizing i with
  | nil => exact ⟨List.prefix_refl _, fun _ => rfl⟩
  | cons span spans ih =>
    obtain ⟨hinit, heq⟩ := ih (i+1)
    rw [Iree.allocateCopies]
    split
    · exact ⟨(List.prefix_cons_inj span).mpr hinit, fun hok => congrArg (span :: ·) (heq hok)⟩
    · exact ⟨(List.prefix_cons_inj span).mpr List.nil_prefix, fun hok => absurd hok Bool.false_ne_true⟩

/-- IREE takes any number of inputs as they are laid out, if their sizes do not wrap. -/
theorem iree_reads (h : TensorsValid inputGeometry spec)
    (hbits : ∀ i < numInput spec, inputBits spec i ≠ 0)
    (hfit : ∀ i < numInput spec, elements inputGeometry spec i*inputBits spec i < 2^32)
    (htotal : exactSize inputGeometry spec < 2^32) (answers : Iree.InputAnswers) :
    Reads spec ((Iree.runtimeInitInput spec answers).map fun (status, copies) =>
      (status, copies.map Iree.BufferCopy.byteSpan)) := by
  have hspans : Iree.byteSpans spec (numInput spec) 0 0 = some (inputLayout spec) := by
    have hend : 0+∑ k ∈ Finset.range (numInput spec), inputSize spec (0+k) < 2^32 := by
      simp only [Nat.zero_add]
      exact htotal
    rw [byteSpans_eq h hbits hfit (by omega) hend, consecutive_map_range]
    simp only [Nat.zero_add]
    rfl
  obtain ⟨hinit, heq⟩ :=
    allocateCopies_spans spec answers.allocateBufferCopy 0 (inputLayout spec)
  -- A run that stops has an error, so only one that goes through has to read the whole layout.
  have herror : Module.runtimeWrapper.statusError ≠ statusOk := by decide
  rw [Iree.runtimeInitInput]
  split
  · rw [hspans]
    simp only
    generalize Iree.allocateCopies spec answers.allocateBufferCopy 0 (inputLayout spec) = result
      at hinit heq ⊢
    obtain ⟨ok, copies⟩ := result
    cases ok with
    | false => exact ⟨_, _, rfl, hinit, fun hs => absurd hs herror⟩
    | true =>
      simp only
      split
      · exact ⟨_, _, rfl, hinit, fun _ => heq rfl⟩
      · exact ⟨_, _, rfl, hinit, fun hs => absurd hs herror⟩
  · exact ⟨_, _, rfl, List.nil_prefix, fun hs => absurd hs herror⟩

/-! ### What ExecuTorch takes -/

variable {nbytes : Executorch.ScalarType → List ℤ → Option ℕ}

theorem inputShape_pos {i : ℕ} (h : TensorValid inputGeometry spec i) {n : ℕ}
    (hn : n ∈ inputShape spec i) : 0 < n := by
  obtain ⟨j, hj, rfl⟩ := List.mem_map.mp hn
  exact Nat.pos_of_ne_zero (h.shape j (List.mem_range.mp hj))

theorem inputShape_le {i : ℕ} (h : TensorValid inputGeometry spec i) {n : ℕ}
    (hn : n ∈ inputShape spec i) : n ≤ elements inputGeometry spec i := by
  obtain ⟨j, hj, rfl⟩ := List.mem_map.mp hn
  apply Nat.le_of_dvd (elements_pos h)
  exact Finset.dvd_prod_of_mem _ (Finset.mem_range.mpr (List.mem_range.mp hj))

theorem inputShape_lt {i n : ℕ} (hn : n ∈ inputShape spec i) : n < 2^32 := by
  obtain ⟨j, -, rfl⟩ := List.mem_map.mp hn
  exact LittleEndian.word_lt _ _ 4

/-- The sizes of the tensor for input `i`. -/
def implSizes (spec : List UInt8) (i : ℕ) : List ℤ :=
  (inputShape spec i).map fun size => (BitVec.ofNat 32 size).toInt

/-- No size is zero, whatever its sign. -/
theorem prod_implSizes_ne {i : ℕ} (h : TensorValid inputGeometry spec i) :
    (implSizes spec i).prod ≠ 0 := by
  apply List.prod_ne_zero
  intro hmem
  obtain ⟨n, hn, hzero⟩ := List.mem_map.mp hmem
  have hpos := inputShape_pos h hn
  have hlt := inputShape_lt hn
  have hsame : BitVec.ofNat 32 n = 0#32 := BitVec.toInt_inj.mp (by rw [hzero, BitVec.toInt_zero])
  have hmod : n%2^32 = 0 := by
    rw [← BitVec.toNat_ofNat n 32, hsame]
    rfl
  omega

/-- Few elements have small sizes, which keep their values. -/
theorem implSizes_eq {i : ℕ} (h : TensorValid inputGeometry spec i)
    (hlt : elements inputGeometry spec i < 2^31) :
    implSizes spec i = (inputShape spec i).map Nat.cast := by
  apply List.map_congr_left
  intro n hn
  have hle := inputShape_le h hn
  have hmod : n%2^32 = n := Nat.mod_eq_of_lt (inputShape_lt hn)
  rw [BitVec.toInt_eq_toNat_of_lt, BitVec.toNat_ofNat, hmod]
  rw [BitVec.toNat_ofNat, hmod]
  omega

theorem prod_implSizes {i : ℕ} (h : TensorValid inputGeometry spec i)
    (hlt : elements inputGeometry spec i < 2^31) :
    (implSizes spec i).prod = elements inputGeometry spec i := by
  have hprod : (inputShape spec i).prod = elements inputGeometry spec i := rfl
  rw [implSizes_eq h hlt, ← hprod, Nat.cast_list_prod]

/-- The type of ExecuTorch for input `i`. -/
def implType (spec : List UInt8) (i : ℕ) : Executorch.ScalarType :=
  Executorch.kenningElemDtypeToExecutorchScalarType (dataTypeCode inputGeometry spec i)
    (inputBits spec i)

/-- What is taken for input `i` is at the start of the buffer. -/
theorem slice_eq_some {i : ℕ} {slice : Slice}
    (h : (Executorch.inputImpl spec i).bind (Executorch.TensorImpl.slice nbytes) = some slice) :
    slice.offset = 0 ∧ nbytes (implType spec i) (implSizes spec i) = some slice.size := by
  rw [Executorch.inputImpl] at h
  split at h
  · obtain ⟨n, hn, rfl⟩ := Option.map_eq_some_iff.mp h
    exact ⟨rfl, hn⟩
  · cases h

theorem slice_of_nbytes (h : TensorsValid inputGeometry spec) {i n : ℕ} (hi : i < numInput spec)
    (hn : nbytes (implType spec i) (implSizes spec i) = some n) :
    (Executorch.inputImpl spec i).bind (Executorch.TensorImpl.slice nbytes) = some ⟨0, n⟩ := by
  have hbounds : i < inputGeometry.maxNum ∧
      numTensorDim inputGeometry spec i ≤ inputGeometry.maxDim :=
    ⟨hi.trans_le h.num_le, (h.tensors i hi).dim_le⟩
  rw [Executorch.inputImpl, if_pos hbounds]
  exact Option.map_eq_some_iff.mpr ⟨n, hn, rfl⟩

theorem initInputLoop_getElem {setInput : ℕ → Bool} {left i k : ℕ} {status : Status}
    {slices : List Slice} {slice : Slice}
    (h : Executorch.initInputLoop nbytes spec setInput left i = some (status, slices))
    (hk : slices[k]? = some slice) :
    (Executorch.inputImpl spec (i+k)).bind (Executorch.TensorImpl.slice nbytes) = some slice := by
  -- The induction is on the inputs that are left; slice `k` is the one of input `i+k`.
  induction left generalizing i k slices with
  | zero =>
    cases h
    cases hk
  | succ left ih =>
    rw [Executorch.initInputLoop] at h
    split at h
    · cases h
    next first hfirst =>
      cases k with
      | zero =>
        have hhead : slices[0]? = some first := by
          split at h
          · split at h
            · cases h
            · cases h
              rfl
          · cases h
            rfl
        cases hhead.symm.trans hk
        exact hfirst
      | succ k =>
        split at h
        · split at h
          · cases h
          next rest hrest =>
            cases h
            rw [Nat.add_succ, ← Nat.succ_add]
            exact ih hrest hk
        · cases h
          cases hk

/-- If every input is set, so that the loop comes to its end. -/
theorem initInputLoop_ok {setInput : ℕ → Bool} (hset : ∀ i, setInput i = true) {left i : ℕ}
    {status : Status} {slices : List Slice}
    (h : Executorch.initInputLoop nbytes spec setInput left i = some (status, slices)) :
    status = statusOk := by
  induction left generalizing i slices with
  | zero =>
    cases h
    rfl
  | succ left ih =>
    rw [Executorch.initInputLoop] at h
    split at h
    · cases h
    · rw [if_pos (hset i)] at h
      split at h
      · cases h
      next hrest =>
        cases h
        exact ih hrest

/-! ### Both runtimes -/

theorem inputLayout_getElem {i : ℕ} (hi : i < numInput spec) :
    (inputLayout spec)[i]? = some ⟨∑ k ∈ Finset.range i, inputSize spec k, inputSize spec i⟩ := by
  rw [inputLayout, List.getElem?_map, List.getElem?_range hi]
  rfl

theorem elements_lt {i : ℕ} (hfit : elements inputGeometry spec i*inputBits spec i < 2^32)
    (hbits : 8 ≤ inputBits spec i) : elements inputGeometry spec i < 2^31 := by
  have hle : elements inputGeometry spec i*8 ≤ elements inputGeometry spec i*inputBits spec i :=
    Nat.mul_le_mul_left _ hbits
  omega

/-- The bytes of input `i` for ExecuTorch, if they are what the specification says. -/
theorem width_of_size (hdoc : Executorch.NbytesDocumented nbytes) {i : ℕ}
    (h : TensorValid inputGeometry spec i)
    (hfit : elements inputGeometry spec i*inputBits spec i < 2^32)
    (hn : nbytes (implType spec i) (implSizes spec i) = some (inputSize spec i)) :
    inputSize spec i ≠ 0 ∧ implType spec i ≠ .undefined ∧
      8*(implType spec i).width = inputBits spec i := by
  obtain ⟨htype, hbytes⟩ := hdoc.constructed hn
  have hwidth : ((implType spec i).width : ℤ) ≠ 0 :=
    Int.natCast_ne_zero.mpr (Executorch.ScalarType.width_pos htype).ne'
  have hne : inputSize spec i ≠ 0 := by
    intro hzero
    rw [hzero] at hbytes
    exact mul_ne_zero (prod_implSizes_ne h) hwidth hbytes.symm
  refine ⟨hne, htype, ?_⟩
  have hsize := inputSize_eq h
  have hmod : inputBits spec i%8 = 0 := h.bits
  -- No bits would make a size of zero, and ExecuTorch has no type that small.
  have hbits : inputBits spec i/8 ≠ 0 := by
    intro hzero
    rw [hzero, Nat.mul_zero] at hsize
    exact hne hsize
  have helements := elements_lt hfit (by omega)
  rw [prod_implSizes h helements, hsize] at hbytes
  have hbytes : elements inputGeometry spec i*(inputBits spec i/8) =
      elements inputGeometry spec i*(implType spec i).width := by exact_mod_cast hbytes
  have hdiv := Nat.eq_of_mul_eq_mul_left (elements_pos h) hbytes
  omega

theorem nbytes_of_width (hdoc : Executorch.NbytesDocumented nbytes) {i : ℕ}
    (h : TensorValid inputGeometry spec i)
    (hfit : elements inputGeometry spec i*inputBits spec i < 2^32)
    (htype : implType spec i ≠ .undefined) (hwidth : 8*(implType spec i).width = inputBits spec i) :
    nbytes (implType spec i) (implSizes spec i) = some (inputSize spec i) := by
  have hwidth_pos := Executorch.ScalarType.width_pos htype
  have helements := elements_lt hfit (by omega)
  have hprod := prod_implSizes h helements
  have hbytes : elements inputGeometry spec i*(implType spec i).width = inputSize spec i := by
    rw [inputSize_eq h, ← hwidth, Nat.mul_div_cancel_left _ (by decide)]
  have hlt : inputSize spec i < 2^31 := by
    rw [inputSize]
    omega
  have hsizes : ∀ size ∈ implSizes spec i, 0 ≤ size := by
    rw [implSizes_eq h helements]
    intro size hsize
    obtain ⟨n, -, rfl⟩ := List.mem_map.mp hsize
    exact Int.natCast_nonneg n
  have hcast : (implSizes spec i).prod*((implType spec i).width : ℤ) = inputSize spec i := by
    rw [hprod, ← hbytes, Nat.cast_mul]
  have hsome := hdoc.inRange htype hsizes (by rw [hcast]; exact_mod_cast hlt)
  obtain ⟨n, hn⟩ := Option.isSome_iff_exists.mp hsome
  have hn' := (hdoc.constructed hn).2
  rw [hcast] at hn'
  rw [hn, Int.ofNat_inj.mp hn']

/-- Two inputs are taken from the same place, so there is one. -/
theorem ReadAlike.oneInput (h : TensorsValid inputGeometry spec)
    (hsize : modelSize inputGeometry spec = some size)
    (hdoc : Executorch.NbytesDocumented nbytes) (hread : ReadAlike spec size nbytes) :
    OneInput spec := by
  have hexact : modelSize inputGeometry spec = some (exactSize inputGeometry spec) := by
    rw [hsize, tiles_inputLayout_iff.mp hread.tiles]
  have hfit := ((modelSize_exact_iff h).mp hexact).1
  obtain ⟨status, slices, hrun, -, hok⟩ := hread.executorch fun _ => true
  have hslices := hok (initInputLoop_ok (fun _ => rfl) hrun)
  have hslice {i : ℕ} (hi : i < numInput spec) :=
    slice_eq_some (initInputLoop_getElem hrun (hslices ▸ inputLayout_getElem hi))
  simp only [Nat.zero_add] at hslice
  have hfirst := h.num_pos
  obtain ⟨hne, htype, hwidth⟩ := width_of_size hdoc (h.tensors 0 hfirst) (hfit 0 hfirst) (hslice hfirst).2
  refine ⟨?_, htype, hwidth, hfit 0 hfirst⟩
  by_contra hnum
  have hsecond : 1 < numInput spec := by
    have hpos : 0 < numInput spec := hfirst
    omega
  -- The second input would start where the first one ends.
  have hoffset := (hslice hsecond).1
  rw [Finset.sum_range_one] at hoffset
  exact hne hoffset

theorem OneInput.readAlike (h : TensorsValid inputGeometry spec)
    (hsize : modelSize inputGeometry spec = some size)
    (hdoc : Executorch.NbytesDocumented nbytes) (hone : OneInput spec) :
    ReadAlike spec size nbytes := by
  have hvalid := h.tensors 0 h.num_pos
  have hwidth : 8*(implType spec 0).width = inputBits spec 0 := hone.width
  have htype : implType spec 0 ≠ .undefined := hone.scalarType
  have hwidth_pos := Executorch.ScalarType.width_pos htype
  have hfirst : ∀ i < numInput spec, i = 0 := by
    intro i hi
    rw [hone.num] at hi
    exact Nat.lt_one_iff.mp hi
  have hbits : ∀ i < numInput spec, inputBits spec i ≠ 0 := by
    intro i hi
    obtain rfl := hfirst i hi
    omega
  have hfit : ∀ i < numInput spec, elements inputGeometry spec i*inputBits spec i < 2^32 := by
    intro i hi
    obtain rfl := hfirst i hi
    exact hone.bits
  -- With one input the total is its size, and its offset is zero in both runtimes.
  have htotal : exactSize inputGeometry spec = inputSize spec 0 := by
    rw [exactSize, show numTensors inputGeometry spec = 1 from hone.num, Finset.sum_range_one]
    rfl
  have hlt : exactSize inputGeometry spec < 2^32 := by
    rw [htotal]
    exact Nat.lt_of_le_of_lt (Nat.div_le_self _ _) hone.bits
  have hexact := (modelSize_exact_iff h).mpr ⟨hfit, hlt⟩
  have hlayout : inputLayout spec = [⟨0, inputSize spec 0⟩] := by
    rw [inputLayout, hone.num]
    rfl
  refine ⟨iree_reads h hbits hfit hlt, ?_, ?_⟩
  · intro setInput
    have hnbytes := nbytes_of_width hdoc hvalid hone.bits htype hwidth
    have hslice := slice_of_nbytes h h.num_pos hnbytes
    rw [Executorch.runtimeInitInput, hone.num, Executorch.initInputLoop, hslice]
    simp only [Executorch.initInputLoop]
    rw [Reads, hlayout]
    split
    · exact ⟨_, _, rfl, List.prefix_refl _, fun _ => rfl⟩
    · exact ⟨_, _, rfl, List.prefix_refl _, fun _ => rfl⟩
  · rw [tiles_inputLayout_iff]
    exact Option.some.inj (hexact.symm.trans hsize)

/-- For an accepted payload of an accepted specification both runtimes take the inputs as they are laid
out if and only if there is one, of a type that both know by the same size. -/
theorem readAlike_iff (h : m.modelLoadStructFromLoader = some (statusOk, m')) {m'' : Model S}
    (hspec : m''.modelSpec = m'.modelSpec) (hpayload : m''.InputAccepted size)
    (hdoc : Executorch.NbytesDocumented nbytes) :
    ReadAlike m''.modelSpec size nbytes ↔ OneInput m''.modelSpec := by
  obtain ⟨-, hvalid, rfl⟩ := Model.modelLoadStructFromLoader_ok h
  have hinput : TensorsValid inputGeometry m''.modelSpec := by
    rw [hspec]
    exact hvalid.input
  have hstate :=
    ModelState.le_trans (by decide : ModelState.structLoaded ≤ .weightsLoaded) hpayload.state
  have hsize := (modelGetSize_eq_iff hstate).mp hpayload.found
  exact ⟨fun hread => hread.oneInput hinput hsize hdoc, fun hone => hone.readAlike hinput hsize hdoc⟩

end

/-! ### Concrete specifications -/

/-- The size of a tensor that has a type and no negative sizes. -/
def productNbytes (scalarType : Executorch.ScalarType) (sizes : List ℤ) : Option ℕ :=
  if scalarType ≠ .undefined ∧ ∀ size ∈ sizes, 0 ≤ size then
    some (sizes.prod*scalarType.width).toNat
  else none

theorem productNbytes_documented : Executorch.NbytesDocumented productNbytes where
  constructed := by
    intro scalarType sizes n h
    rw [productNbytes] at h
    split at h
    · next hall =>
      cases h
      refine ⟨hall.1, Int.toNat_of_nonneg ?_⟩
      exact mul_nonneg (List.prod_nonneg hall.2) (Int.natCast_nonneg _)
    · cases h
  inRange := by
    intro scalarType sizes htype hsizes _
    rw [productNbytes, if_pos ⟨htype, hsizes⟩]
    rfl

/-- The model layer with its weights, and with a specification that was accepted. -/
def weightedSpec (spec : List UInt8) (h : spec.length = modelSpecSize) : Model Unit :=
  {receivedSpec spec h with modelState := .weightsLoaded}

theorem weightedSpec_accepted {spec : List UInt8} {h : spec.length = modelSpecSize} {size : ℕ}
    (hsize : modelSize inputGeometry spec = some size) :
    (weightedSpec spec h).InputAccepted size := by
  refine ⟨Nat.le_refl _, ?_⟩
  exact (modelGetSize_eq_iff (m := weightedSpec spec h) (by show (2 ≤ 3); decide)).mpr hsize

theorem readAlike_several : ReadAlike severalSpec 24 productNbytes := by
  have hone : OneInput severalSpec :=
    ⟨by decide +kernel, by decide +kernel, by decide +kernel, by decide +kernel⟩
  have hpayload : (weightedSpec severalSpec length_severalSpec).InputAccepted 24 :=
    weightedSpec_accepted (by decide +kernel)
  have haccepted := receivedSpec_accepted (h := length_severalSpec) severalSpec_valid
  have hspec : (weightedSpec severalSpec length_severalSpec).modelSpec =
      (receivedSpec severalSpec length_severalSpec).modelSpec := rfl
  exact (readAlike_iff haccepted hspec hpayload productNbytes_documented).mpr hone

/-- Two input tensors, each a single `int8_t`. -/
def twoInputsSpec : List UInt8 :=
  (List.range modelSpecSize).map fun i =>
    if i = 0 then 2 else if i ∈ [4, 8, 12, 28, 48, 52, 100] then 1
    else if i ∈ [45, 47, 293] then 8 else 0

theorem length_twoInputsSpec : twoInputsSpec.length = modelSpecSize := by
  rw [twoInputsSpec, List.length_map, List.length_range]

/-- IREE takes the second byte for the second input, and ExecuTorch takes the first byte again. -/
theorem readAlike_twoInputs :
    (receivedSpec twoInputsSpec length_twoInputsSpec).modelLoadStructFromLoader = some (statusOk,
        {receivedSpec twoInputsSpec length_twoInputsSpec with modelState := .structLoaded}) ∧
      (weightedSpec twoInputsSpec length_twoInputsSpec).InputAccepted 2 ∧
      ((Iree.runtimeInitInput twoInputsSpec ⟨true, fun _ => true, fun _ => true⟩).map
        fun (status, copies) => (status, copies.map Iree.BufferCopy.byteSpan)) =
          some (statusOk, [⟨0, 1⟩, ⟨1, 1⟩]) ∧
      Executorch.runtimeInitInput productNbytes twoInputsSpec (fun _ => true) =
        some (statusOk, [⟨0, 1⟩, ⟨0, 1⟩]) ∧
      ¬ ReadAlike twoInputsSpec 2 productNbytes := by
  have hvalid : SpecValid twoInputsSpec :=
    ⟨validateTensors_eq_false.mp (by decide +kernel), validateTensors_eq_false.mp (by decide +kernel)⟩
  have hslices : Executorch.runtimeInitInput productNbytes twoInputsSpec (fun _ => true) =
      some (statusOk, [⟨0, 1⟩, ⟨0, 1⟩]) := by decide +kernel
  refine ⟨receivedSpec_accepted hvalid, weightedSpec_accepted (by decide +kernel),
    by decide +kernel, hslices, ?_⟩
  intro hread
  obtain ⟨status, slices, hrun, -, hok⟩ := hread.executorch fun _ => true
  cases hslices.symm.trans hrun
  have hlayout : [⟨0, 1⟩, ⟨0, 1⟩] = inputLayout twoInputsSpec := hok rfl
  exact absurd hlayout (by decide +kernel)

end KenningRuntime
