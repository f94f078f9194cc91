import KenningRuntime.Library.Initializers
import KenningRuntime.TensorSizes

/-! The generated header of a model (scripts/io_spec_to_struct.py): an IO specification, the initializer
of the constant `model_spec` that is written for it, and what the library reads from the constant. -/
namespace KenningRuntime
open LittleEndian Initializers

/-! ### The script -/

/-- An entry of the lists of the IO specification, with what says its data type. -/
structure IoTensor (D : Type) where
  shape : List ℤ
  dtype : D

/-- The IO specification in JSON: the keys that the script looks up. -/
structure IoSpec (D : Type) where
  processedInput : Option (List (IoTensor D))
  input : List (IoTensor D)
  output : List (IoTensor D)
  entryFunc : Option (List UInt8)

/-- `data_type_t`. -/
def dataTypeLayout : Layout := .record [.scalar 1, .scalar 1]

/-- The four members of `model_spec_t` for the inputs, or for the outputs. -/
def tensorMembers (g : TensorGeometry) : List Layout :=
  [.scalar 4, .array g.maxNum (.scalar 4), .array g.maxNum (.array g.maxDim (.scalar 4)),
    .array g.maxNum dataTypeLayout]

def maxLengthName : ℕ := 20

/-- `model_spec_t`. -/
def modelSpecLayout : Layout :=
  .record (tensorMembers inputGeometry ++ tensorMembers outputGeometry ++
    [.array maxLengthName (.scalar 1), .array maxLengthName (.scalar 1)])

/-- "module" -/
def generatedModelName : List UInt8 := [109, 111, 100, 117, 108, 101]

/-- A character that stands for itself in a string literal: neither a quote nor a backslash. -/
def plainCharacter (c : UInt8) : Bool := 32 ≤ c && c < 127 && c ≠ 34 && c ≠ 92

/-- The items of a string literal. The terminator is among the bytes without an item, if it fits. -/
def stringItems (s : List UInt8) : Initializer := .numbers (s.map fun c => (c.toNat : ℤ))

section
variable {D : Type} (parseType : D → ℤ × ℤ)

def IoSpec.ioSpecInput (io : IoSpec D) : List (IoTensor D) := io.processedInput.getD io.input

def IoSpec.entry (io : IoSpec D) : List UInt8 := io.entryFunc.getD []

/-- `io_spec_parse_types`: the code and the bits of the data type of each tensor. -/
def ioSpecParseTypes (tensors : List (IoTensor D)) : List (ℤ × ℤ) :=
  tensors.map fun t => parseType t.dtype

/-- The four members for the inputs, or for the outputs. -/
def tensorItems (tensors : List (IoTensor D)) : List Initializer :=
  [.number tensors.length,
    .numbers (tensors.map fun t => (t.shape.length : ℤ)),
    .ofList (tensors.map fun t => .numbers t.shape),
    .ofList ((ioSpecParseTypes parseType tensors).map fun p => .numbers [p.1, p.2])]

/-- The initializer of `model_spec`; `none` if the script raises an exception (it looks for the scale in
the first input and in the first output), or if the entry function changes the text of its literal. -/
def modelSpecInitializer (io : IoSpec D) : Option Initializer :=
  if io.ioSpecInput = [] ∨ io.output = [] then none
  else if io.entry.all plainCharacter then
    some (.ofList (tensorItems parseType io.ioSpecInput ++ tensorItems parseType io.output ++
      [stringItems io.entry, stringItems generatedModelName]))
  else none

/-- The bytes of `model_spec`; `none` also if an initializer list is longer than its array. -/
def generatedSpec (io : IoSpec D) : Option (List UInt8) :=
  (modelSpecInitializer parseType io).bind fun i => i.bytes modelSpecLayout

end

/-! ### The members of the structure -/

/-- The four members for the inputs, or for the outputs, start with member `k` of the layout. -/
structure MembersAt (g : TensorGeometry) (k : ℕ) : Prop where
  num : modelSpecLayout.locate [k] = some (g.numOffset, 4)
  numDim : ∀ i < g.maxNum, modelSpecLayout.locate [k+1, i] = some (g.numDimOffset+4*i, 4)
  shape : ∀ i < g.maxNum, ∀ j < g.maxDim,
    modelSpecLayout.locate [k+2, i, j] = some (g.shapeOffset+4*(g.maxDim*i+j), 4)
  code : ∀ i < g.maxNum, modelSpecLayout.locate [k+3, i, 0] = some (g.dataTypeOffset+2*i, 1)
  bits : ∀ i < g.maxNum, modelSpecLayout.locate [k+3, i, 1] = some (g.dataTypeOffset+2*i+1, 1)

theorem size_modelSpecLayout : modelSpecLayout.size = modelSpecSize := by decide

theorem membersAt_input : MembersAt inputGeometry 0 := by
  constructor
  all_goals decide

theorem membersAt_output : MembersAt outputGeometry 4 := by
  constructor
  all_goals decide

/-! ### When the header is written and compiles -/

section
variable {D : Type} (parseType : D → ℤ × ℤ)

/-- The lists fit into the arrays of the structure. -/
structure IoSpec.Fits (io : IoSpec D) : Prop where
  input_ne : io.ioSpecInput ≠ []
  output_ne : io.output ≠ []
  input_le : io.ioSpecInput.length ≤ inputGeometry.maxNum
  output_le : io.output.length ≤ outputGeometry.maxNum
  inputDims : ∀ t ∈ io.ioSpecInput, t.shape.length ≤ inputGeometry.maxDim
  outputDims : ∀ t ∈ io.output, t.shape.length ≤ outputGeometry.maxDim
  plain : io.entry.all plainCharacter = true
  entry_le : io.entry.length ≤ maxLengthName

/-- The items of the four members fit if there are not too many tensors, and none has too many
dimensions. -/
theorem tensorItems_isSome {g : TensorGeometry} {tensors : List (IoTensor D)} :
    (∀ p ∈ (tensorItems parseType tensors).zip (tensorMembers g), (p.1.bytes p.2).isSome = true) ↔
      tensors.length ≤ g.maxNum ∧ ∀ t ∈ tensors, t.shape.length ≤ g.maxDim := by
  simp only [tensorItems, tensorMembers, List.zip_cons_cons, List.zip_nil_right,
    List.forall_mem_cons, Initializer.bytes_numbers_isSome, Initializer.bytes_ofList_array_isSome,
    List.length_map, List.forall_mem_map, ioSpecParseTypes]
  constructor
  · intro h
    exact ⟨h.2.1, h.2.2.1.2⟩
  · intro h
    refine ⟨rfl, h.1, h, ⟨h.1, ?_⟩, ?_⟩
    · exact fun _ _ => rfl
    · intro p hp
      exact absurd hp List.not_mem_nil

/-- The items of a specification, one for each member. -/
def specItems (io : IoSpec D) : List Initializer :=
  tensorItems parseType io.ioSpecInput ++ tensorItems parseType io.output ++
    [stringItems io.entry, stringItems generatedModelName]

theorem generatedSpec_eq_some {io : IoSpec D} {spec : List UInt8} :
    generatedSpec parseType io = some spec ↔
      (io.ioSpecInput ≠ [] ∧ io.output ≠ [] ∧ io.entry.all plainCharacter = true) ∧
        (Initializer.ofList (specItems parseType io)).bytes modelSpecLayout = some spec := by
  unfold generatedSpec modelSpecInitializer
  by_cases hne : io.ioSpecInput = [] ∨ io.output = []
  · rw [if_pos hne, Option.bind_none]
    apply iff_of_false
    · exact fun h => nomatch h
    · intro h
      exact hne.elim h.1.1 h.1.2.1
  rw [if_neg hne]
  obtain ⟨hinput, houtput⟩ := not_or.mp hne
  by_cases hplain : io.entry.all plainCharacter = true
  · rw [if_pos hplain, Option.bind_some]
    exact (and_iff_right ⟨hinput, houtput, hplain⟩).symm
  · rw [if_neg hplain, Option.bind_none]
    apply iff_of_false
    · exact fun h => nomatch h
    · exact fun h => hplain h.1.2.2

/-- There is a constant exactly if the lists fit. -/
theorem generatedSpec_isSome {io : IoSpec D} :
    (generatedSpec parseType io).isSome = true ↔ io.Fits := by
  -- Item by item, each list against the array that it is for.
  have hitems : (∃ spec, (Initializer.ofList (specItems parseType io)).bytes modelSpecLayout =
        some spec) ↔
      ((io.ioSpecInput.length ≤ inputGeometry.maxNum ∧
          ∀ t ∈ io.ioSpecInput, t.shape.length ≤ inputGeometry.maxDim) ∧
        io.output.length ≤ outputGeometry.maxNum ∧
          ∀ t ∈ io.output, t.shape.length ≤ outputGeometry.maxDim) ∧
        io.entry.length ≤ maxLengthName := by
    have hname : ((stringItems generatedModelName).bytes
        (.array maxLengthName (.scalar 1))).isSome = true := by decide
    have hlength (g : TensorGeometry) (tensors : List (IoTensor D)) :
        (tensorItems parseType tensors).length = (tensorMembers g).length := rfl
    have hboth : (tensorItems parseType io.ioSpecInput ++ tensorItems parseType io.output).length =
        (tensorMembers inputGeometry ++ tensorMembers outputGeometry).length := rfl
    rw [← Option.isSome_iff_exists, modelSpecLayout, Initializer.bytes_record_isSome rfl, specItems,
      List.zip_append hboth, List.zip_append (hlength _ _), List.forall_mem_append, List.forall_mem_append,
      tensorItems_isSome, tensorItems_isSome]
    apply and_congr_right
    intro _
    rw [List.zip_cons_cons, List.zip_cons_cons, List.zip_nil_right, List.forall_mem_cons,
      List.forall_mem_singleton, stringItems, Initializer.bytes_numbers_isSome, List.length_map]
    exact and_iff_left hname
  rw [Option.isSome_iff_exists]
  simp only [generatedSpec_eq_some, exists_and_left, hitems]
  constructor
  · intro h
    obtain ⟨⟨hinput, houtput, hplain⟩, ⟨hin, hout⟩, hentry⟩ := h
    exact ⟨hinput, houtput, hin.1, hout.1, hin.2, hout.2, hplain, hentry⟩
  · intro h
    exact ⟨⟨h.input_ne, h.output_ne, h.plain⟩,
      ⟨⟨h.input_le, h.inputDims⟩, h.output_le, h.outputDims⟩, h.entry_le⟩

end

/-! ### What is read back -/

/-- What a specification says about a tensor. -/
structure TensorDescription where
  shape : List ℕ
  code : ℕ
  bits : ℕ
deriving DecidableEq, Repr

namespace TensorDescription

/-- The library accepts the tensor. -/
structure Valid (d : TensorDescription) (maxDim : ℕ) : Prop where
  dim_pos : d.shape ≠ []
  dim_le : d.shape.length ≤ maxDim
  bits : d.bits%8 = 0
  code : d.code < dataTypeCodeEnd
  shape : ∀ dim ∈ d.shape, dim ≠ 0

def sizeBits (d : TensorDescription) : ℕ := d.shape.prod*d.bits

end TensorDescription

/-- What the code reads about the input tensors, or about the output tensors. -/
def readTensors (g : TensorGeometry) (spec : List UInt8) : List TensorDescription :=
  (List.range (numTensors g spec)).map fun i =>
    { shape := (List.range (numTensorDim g spec i)).map (tensorShape g spec i)
      code := dataTypeCode g spec i
      bits := dataTypeBits g spec i }

section
variable {g : TensorGeometry} {spec : List UInt8}

@[simp] theorem length_readTensors : (readTensors g spec).length = numTensors g spec := by
  rw [readTensors, List.length_map, List.length_range]

theorem forall_readTensors {P : TensorDescription → Prop} :
    (∀ d ∈ readTensors g spec, P d) ↔ ∀ i < numTensors g spec,
      P { shape := (List.range (numTensorDim g spec i)).map (tensorShape g spec i)
          code := dataTypeCode g spec i
          bits := dataTypeBits g spec i } := by
  rw [readTensors, List.forall_mem_map]
  simp only [List.mem_range]

/-- Whether the library accepts a description is a matter of what it reads. -/
theorem tensorsValid_iff : TensorsValid g spec ↔
    readTensors g spec ≠ [] ∧ (readTensors g spec).length ≤ g.maxNum ∧
      ∀ d ∈ readTensors g spec, d.Valid g.maxDim := by
  have htensor (i : ℕ) : TensorValid g spec i ↔ TensorDescription.Valid
      { shape := (List.range (numTensorDim g spec i)).map (tensorShape g spec i)
        code := dataTypeCode g spec i
        bits := dataTypeBits g spec i } g.maxDim := by
    have hlength : ((List.range (numTensorDim g spec i)).map (tensorShape g spec i)).length =
        numTensorDim g spec i := by rw [List.length_map, List.length_range]
    have hshape : (∀ dim ∈ (List.range (numTensorDim g spec i)).map (tensorShape g spec i),
        dim ≠ 0) ↔ ∀ j < numTensorDim g spec i, tensorShape g spec i j ≠ 0 := by
      simp only [List.forall_mem_map, List.mem_range]
    -- A tensor has as many dimensions as the list of its sizes is long.
    constructor
    · intro h
      refine ⟨?_, hlength.le.trans h.dim_le, h.bits, h.code, hshape.mpr h.shape⟩
      apply List.ne_nil_of_length_pos
      rw [hlength]
      exact h.dim_pos
    · intro h
      refine ⟨?_, hlength.ge.trans h.dim_le, h.bits, h.code, hshape.mp h.shape⟩
      rw [← hlength]
      exact List.length_pos_of_ne_nil h.dim_pos
  rw [forall_readTensors, ← List.length_pos_iff, length_readTensors]
  constructor
  · intro h
    exact ⟨h.num_pos, h.num_le, fun i hi => (htensor i).mp (h.tensors i hi)⟩
  · intro h
    exact ⟨h.1, h.2.1, fun i hi => (htensor i).mpr (h.2.2 i hi)⟩

theorem exactSize_eq : exactSize g spec = ((readTensors g spec).map fun d => d.sizeBits/8).sum := by
  have helements (i : ℕ) : elements g spec i =
      ((List.range (numTensorDim g spec i)).map (tensorShape g spec i)).prod := rfl
  rw [exactSize, readTensors, List.map_map]
  simp only [helements]
  rfl

end

section
variable {D : Type} {parseType : D → ℤ × ℤ}

/-- What the tensor says, reduced to the widths of the members. -/
def IoTensor.description (parseType : D → ℤ × ℤ) (t : IoTensor D) : TensorDescription where
  shape := t.shape.map fun dim => (dim%2^32).toNat
  code := ((parseType t.dtype).1%2^8).toNat
  bits := ((parseType t.dtype).2%2^8).toNat

/-- Member `k` of the initializer is the first of the four that say what the tensors are. -/
structure ListedAt (parseType : D → ℤ × ℤ) (i : Initializer) (k : ℕ)
    (tensors : List (IoTensor D)) : Prop where
  num : i.value [k] = tensors.length
  numDim : ∀ n, i.value [k+1, n] = (tensors[n]?.map fun t => (t.shape.length : ℤ)).getD 0
  shape : ∀ n j, i.value [k+2, n, j] = (tensors[n]?.map fun t => t.shape[j]?.getD 0).getD 0
  code : ∀ n, i.value [k+3, n, 0] = (tensors[n]?.map fun t => (parseType t.dtype).1).getD 0
  bits : ∀ n, i.value [k+3, n, 1] = (tensors[n]?.map fun t => (parseType t.dtype).2).getD 0

/-- The members are those of the list of items from `k` on. -/
theorem listedAt_of_items {items : List Initializer} {k : ℕ} {tensors : List (IoTensor D)}
    (h : ∀ j < 4, items[k+j]? = (tensorItems parseType tensors)[j]?) :
    ListedAt parseType (.ofList items) k tensors := by
  have h0 : items[k]? = some (.number tensors.length) := h 0 (by decide)
  have h1 := h 1 (by decide)
  have h2 := h 2 (by decide)
  have h3 := h 3 (by decide)
  -- The members in their order: the number, the dimensions, the shapes, the types.
  constructor
  · rw [Initializer.value_ofList, h0]
    rfl
  · intro n
    rw [Initializer.value_ofList, h1]
    show (Initializer.numbers _).value [n] = _
    rw [Initializer.value_numbers, List.getElem?_map]
  · intro n j
    rw [Initializer.value_ofList, h2]
    show (Initializer.ofList _).value [n, j] = _
    rw [Initializer.value_ofList, List.getElem?_map, Option.map_map]
    simp only [Function.comp_def, Initializer.value_numbers]
  · intro n
    rw [Initializer.value_ofList, h3]
    show (Initializer.ofList _).value [n, 0] = _
    rw [Initializer.value_ofList, List.getElem?_map, ioSpecParseTypes, List.getElem?_map,
      Option.map_map, Option.map_map]
    rfl
  · intro n
    rw [Initializer.value_ofList, h3]
    show (Initializer.ofList _).value [n, 1] = _
    rw [Initializer.value_ofList, List.getElem?_map, ioSpecParseTypes, List.getElem?_map,
      Option.map_map, Option.map_map]
    rfl

/-- What is read back is what the specification says. -/
theorem readTensors_eq {g : TensorGeometry} {k : ℕ} {i : Initializer} {spec : List UInt8}
    {tensors : List (IoTensor D)} (hbytes : i.bytes modelSpecLayout = some spec)
    (hmembers : MembersAt g k) (hlisted : ListedAt parseType i k tensors)
    (hnum : tensors.length ≤ g.maxNum) (hdims : ∀ t ∈ tensors, t.shape.length ≤ g.maxDim)
    (hg : g.maxNum < 2^32 ∧ g.maxDim < 2^32) :
    readTensors g spec = tensors.map (IoTensor.description parseType) := by
  have hcount : numTensors g spec = tensors.length := by
    rw [numTensors, Initializer.word_bytes hbytes hmembers.num, hlisted.num]
    omega
  apply List.ext_getElem
  · rw [length_readTensors, hcount, List.length_map]
  intro n hn _
  rw [length_readTensors, hcount] at hn
  have hroom : n < g.maxNum := hn.trans_le hnum
  have htensor : tensors[n]? = some tensors[n] := List.getElem?_eq_getElem hn
  have hdim := hdims _ (List.getElem_mem hn)
  -- The members of tensor `n`, one after the other, by their places in the layout.
  have hnumDim : numTensorDim g spec n = tensors[n].shape.length := by
    rw [numTensorDim, Initializer.word_bytes hbytes (hmembers.numDim n hroom), hlisted.numDim,
      htensor, Option.map_some, Option.getD_some]
    omega
  have hshape : (List.range tensors[n].shape.length).map (tensorShape g spec n) =
      tensors[n].shape.map fun dim => (dim%2^32).toNat := by
    apply List.ext_getElem
    · rw [List.length_map, List.length_map, List.length_range]
    intro j hj hj'
    rw [List.length_map] at hj'
    rw [List.getElem_map, List.getElem_map, List.getElem_range, tensorShape,
      Initializer.word_bytes hbytes (hmembers.shape n hroom j (hj'.trans_le hdim)), hlisted.shape,
      htensor, Option.map_some, Option.getD_some, List.getElem?_eq_getElem hj', Option.getD_some]
    rfl
  have hcode : dataTypeCode g spec n = ((parseType tensors[n].dtype).1%2^8).toNat := by
    rw [dataTypeCode, Initializer.word_bytes hbytes (hmembers.code n hroom), hlisted.code, htensor]
    rfl
  have hbits : dataTypeBits g spec n = ((parseType tensors[n].dtype).2%2^8).toNat := by
    rw [dataTypeBits, Initializer.word_bytes hbytes (hmembers.bits n hroom), hlisted.bits, htensor]
    rfl
  simp only [readTensors, List.getElem_map, List.getElem_range, hnumDim, hshape, hcode, hbits]
  rfl

end

/-! ### The strings -/

section
variable {D : Type} {parseType : D → ℤ × ℤ} {io : IoSpec D} {spec : List UInt8}

theorem plainCharacter_ne_zero {c : UInt8} (h : plainCharacter c = true) : c ≠ 0 := by
  rintro rfl
  exact absurd h (by decide)

theorem cString_plain {pre str tail : List UInt8} {off : ℕ} (hoff : pre.length = off)
    (hplain : str.all plainCharacter = true) : cString (pre ++ (str ++ 0 :: tail)) off = some str := by
  have hne : ∀ c ∈ str, decide (c ≠ 0) = true := fun c hc =>
    decide_eq_true (plainCharacter_ne_zero (List.all_eq_true.mp hplain c hc))
  have hstr : ((pre ++ (str ++ 0 :: tail)).drop off).takeWhile (· ≠ 0) = str := by
    rw [← hoff, List.drop_left, List.takeWhile_append_of_pos hne,
      List.takeWhile_cons_of_neg (by decide), List.append_nil]
  have hend : off+str.length < (pre ++ (str ++ 0 :: tail)).length := by
    rw [List.length_append, List.length_append, List.length_cons]
    omega
  simp only [cString, hstr, if_pos hend]

/-- An entry function of 20 characters is not terminated, and the name of the model follows it. -/
theorem entryFunc_generated (h : generatedSpec parseType io = some spec) :
    entryFunc spec =
      some (if io.entry.length < maxLengthName then io.entry else io.entry ++ generatedModelName) := by
  have hfits : io.Fits := (generatedSpec_isSome parseType).mp (by rw [h]; rfl)
  obtain ⟨-, hbytes⟩ := (generatedSpec_eq_some parseType).mp h
  rw [specItems, modelSpecLayout] at hbytes
  obtain ⟨tensors, strings, htensors, hstrings, rfl⟩ := (Initializer.bytes_append_record rfl).mp hbytes
  have hoffset : tensors.length = entryFuncOffset := Initializer.length_bytes htensors
  obtain ⟨entry, rest, hentry, hrest, rfl⟩ := Initializer.bytes_item_field.mp hstrings
  obtain ⟨name, rest, hname, hclosed, rfl⟩ := Initializer.bytes_item_field.mp hrest
  cases hclosed
  rw [stringItems, Initializer.bytes_text hfits.entry_le] at hentry
  obtain rfl := Option.some.inj hentry
  have hnameBytes : (stringItems generatedModelName).bytes (.array maxLengthName (.scalar 1)) =
      some (generatedModelName ++ List.replicate 14 0) := Initializer.bytes_text (by decide)
  obtain rfl := Option.some.inj (hname.symm.trans hnameBytes)
  have hle := hfits.entry_le
  split
  · next hlt =>
    obtain ⟨n, hn⟩ : ∃ n, maxLengthName-io.entry.length = n+1 :=
      ⟨maxLengthName-io.entry.length-1, by omega⟩
    rw [hn, List.replicate_succ, List.append_assoc, List.cons_append]
    exact cString_plain hoffset hfits.plain
  · next hlt =>
    -- No byte is left for a terminator.
    have hfull : maxLengthName-io.entry.length = 0 := by omega
    have hplain : (io.entry ++ generatedModelName).all plainCharacter = true := by
      rw [List.all_append, hfits.plain]
      rfl
    have hzeros : List.replicate 14 (0 : UInt8) = 0 :: List.replicate 13 0 := rfl
    have hstring := @cString_plain tensors (io.entry ++ generatedModelName) (List.replicate 13 0) _
      hoffset hplain
    rw [hfull, List.replicate_zero, List.append_nil, List.append_nil, hzeros]
    rwa [List.append_assoc] at hstring

theorem length_generatedSpec (h : generatedSpec parseType io = some spec) :
    spec.length = modelSpecSize := by
  obtain ⟨-, hbytes⟩ := (generatedSpec_eq_some parseType).mp h
  exact (Initializer.length_bytes hbytes).trans size_modelSpecLayout

theorem readTensors_generated (h : generatedSpec parseType io = some spec) :
    readTensors inputGeometry spec = io.ioSpecInput.map (IoTensor.description parseType) ∧
      readTensors outputGeometry spec = io.output.map (IoTensor.description parseType) := by
  have hfits : io.Fits := (generatedSpec_isSome parseType).mp (by rw [h]; rfl)
  obtain ⟨-, hbytes⟩ := (generatedSpec_eq_some parseType).mp h
  have hin : ListedAt parseType (.ofList (specItems parseType io)) 0 io.ioSpecInput := by
    apply listedAt_of_items
    intro j hj
    interval_cases j <;> rfl
  have hout : ListedAt parseType (.ofList (specItems parseType io)) 4 io.output := by
    apply listedAt_of_items
    intro j hj
    interval_cases j <;> rfl
  constructor
  · exact readTensors_eq hbytes membersAt_input hin hfits.input_le hfits.inputDims (by decide)
  · exact readTensors_eq hbytes membersAt_output hout hfits.output_le hfits.outputDims (by decide)

/-- The tensor makes sense: it has dimensions, none of them is zero as a number of 32 bits, and its
data type is one of whole bytes. -/
structure IoTensor.Valid (parseType : D → ℤ × ℤ) (t : IoTensor D) : Prop where
  dim_pos : t.shape ≠ []
  shape : ∀ dim ∈ t.shape, ¬ (2^32 : ℤ) ∣ dim
  bits : (8 : ℤ) ∣ (parseType t.dtype).2
  code : (parseType t.dtype).1%2^8 < 18

structure IoSpec.Valid (parseType : D → ℤ × ℤ) (io : IoSpec D) : Prop where
  input : ∀ t ∈ io.ioSpecInput, t.Valid parseType
  output : ∀ t ∈ io.output, t.Valid parseType

theorem description_valid {t : IoTensor D} {maxDim : ℕ} (hdims : t.shape.length ≤ maxDim) :
    (t.description parseType).Valid maxDim ↔ t.Valid parseType := by
  have hlength : (t.description parseType).shape.length = t.shape.length := List.length_map _
  have hshape : (∀ dim ∈ (t.description parseType).shape, dim ≠ 0) ↔
      ∀ dim ∈ t.shape, ¬ (2^32 : ℤ) ∣ dim := by
    rw [IoTensor.description]
    simp only [List.forall_mem_map]
    apply forall_congr'
    intro dim
    apply forall_congr'
    intro _
    omega
  have hbits : (t.description parseType).bits%8 = 0 ↔ (8 : ℤ) ∣ (parseType t.dtype).2 := by
    simp only [IoTensor.description]
    -- 8 divides 2^8, so nothing is lost in the reduction.
    omega
  have hcode : (t.description parseType).code < dataTypeCodeEnd ↔
      (parseType t.dtype).1%2^8 < 18 := by
    simp only [IoTensor.description, dataTypeCodeEnd]
    omega
  have hne : (t.description parseType).shape ≠ [] ↔ t.shape ≠ [] := by
    rw [IoTensor.description, ne_eq, List.map_eq_nil_iff]
  constructor
  · intro h
    exact ⟨hne.mp h.dim_pos, hshape.mp h.shape, hbits.mp h.bits, hcode.mp h.code⟩
  · intro h
    exact ⟨hne.mpr h.dim_pos, hlength.trans_le hdims, hbits.mpr h.bits, hcode.mpr h.code,
      hshape.mpr h.shape⟩

theorem specValid_generated (h : generatedSpec parseType io = some spec) :
    SpecValid spec ↔ io.Valid parseType := by
  have hfits : io.Fits := (generatedSpec_isSome parseType).mp (by rw [h]; rfl)
  obtain ⟨hin, hout⟩ := readTensors_generated h
  have hinput : TensorsValid inputGeometry spec ↔ ∀ t ∈ io.ioSpecInput, t.Valid parseType := by
    rw [tensorsValid_iff, hin, List.length_map, List.forall_mem_map, ne_eq, List.map_eq_nil_iff]
    rw [and_iff_right hfits.input_ne, and_iff_right hfits.input_le]
    exact forall₂_congr fun t ht => description_valid (hfits.inputDims t ht)
  have houtput : TensorsValid outputGeometry spec ↔ ∀ t ∈ io.output, t.Valid parseType := by
    rw [tensorsValid_iff, hout, List.length_map, List.forall_mem_map, ne_eq, List.map_eq_nil_iff]
    rw [and_iff_right hfits.output_ne, and_iff_right hfits.output_le]
    exact forall₂_congr fun t ht => description_valid (hfits.outputDims t ht)
  constructor
  · exact fun hvalid => ⟨hinput.mp hvalid.input, houtput.mp hvalid.output⟩
  · exact fun hvalid => ⟨hinput.mpr hvalid.input, houtput.mpr hvalid.output⟩

/-- The numbers of the tensor fit into their members. -/
structure IoTensor.InRange (parseType : D → ℤ × ℤ) (t : IoTensor D) : Prop where
  shape : ∀ dim ∈ t.shape, 0 ≤ dim ∧ dim < 2^32
  bits : 0 ≤ (parseType t.dtype).2 ∧ (parseType t.dtype).2 < 2^8

/-- The bits of the tensor, by the numbers of the JSON. -/
def IoTensor.sizeBits (parseType : D → ℤ × ℤ) (t : IoTensor D) : ℤ :=
  t.shape.prod*(parseType t.dtype).2

/-- The bytes of the tensors together, by the numbers of the JSON. -/
def tensorBytes (parseType : D → ℤ × ℤ) (tensors : List (IoTensor D)) : ℤ :=
  (tensors.map fun t => t.sizeBits parseType/8).sum

/-- The size is a number of 32 bits, and so is the number of bits of each tensor. -/
structure TensorsFit (parseType : D → ℤ × ℤ) (tensors : List (IoTensor D)) : Prop where
  bits : ∀ t ∈ tensors, t.sizeBits parseType < 2^32
  total : tensorBytes parseType tensors < 2^32

/-- What is in range is read as it is in the JSON. -/
theorem IoTensor.InRange.cast_sizeBits {t : IoTensor D} (h : t.InRange parseType) :
    ((t.description parseType).sizeBits : ℤ) = t.sizeBits parseType := by
  have hcast {n : ℤ} {k : ℕ} (hn : 0 ≤ n ∧ n < 2^k) : ((n%2^k).toNat : ℤ) = n := by
    rw [Int.emod_eq_of_lt hn.1 hn.2, Int.toNat_of_nonneg hn.1]
  have hshape : (t.description parseType).shape.map Nat.cast = t.shape := by
    rw [description, List.map_map, List.map_congr_left (g := id), List.map_id]
    exact fun dim hdim => hcast (h.shape dim hdim)
  have hbits : ((t.description parseType).bits : ℤ) = (parseType t.dtype).2 := hcast h.bits
  rw [TensorDescription.sizeBits, Nat.cast_mul, Nat.cast_list_prod, hshape, hbits, sizeBits]

theorem cast_tensorBytes {tensors : List (IoTensor D)} (h : ∀ t ∈ tensors, t.InRange parseType) :
    (((tensors.map fun t => (t.description parseType).sizeBits/8).sum : ℕ) : ℤ) =
      tensorBytes parseType tensors := by
  rw [tensorBytes, Nat.cast_list_sum, List.map_map]
  congr 1
  apply List.map_congr_left
  intro t ht
  rw [Function.comp_apply, Int.natCast_ediv, (h t ht).cast_sizeBits]
  rfl

theorem modelSize_generated {g : TensorGeometry} {tensors : List (IoTensor D)}
    (hvalid : TensorsValid g spec)
    (h : readTensors g spec = tensors.map (IoTensor.description parseType))
    (hrange : ∀ t ∈ tensors, t.InRange parseType) :
    modelSize g spec = some (tensorBytes parseType tensors).toNat ↔ TensorsFit parseType tensors := by
  have hsize : (exactSize g spec : ℤ) = tensorBytes parseType tensors := by
    rw [exactSize_eq, h, List.map_map]
    exact cast_tensorBytes hrange
  have hbits : (∀ i < numTensors g spec, elements g spec i*dataTypeBits g spec i < 2^32) ↔
      ∀ t ∈ tensors, t.sizeBits parseType < 2^32 := by
    have hread := @forall_readTensors g spec fun d => d.sizeBits < 2^32
    rw [h, List.forall_mem_map] at hread
    refine hread.symm.trans (forall₂_congr fun t ht => ?_)
    rw [← (hrange t ht).cast_sizeBits]
    omega
  have htotal : exactSize g spec < 2^32 ↔ tensorBytes parseType tensors < 2^32 := by
    rw [← hsize]
    omega
  rw [← hsize, Int.toNat_natCast, modelSize_exact_iff hvalid, hbits, htotal]
  exact ⟨fun hfit => ⟨hfit.1, hfit.2⟩, fun hfit => ⟨hfit.bits, hfit.total⟩⟩

end

/-- A specification of the right size replaces the one before it, and is checked. -/
theorem modelLoadStruct_whole {S : Type} {m : Model S} {spec : List UInt8}
    (hprepared : m.iospecPrepared = true) (hlength : spec.length = modelSpecSize) :
    ∃ iospec : BufLoader modelSpecSize, iospec.mem = spec ∧ iospec.written = modelSpecSize ∧
      m.modelLoadStruct (some spec) = ({m with iospec} : Model S).modelLoadStructFromLoader := by
  have hfit : (bufReset m.iospec).2.written+spec.length ≤ modelSpecSize := by
    rw [bufReset_written, hlength, Nat.zero_add]
  have hwritten : ((bufReset m.iospec).2.append spec hfit).written = modelSpecSize := by
    rw [BufLoader.written_append, bufReset_written, hlength, Nat.zero_add]
  refine ⟨(bufReset m.iospec).2.append spec hfit, ?_, hwritten, ?_⟩
  · rw [BufLoader.mem_of_full _ hwritten, BufLoader.stored_append, bufReset_stored, List.nil_append]
  · have hbuffer : ¬ m.iospecPrepared = false := by
      rw [hprepared]
      decide
    rw [Model.modelLoadStruct, if_neg hbuffer, bufSave_fit _ _ hfit]
    exact if_neg (not_not.mpr rfl)

section
variable {D : Type} {parseType : D → ℤ × ℤ} {io : IoSpec D}

theorem modelGetSize_generated {S : Type} {m : Model S} {g : TensorGeometry}
    {tensors : List (IoTensor D)} (hstate : m.modelState = .structLoaded)
    (hvalid : TensorsValid g m.modelSpec)
    (h : readTensors g m.modelSpec = tensors.map (IoTensor.description parseType))
    (hrange : ∀ t ∈ tensors, t.InRange parseType) :
    m.modelGetSize g = some (.ok (tensorBytes parseType tensors).toNat) ↔
      TensorsFit parseType tensors := by
  have hle : ModelState.structLoaded ≤ m.modelState := by
    rw [hstate]
    exact Nat.le_refl _
  rw [modelGetSize_eq_iff hle, modelSize_generated hvalid h hrange]

/-- From the IO specification in JSON through the compiler into the library: there is a constant exactly
if the lists fit; `model_load_struct` accepts it exactly if the tensors make sense; and then the library
reads what the JSON says, up to the widths of the members. -/
theorem generated_model_spec {S : Type} {m : Model S}
    (hinit : ModelState.initialized ≤ m.modelState) (hprepared : m.iospecPrepared = true) :
    ((generatedSpec parseType io).isSome = true ↔ io.Fits) ∧
      ∀ spec, generatedSpec parseType io = some spec →
        ((m.modelLoadStruct (some spec)).map Prod.fst = some statusOk ↔ io.Valid parseType) ∧
        ∀ m', m.modelLoadStruct (some spec) = some (statusOk, m') →
          readTensors inputGeometry m'.modelSpec =
              io.ioSpecInput.map (IoTensor.description parseType) ∧
            readTensors outputGeometry m'.modelSpec =
              io.output.map (IoTensor.description parseType) ∧
            entryFunc m'.modelSpec = some (if io.entry.length < maxLengthName then io.entry
              else io.entry ++ generatedModelName) ∧
            ((∀ t ∈ io.ioSpecInput, t.InRange parseType) →
              (m'.modelGetInputSize = some (.ok (tensorBytes parseType io.ioSpecInput).toNat) ↔
                TensorsFit parseType io.ioSpecInput)) ∧
            ((∀ t ∈ io.output, t.InRange parseType) →
              (m'.modelGetOutputSize = some (.ok (tensorBytes parseType io.output).toNat) ↔
                TensorsFit parseType io.output)) := by
  refine ⟨generatedSpec_isSome parseType, ?_⟩
  intro spec h
  obtain ⟨hin, hout⟩ := readTensors_generated h
  obtain ⟨iospec, hmem, hwritten, hload⟩ :=
    modelLoadStruct_whole hprepared (length_generatedSpec h)
  rw [hload]
  have hspec : ({m with iospec} : Model S).modelSpec = spec := hmem
  constructor
  · -- Whole constants are received, so only the check of the tensors decides.
    rw [← specValid_generated h, ← hspec]
    constructor
    · intro hstatus
      obtain ⟨⟨status, m'⟩, heq, rfl⟩ := Option.map_eq_some_iff.mp hstatus
      exact (Model.modelLoadStructFromLoader_ok heq).2.1
    · intro hvalid
      have hok := @Model.modelLoadStructFromLoader_valid S {m with iospec} hinit hprepared hwritten
        hvalid
      rw [hok]
      rfl
  · intro m' heq
    obtain ⟨-, hvalid, rfl⟩ := Model.modelLoadStructFromLoader_ok heq
    have hmodel : ({m with iospec, modelState := .structLoaded} : Model S).modelSpec = spec := hmem
    rw [hspec] at hvalid
    refine ⟨?_, ?_, ?_, ?_, ?_⟩
    · rw [hmodel, hin]
    · rw [hmodel, hout]
    · rw [hmodel, entryFunc_generated h]
    · intro hrange
      refine modelGetSize_generated rfl ?_ ?_ hrange
      · rw [hmodel]
        exact hvalid.input
      · rw [hmodel, hin]
    · intro hrange
      refine modelGetSize_generated rfl ?_ ?_ hrange
      · rw [hmodel]
        exact hvalid.output
      · rw [hmodel, hout]

end

/-- One input of 128 × 3 values and one output of four, all of type `int8_t`. -/
def magicWandIoSpec : IoSpec (ℤ × ℤ) where
  processedInput := some [⟨[1, 128, 3, 1], (0, 8)⟩]
  input := []
  output := [⟨[1, 4], (0, 8)⟩]
  entryFunc := none

theorem generated_model_spec_magicWand :
    ∃ spec m', generatedSpec id magicWandIoSpec = some spec ∧
      (receivedSpec oneByteSpec length_oneByteSpec).modelLoadStruct (some spec) =
        some (statusOk, m') ∧
      m'.modelGetInputSize = some (.ok 384) ∧ m'.modelGetOutputSize = some (.ok 4) ∧
      entryFunc m'.modelSpec = some [] := by
  have hall := @generated_model_spec _ id magicWandIoSpec _
    (receivedSpec oneByteSpec length_oneByteSpec) (Nat.le_refl _) rfl
  have hfits : magicWandIoSpec.Fits :=
    ⟨List.cons_ne_nil _ _, List.cons_ne_nil _ _, by decide, by decide,
      List.forall_mem_singleton.mpr (by decide), List.forall_mem_singleton.mpr (by decide), rfl,
      by decide⟩
  have hvalid : magicWandIoSpec.Valid id :=
    ⟨List.forall_mem_singleton.mpr ⟨by decide, by decide, by decide, by decide⟩,
      List.forall_mem_singleton.mpr ⟨by decide, by decide, by decide, by decide⟩⟩
  have hin : TensorsFit id magicWandIoSpec.ioSpecInput :=
    ⟨List.forall_mem_singleton.mpr (by decide), by decide⟩
  have hout : TensorsFit id magicWandIoSpec.output :=
    ⟨List.forall_mem_singleton.mpr (by decide), by decide⟩
  obtain ⟨spec, hspec⟩ := Option.isSome_iff_exists.mp (hall.1.mpr hfits)
  obtain ⟨hstatus, hread⟩ := hall.2 spec hspec
  obtain ⟨⟨status, m'⟩, hload, hok⟩ := Option.map_eq_some_iff.mp (hstatus.mpr hvalid)
  obtain rfl : status = statusOk := hok
  obtain ⟨-, -, hentry, hinput, houtput⟩ := hread m' hload
  have hinRange : ∀ t ∈ magicWandIoSpec.ioSpecInput, t.InRange id :=
    List.forall_mem_singleton.mpr ⟨by decide, by decide⟩
  have houtRange : ∀ t ∈ magicWandIoSpec.output, t.InRange id :=
    List.forall_mem_singleton.mpr ⟨by decide, by decide⟩
  exact ⟨spec, m', hspec, hload, (hinput hinRange).mpr hin, (houtput houtRange).mpr hout, hentry⟩

end KenningRuntime
