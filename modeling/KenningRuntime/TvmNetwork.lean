import KenningRuntime.Library.StoragePlan
import KenningRuntime.TvmLayers

/-! The graph of the int8 model (demo_app/model/tvm/magic_wand_int8_graph.json): its operators, called in
the order of the nodes on the storages that the graph gives to the entries. -/
namespace KenningRuntime.MagicWandInt8
open CountedLoops CountedLoops.IntArray QuantizedLayers StoragePlan

/-! ### Storages -/

/-- The bytes of a storage, least first, as elements of two and four bytes. -/
def asInt16 (s : IntArray 8) : IntArray 16 := ⟨s.size/2, fun i => s.elem (2*i+1) ++ s.elem (2*i)⟩

def asInt32 (s : IntArray 8) : IntArray 32 :=
  ⟨s.size/4, fun i => s.elem (4*i+3) ++ (s.elem (4*i+2) ++ (s.elem (4*i+1) ++ s.elem (4*i)))⟩

/-- What the storage holds when its elements are those of an array. -/
def fromInt16 (s : IntArray 8) (a : IntArray 16) : IntArray 8 :=
  {s with elem := fun i => if i/2 < a.size then (a.elem (i/2)).extractLsb' (8*(i%2)) 8 else s.elem i}

/-- How a `float` is kept. -/
structure FloatBits (F : Type) where
  ofBits : BitVec 32 → F
  toBits : F → BitVec 32
  ofBits_toBits : ∀ x, ofBits (toBits x) = x

section
variable {F : Type}

def asFloat (L : FloatBits F) (s : IntArray 8) : FloatArray F :=
  ⟨s.size/4, fun i => L.ofBits ((asInt32 s).elem i)⟩

def fromFloat (L : FloatBits F) (s : IntArray 8) (a : FloatArray F) : IntArray 8 :=
  {s with elem := fun i =>
    if i/4 < a.size then (L.toBits (a.elem (i/4))).extractLsb' (8*(i%4)) 8 else s.elem i}

theorem elem_asInt16_fromInt16 (s : IntArray 8) {a : IntArray 16} {i : ℕ} (hi : i < a.size) :
    (asInt16 (fromInt16 s a)).elem i = a.elem i := by
  have hhigh : (2*i+1)/2 = i ∧ 8*((2*i+1)%2) = 8 := by omega
  have hlow : 2*i/2 = i ∧ 8*(2*i%2) = 0 := by omega
  simp only [asInt16, fromInt16, hhigh.1, hhigh.2, hlow.1, hlow.2, if_pos hi]
  exact BitVec.extractLsb'_append_extractLsb'

theorem val_asInt16_fromInt16 (s : IntArray 8) {a : IntArray 16} {i : ℕ} (hi : i < a.size) :
    (asInt16 (fromInt16 s a)).val i = a.val i :=
  congrArg BitVec.toInt (elem_asInt16_fromInt16 s hi)

/-- Four bytes of a word make the word. -/
theorem append_bytes (x : BitVec 32) :
    (x.extractLsb' 24 8 ++ (x.extractLsb' 16 8 ++ (x.extractLsb' 8 8 ++ x.extractLsb' 0 8)) : BitVec 32) =
      x := by
  have h2 : (x.extractLsb' 8 8 ++ x.extractLsb' 0 8 : BitVec 16) = x.extractLsb' 0 16 :=
    BitVec.extractLsb'_append_extractLsb'_eq_extractLsb' rfl
  have h3 : (x.extractLsb' 16 8 ++ x.extractLsb' 0 16 : BitVec 24) = x.extractLsb' 0 24 :=
    BitVec.extractLsb'_append_extractLsb'_eq_extractLsb' rfl
  rw [h2, h3]
  exact BitVec.extractLsb'_append_extractLsb'

theorem elem_asFloat_fromFloat (L : FloatBits F) (s : IntArray 8) {a : FloatArray F} {i : ℕ}
    (hi : i < a.size) : (asFloat L (fromFloat L s a)).elem i = a.elem i := by
  have h3 : (4*i+3)/4 = i ∧ 8*((4*i+3)%4) = 24 := by omega
  have h2 : (4*i+2)/4 = i ∧ 8*((4*i+2)%4) = 16 := by omega
  have h1 : (4*i+1)/4 = i ∧ 8*((4*i+1)%4) = 8 := by omega
  have h0 : 4*i/4 = i ∧ 8*(4*i%4) = 0 := by omega
  simp only [asFloat, asInt32, fromFloat, h3.1, h3.2, h2.1, h2.2, h1.1, h1.2, h0.1, h0.2, if_pos hi]
  rw [append_bytes, L.ofBits_toBits]

/-! ### The graph -/

/-- The operators, under the names of their functions. -/
inductive Operator
  | fusedLayoutTransformCastSubtract
  | fusedNnConv2d
  | fusedNnMaxPool2dCastSubtract
  | fusedNnConv2d1
  | fusedNnMaxPool2d
  | fusedLayoutTransformReshapeCastSubtract
  | fusedNnDense
  | fusedReshapeCastSubtract
  | fusedNnDenseSubtract
  | fusedNnSoftmax
  deriving DecidableEq

/-- The nodes that are operators, with the entries that they read and the one that they write. -/
def nodes : List (Step ℕ Operator) := [
  ⟨.fusedLayoutTransformCastSubtract, [0, 1], 2⟩,
  ⟨.fusedNnConv2d, [2, 3, 4, 5, 6, 7, 8], 9⟩,
  ⟨.fusedNnMaxPool2dCastSubtract, [9, 10], 11⟩,
  ⟨.fusedNnConv2d1, [11, 12, 13, 14, 15, 16, 8], 17⟩,
  ⟨.fusedNnMaxPool2d, [17], 18⟩,
  ⟨.fusedLayoutTransformReshapeCastSubtract, [18, 10], 19⟩,
  ⟨.fusedNnDense, [19, 20, 21, 8], 22⟩,
  ⟨.fusedReshapeCastSubtract, [22, 10], 23⟩,
  ⟨.fusedNnDenseSubtract, [23, 24, 25], 26⟩,
  ⟨.fusedNnSoftmax, [26], 27⟩]

def argNodes : List ℕ := [0, 1, 3, 4, 5, 6, 7, 8, 10, 12, 13, 14, 15, 16, 20, 21, 24, 25]

/-- `storage_id`. -/
def storageId (entry : ℕ) : ℕ :=
  [0, 1, 2, 3, 4, 5, 6, 7, 8, 9, 10, 2, 11, 12, 13, 14, 15, 9, 2, 9, 16, 17, 18, 19, 20, 21, 18,
    19].getD entry 0

/-- The bytes of an element of `dltype`, and `shape`. -/
def dltype : List ℕ :=
  [1, 2, 2, 2, 4, 4, 4, 4, 4, 1, 2, 2, 2, 4, 4, 4, 4, 1, 1, 2, 2, 4, 1, 2, 2, 4, 4, 1]

def shape : List (List ℕ) := [
  [1, 128, 3, 1], [], [1, 1, 128, 3], [8, 1, 4, 3], [1, 8, 1, 1], [8], [8], [8], [], [1, 8, 128, 3], [],
  [1, 8, 42, 1], [16, 8, 4, 1], [1, 16, 1, 1], [16], [16], [16], [1, 16, 42, 1], [1, 16, 14, 1], [1, 224],
  [16, 224], [16], [1, 16], [1, 16], [4, 16], [4], [1, 4], [1, 4]]

/-- The bytes of an entry. -/
def entrySize (entry : ℕ) : ℕ := dltype.getD entry 0*(shape.getD entry [0]).prod

/-- The bytes that a storage needs for its entries. -/
def storageSize (storage : ℕ) : ℕ :=
  (((List.range 28).filter fun entry => storageId entry = storage).map entrySize).foldr max 0

/-- What the arrays on the stack of an operator hold at first. -/
structure Stack (F : Type) where
  int8 : ℕ → BitVec 8
  int16 : ℕ → BitVec 16
  int32 : ℕ → BitVec 32
  float : ℕ → F

/-- The function of an operator, with its arguments and the storage that it writes. One that returns a
status other than 0 ends the run. -/
def call (O : FloatOps F) (L : FloatBits F) (B : TvmBackend) (stack : Stack F)
    (op : Operator) (args : List (IntArray 8)) (out : IntArray 8) : Option (IntArray 8) :=
  let succeeded (r : ℤ × IntArray 8) : Option (IntArray 8) := if r.1 = 0 then some r.2 else none
  match op, args with
  | .fusedLayoutTransformCastSubtract, [p0, p1] =>
    (fusedLayoutTransformCastSubtract p0 (asInt16 p1) (asInt16 out)).map (fromInt16 out)
  | .fusedNnConv2d, [p0, p1, p2, p3, _, p5, p6] =>
    (fusedNnConv2d B (asInt16 p0) (asInt16 p1) (asInt32 p2) (asInt32 p3) (asInt32 p5) (asInt32 p6)
      ⟨384, stack.int16⟩ ⟨12, stack.int32⟩ out).bind succeeded
  | .fusedNnMaxPool2dCastSubtract, [p0, p1] =>
    (fusedNnMaxPool2dCastSubtract p0 (asInt16 p1) ⟨336, stack.int8⟩ (asInt16 out)).map (fromInt16 out)
  | .fusedNnConv2d1, [p0, p1, p2, p3, _, p5, p6] =>
    (fusedNnConv2d1 B (asInt16 p0) (asInt16 p1) (asInt32 p2) (asInt32 p3) (asInt32 p5) (asInt32 p6)
      ⟨360, stack.int16⟩ ⟨4, stack.int32⟩ out).bind succeeded
  | .fusedNnMaxPool2d, [p0] => fusedNnMaxPool2d p0 out
  | .fusedLayoutTransformReshapeCastSubtract, [p0, p1] =>
    (fusedLayoutTransformReshapeCastSubtract p0 (asInt16 p1) (asInt16 out)).map (fromInt16 out)
  | .fusedNnDense, [p0, p1, p2, p3] =>
    (fusedNnDense B (asInt16 p0) (asInt16 p1) (asInt32 p2) (asInt32 p3) ⟨8, stack.int32⟩ out).bind succeeded
  | .fusedReshapeCastSubtract, [p0, p1] =>
    (fusedReshapeCastSubtract p0 (asInt16 p1) (asInt16 out)).map (fromInt16 out)
  | .fusedNnDenseSubtract, [p0, p1, p2] =>
    (fusedNnDenseSubtract O (asInt16 p0) (asInt16 p1) (asInt32 p2) ⟨64, stack.int16⟩ ⟨4, stack.int32⟩
      (asFloat L out)).map (fromFloat L out)
  | .fusedNnSoftmax, [p0] => fusedNnSoftmax O (asFloat L p0) ⟨4, stack.float⟩ out
  | _, _ => none

section
variable {O : FloatOps F} {L : FloatBits F} {B : TvmBackend} {stack : Stack F}
  {p0 p1 p2 p3 p4 p5 p6 out : IntArray 8}

theorem call_fusedLayoutTransformCastSubtract :
    call O L B stack .fusedLayoutTransformCastSubtract [p0, p1] out =
      (fusedLayoutTransformCastSubtract p0 (asInt16 p1) (asInt16 out)).map (fromInt16 out) := rfl

theorem call_fusedNnConv2d :
    call O L B stack .fusedNnConv2d [p0, p1, p2, p3, p4, p5, p6] out =
      (fusedNnConv2d B (asInt16 p0) (asInt16 p1) (asInt32 p2) (asInt32 p3) (asInt32 p5) (asInt32 p6)
        ⟨384, stack.int16⟩ ⟨12, stack.int32⟩ out).bind fun r => if r.1 = 0 then some r.2 else none := rfl

theorem call_fusedNnMaxPool2dCastSubtract :
    call O L B stack .fusedNnMaxPool2dCastSubtract [p0, p1] out =
      (fusedNnMaxPool2dCastSubtract p0 (asInt16 p1) ⟨336, stack.int8⟩ (asInt16 out)).map (fromInt16 out) := rfl

theorem call_fusedNnConv2d1 :
    call O L B stack .fusedNnConv2d1 [p0, p1, p2, p3, p4, p5, p6] out =
      (fusedNnConv2d1 B (asInt16 p0) (asInt16 p1) (asInt32 p2) (asInt32 p3) (asInt32 p5) (asInt32 p6)
        ⟨360, stack.int16⟩ ⟨4, stack.int32⟩ out).bind fun r => if r.1 = 0 then some r.2 else none := rfl

theorem call_fusedLayoutTransformReshapeCastSubtract :
    call O L B stack .fusedLayoutTransformReshapeCastSubtract [p0, p1] out =
      (fusedLayoutTransformReshapeCastSubtract p0 (asInt16 p1) (asInt16 out)).map (fromInt16 out) := rfl

theorem call_fusedNnDense :
    call O L B stack .fusedNnDense [p0, p1, p2, p3] out =
      (fusedNnDense B (asInt16 p0) (asInt16 p1) (asInt32 p2) (asInt32 p3) ⟨8, stack.int32⟩ out).bind
        fun r => if r.1 = 0 then some r.2 else none := rfl

theorem call_fusedReshapeCastSubtract :
    call O L B stack .fusedReshapeCastSubtract [p0, p1] out =
      (fusedReshapeCastSubtract p0 (asInt16 p1) (asInt16 out)).map (fromInt16 out) := rfl

theorem call_fusedNnDenseSubtract :
    call O L B stack .fusedNnDenseSubtract [p0, p1, p2] out =
      (fusedNnDenseSubtract O (asInt16 p0) (asInt16 p1) (asInt32 p2) ⟨64, stack.int16⟩ ⟨4, stack.int32⟩
        (asFloat L out)).map (fromFloat L out) := rfl

end

/-- An inference: its input, and what the functions find on their stacks and in their workspaces. -/
structure Inference (F : Type) where
  input : ℕ → BitVec 8
  backend : TvmBackend
  stack : Operator → Stack F

/-- The input in the storage of its entry. -/
def setInput (input : ℕ → BitVec 8) (m : ℕ → IntArray 8) : ℕ → IntArray 8 :=
  Function.update m (storageId 0)
    {m (storageId 0) with elem := fun i => if i < 384 then input i else (m (storageId 0)).elem i}

/-- Inferences one after the other on the same storages, with their outputs. -/
def infer (O : FloatOps F) (L : FloatBits F) : List (Inference F) → (ℕ → IntArray 8) → Option (List (List ℤ))
  | [], _ => some []
  | inference :: rest, m => do
    let act op := call O L inference.backend (inference.stack op) op
    let m ← StoragePlan.run storageId act nodes (setInput inference.input m)
    return (List.range 4).map (m (storageId 27)).val :: (← infer O L rest m)

end

end KenningRuntime.MagicWandInt8
