import KenningRuntime.Library.CountedLoops

/-! The operators of the int8 model for TVM (runtimes/tvm/generated/magic_wand_int8.c). An operator faults
(`none`) if it reads or writes outside of an array, or overflows. Loop counters are not negative, so their
shifts and masks are quotients and remainders. What an array on the stack holds at first is a parameter. -/
namespace KenningRuntime.MagicWandInt8
open CountedLoops

/-- The workspaces of TVM: what `TVMBackendAllocWorkspace` returns for a size in bytes, as an array of
`int16_t`, and the status of `TVMBackendFreeWorkspace`. -/
structure TvmBackend where
  allocWorkspace : ℕ → Option (IntArray 16)
  freeWorkspace : ℤ

/-- The arithmetic of `float`, and its functions: nothing is known about them. -/
structure FloatOps (F : Type) where
  literal : ℚ → F
  ofInt : ℤ → F
  toInt8 : F → ℤ
  add : F → F → F
  sub : F → F → F
  mul : F → F → F
  div : F → F → F
  gt : F → F → Bool
  lt : F → F → Bool
  expf : F → F
  roundf : F → F

/-- The clip to the values of an `int8_t`. -/
def clip (v : ℤ) : ℤ :=
  let v := if v < 127 then v else 127
  if v > -128 then v else -128

/-- `fixed_point_multiply`: the product with `multiplier / 2^31`, shifted and rounded. -/
def fixedPointMultiply (v multiplier shift : ℤ) : Option ℤ := do
  let product ← checked 64 (v*multiplier)
  let bits ← checked 32 (shift+31)
  let half ← oneShiftLeft (bits-1)
  let sum ← checked 64 (product+half)
  let scaled ← shiftRight sum bits
  return convert 32 scaled

/-! ### Changes of the layout -/

/-- `tvmgen_fused_layout_transform_cast_subtract`. -/
def fusedLayoutTransformCastSubtract (p0 : IntArray 8) (p1 tSubtract : IntArray 16) :
    Option (IntArray 16) :=
  forRange 128 tSubtract fun ax2 tSubtract => forRange 3 tSubtract fun ax3Inner tSubtract => do
    let cseVar1 := ax2*3+ax3Inner
    tSubtract.set cseVar1 ((← p0.get cseVar1)-(← p1.get 0))

/-- `tvmgen_fused_layout_transform_reshape_cast_subtract`. -/
def fusedLayoutTransformReshapeCastSubtract (p0 : IntArray 8) (p1 tSubtract : IntArray 16) :
    Option (IntArray 16) :=
  forRange 14 tSubtract fun ax1Outer tSubtract => forRange 16 tSubtract fun ax1Inner tSubtract => do
    tSubtract.set (ax1Outer*16+ax1Inner) ((← p0.get (ax1Inner*14+ax1Outer))-(← p1.get 0))

/-- `tvmgen_fused_reshape_cast_subtract`. -/
def fusedReshapeCastSubtract (p0 : IntArray 8) (p1 tSubtract : IntArray 16) : Option (IntArray 16) :=
  forRange 16 tSubtract fun ax1Inner tSubtract => do
    tSubtract.set ax1Inner ((← p0.get ax1Inner)-(← p1.get 0))

/-! ### Convolutions -/

/-- `acc[c] += x*y`. -/
def multiplyAdd (acc : IntArray 32) (c : ℕ) (x y : ℤ) : Option (IntArray 32) := do
  acc.set c (← checked 32 ((← acc.get c)+(← checked 32 (x*y))))

/-- An output of a convolution: the sum with a bias, scaled for its channel, around the zero point. -/
def requantizeChannel (sum : ℤ) (p2 p3 p5 p6 : IntArray 32) (channel : ℕ) : Option ℤ := do
  let biased ← checked 32 (sum+(← p2.get channel))
  let scaled ← fixedPointMultiply biased (← p3.get channel) (← p5.get channel)
  return clip (← checked 32 ((← p6.get 0)+scaled))

namespace Conv2d

/-- The input with zeros around it, in the workspace. -/
def padData (dataVec dataPad : IntArray 16) : Option (IntArray 16) :=
  forRange 131 dataPad fun i0I1FusedI2Fused dataPad => forRange 5 dataPad fun i3 dataPad => do
    let v ←
      if 1 ≤ i0I1FusedI2Fused ∧ i0I1FusedI2Fused < 129 ∧ 1 ≤ i3 ∧ i3 < 4
      then dataVec.get (i0I1FusedI2Fused*3+i3-4)
      else some 0
    dataPad.set (i0I1FusedI2Fused*5+i3) v

/-- The weights, with four output channels side by side. -/
def packWeights (p1 dataVec : IntArray 16) : Option (IntArray 16) :=
  forRange 8 dataVec fun occKHFused dataVec => forRange 3 dataVec fun kW dataVec =>
    forRange 4 dataVec fun ocb dataVec => do
      dataVec.set (occKHFused*12+kW*4+ocb)
        (← p1.get (occKHFused/4*48+ocb*12+occKHFused%4*3+kW))

/-- `conv2d_NCHWc_global` of one round: three outputs of four channels. -/
def accumulate (dataPad dataVec : IntArray 16) (ax0Ax1OuterFusedAx2Fused : ℕ) (acc : IntArray 32) :
    Option (IntArray 32) := do
  let acc ← forRange 4 acc fun ocBlockCInit acc => acc.set ocBlockCInit 0
  let acc ← forRange 4 acc fun ocBlockCInit1 acc => acc.set (ocBlockCInit1+4) 0
  let acc ← forRange 4 acc fun ocBlockCInit2 acc => acc.set (ocBlockCInit2+8) 0
  forRange 4 acc fun kh acc => forRange 3 acc fun kw acc => do
    let pad := kh*5+ax0Ax1OuterFusedAx2Fused%128*5+kw
    let weights := ax0Ax1OuterFusedAx2Fused/128*48+kh*12+kw*4
    let acc ← forRange 4 acc fun ocBlockC acc => do
      multiplyAdd acc ocBlockC (← dataPad.get pad) (← dataVec.get (weights+ocBlockC))
    let acc ← forRange 4 acc fun ocBlockC1 acc => do
      multiplyAdd acc (ocBlockC1+4) (← dataPad.get (pad+1)) (← dataVec.get (weights+ocBlockC1))
    forRange 4 acc fun ocBlockC2 acc => do
      multiplyAdd acc (ocBlockC2+8) (← dataPad.get (pad+2)) (← dataVec.get (weights+ocBlockC2))

end Conv2d

/-- `tvmgen_fused_nn_conv2d_add_fixed_point_multiply_per_axis_add_clip_cast`, with the status that it
returns. -/
def fusedNnConv2d (B : TvmBackend) (p0 p1 : IntArray 16) (p2 p3 p5 p6 : IntArray 32)
    (dataVec : IntArray 16) (acc : IntArray 32) (tCast : IntArray 8) : Option (ℤ × IntArray 8) :=
  match B.allocWorkspace 1310 with
  | none => some (-1, tCast)
  | some dataPad => do
    let dataVec ← forRange 128 dataVec fun bsCFusedHFused dataVec => forRange 3 dataVec fun w dataVec => do
      let cseVar1 := bsCFusedHFused*3+w
      dataVec.set cseVar1 (← p0.get cseVar1)
    let dataPad ← Conv2d.padData dataVec dataPad
    let dataVec ← Conv2d.packWeights p1 dataVec
    let tCast ← forRange 256 tCast fun ax0Ax1OuterFusedAx2Fused tCast => do
      let acc ← Conv2d.accumulate dataPad dataVec ax0Ax1OuterFusedAx2Fused acc
      forRange 3 tCast fun ax3Inner tCast => forRange 4 tCast fun ax1Inner tCast => do
        let cseVar5 := ax0Ax1OuterFusedAx2Fused/128
        let v ← requantizeChannel (← acc.get (ax3Inner*4+ax1Inner)) p2 p3 p5 p6 (cseVar5*4+ax1Inner)
        tCast.set (cseVar5*1536+ax1Inner*384+ax0Ax1OuterFusedAx2Fused%128*3+ax3Inner) v
    return (if B.freeWorkspace ≠ 0 then -1 else 0, tCast)

namespace Conv2d1

/-- The input, with four channels side by side, in the workspace. -/
def packData (p0 dataVec : IntArray 16) : Option (IntArray 16) :=
  forRange 84 dataVec fun bsCFusedHFused dataVec => forRange 4 dataVec fun vc dataVec => do
    dataVec.set (bsCFusedHFused*4+vc) (← p0.get (bsCFusedHFused/42*168+vc*42+bsCFusedHFused%42))

/-- The input with zeros around it. -/
def padData (dataVec dataPad : IntArray 16) : Option (IntArray 16) :=
  forRange 90 dataPad fun i0I1FusedI2Fused dataPad => forRange 4 dataPad fun i4 dataPad => do
    let cseVar1 := i0I1FusedI2Fused%45
    let v ←
      if 1 ≤ cseVar1 ∧ cseVar1 < 43 then dataVec.get (i0I1FusedI2Fused/45*168+cseVar1*4+i4-4)
      else some 0
    dataPad.set (i0I1FusedI2Fused*4+i4) v

/-- The weights, with four input channels and four output channels side by side. -/
def packWeights (p1 dataVec : IntArray 16) : Option (IntArray 16) :=
  forRange 16 dataVec fun occKHFused dataVec => forRange 2 dataVec fun icc dataVec =>
    forRange 4 dataVec fun icb dataVec => forRange 4 dataVec fun ocb dataVec => do
      let cseVar4 := icb*4
      let cseVar3 := occKHFused%4
      let cseVar2 := occKHFused/4*128
      dataVec.set (cseVar2+icc*64+cseVar3*16+cseVar4+ocb)
        (← p1.get (cseVar2+ocb*32+icc*16+cseVar4+cseVar3))

/-- `conv2d_NCHWc_global` of one round: an output of four channels. -/
def accumulate (dataPad dataVec : IntArray 16) (ax0Ax1OuterFusedAx2Fused : ℕ) (acc : IntArray 32) :
    Option (IntArray 32) := do
  let acc ← forRange 4 acc fun ocBlockCInit acc => acc.set ocBlockCInit 0
  forRange 2 acc fun icOuter acc => forRange 4 acc fun kh acc => forRange 4 acc fun icInner acc =>
    forRange 4 acc fun ocBlockC acc => do
      let x ← dataPad.get (icOuter*180+kh*4+ax0Ax1OuterFusedAx2Fused%42*4+icInner)
      let y ← dataVec.get
        (ax0Ax1OuterFusedAx2Fused/42*128+icOuter*64+kh*16+icInner*4+ocBlockC)
      multiplyAdd acc ocBlockC x y

end Conv2d1

/-- `tvmgen_fused_nn_conv2d_add_fixed_point_multiply_per_axis_add_clip_cast_1`. -/
def fusedNnConv2d1 (B : TvmBackend) (p0 p1 : IntArray 16) (p2 p3 p5 p6 : IntArray 32)
    (dataPad : IntArray 16) (acc : IntArray 32) (tCast : IntArray 8) : Option (ℤ × IntArray 8) :=
  match B.allocWorkspace 1024 with
  | none => some (-1, tCast)
  | some dataVec => do
    let dataVec ← Conv2d1.packData p0 dataVec
    let dataPad ← Conv2d1.padData dataVec dataPad
    let dataVec ← Conv2d1.packWeights p1 dataVec
    let tCast ← forRange 168 tCast fun ax0Ax1OuterFusedAx2Fused tCast => do
      let acc ← Conv2d1.accumulate dataPad dataVec ax0Ax1OuterFusedAx2Fused acc
      forRange 4 tCast fun ax1Inner tCast => do
        let cseVar6 := ax0Ax1OuterFusedAx2Fused/42
        let v ← requantizeChannel (← acc.get ax1Inner) p2 p3 p5 p6 (cseVar6*4+ax1Inner)
        tCast.set (cseVar6*168+ax1Inner*42+ax0Ax1OuterFusedAx2Fused%42) v
    return (if B.freeWorkspace ≠ 0 then -1 else 0, tCast)

/-! ### Dense layers -/

namespace Dense

/-- The weights, with eight outputs side by side, in the workspace. -/
def packWeights (p1 packedWeight : IntArray 16) : Option (IntArray 16) :=
  forRange 2 packedWeight fun z packedWeight => forRange 224 packedWeight fun y packedWeight =>
    forRange 8 packedWeight fun x packedWeight => do
      let cseVar1 := z*1792
      packedWeight.set (cseVar1+y*8+x) (← p1.get (cseVar1+x*224+y))

/-- `compute_global` of one round: eight outputs. -/
def accumulate (p0 packedWeight : IntArray 16) (ax1OuterAx0OuterFused : ℕ) (acc : IntArray 32) :
    Option (IntArray 32) := do
  let acc ← forRange 8 acc fun xCInit acc => acc.set xCInit 0
  forRange 224 acc fun kOuter acc => forRange 8 acc fun xC acc => do
    multiplyAdd acc xC (← p0.get kOuter)
      (← packedWeight.get (ax1OuterAx0OuterFused*1792+kOuter*8+xC))

end Dense

/-- `tvmgen_fused_nn_dense_add_fixed_point_multiply_add_clip_cast`. -/
def fusedNnDense (B : TvmBackend) (p0 p1 : IntArray 16) (p2 p3 : IntArray 32) (acc : IntArray 32)
    (tCast : IntArray 8) : Option (ℤ × IntArray 8) :=
  match B.allocWorkspace 7168 with
  | none => some (-1, tCast)
  | some packedWeight => do
    let packedWeight ← Dense.packWeights p1 packedWeight
    let tCast ← forRange 2 tCast fun ax1OuterAx0OuterFused tCast => do
      let acc ← Dense.accumulate p0 packedWeight ax1OuterAx0OuterFused acc
      forRange 8 tCast fun ax1InnerInner tCast => do
        let cseVar2 := ax1OuterAx0OuterFused*8+ax1InnerInner
        let biased ← checked 32 ((← acc.get ax1InnerInner)+(← p2.get cseVar2))
        let scaled ← fixedPointMultiply biased 1450140262 7
        tCast.set cseVar2 (clip (← checked 32 ((← p3.get 0)+scaled)))
    return (if B.freeWorkspace ≠ 0 then -1 else 0, tCast)

namespace DenseSubtract

/-- The weights, with four outputs side by side. -/
def packWeights (p1 packedWeight : IntArray 16) : Option (IntArray 16) :=
  forRange 16 packedWeight fun y packedWeight => forRange 4 packedWeight fun x packedWeight => do
    packedWeight.set (y*4+x) (← p1.get (x*16+y))

/-- `compute_global`: four outputs. -/
def accumulate (p0 packedWeight : IntArray 16) (acc : IntArray 32) : Option (IntArray 32) := do
  let acc ← forRange 4 acc fun xCInit acc => acc.set xCInit 0
  forRange 16 acc fun kOuter acc => forRange 4 acc fun xC acc => do
    multiplyAdd acc xC (← p0.get kOuter) (← packedWeight.get (kOuter*4+xC))

end DenseSubtract

section
variable {F : Type} (O : FloatOps F)

/-- An array of `float`. -/
structure FloatArray (F : Type) where
  size : ℕ
  elem : ℕ → F

def FloatArray.get (a : FloatArray F) (i : ℕ) : Option F := if i < a.size then some (a.elem i) else none

def FloatArray.set (a : FloatArray F) (i : ℕ) (v : F) : Option (FloatArray F) :=
  if i < a.size then some {a with elem := Function.update a.elem i v} else none

/-- `tvmgen_fused_nn_dense_add_fixed_point_multiply_add_clip_subtract_cast_multiply`. -/
def fusedNnDenseSubtract (p0 p1 : IntArray 16) (p2 : IntArray 32) (packedWeight : IntArray 16)
    (acc : IntArray 32) (tMultiply : FloatArray F) : Option (FloatArray F) := do
  let packedWeight ← DenseSubtract.packWeights p1 packedWeight
  let acc ← DenseSubtract.accumulate p0 packedWeight acc
  forRange 4 tMultiply fun ax1InnerInner tMultiply => do
    let biased ← checked 32 ((← acc.get ax1InnerInner)+(← p2.get ax1InnerInner))
    let scaled ← fixedPointMultiply biased 1223677426 6
    let v := clip (← checked 32 (scaled-77))
    tMultiply.set ax1InnerInner (O.mul (O.ofInt (v+77)) (O.literal 2.622537))

/-! ### Pooling and softmax -/

/-- `tvmgen_fused_nn_max_pool2d`. -/
def fusedNnMaxPool2d (p0 poolMax : IntArray 8) : Option (IntArray 8) :=
  forRange 16 poolMax fun ax0Ax1Fused poolMax => forRange 14 poolMax fun ax2 poolMax => do
    let cseVar1 := ax0Ax1Fused*14+ax2
    let poolMax ← poolMax.set cseVar1 (-128)
    forRange 3 poolMax fun rv0 poolMax => do
      let v ← poolMax.get cseVar1
      let v1 ← p0.get (ax0Ax1Fused*42+ax2*3+rv0)
      poolMax.set cseVar1 (if v > v1 then v else v1)

/-- `tvmgen_fused_nn_max_pool2d_cast_subtract`. -/
def fusedNnMaxPool2dCastSubtract (p0 : IntArray 8) (p1 : IntArray 16) (poolMax : IntArray 8)
    (tSubtract : IntArray 16) : Option (IntArray 16) := do
  let poolMax ← forRange 8 poolMax fun ax0Ax1Fused poolMax => forRange 42 poolMax fun ax2 poolMax => do
    let cseVar1 := ax0Ax1Fused*42+ax2
    let poolMax ← poolMax.set cseVar1 (-128)
    forRange 3 poolMax fun rv0 poolMax => forRange 3 poolMax fun rv1 poolMax => do
      let v ← poolMax.get cseVar1
      let v1 ← p0.get (ax0Ax1Fused*384+ax2*9+rv0*3+rv1)
      poolMax.set cseVar1 (if v > v1 then v else v1)
  forRange 8 tSubtract fun ax0Ax1Fused1 tSubtract => forRange 42 tSubtract fun ax21 tSubtract => do
    let cseVar2 := ax0Ax1Fused1*42+ax21
    tSubtract.set cseVar2 ((← poolMax.get cseVar2)-(← p1.get 0))

/-- `tvmgen_fused_nn_softmax_divide_round_add_clip_cast`. The arrays of one element are variables. -/
def fusedNnSoftmax (p0 tSoftmaxExp : FloatArray F) (tCast : IntArray 8) : Option (IntArray 8) := do
  let tSoftmaxMaxelem ← forRange 4 (O.literal (-3.402823e38)) fun k tSoftmaxMaxelem => do
    let v1 ← p0.get k
    return if O.gt tSoftmaxMaxelem v1 then tSoftmaxMaxelem else v1
  let tSoftmaxExp ← forRange 4 tSoftmaxExp fun i1 tSoftmaxExp => do
    tSoftmaxExp.set i1 (O.expf (O.sub (← p0.get i1) tSoftmaxMaxelem))
  let tSoftmaxExpsum ← forRange 4 (O.literal 0) fun k1 tSoftmaxExpsum => do
    return O.add tSoftmaxExpsum (← tSoftmaxExp.get k1)
  let tSoftmaxExp ← forRange 4 tSoftmaxExp fun i11 tSoftmaxExp => do
    tSoftmaxExp.set i11 (O.div (← tSoftmaxExp.get i11) tSoftmaxExpsum)
  forRange 4 tCast fun ax1 tCast => do
    let v2 := O.add (O.roundf (O.mul (← tSoftmaxExp.get ax1) (O.literal 256))) (O.literal (-128))
    let v3 := if O.lt v2 (O.literal 127) then v2 else O.literal 127
    tCast.set ax1 (O.toInt8 (if O.gt v3 (O.literal (-128)) then v3 else O.literal (-128)))

end

end KenningRuntime.MagicWandInt8
