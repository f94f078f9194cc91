import KenningRuntime.TensorSizes

/-! How the IREE runtime (runtimes/iree/iree.c) and the ExecuTorch runtime
(runtimes/executorch/executorch.cpp) copy the outputs of a model, and when the size that
`model_get_output` checks is the size of what they copy. -/
namespace KenningRuntime

/-- A `memcpy` into the output buffer. -/
structure Copy where
  offset : ℕ
  size : ℕ
deriving DecidableEq, Repr

def copiedBytes (copies : List Copy) : ℕ := (copies.map Copy.size).sum

/-- The loop over the outputs, from output `i` on: it returns early with the status `missing i` if
that is an error, and copies `size i` bytes otherwise. `none` if an array is read behind its end. -/
def copyOutputs (missing : ℕ → Status) (size : ℕ → Option ℕ) :
    ℕ → ℕ → ℕ → Option (Status × List Copy)
  | 0, _, _ => some (statusOk, [])
  | left+1, i, offset =>
    if missing i ≠ statusOk then some (missing i, [])
    else
      match size i with
      | none => none
      | some n =>
        match copyOutputs missing size left (i+1) ((offset+n)%2^32) with
        | none => none
        | some (status, copies) => some (status, ⟨offset, n⟩ :: copies)

def numOutput (spec : List UInt8) : ℕ := numTensors outputGeometry spec

def outputBits (spec : List UInt8) (i : ℕ) : ℕ := dataTypeBits outputGeometry spec i

namespace Iree

/-- What IREE answers for an output: no buffer view, or one that can be mapped or not. -/
inductive OutputView where
  | null
  | unmapped
  | mapped
deriving DecidableEq, Repr

def OutputView.missing : OutputView → Status
  | null => Module.runtimeWrapper.statusInvPtr
  | unmapped => Module.runtimeWrapper.statusError
  | mapped => statusOk

/-- `compute_size_bytes`. The division of C truncates. -/
def computeSizeBytes (bits : ℕ) : ℕ := (((bits : ℤ)-1).tdiv 8+1).toNat

def computeStructureSizeBytes (numberOfElements bits : ℕ) : ℕ :=
  numberOfElements*computeSizeBytes bits%2^32

def currentOutputSize (spec : List UInt8) (i : ℕ) : Option ℕ :=
  (modelSpecOutputLength spec i).map fun length => computeStructureSizeBytes length (outputBits spec i)

/-- `runtime_get_model_output`. Its check of the mapped size asks for a null view besides, so it never
returns from there. -/
def runtimeGetModelOutput (spec : List UInt8) (views : ℕ → OutputView) :
    Option (Status × List Copy) :=
  copyOutputs (fun i => (views i).missing) (currentOutputSize spec) (numOutput spec) 0 0

end Iree

namespace Executorch

/-- `current_output_size`, a product of 32-bit factors. -/
def currentOutputSize (spec : List UInt8) (i : ℕ) : Option ℕ :=
  (modelSpecOutputLength spec i).map fun length =>
    length*(((outputBits spec i : ℤ)-1).tdiv 8+1).toNat%2^32

/-- `runtime_get_model_output`, when `isTensor i` says whether output `i` is a tensor. -/
def runtimeGetModelOutput (spec : List UInt8) (isTensor : ℕ → Bool) :
    Option (Status × List Copy) :=
  copyOutputs (fun i => if isTensor i then statusOk else Module.runtimeWrapper.statusError)
    (currentOutputSize spec) (numOutput spec) 0 0

end Executorch

/-! ### What the loop copies -/

section
variable {missing : ℕ → Status} {size : ℕ → Option ℕ} {n : ℕ → ℕ}

/-- The sizes from output `i+1` on, from those from output `i` on. -/
theorem sizes_succ {left i : ℕ} (h : ∀ k < left+1, size (i+k) = some (n (i+k))) :
    ∀ k < left, size (i+1+k) = some (n (i+1+k)) := by
  intro k hk
  have hk' := h (k+1) (Nat.succ_lt_succ hk)
  rwa [Nat.add_comm k 1, ← Nat.add_assoc] at hk'

theorem sizes_zero {left : ℕ} (h : ∀ i < left, size i = some (n i)) :
    ∀ k < left, size (0+k) = some (n (0+k)) := by
  intro k hk
  rw [Nat.zero_add]
  exact h k hk

theorem copyOutputs_cases {left i offset : ℕ} {status : Status} {copies : List Copy}
    (h : copyOutputs missing size (left+1) i offset = some (status, copies)) :
    (missing i ≠ statusOk ∧ status = missing i ∧ copies = []) ∨
      ∃ n rest, size i = some n ∧ copies = ⟨offset, n⟩ :: rest ∧
        copyOutputs missing size left (i+1) ((offset+n)%2^32) = some (status, rest) := by
  rw [copyOutputs] at h
  split at h
  · next hmissing =>
    cases h
    exact Or.inl ⟨hmissing, rfl, rfl⟩
  split at h
  · cases h
  next n hn =>
    split at h
    · cases h
    next status' rest hrest =>
      cases h
      exact Or.inr ⟨n, rest, hn, rfl, hrest⟩

/-- Together the copies are at most as large as the outputs, and as large as they are if the loop comes
to its end. -/
theorem copyOutputs_copied {left i offset : ℕ} {status : Status} {copies : List Copy}
    (hsize : ∀ k < left, size (i+k) = some (n (i+k)))
    (h : copyOutputs missing size left i offset = some (status, copies)) :
    copiedBytes copies ≤ ∑ k ∈ Finset.range left, n (i+k) ∧
      (status = statusOk → copiedBytes copies = ∑ k ∈ Finset.range left, n (i+k)) := by
  induction left generalizing i offset status copies with
  | zero =>
    cases h
    exact ⟨le_rfl, fun _ => rfl⟩
  | succ left ih =>
    -- The loop returns early and copies nothing more, or it copies output `i` and goes on.
    rcases copyOutputs_cases h with ⟨hmissing, rfl, rfl⟩ | ⟨n', rest, hn, rfl, hrest⟩
    · exact ⟨Nat.zero_le _, fun hs => absurd hs hmissing⟩
    have hfirst : n' = n i := Option.some.inj (hn.symm.trans (hsize 0 (Nat.succ_pos _)))
    obtain ⟨hle, heq⟩ := ih (sizes_succ hsize) hrest
    have hcons : copiedBytes (⟨offset, n'⟩ :: rest) = n i+copiedBytes rest := by
      rw [copiedBytes, List.map_cons, List.sum_cons, hfirst, copiedBytes]
    rw [sum_range_shift n, hcons]
    exact ⟨Nat.add_le_add_left hle _, fun hs => congrArg (n i+·) (heq hs)⟩

theorem copyOutputs_returns (missing : ℕ → Status) {left i : ℕ} (offset : ℕ)
    (hsize : ∀ k < left, size (i+k) = some (n (i+k))) :
    ∃ status copies, copyOutputs missing size left i offset = some (status, copies) ∧
      ((∀ i, missing i = statusOk) → status = statusOk) := by
  induction left generalizing i offset with
  | zero => exact ⟨statusOk, [], rfl, fun _ => rfl⟩
  | succ left ih =>
    rw [copyOutputs]
    by_cases hmissing : missing i ≠ statusOk
    · rw [if_pos hmissing]
      exact ⟨missing i, [], rfl, fun hall => hall i⟩
    obtain ⟨status, copies, hcopies, hok⟩ := ih ((offset+n i)%2^32) (sizes_succ hsize)
    have hfirst : size i = some (n i) := hsize 0 (Nat.succ_pos _)
    rw [if_neg hmissing, hfirst]
    simp only [hcopies]
    exact ⟨status, _, rfl, hok⟩

end

/-! ### The size of one output -/

section
variable {spec : List UInt8}

/-- What both runtimes copy of output `i`. -/
def copySize (spec : List UInt8) (i : ℕ) : ℕ :=
  elements outputGeometry spec i%2^32*Iree.computeSizeBytes (outputBits spec i)%2^32

theorem iree_currentOutputSize (h : TensorsValid outputGeometry spec) {i : ℕ}
    (hi : i < numOutput spec) : Iree.currentOutputSize spec i = some (copySize spec i) := by
  rw [Iree.currentOutputSize, modelSpecOutputLength, modelSpecLength_eq h hi]
  rfl

theorem executorch_currentOutputSize (h : TensorsValid outputGeometry spec) {i : ℕ}
    (hi : i < numOutput spec) : Executorch.currentOutputSize spec i = some (copySize spec i) := by
  rw [Executorch.currentOutputSize, modelSpecOutputLength, modelSpecLength_eq h hi]
  rfl

/-- Whole bytes are not rounded; no bits at all count as a byte. -/
theorem computeSizeBytes_eq (b : ℕ) : Iree.computeSizeBytes (8*b) = if b = 0 then 1 else b := by
  cases b with
  | zero => rfl
  | succ b =>
    have hdiv : (((8*(b+1) : ℕ) : ℤ)-1).tdiv 8 = b := by
      rw [Int.tdiv_eq_ediv_of_nonneg (by omega)]
      omega
    rw [Iree.computeSizeBytes, hdiv, if_neg (Nat.succ_ne_zero b)]
    omega

/-- The copy of output `i` is as large as its share of the size that is checked. -/
def CopyFits (spec : List UInt8) (i : ℕ) : Prop :=
  if outputBits spec i = 0 then 2^32 ∣ elements outputGeometry spec i
  else elements outputGeometry spec i*(outputBits spec i/8)%2^32 < 2^29

instance (spec : List UInt8) (i : ℕ) : Decidable (CopyFits spec i) :=
  inferInstanceAs (Decidable (if outputBits spec i = 0 then 2^32 ∣ elements outputGeometry spec i
    else elements outputGeometry spec i*(outputBits spec i/8)%2^32 < 2^29))

theorem copySize_facts {i : ℕ} (h : TensorValid outputGeometry spec i) :
    wrappedSize outputGeometry spec i ≤ copySize spec i ∧
      (wrappedSize outputGeometry spec i = copySize spec i ↔ CopyFits spec i) ∧
      (CopyFits spec i →
        copySize spec i = elements outputGeometry spec i*(outputBits spec i/8)%2^32) := by
  obtain ⟨b, hb⟩ := Nat.dvd_of_mod_eq_zero h.bits
  have hbits : outputBits spec i = 8*b := hb
  have hdiv : outputBits spec i/8 = b := by omega
  have hbytes : elements outputGeometry spec i*dataTypeBits outputGeometry spec i =
      8*(elements outputGeometry spec i*b) := by
    rw [hb]
    ring
  rw [wrappedSize, hbytes, copySize, CopyFits, hdiv, hbits, computeSizeBytes_eq]
  cases b with
  | zero =>
    -- Values without bits are checked as none, and copied as one byte each.
    rw [if_pos rfl, if_pos rfl]
    omega
  | succ b =>
    rw [if_neg (Nat.succ_ne_zero b), if_neg (by omega), Nat.mod_mul_mod]
    -- The check divides after the wrap, so it sees the number of bytes modulo 2^29 only.
    generalize elements outputGeometry spec i*(b+1) = bytes
    omega

end

/-! ### The check of the buffer size -/

/-- `model_get_output` gets as far as to call the runtime, having found this size. -/
structure Model.OutputChecked {S : Type} (m : Model S) (bufferSize size : ℕ) : Prop where
  state : ModelState.inferenceDone ≤ m.modelState
  found : m.modelGetOutputSize = some (.ok size)
  le : size ≤ bufferSize

theorem modelGetOutput_checked {S : Type} {R : RuntimeWrapper S} {m : Model S} {n bufferSize size : ℕ}
    (h : m.OutputChecked bufferSize size) (buffer : Buffer n) (old : ℕ) :
    m.modelGetOutput R bufferSize buffer old =
      some ⟨(R.runtimeGetModelOutput m.modelSpec buffer m.runtime).1,
        (R.runtimeGetModelOutput m.modelSpec buffer m.runtime).2.1, size,
        {m with runtime := (R.runtimeGetModelOutput m.modelSpec buffer m.runtime).2.2}⟩ := by
  rw [Model.modelGetOutput, if_neg (ModelState.not_lt.mpr h.state), h.found]
  simp only
  rw [if_neg (Nat.not_lt.mpr h.le)]

/-- Otherwise the runtime is not called. -/
theorem modelGetOutput_unchecked {S : Type} {R : RuntimeWrapper S} {m : Model S} {n bufferSize : ℕ}
    (h : ∀ size, ¬ m.OutputChecked bufferSize size) {buffer : Buffer n} {old : ℕ}
    {r : Model.Retrieved S n} (hr : m.modelGetOutput R bufferSize buffer old = some r) :
    r.model = m ∧ r.buffer = buffer := by
  unfold Model.modelGetOutput at hr
  split at hr
  · cases hr
    exact ⟨rfl, rfl⟩
  next hlow =>
    split at hr
    · cases hr
    · cases hr
      exact ⟨rfl, rfl⟩
    next size hsize =>
      split at hr
      · cases hr
        exact ⟨rfl, rfl⟩
      · next hle => exact absurd ⟨ModelState.not_lt.mp hlow, hsize, Nat.not_lt.mp hle⟩ (h size)

/-- What is copied is at most as large as the buffer, and all outputs together are as large as the size
that was found. -/
def CopyGuarded (bufferSize size : ℕ) (run : Option (Status × List Copy)) : Prop :=
  ∃ status copies, run = some (status, copies) ∧ copiedBytes copies ≤ bufferSize ∧
    (status = statusOk → copiedBytes copies = size)

/-- The copy of every output fits its share, and so do all of them together. -/
structure CopiesFit (spec : List UInt8) : Prop where
  outputs : ∀ i < numOutput spec, CopyFits spec i
  total : ∑ i ∈ Finset.range (numOutput spec),
    elements outputGeometry spec i*(outputBits spec i/8)%2^32 < 2^32

section
variable {spec : List UInt8}

/-- The size that is checked is the sum of the copies if and only if they fit. -/
theorem modelSize_eq_copies_iff (h : TensorsValid outputGeometry spec) :
    modelSize outputGeometry spec =
        some (∑ i ∈ Finset.range (numOutput spec), copySize spec i) ↔ CopiesFit spec := by
  have hle : ∀ i ∈ Finset.range (numOutput spec),
      wrappedSize outputGeometry spec i ≤ copySize spec i := by
    intro i hi
    exact (copySize_facts (h.tensors i (Finset.mem_range.mp hi))).1
  -- If each size fits, the sum of the copies is the sum that the runtimes compute.
  have hsum (hfits : ∀ i < numOutput spec, CopyFits spec i) :
      ∑ i ∈ Finset.range (numOutput spec), copySize spec i =
        ∑ i ∈ Finset.range (numOutput spec),
          elements outputGeometry spec i*(outputBits spec i/8)%2^32 := by
    apply Finset.sum_congr rfl
    intro i hi
    have hi := Finset.mem_range.mp hi
    exact (copySize_facts (h.tensors i hi)).2.2 (hfits i hi)
  rw [modelSize_eq h, Option.some_inj]
  apply (sum_mod_eq_iff (by decide) hle).trans
  constructor
  · intro hall
    obtain ⟨heach, htotal⟩ := hall
    have hfits : ∀ i < numOutput spec, CopyFits spec i := by
      intro i hi
      exact (copySize_facts (h.tensors i hi)).2.1.mp (heach i (Finset.mem_range.mpr hi))
    rw [hsum hfits] at htotal
    exact ⟨hfits, htotal⟩
  · intro hfit
    refine ⟨?_, ?_⟩
    · intro i hi
      have hi := Finset.mem_range.mp hi
      exact (copySize_facts (h.tensors i hi)).2.1.mpr (hfit.outputs i hi)
    · rw [hsum hfit.outputs]
      exact hfit.total

theorem copyGuarded_of_total {missing : ℕ → Status} {size : ℕ → Option ℕ} {bufferSize total : ℕ}
    (hsize : ∀ i < numOutput spec, size i = some (copySize spec i))
    (htotal : ∑ i ∈ Finset.range (numOutput spec), copySize spec i = total)
    (hle : total ≤ bufferSize) :
    CopyGuarded bufferSize total (copyOutputs missing size (numOutput spec) 0 0) := by
  have hsize' := sizes_zero hsize
  obtain ⟨status, copies, hcopies, -⟩ := copyOutputs_returns missing 0 hsize'
  obtain ⟨hsum, hok⟩ := copyOutputs_copied hsize' hcopies
  simp only [Nat.zero_add] at hsum hok
  rw [htotal] at hsum hok
  exact ⟨status, copies, hcopies, hsum.trans hle, hok⟩

theorem total_of_copyGuarded {missing : ℕ → Status} {size : ℕ → Option ℕ} {bufferSize total : ℕ}
    (hsize : ∀ i < numOutput spec, size i = some (copySize spec i))
    (hmissing : ∀ i, missing i = statusOk)
    (h : CopyGuarded bufferSize total (copyOutputs missing size (numOutput spec) 0 0)) :
    ∑ i ∈ Finset.range (numOutput spec), copySize spec i = total := by
  have hsize' := sizes_zero hsize
  obtain ⟨status, copies, hcopies, -, htotal⟩ := h
  obtain ⟨status', copies', hcopies', hok⟩ :=
    copyOutputs_returns missing 0 hsize'
  cases hcopies.symm.trans hcopies'
  have hsum := (copyOutputs_copied hsize' hcopies).2 (hok hmissing)
  simp only [Nat.zero_add] at hsum
  rw [← hsum, htotal (hok hmissing)]

/-- Where `model_get_output` calls the runtime, the check guards the copies of both runtimes if and only
if the copies fit. -/
theorem output_copies_guarded_iff {S : Type} {m m' : Model S}
    (h : m.modelLoadStructFromLoader = some (statusOk, m')) {m'' : Model S}
    (hspec : m''.modelSpec = m'.modelSpec) {bufferSize size : ℕ}
    (hchecked : m''.OutputChecked bufferSize size) :
    ((∀ views, CopyGuarded bufferSize size (Iree.runtimeGetModelOutput m''.modelSpec views)) ∧
      ∀ isTensor,
        CopyGuarded bufferSize size (Executorch.runtimeGetModelOutput m''.modelSpec isTensor)) ↔
    CopiesFit m''.modelSpec := by
  obtain ⟨-, hvalid, rfl⟩ := Model.modelLoadStructFromLoader_ok h
  have hout : TensorsValid outputGeometry m''.modelSpec := by
    rw [hspec]
    exact hvalid.output
  have hstate := ModelState.le_trans (by decide : ModelState.structLoaded ≤ .inferenceDone) hchecked.state
  have hsize := (modelGetSize_eq_iff hstate).mp hchecked.found
  rw [← modelSize_eq_copies_iff hout, hsize, Option.some_inj, eq_comm]
  constructor
  · intro hall
    exact total_of_copyGuarded (fun _ hi => iree_currentOutputSize hout hi) (fun _ => rfl)
      (hall.1 fun _ => .mapped)
  · intro htotal
    refine ⟨?_, ?_⟩
    · intro views
      exact copyGuarded_of_total (fun _ hi => iree_currentOutputSize hout hi) htotal hchecked.le
    · intro isTensor
      exact copyGuarded_of_total (fun _ hi => executorch_currentOutputSize hout hi) htotal hchecked.le

end

/-! ### Concrete specifications -/

/-- The model layer after a run, with a specification that was accepted. -/
def inferredSpec (spec : List UInt8) (h : spec.length = modelSpecSize) : Model Unit :=
  {receivedSpec spec h with modelState := .inferenceDone}

theorem inferredSpec_checked {spec : List UInt8} {h : spec.length = modelSpecSize} {size : ℕ}
    (hsize : modelSize outputGeometry spec = some size) :
    (inferredSpec spec h).OutputChecked size size := by
  refine ⟨Nat.le_refl _, ?_, le_rfl⟩
  exact (modelGetSize_eq_iff (m := inferredSpec spec h) (by show (2 ≤ 5); decide)).mpr hsize

theorem output_copies_guarded_several :
    CopyGuarded 16 16 (Iree.runtimeGetModelOutput severalSpec fun _ => .mapped) ∧
      CopyGuarded 16 16 (Executorch.runtimeGetModelOutput severalSpec fun _ => true) := by
  have hsize : modelSize outputGeometry severalSpec = some 16 := by decide +kernel
  have hfit : CopiesFit severalSpec := ⟨by decide +kernel, by decide +kernel⟩
  have hchecked : (inferredSpec severalSpec length_severalSpec).OutputChecked 16 16 :=
    inferredSpec_checked hsize
  have haccepted := receivedSpec_accepted (h := length_severalSpec) severalSpec_valid
  have hspec : (inferredSpec severalSpec length_severalSpec).modelSpec =
      (receivedSpec severalSpec length_severalSpec).modelSpec := rfl
  have hguarded := (output_copies_guarded_iff haccepted hspec hchecked).mpr hfit
  exact ⟨hguarded.1 _, hguarded.2 _⟩

/-- One output tensor of 65536 × 8192 values of type `int8_t`. -/
def wideSpec : List UInt8 :=
  (List.range modelSpecSize).map fun i =>
    if i ∈ [0, 4, 12, 48, 102] then 1 else if i = 52 then 2 else if i = 105 then 32
    else if i ∈ [45, 293] then 8 else 0

theorem length_wideSpec : wideSpec.length = modelSpecSize := by
  rw [wideSpec, List.length_map, List.length_range]

/-- The output has 512 MiB, its size is found to be zero, and no buffer is too small. -/
theorem output_copies_wide :
    (receivedSpec wideSpec length_wideSpec).modelLoadStructFromLoader =
        some (statusOk, {receivedSpec wideSpec length_wideSpec with modelState := .structLoaded}) ∧
      (inferredSpec wideSpec length_wideSpec).OutputChecked 0 0 ∧
      Iree.runtimeGetModelOutput wideSpec (fun _ => .mapped) = some (statusOk, [⟨0, 2^29⟩]) ∧
      Executorch.runtimeGetModelOutput wideSpec (fun _ => true) = some (statusOk, [⟨0, 2^29⟩]) ∧
      ¬ CopyGuarded 0 0 (Iree.runtimeGetModelOutput wideSpec fun _ => .mapped) := by
  have hvalid : SpecValid wideSpec :=
    ⟨validateTensors_eq_false.mp (by decide +kernel), validateTensors_eq_false.mp (by decide +kernel)⟩
  have hsize : modelSize outputGeometry wideSpec = some 0 := by decide +kernel
  have hcopies : Iree.runtimeGetModelOutput wideSpec (fun _ => .mapped) =
      some (statusOk, [⟨0, 2^29⟩]) := by decide +kernel
  refine ⟨receivedSpec_accepted hvalid, inferredSpec_checked hsize, hcopies, by decide +kernel, ?_⟩
  intro h
  obtain ⟨status, copies, hrun, hle, -⟩ := h
  cases hcopies.symm.trans hrun
  exact absurd hle (by decide)

end KenningRuntime
