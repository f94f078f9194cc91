import KenningRuntime.Library.Transition
import KenningRuntime.OutputCopy
import KenningRuntime.RuntimeEmlearn
import KenningRuntime.RuntimeTflite

/-! How much the runtimes over TFLite Micro (runtimes/tflite/tflite.cpp) and over emlearn
(runtimes/emlearn/emlearn.c) copy into the output buffer, and out of which storage. -/
namespace KenningRuntime

/-- What a call that succeeds does with any buffer of at least the size it was told: as many bytes are
copied to its start as `model_get_output_size` says, which are no more than it was told, they are the
first ones of the storage, and the rest of the buffer is left alone. -/
structure OutputCopied {S : Type} (R : RuntimeWrapper S) (m : Model S) (bufferSize : ℕ)
    (storage : List UInt8) (size : ℕ) : Prop where
  found : m.modelGetOutputSize = some (.ok size)
  le : size ≤ bufferSize
  inside : size ≤ storage.length
  copied : ∀ {n : ℕ} (buffer : Buffer n) (old : ℕ) (r : Model.Retrieved S n), bufferSize ≤ n →
    m.modelGetOutput R bufferSize buffer old = some r → r.status = statusOk →
      r.buffer.bytes = storage.take size ++ buffer.bytes.drop size

section
variable {S : Type} {R : RuntimeWrapper S} {m : Model S} {n bufferSize old : ℕ} {buffer : Buffer n}
  {r : Model.Retrieved S n}

/-- A call that succeeds has called the runtime. -/
theorem modelGetOutput_ok (hr : m.modelGetOutput R bufferSize buffer old = some r)
    (hok : r.status = statusOk) : ∃ size, m.OutputChecked bufferSize size := by
  unfold Model.modelGetOutput at hr
  split at hr
  · cases hr
    cases hok
  next hlow =>
    have hstate := ModelState.not_lt.mp hlow
    have hloaded := ModelState.le_trans (by decide : ModelState.structLoaded ≤ .inferenceDone) hstate
    split at hr
    · cases hr
    next status hsize =>
      -- The size is only refused in a state that was ruled out before.
      rw [Model.modelGetOutputSize, Model.modelGetSize, if_neg (ModelState.not_lt.mpr hloaded),
        Option.map_eq_some_iff] at hsize
      obtain ⟨_, -, heq⟩ := hsize
      cases heq
    next size hsize =>
      split at hr
      · cases hr
        cases hok
      · next hle => exact ⟨size, hstate, hsize, Nat.not_lt.mp hle⟩

theorem modelSize_of_checked {size : ℕ} (h : m.OutputChecked bufferSize size) :
    modelSize outputGeometry m.modelSpec = some size :=
  (modelGetSize_eq_iff
    (ModelState.le_trans (by decide : ModelState.structLoaded ≤ .inferenceDone) h.state)).mp h.found

end

/-- Over a runtime that copies the same bytes into every buffer. -/
theorem outputCopied_iff {S : Type} {R : RuntimeWrapper S} {m : Model S} {bufferSize size : ℕ}
    {storage data : List UInt8} (hchecked : m.OutputChecked bufferSize size)
    (hruntime : ∀ {n : ℕ} (buffer : Buffer n), ∃ s',
      R.runtimeGetModelOutput m.modelSpec buffer m.runtime = (statusOk, buffer.write 0 data, s')) :
    (∃ size, OutputCopied R m bufferSize storage size) ↔
      size ≤ storage.length ∧ data = storage.take size := by
  have hcall {n : ℕ} (buffer : Buffer n) (old : ℕ) : ∃ r, m.modelGetOutput R bufferSize buffer old =
      some r ∧ r.status = statusOk ∧ r.buffer = buffer.write 0 data := by
    obtain ⟨s', hs'⟩ := hruntime buffer
    rw [modelGetOutput_checked hchecked, hs']
    exact ⟨_, rfl, rfl, rfl⟩
  constructor
  · intro hcopied
    obtain ⟨size', h⟩ := hcopied
    obtain rfl : size' = size := Except.ok.inj (Option.some.inj (h.found.symm.trans hchecked.found))
    refine ⟨h.inside, ?_⟩
    -- In a buffer with room for more, whatever fills it, the copy ends where `size` does.
    refine Memory.append_replicate_cancel (by decide : (0 : UInt8) ≠ 1) (a := bufferSize)
      (b := bufferSize+data.length-size') fun fill => ?_
    let buffer : Buffer (bufferSize+data.length) := {
      bytes := List.replicate _ fill
      length_eq := List.length_replicate }
    obtain ⟨r, hr, hok, hbuffer⟩ := hcall buffer 0
    have hbytes := h.copied buffer 0 r (Nat.le_add_right _ _) hr hok
    rwa [hbuffer, buffer.bytes_write (Nat.le_add_left _ _), List.drop_replicate, List.drop_replicate,
      Nat.add_sub_cancel] at hbytes
  · intro hdata
    obtain ⟨hinside, rfl⟩ := hdata
    have htake : (storage.take size).length = size := by
      rw [List.length_take]
      exact min_eq_left hinside
    refine ⟨size, hchecked.found, hchecked.le, hinside, fun buffer old r hn hr _ => ?_⟩
    obtain ⟨r', hr', -, hbuffer⟩ := hcall buffer old
    obtain rfl := Option.some.inj (hr'.symm.trans hr)
    rw [hbuffer, buffer.bytes_write (htake.trans_le (hchecked.le.trans hn)), htake]

/-- The copies of the two runtimes are guarded exactly if the output tensor is as large as the
specification says, and the output buffer of emlearn at least that. -/
theorem outputs_copied_iff {C n : ℕ} {E : Type} (bufferSize old : ℕ) (buffer : Buffer n) :
    (∀ (L : TfliteLibrary E) (m : Model (Tflite C E)) (r : Model.Retrieved (Tflite C E) n),
      m.modelGetOutput (Tflite.wrapper L) bufferSize buffer old = some r → r.status = statusOk →
        ((∃ size, OutputCopied (Tflite.wrapper L) m bufferSize (L.outputData m.runtime.library) size) ↔
          modelSize outputGeometry m.modelSpec = some (L.outputData m.runtime.library).length)) ∧
    ∀ (D : ℕ) (L : EmlearnModel D E) (m : Model (Emlearn C D E))
      (r : Model.Retrieved (Emlearn C D E) n),
      m.modelGetOutput (Emlearn.wrapper L) bufferSize buffer old = some r → r.status = statusOk →
        ((∃ size, OutputCopied (Emlearn.wrapper L) m bufferSize m.runtime.output.bytes size) ↔
          ∃ size ≤ D, modelSize outputGeometry m.modelSpec = some size) := by
  constructor
  · intro L m r hr hok
    obtain ⟨size, hchecked⟩ := modelGetOutput_ok hr hok
    rw [outputCopied_iff hchecked fun _ => ⟨_, rfl⟩, modelSize_of_checked hchecked,
      Option.some_inj]
    -- The whole tensor is copied.
    constructor
    · intro hcopied
      obtain ⟨hinside, hdata⟩ := hcopied
      have hlength := congrArg List.length hdata
      rw [List.length_take, min_eq_left hinside] at hlength
      exact hlength.symm
    · intro hsize
      refine ⟨hsize.le, ?_⟩
      rw [hsize, List.take_length]
      rfl
  · intro D L m r hr hok
    obtain ⟨size, hchecked⟩ := modelGetOutput_ok hr hok
    have hsize := modelSize_of_checked hchecked
    have houtput : Emlearn.outputSize m.modelSpec = size := by
      rw [Emlearn.outputSize, hsize]
      rfl
    rw [outputCopied_iff hchecked fun _ => ⟨_, rfl⟩, hsize, houtput, m.runtime.output.length_eq]
    constructor
    · exact fun hcopied => ⟨size, hcopied.1, rfl⟩
    · intro hle
      obtain ⟨size', hle, heq⟩ := hle
      obtain rfl := Option.some.inj heq
      exact ⟨hle, Emlearn.readOutput_le L hle⟩

/-! ### Outputs that are one byte too large -/

/-- A model whose output tensor has these bytes. -/
def tensorLibrary (output : List UInt8) : TfliteLibrary Unit where
  schemaVersion := 3
  version _ := 3
  construct _ _ e := e
  destroy e := e
  allocateTensors e := (true, e)
  inputBytes _ := 1
  saveInput _ _ e := e
  invoke e := (true, e)
  arenaUsedBytes _ := 0
  outputData _ := output
  cycles e := (0, e)
  cycToNs cycles := cycles

/-- A model that leaves its output buffer of `D` bytes alone. -/
def constantModel (D : ℕ) : EmlearnModel D Unit where
  emlearnModel _ output e := (output, e)
  behindOutput _ _ := 9
  cycles _ := 0
  cycToNs cycles := cycles

/-- An output tensor of two bytes. -/
def pairSpec : List UInt8 := oneByteSpec.set 100 2

/-- The model layer after the calls up to an inference. -/
def inferredModel {S : Type} (R : RuntimeWrapper S) (s : S) (spec : List UInt8) : Option (Model S) :=
  Transition.run (modelStep R) (startedModel s)
    [.init, .loadStruct (some spec), .loadWeights (some [0]), .loadInput (some [7]), .run]

/-- A call for the output, into a buffer of two bytes. -/
def outputCall {S : Type} (R : RuntimeWrapper S) (s : S) (spec : List UInt8) (bufferSize : ℕ) :
    Option (Model S × Model.Retrieved S 2) := do
  let m ← inferredModel R s spec
  let r ← m.modelGetOutput R bufferSize ⟨[0, 0], rfl⟩ 0
  return (m, r)

theorem retrieved_of_outputCall {S : Type} {R : RuntimeWrapper S} {s : S} {spec : List UInt8}
    {bufferSize : ℕ} {m : Model S} {r : Model.Retrieved S 2}
    (h : outputCall R s spec bufferSize = some (m, r)) :
    m.modelGetOutput R bufferSize ⟨[0, 0], rfl⟩ 0 = some r := by
  obtain ⟨m', -, h⟩ := Option.bind_eq_some_iff.mp h
  obtain ⟨r', hr', h⟩ := Option.bind_eq_some_iff.mp h
  cases h
  exact hr'

theorem outputs_copied_pair :
    (∃ m r, outputCall (Tflite.wrapper (tensorLibrary [1, 2])) (Tflite.boot 4 (by decide) ())
        pairSpec 2 = some (m, r) ∧
      r.status = statusOk ∧ ∃ size, OutputCopied (Tflite.wrapper (tensorLibrary [1, 2])) m 2 [1, 2] size) ∧
    ∃ m r, outputCall (Emlearn.wrapper (constantModel 2)) (Emlearn.boot 4 2 (by decide) ())
        pairSpec 2 = some (m, r) ∧
      r.status = statusOk ∧
      ∃ size, OutputCopied (Emlearn.wrapper (constantModel 2)) m 2 m.runtime.output.bytes size := by
  constructor
  · let p (c : Model (Tflite 4 Unit) × Model.Retrieved (Tflite 4 Unit) 2) : Bool :=
      decide (c.2.status = statusOk ∧ modelSize outputGeometry c.1.modelSpec = some 2)
    have hrun : (outputCall (Tflite.wrapper (tensorLibrary [1, 2])) (Tflite.boot 4 (by decide) ())
        pairSpec 2).any p = true := by
      decide +kernel
    obtain ⟨⟨m, r⟩, hcall, hp⟩ := Option.any_eq_true _ _ |>.mp hrun
    obtain ⟨hok, hsize⟩ := of_decide_eq_true hp
    refine ⟨m, r, hcall, hok, ?_⟩
    exact ((outputs_copied_iff 2 0 ⟨[0, 0], rfl⟩).1 _ m r (retrieved_of_outputCall hcall) hok).mpr hsize
  · let p (c : Model (Emlearn 4 2 Unit) × Model.Retrieved (Emlearn 4 2 Unit) 2) : Bool :=
      decide (c.2.status = statusOk ∧ modelSize outputGeometry c.1.modelSpec = some 2)
    have hrun : (outputCall (Emlearn.wrapper (constantModel 2)) (Emlearn.boot 4 2 (by decide) ())
        pairSpec 2).any p = true := by
      decide +kernel
    obtain ⟨⟨m, r⟩, hcall, hp⟩ := Option.any_eq_true _ _ |>.mp hrun
    obtain ⟨hok, hsize⟩ := of_decide_eq_true hp
    refine ⟨m, r, hcall, hok, ?_⟩
    exact ((outputs_copied_iff 2 0 ⟨[0, 0], rfl⟩).2 2 _ m r (retrieved_of_outputCall hcall) hok).mpr
      ⟨2, le_rfl, hsize⟩

/-- TFLite Micro writes two bytes where one is allowed, and emlearn reads two where it has one. -/
theorem outputs_overrun :
    (∃ m r, outputCall (Tflite.wrapper (tensorLibrary [1, 2])) (Tflite.boot 4 (by decide) ())
        oneByteSpec 1 = some (m, r) ∧
      r.status = statusOk ∧ r.buffer.bytes = [1, 2] ∧ m.modelGetOutputSize = some (.ok 1) ∧
      ¬ ∃ size, OutputCopied (Tflite.wrapper (tensorLibrary [1, 2])) m 1 [1, 2] size) ∧
    ∃ m r, outputCall (Emlearn.wrapper (constantModel 1)) (Emlearn.boot 4 1 (by decide) ())
        pairSpec 2 = some (m, r) ∧
      r.status = statusOk ∧ r.buffer.bytes = [0, 9] ∧ m.modelGetOutputSize = some (.ok 2) ∧
      ¬ ∃ size, OutputCopied (Emlearn.wrapper (constantModel 1)) m 2 m.runtime.output.bytes size := by
  constructor
  · let p (c : Model (Tflite 4 Unit) × Model.Retrieved (Tflite 4 Unit) 2) : Bool :=
      decide (c.2.status = statusOk ∧ c.2.buffer.bytes = [1, 2] ∧
        c.1.modelGetOutputSize = some (.ok 1))
    have hrun : (outputCall (Tflite.wrapper (tensorLibrary [1, 2])) (Tflite.boot 4 (by decide) ())
        oneByteSpec 1).any p = true := by
      decide +kernel
    obtain ⟨⟨m, r⟩, hcall, hp⟩ := Option.any_eq_true _ _ |>.mp hrun
    obtain ⟨hok, hbytes, hsize⟩ := of_decide_eq_true hp
    refine ⟨m, r, hcall, hok, hbytes, hsize, ?_⟩
    intro hcopied
    obtain ⟨size, hcopied⟩ := hcopied
    obtain rfl : size = 1 := Except.ok.inj (Option.some.inj (hcopied.found.symm.trans hsize))
    -- The byte behind the first one should have stayed as it was.
    have hstays := hcopied.copied _ 0 r (by decide) (retrieved_of_outputCall hcall) hok
    exact absurd (hbytes.symm.trans hstays) (by decide)
  · let p (c : Model (Emlearn 4 1 Unit) × Model.Retrieved (Emlearn 4 1 Unit) 2) : Bool :=
      decide (c.2.status = statusOk ∧ c.2.buffer.bytes = [0, 9] ∧
        c.1.modelGetOutputSize = some (.ok 2))
    have hrun : (outputCall (Emlearn.wrapper (constantModel 1)) (Emlearn.boot 4 1 (by decide) ())
        pairSpec 2).any p = true := by
      decide +kernel
    obtain ⟨⟨m, r⟩, hcall, hp⟩ := Option.any_eq_true _ _ |>.mp hrun
    obtain ⟨hok, hbytes, hsize⟩ := of_decide_eq_true hp
    refine ⟨m, r, hcall, hok, hbytes, hsize, ?_⟩
    intro hcopied
    obtain ⟨size, hcopied⟩ := hcopied
    obtain rfl : size = 2 := Except.ok.inj (Option.some.inj (hcopied.found.symm.trans hsize))
    -- The output buffer has one byte.
    have hone : m.runtime.output.bytes.length = 1 := m.runtime.output.length_eq
    have hinside := hcopied.inside
    omega

end KenningRuntime
