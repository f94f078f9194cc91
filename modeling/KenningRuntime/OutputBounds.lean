import KenningRuntime.OutputCopy

/-! What `runtime_get_model_output` of the IREE runtime (runtimes/iree/iree.c) reads of the buffers that
an invocation leaves in `gp_model_outputs`. -/
namespace KenningRuntime

namespace Iree

/-- A buffer view in the list: its buffer cannot be mapped, or is mapped to so many bytes. -/
inductive BufferView where
  | unmapped
  | mapped (dataLength : ℕ)
deriving DecidableEq, Repr

/-- `iree_vm_list_get_buffer_view_assign`: null behind the end of the list, and where it has something
else than a buffer view. -/
def getBufferViewAssign (modelOutputs : List (Option BufferView)) (i : ℕ) : Option BufferView :=
  modelOutputs[i]?.join

/-- A `memcpy` from a mapping of `dataLength` bytes. -/
structure MappedCopy where
  copy : Copy
  dataLength : ℕ
deriving DecidableEq, Repr

/-- The loop of `runtime_get_model_output` from output `i` on. -/
def outputLoop (spec : List UInt8) (modelOutputs : List (Option BufferView)) :
    ℕ → ℕ → ℕ → Option (Status × List MappedCopy)
  | 0, _, _ => some (statusOk, [])
  | left+1, i, offset =>
    let retBufferView := getBufferViewAssign modelOutputs i
    match retBufferView with
    | none => some (Module.runtimeWrapper.statusInvPtr, [])
    | some .unmapped => some (Module.runtimeWrapper.statusError, [])
    | some (.mapped dataLength) =>
      match modelSpecOutputLength spec i with
      | none => none
      | some length =>
        -- The check of the size asks for a null view besides, which was excluded above.
        if (i > numOutput spec ∨ dataLength/computeSizeBytes (outputBits spec i) ≠ length) ∧
            retBufferView = none then
          some (Module.runtimeWrapper.statusInvPtr, [])
        else
          let size := computeStructureSizeBytes length (outputBits spec i)
          match outputLoop spec modelOutputs left (i+1) ((offset+size)%2^32) with
          | none => none
          | some (status, copies) => some (status, ⟨⟨offset, size⟩, dataLength⟩ :: copies)

/-- `runtime_get_model_output`, for the buffers in `gp_model_outputs`. -/
def runtimeGetModelOutputMapped (spec : List UInt8) (modelOutputs : List (Option BufferView)) :
    Option (Status × List MappedCopy) :=
  outputLoop spec modelOutputs (numOutput spec) 0 0

/-- What IREE answers for an output. -/
def outputView (modelOutputs : List (Option BufferView)) (i : ℕ) : OutputView :=
  match getBufferViewAssign modelOutputs i with
  | none => .null
  | some .unmapped => .unmapped
  | some (.mapped _) => .mapped

end Iree

open Iree

/-! ### What should be read -/

/-- The size of output `i` in bytes. -/
def outputSize (spec : List UInt8) (i : ℕ) : ℕ :=
  elements outputGeometry spec i*outputBits spec i/8

section
variable (spec : List UInt8) (modelOutputs : List (Option BufferView))

/-- Output `i` is there, and has the size that the specification says. -/
def OutputMatches (i : ℕ) : Prop :=
  getBufferViewAssign modelOutputs i = some (.mapped (outputSize spec i))

/-- Output `i` is not there, or has another size. -/
def OutputMismatch (i : ℕ) : Prop :=
  getBufferViewAssign modelOutputs i = none ∨
    ∃ n, getBufferViewAssign modelOutputs i = some (.mapped n) ∧ n ≠ outputSize spec i

/-- The status is ok only if all outputs match, nothing is read behind a mapping, and the first mismatch
is reported. -/
def OutputsBounded (run : Option (Status × List MappedCopy)) : Prop :=
  ∃ status copies, run = some (status, copies) ∧
    (status = statusOk → ∀ i < numOutput spec, OutputMatches spec modelOutputs i) ∧
    (∀ c ∈ copies, c.copy.size ≤ c.dataLength) ∧
    ∀ i < numOutput spec, (∀ j < i, OutputMatches spec modelOutputs j) →
      OutputMismatch spec modelOutputs i → status = Module.runtimeWrapper.statusInvPtr

/-- The first output that is not mapped is output `k`, or all are and `k` is their number. -/
structure StopsAt (k : ℕ) : Prop where
  le : k ≤ numOutput spec
  mapped : ∀ i < k, ∃ n, getBufferViewAssign modelOutputs i = some (.mapped n)
  stops : k < numOutput spec → ∀ n, getBufferViewAssign modelOutputs k ≠ some (.mapped n)

/-- The outputs up to the first one that is not mapped are large enough to be copied, and they have the
right sizes, unless that one is missing. -/
def OutputsFit : Prop :=
  ∀ k, StopsAt spec modelOutputs k →
    (∀ i < k, ∀ n, getBufferViewAssign modelOutputs i = some (.mapped n) → copySize spec i ≤ n) ∧
      ((∀ i < k, OutputMatches spec modelOutputs i) ∨
        k < numOutput spec ∧ getBufferViewAssign modelOutputs k = none)

end

/-! ### The loop -/

section
variable {spec : List UInt8} {modelOutputs : List (Option BufferView)}

/-- The check of the size never stops the loop. -/
theorem outputLoop_mapped (h : TensorsValid outputGeometry spec) {left i offset n : ℕ}
    (hi : i < numOutput spec) (hn : getBufferViewAssign modelOutputs i = some (.mapped n)) :
    outputLoop spec modelOutputs (left+1) i offset =
      (outputLoop spec modelOutputs left (i+1) ((offset+copySize spec i)%2^32)).map
        fun (status, copies) => (status, ⟨⟨offset, copySize spec i⟩, n⟩ :: copies) := by
  have hlength : modelSpecOutputLength spec i = some (elements outputGeometry spec i%2^32) :=
    modelSpecLength_eq h hi
  have hnone : getBufferViewAssign modelOutputs i ≠ none := by
    rw [hn]
    exact Option.some_ne_none _
  have hsize : computeStructureSizeBytes (elements outputGeometry spec i%2^32) (outputBits spec i) =
      copySize spec i := rfl
  rw [outputLoop, hn]
  simp only [hlength, reduceCtorEq, and_false, if_false, hsize]
  cases outputLoop spec modelOutputs left (i+1) ((offset+copySize spec i)%2^32) <;> rfl

/-- The loop is the one over what IREE answers. -/
theorem outputLoop_copies (h : TensorsValid outputGeometry spec) {left i offset : ℕ}
    (hi : i+left ≤ numOutput spec) :
    (outputLoop spec modelOutputs left i offset).map
        (fun (status, copies) => (status, copies.map MappedCopy.copy)) =
      copyOutputs (fun i => (outputView modelOutputs i).missing) (currentOutputSize spec) left i
        offset := by
  induction left generalizing i offset with
  | zero => rfl
  | succ left ih =>
    have hlt : i < numOutput spec := by omega
    rw [copyOutputs]
    cases hview : getBufferViewAssign modelOutputs i with
    | none =>
      rw [outputLoop, hview, outputView, hview]
      rfl
    | some view =>
      cases view with
      | unmapped =>
        rw [outputLoop, hview, outputView, hview]
        rfl
      | mapped n =>
        have hmissing : (outputView modelOutputs i).missing = statusOk := by
          rw [outputView, hview]
          rfl
        -- The check of the mapped length never stops the loop, so both copy and go on.
        rw [outputLoop_mapped h hlt hview, if_neg (not_not.mpr hmissing),
          iree_currentOutputSize h hlt]
        simp only
        rw [← ih (by omega)]
        cases outputLoop spec modelOutputs left (i+1) ((offset+copySize spec i)%2^32) <;> rfl

/-- What is copied is what the model of the copies says. -/
theorem runtimeGetModelOutputMapped_copies (h : TensorsValid outputGeometry spec) :
    (runtimeGetModelOutputMapped spec modelOutputs).map
        (fun (status, copies) => (status, copies.map MappedCopy.copy)) =
      Iree.runtimeGetModelOutput spec (outputView modelOutputs) :=
  outputLoop_copies h (Nat.zero_add _).le

/-- Nothing is copied from output `k` on. -/
theorem copied_nil {i k : ℕ} (hki : k ≤ i) (c : ℕ × ℕ) :
    (∃ m ∈ ([] : List MappedCopy), (m.copy.size, m.dataLength) = c) ↔
      ∃ j, i ≤ j ∧ j < k ∧ ∃ n, getBufferViewAssign modelOutputs j = some (.mapped n) ∧
        c = (copySize spec j, n) := by
  constructor
  · intro hc
    obtain ⟨m, hm, -⟩ := hc
    exact absurd hm List.not_mem_nil
  · intro hc
    obtain ⟨j, hij, hjk, -⟩ := hc
    omega

/-- The loop copies the outputs before the one where it stops, and that one decides the status. -/
theorem outputLoop_stops (h : TensorsValid outputGeometry spec) {k : ℕ}
    (hk : StopsAt spec modelOutputs k) {left i offset : ℕ} (hi : i+left = numOutput spec)
    (hik : i ≤ k) :
    ∃ copies, outputLoop spec modelOutputs left i offset =
        some (if k = numOutput spec then statusOk else (outputView modelOutputs k).missing, copies) ∧
      ∀ c, (∃ m ∈ copies, (m.copy.size, m.dataLength) = c) ↔
        ∃ j, i ≤ j ∧ j < k ∧ ∃ n, getBufferViewAssign modelOutputs j = some (.mapped n) ∧
          c = (copySize spec j, n) := by
  -- The induction is on the outputs that are left: `k` is the next one, one of the others, or the end.
  induction left generalizing i offset with
  | zero =>
    have hend : k = numOutput spec := by
      have hle := hk.le
      omega
    rw [if_pos hend]
    exact ⟨[], rfl, copied_nil (by omega)⟩
  | succ left ih =>
    rcases Nat.eq_or_lt_of_le hik with rfl | hlt
    · have hend : i ≠ numOutput spec := by omega
      have hstops := hk.stops (by omega)
      refine ⟨[], ?_, ?_⟩
      · rw [if_neg hend, outputLoop, outputView]
        cases hview : getBufferViewAssign modelOutputs i with
        | none => rfl
        | some view =>
          cases view with
          | unmapped => rfl
          | mapped n => exact absurd hview (hstops n)
      · exact copied_nil le_rfl
    · obtain ⟨n, hn⟩ := hk.mapped i hlt
      obtain ⟨copies, hcopies, hall⟩ := @ih (i+1) ((offset+copySize spec i)%2^32) (by omega) hlt
      rw [outputLoop_mapped h (hlt.trans_le hk.le) hn, hcopies]
      refine ⟨⟨⟨offset, copySize spec i⟩, n⟩ :: copies, rfl, ?_⟩
      intro c
      rw [List.exists_mem_cons_iff, hall]
      constructor
      · intro hc
        rcases hc with rfl | ⟨j, hij, hjk, hj⟩
        · exact ⟨i, le_rfl, hlt, n, hn, rfl⟩
        · exact ⟨j, by omega, hjk, hj⟩
      · intro hc
        obtain ⟨j, hij, hjk, n', hn', rfl⟩ := hc
        rcases Nat.eq_or_lt_of_le hij with rfl | hij
        · rw [hn] at hn'
          cases hn'
          exact .inl rfl
        · exact .inr ⟨j, hij, hjk, n', hn', rfl⟩

/-- All numbers below `n` have a property, or there is a first one without it. -/
theorem all_or_first (p : ℕ → Prop) (n : ℕ) :
    (∀ i < n, p i) ∨ ∃ k < n, (∀ i < k, p i) ∧ ¬ p k := by
  induction n with
  | zero => exact .inl fun i hi => absurd hi (Nat.not_lt_zero i)
  | succ n ih =>
    rcases ih with hall | ⟨k, hk, hfirst⟩
    · by_cases hn : p n
      · left
        intro i hi
        rcases Nat.lt_succ_iff_lt_or_eq.mp hi with hlt | rfl
        · exact hall i hlt
        · exact hn
      · exact .inr ⟨n, n.lt_succ_self, hall, hn⟩
    · exact .inr ⟨k, hk.trans n.lt_succ_self, hfirst⟩

/-- There is an output where the loop stops. -/
theorem exists_stopsAt (spec : List UInt8) (modelOutputs : List (Option BufferView)) :
    ∃ k, StopsAt spec modelOutputs k := by
  rcases all_or_first (fun i => ∃ n, getBufferViewAssign modelOutputs i = some (.mapped n))
    (numOutput spec) with hall | ⟨k, hk, hbefore, hstop⟩
  · exact ⟨numOutput spec, le_rfl, hall, fun hlt => absurd hlt (lt_irrefl _)⟩
  · exact ⟨k, hk.le, hbefore, fun _ n hn => hstop ⟨n, hn⟩⟩

theorem StopsAt.unique {k k' : ℕ} (hk : StopsAt spec modelOutputs k)
    (hk' : StopsAt spec modelOutputs k') : k = k' := by
  rcases Nat.lt_trichotomy k k' with hlt | heq | hlt
  · obtain ⟨n, hn⟩ := hk'.mapped k hlt
    exact absurd hn (hk.stops (hlt.trans_le hk'.le) n)
  · exact heq
  · obtain ⟨n, hn⟩ := hk.mapped k' hlt
    exact absurd hn (hk'.stops (hlt.trans_le hk.le) n)

/-- The first mismatch, if not all outputs before `k` match. -/
theorem StopsAt.mismatch {k : ℕ} (hk : StopsAt spec modelOutputs k)
    (hnot : ¬ ∀ i < k, OutputMatches spec modelOutputs i) :
    ∃ i < k, (∀ j < i, OutputMatches spec modelOutputs j) ∧ OutputMismatch spec modelOutputs i := by
  obtain ⟨i, hi, hbefore, hne⟩ := (all_or_first _ k).resolve_left hnot
  obtain ⟨n, hn⟩ := hk.mapped i hi
  refine ⟨i, hi, hbefore, .inr ⟨n, hn, ?_⟩⟩
  rintro rfl
  exact hne hn

/-- The status of an output where the loop stops: `INV_PTR` if the output is missing. -/
theorem StopsAt.missing {k : ℕ} (hk : StopsAt spec modelOutputs k) (hlt : k < numOutput spec) :
    (outputView modelOutputs k).missing ≠ statusOk ∧
      ((outputView modelOutputs k).missing = Module.runtimeWrapper.statusInvPtr ↔
        getBufferViewAssign modelOutputs k = none) := by
  have hstops := hk.stops hlt
  rw [outputView]
  cases hview : getBufferViewAssign modelOutputs k with
  | none => exact ⟨by decide, iff_of_true rfl rfl⟩
  | some view =>
    cases view with
    | unmapped => exact ⟨by decide, iff_of_false (by decide) (Option.some_ne_none _)⟩
    | mapped n => exact absurd hview (hstops n)

/-- The status, and when nothing is read behind a mapping. -/
theorem runtimeGetModelOutputMapped_stops (h : TensorsValid outputGeometry spec) {k : ℕ}
    (hk : StopsAt spec modelOutputs k) :
    ∃ status copies, runtimeGetModelOutputMapped spec modelOutputs = some (status, copies) ∧
      (k = numOutput spec → status = statusOk) ∧
      (k < numOutput spec → status = (outputView modelOutputs k).missing) ∧
      ((∀ c ∈ copies, c.copy.size ≤ c.dataLength) ↔
        ∀ i < k, ∀ n, getBufferViewAssign modelOutputs i = some (.mapped n) →
          copySize spec i ≤ n) := by
  obtain ⟨copies, hrun, hcopies⟩ :=
    @outputLoop_stops spec modelOutputs h k hk (numOutput spec) 0 0 (Nat.zero_add _) (Nat.zero_le _)
  refine ⟨_, copies, hrun, fun hend => if_pos hend, fun hlt => if_neg hlt.ne, ?_⟩
  constructor
  · intro hall i hi n hn
    obtain ⟨m, hm, heq⟩ := (hcopies (copySize spec i, n)).mpr ⟨i, Nat.zero_le _, hi, n, hn, rfl⟩
    obtain ⟨hsize, hlength⟩ := Prod.mk.inj heq
    rw [← hsize, ← hlength]
    exact hall m hm
  · intro hall m hm
    obtain ⟨j, -, hjk, n, hn, heq⟩ := (hcopies (m.copy.size, m.dataLength)).mp ⟨m, hm, rfl⟩
    obtain ⟨hsize, hlength⟩ := Prod.mk.inj heq
    rw [hsize, hlength]
    exact hall j hjk n hn

theorem outputsFit_of_bounded (h : TensorsValid outputGeometry spec)
    (hbounded : OutputsBounded spec modelOutputs (runtimeGetModelOutputMapped spec modelOutputs)) :
    OutputsFit spec modelOutputs := by
  intro k hk
  obtain ⟨status, copies, hrun, hend, hmissing, hcopies⟩ := runtimeGetModelOutputMapped_stops h hk
  obtain ⟨status', copies', hrun', -, hread, hfirst⟩ := hbounded
  cases hrun.symm.trans hrun'
  refine ⟨hcopies.mp hread, ?_⟩
  by_cases hall : ∀ i < k, OutputMatches spec modelOutputs i
  · exact .inl hall
  -- A mismatch before output `k` is reported only if output `k` is missing.
  obtain ⟨i, hi, hbefore, hmismatch⟩ := hk.mismatch hall
  have hstatus := hfirst i (hi.trans_le hk.le) hbefore hmismatch
  rcases Nat.eq_or_lt_of_le hk.le with heq | hlt
  · rw [hend heq] at hstatus
    exact absurd hstatus (by decide)
  · rw [hmissing hlt] at hstatus
    exact .inr ⟨hlt, (hk.missing hlt).2.mp hstatus⟩

theorem bounded_of_outputsFit (h : TensorsValid outputGeometry spec)
    (hfit : OutputsFit spec modelOutputs) :
    OutputsBounded spec modelOutputs (runtimeGetModelOutputMapped spec modelOutputs) := by
  obtain ⟨k, hk⟩ := exists_stopsAt spec modelOutputs
  obtain ⟨hcopied, hmatch⟩ := hfit k hk
  obtain ⟨status, copies, hrun, hend, hmissing, hcopies⟩ := runtimeGetModelOutputMapped_stops h hk
  refine ⟨status, copies, hrun, ?_, hcopies.mpr hcopied, ?_⟩
  · intro hok
    rcases Nat.eq_or_lt_of_le hk.le with heq | hlt
    · rcases hmatch with hmatch | ⟨hlt, -⟩
      · rwa [heq] at hmatch
      · exact absurd heq hlt.ne
    · rw [hmissing hlt] at hok
      exact absurd hok (hk.missing hlt).1
  · intro i hi hbefore hmismatch
    rcases Nat.lt_trichotomy i k with hik | rfl | hki
    · -- Not all outputs before `k` match, so output `k` is missing.
      rcases hmatch with hmatch | ⟨hlt, hnone⟩
      · have hi' := hmatch i hik
        rcases hmismatch with hnone | ⟨n, hn, hne⟩
        · exact absurd (hnone.symm.trans hi') (Option.some_ne_none _).symm
        · cases hn.symm.trans hi'
          exact absurd rfl hne
      · rw [hmissing hlt]
        exact (hk.missing hlt).2.mpr hnone
    · rcases hmismatch with hnone | ⟨n, hn, -⟩
      · rw [hmissing hi]
        exact (hk.missing hi).2.mpr hnone
      · exact absurd hn (hk.stops hi n)
    · exact absurd (hbefore k hki) (hk.stops (hki.trans hi) _)

/-- `runtime_get_model_output` keeps to the outputs that were mapped, and answers for those that are
missing or have another size than specified, if and only if the outputs fit. -/
theorem outputsBounded_iff {S : Type} {m m' m'' : Model S}
    (h : m.modelLoadStructFromLoader = some (statusOk, m')) (hspec : m''.modelSpec = m'.modelSpec)
    (modelOutputs : List (Option BufferView)) :
    OutputsBounded m''.modelSpec modelOutputs (runtimeGetModelOutputMapped m''.modelSpec modelOutputs) ↔
      OutputsFit m''.modelSpec modelOutputs := by
  obtain ⟨-, hvalid, rfl⟩ := Model.modelLoadStructFromLoader_ok h
  have hout : TensorsValid outputGeometry m''.modelSpec := by
    rw [hspec]
    exact hvalid.output
  exact ⟨outputsFit_of_bounded hout, bounded_of_outputsFit hout⟩

end

/-! ### Concrete outputs -/

/-- Both outputs are there, with the sizes that they should have. -/
theorem outputsBounded_several :
    OutputsBounded severalSpec [some (.mapped 4), some (.mapped 12)]
      (runtimeGetModelOutputMapped severalSpec [some (.mapped 4), some (.mapped 12)]) := by
  have hnum : numOutput severalSpec = 2 := by decide +kernel
  have hmatch : ∀ i < 2, OutputMatches severalSpec [some (.mapped 4), some (.mapped 12)] i := by
    intro i hi
    show getBufferViewAssign _ i = some (.mapped (outputSize severalSpec i))
    interval_cases i
    · decide +kernel
    · decide +kernel
  have hcopy : ∀ i < 2, copySize severalSpec i = outputSize severalSpec i := by decide +kernel
  have hstops : StopsAt severalSpec [some (.mapped 4), some (.mapped 12)] 2 := by
    refine ⟨hnum.ge, ?_, fun hlt => absurd hlt (by rw [hnum]; decide)⟩
    intro i hi
    exact ⟨_, hmatch i hi⟩
  have hfit : OutputsFit severalSpec [some (.mapped 4), some (.mapped 12)] := by
    intro k hk
    obtain rfl := hk.unique hstops
    refine ⟨?_, .inl hmatch⟩
    intro i hi n hn
    have hmapped : some (BufferView.mapped (outputSize severalSpec i)) = some (.mapped n) :=
      (hmatch i hi).symm.trans hn
    cases hmapped
    exact (hcopy i hi).le
  have haccepted := receivedSpec_accepted (h := length_severalSpec) severalSpec_valid
  have hspec : (inferredSpec severalSpec length_severalSpec).modelSpec =
      (receivedSpec severalSpec length_severalSpec).modelSpec := rfl
  exact (outputsBounded_iff haccepted hspec _).mpr hfit

/-- The output of one byte is copied from a buffer without any, and the status is ok. -/
theorem outputsBounded_empty :
    (receivedSpec oneByteSpec length_oneByteSpec).modelLoadStructFromLoader = some (statusOk,
        {receivedSpec oneByteSpec length_oneByteSpec with modelState := .structLoaded}) ∧
      runtimeGetModelOutputMapped oneByteSpec [some (.mapped 0)] = some (statusOk, [⟨⟨0, 1⟩, 0⟩]) ∧
      ¬ OutputsBounded oneByteSpec [some (.mapped 0)]
        (runtimeGetModelOutputMapped oneByteSpec [some (.mapped 0)]) := by
  have hrun : runtimeGetModelOutputMapped oneByteSpec [some (.mapped 0)] =
      some (statusOk, [⟨⟨0, 1⟩, 0⟩]) := by decide +kernel
  refine ⟨receivedSpec_accepted oneByteSpec_valid, hrun, ?_⟩
  intro h
  obtain ⟨status, copies, hrun', -, hread, -⟩ := h
  cases hrun.symm.trans hrun'
  exact absurd (hread _ (List.mem_singleton_self _)) (by decide)

end KenningRuntime
