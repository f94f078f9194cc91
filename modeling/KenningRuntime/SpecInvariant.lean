import KenningRuntime.Capacity
import KenningRuntime.ServerFrame

/-! Whether the specification that is in use was ever checked. -/
namespace KenningRuntime
open ByteSource Transition

/-- The sizes and the lengths are computed inside the arrays of the specification. -/
structure SizesInBounds (spec : List UInt8) : Prop where
  input : (modelSize inputGeometry spec).isSome = true
  output : (modelSize outputGeometry spec).isSome = true
  inputLength : ∀ index, (modelSpecInputLength spec index).isSome = true
  outputLength : ∀ index, (modelSpecOutputLength spec index).isSome = true

theorem SpecValid.sizesInBounds {spec : List UInt8} (h : SpecValid spec) : SizesInBounds spec :=
  ⟨modelSize_isSome h.input, modelSize_isSome h.output, modelSpecLength_isSome h.input,
    modelSpecLength_isSome h.output⟩

section
variable {cfg : Config} {S : Type} (checksum : ℕ → BitVec 8) (B : Build S)

/-- From `MODEL_STATE_STRUCT_LOADED` on, the specification is valid. -/
def SpecChecked (server : Server cfg S) : Prop :=
  ModelState.structLoaded ≤ server.model.modelState → SpecValid server.model.modelSpec

/-- The condition on a step: once a specification is loaded, another one comes whole, of the right
size, and valid. -/
def LoadsWhole (server : Server cfg S) : ServerStep → Prop
  | .serve rx _ => ModelState.structLoaded ≤ server.model.modelState →
      (∃ hdr rest, rx = bytes hdr.encode ++ rest ∧ Opens hdr .iospec ∧ hdr.flags.hasPayload = true) →
      ∃ m ms tail, rx = bytes (wires (m :: ms)) ++ tail ∧ Opens m.hdr .iospec ∧
        m.hdr.flags.hasPayload = true ∧ Series m ms ∧
        (payloads (m :: ms)).length = modelSpecSize ∧ SpecValid (payloads (m :: ms))
  | .call (.loadStruct (some data)) => ModelState.structLoaded ≤ server.model.modelState →
      0 < data.length → data.length ≤ modelSpecSize →
      data.length = modelSpecSize ∧ SpecValid data
  | .call _ => True

variable {B} {server server' : Server cfg S}

/-- A whole specification is received as it was sent. -/
theorem protocolListen_iospec {m : Message} {ms : List Message} (h : Opens m.hdr .iospec)
    (hp : m.hdr.flags.hasPayload = true) (hs : Series m ms)
    (hlen : (payloads (m :: ms)).length = modelSpecSize) (tail : Rx)
    {r : ListenResult (Server cfg S)}
    (hr : protocolListen cfg (loaderPicker B) server (bytes (wires (m :: ms)) ++ tail) = some r) :
    ∃ iospec : BufLoader modelSpecSize, r.world = Server.iospecLens.set server iospec ∧
      iospec.mem = payloads (m :: ms) := by
  by_cases hprepared : server.model.iospecPrepared = true
  swap
  · have hnull : loaderPicker B server .iospec = none := if_neg hprepared
    rw [wires_cons, bytes_append, List.append_assoc,
      protocolListen_null cfg (loaderPicker B) h hp hnull] at hr
    cases hr
  have hldr : loaderPicker B server .iospec =
      some ((msgLoaderBuf modelSpecSize).lift Server.iospecLens) := if_pos hprepared
  obtain ⟨left, hlisten⟩ := protocolListen_series cfg Server.iospecLens h hp hs hldr tail
  obtain ⟨iospec, hsave, hstored⟩ := saveMessages_fit cfg (bufReset server.model.iospec).2 (m :: ms)
    hlen.le
  rw [bufReset_stored, List.nil_append] at hstored
  have hwritten : iospec.written = modelSpecSize :=
    (BufLoader.written_of_stored hstored).trans hlen
  refine ⟨iospec, ?_, (iospec.mem_of_full hwritten).trans hstored⟩
  rw [hlisten, Server.iospecLens_get, hsave, if_neg (not_not_intro rfl)] at hr
  cases hr
  rfl

theorem SpecChecked.keeps (h : SpecChecked server) (hk : server.model.Keeps server'.model) :
    SpecChecked server' := by
  intro hs
  have hspec : server'.model.modelSpec = server.model.modelSpec := congrArg BufLoader.mem hk.iospec
  rcases hk.structLoaded hs with hs | hv
  · rw [hspec]
    exact h hs
  · exact hv

theorem SpecChecked.received (h : SpecChecked server) {rx rest : Rx} {tx : Tx}
    {event : Except Status ProtocolEvent} (hg : LoadsWhole server (.serve rx tx))
    (hl : protocolListen cfg (loaderPicker B) server rx = some ⟨event, server', rest⟩) :
    SpecChecked server' := by
  rcases protocolListen_server hl with ⟨s, hw⟩ | ⟨⟨hdr, rest', hrx, hopens, hp⟩, iospec, hw⟩
  · obtain rfl : server' = _ := hw
    exact h
  intro hs
  -- The reception does not change the state, so the condition applies to the input.
  have hold : ModelState.structLoaded ≤ server.model.modelState := by
    obtain rfl : server' = _ := hw
    exact hs
  obtain ⟨m, ms, tail, hrx', hopens', hp', hseries, hlen, hvalid⟩ :=
    hg hold ⟨hdr, rest', hrx, hopens, hp⟩
  rw [hrx'] at hl
  obtain ⟨iospec', hw', hmem⟩ := protocolListen_iospec hopens' hp' hseries hlen tail hl
  obtain rfl : server' = _ := hw'
  have hspec : (Server.iospecLens.set server iospec').model.modelSpec = iospec'.mem := rfl
  rw [hspec, hmem]
  exact hvalid

/-- `model_load_struct` overwrites the specification if the data fits. -/
theorem bufSave_valid {iospec : BufLoader modelSpecSize} {data : List UInt8}
    (h : SpecValid iospec.mem)
    (hd : 0 < data.length → data.length ≤ modelSpecSize →
      data.length = modelSpecSize ∧ SpecValid data) :
    SpecValid (bufSave (bufReset iospec).2 data).2.mem := by
  by_cases hfit : data.length ≤ modelSpecSize
  swap
  · rw [bufSave_full _ _ (by rw [bufReset_written]; omega), bufReset_mem]
    exact h
  have hsave := bufSave_fit (bufReset iospec).2 data (by rw [bufReset_written]; omega)
  rw [hsave]
  -- Data of the whole size replaces all of it, and no data nothing.
  by_cases h0 : 0 < data.length
  · obtain ⟨hlen, hvalid⟩ := hd h0 hfit
    rw [BufLoader.mem_of_full _ (by rw [BufLoader.written_append, bufReset_written]; omega),
      BufLoader.stored_append, bufReset_stored, List.nil_append]
    exact hvalid
  · obtain rfl : data = [] := List.length_eq_zero_iff.mp (by omega)
    have hmem : ((bufReset iospec).2.append [] (by rw [bufReset_written]; omega)).mem =
        Memory.splice iospec.mem 0 [] := rfl
    rw [hmem, Memory.splice_nil]
    exact h

theorem serverStep_specChecked {l : ServerStep} (h : SpecChecked server) (hg : LoadsWhole server l)
    (hs : serverStep checksum B server l = some server') : SpecChecked server' := by
  cases l with
  | serve rx tx =>
    obtain ⟨event, received, rest, hl, hk⟩ := serve_keeps hs
    exact (h.received hg hl).keeps hk
  | call c =>
    obtain ⟨model, hm, rfl⟩ := Option.map_eq_some_iff.mp hs
    rcases Model.modelStep_keeps B.runtime hm with hk | ⟨data, rfl, hk⟩
    · exact h.keeps hk
    · let written : Server cfg S := {server with
        model := {server.model with iospec := (bufSave (bufReset server.model.iospec).2 data).2}}
      have hwritten : SpecChecked written := fun hle => bufSave_valid (h hle) (hg hle)
      exact hwritten.keeps hk

/-- In every run whose steps load whole specifications, one that is in use is valid, and no loop over
it reads behind an array. -/
theorem reaches_specChecked {s : S} {protocolInit : Status} {ls : List ServerStep}
    (h : Reaches (serverStep checksum B) (initServer B protocolInit (bootServer cfg s)).2 ls server)
    (hg : Guarded (serverStep checksum B) LoadsWhole
      (initServer B protocolInit (bootServer cfg s)).2 ls)
    (hs : ModelState.structLoaded ≤ server.model.modelState) :
    SpecValid server.model.modelSpec ∧ SizesInBounds server.model.modelSpec := by
  have hboot : SpecChecked (bootServer cfg s) := fun hle =>
    absurd hle (by show ¬ ModelState.structLoaded ≤ ModelState.uninitialized; decide)
  have hvalid := h.invariant (fun _ _ _ hi hg hs => serverStep_specChecked checksum hi hg hs)
    (hboot.keeps (initServer_keeps protocolInit)) hg hs
  exact ⟨hvalid, hvalid.sizesInBounds⟩

end

/-- A specification is loaded, and then one whose first field says that there are three inputs and
whose other fields do not come. -/
def cutOffSteps : List ServerStep :=
  [.call (.loadStruct (some oneByteSpec)),
    .serve (bytes (wires [requestMessage .iospec [3, 0, 0, 0] (by decide)])) ⟨[], false, []⟩]

/-- The four bytes are refused, but they are in place. -/
theorem spec_cut_off :
    ∃ server : Server smallConfig ℕ,
      Reaches (serverStep (fun _ => 0) neverFails)
        (initServer neverFails statusOk (bootServer smallConfig 0)).2 cutOffSteps server ∧
      ModelState.structLoaded ≤ server.model.modelState ∧
      server.model.modelGetInputSize = none ∧ ¬ SpecValid server.model.modelSpec := by
  let p (server : Server smallConfig ℕ) : Bool :=
    decide (ModelState.structLoaded ≤ server.model.modelState) &&
      server.model.modelGetInputSize.isNone && (numTensors inputGeometry server.model.modelSpec == 3)
  have hrun : (run (serverStep (fun _ => 0) neverFails)
      (initServer neverFails statusOk (bootServer smallConfig 0)).2 cutOffSteps).any p = true := by
    decide +kernel
  obtain ⟨server, hreach, hp⟩ := exists_reaches hrun
  simp only [p, Bool.and_eq_true, decide_eq_true_eq, Option.isNone_iff_eq_none, beq_iff_eq] at hp
  obtain ⟨⟨hstate, hnone⟩, hnum⟩ := hp
  refine ⟨server, hreach, hstate, hnone, ?_⟩
  intro h
  have hle := h.input.num_le
  rw [hnum] at hle
  exact absurd hle (by decide)

def iospecRequest : Message :=
  requestMessage .iospec oneByteSpec (by rw [length_oneByteSpec]; decide)

/-- The specification is loaded, and then loaded again by an IOSPEC request. -/
def wholeSteps : List ServerStep :=
  [.call (.loadStruct (some oneByteSpec)),
    .serve (bytes (wires [iospecRequest])) ⟨[], false, []⟩]

theorem reaches_specChecked_whole :
    ∃ server : Server smallConfig ℕ,
      Reaches (serverStep (fun _ => 0) neverFails)
        (initServer neverFails statusOk (bootServer smallConfig 0)).2 wholeSteps server ∧
      SpecValid server.model.modelSpec ∧ SizesInBounds server.model.modelSpec := by
  let p (server : Server smallConfig ℕ) : Bool :=
    decide (ModelState.structLoaded ≤ server.model.modelState)
  have hrun : (run (serverStep (fun _ => 0) neverFails)
      (initServer neverFails statusOk (bootServer smallConfig 0)).2 wholeSteps).any p = true := by
    decide +kernel
  obtain ⟨server, hreach, hp⟩ := exists_reaches hrun
  have hpayloads : payloads [iospecRequest] = oneByteSpec := by
    rw [payloads_cons, payloads_nil, List.append_nil]
    rfl
  refine ⟨server, hreach, reaches_specChecked _ hreach ?_ (of_decide_eq_true hp)⟩
  refine ⟨fun _ _ _ => ⟨length_oneByteSpec, oneByteSpec_valid⟩,
    fun _ _ => ⟨?_, fun _ _ => trivial⟩⟩
  intro _ _
  refine ⟨iospecRequest, [], [], (List.append_nil _).symm, ⟨Or.inr rfl, rfl, rfl⟩, rfl, .last rfl, ?_⟩
  rw [hpayloads]
  exact ⟨length_oneByteSpec, oneByteSpec_valid⟩

end KenningRuntime
