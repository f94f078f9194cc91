import KenningRuntime.ExtensionPointers
import KenningRuntime.History
import KenningRuntime.SpecInvariant

/-! Whether the extension that a pointer belongs to is loaded whenever the pointer is followed. -/
namespace KenningRuntime
open ByteSource Chunks Lifetime Llext Transition

/-! ### The rounds of the server -/

section
variable {cfg : Config} {E Z : Type} {A : LlextApi Z} {X : Extension E}
  {server server' : Server cfg (Llext E Z)}

theorem openedType_of_starts {t : MessageType} {rx : Rx} {p : Bool} (h : Starts t rx p) :
    openedType rx = some t := by
  obtain ⟨hdr, rest, rfl, ho, -⟩ := h
  have ht : MessageType.ofNumber? hdr.messageType.toNat = some t := ho.messageType
  rw [openedType, receiveMessageHeader_encode]
  simp only [if_neg ho.flowControl_guard, ho.first, Bool.true_eq_false, if_false, ht]

theorem readsWritten_runtime {rx : Rx} {p : Bool} (h : Starts .runtime rx p) (s : Llext E Z) :
    readsWritten rx s = s := by
  rw [readsWritten, openedType_of_starts h]

theorem readsWritten_safe (rx : Rx) {s : Llext E Z} (h : Safe s) : Safe (readsWritten rx s) := by
  rw [readsWritten]
  split
  · next ht => exact h.use (h.table _ ht)
  · next ht => exact h.use (h.table _ ht)
  · exact h

theorem ownedLoader_reset_safe (ldr : MsgLoader E) {g : ℕ} {s : Llext E Z} (h : Safe s)
    (hg : s.loaded = some g) :
    Safe ((ownedLoader ldr g).reset s).2 ∧ ((ownedLoader ldr g).reset s).2.loaded = some g := by
  have hext : Safe ({s with ext := (ldr.reset s.ext).2} : Llext E Z) := h.same ⟨rfl, rfl, rfl, rfl⟩
  exact ⟨hext.use hg, hg⟩

theorem ownedLoader_save_safe (ldr : MsgLoader E) {g : ℕ} {s : Llext E Z} (h : Safe s)
    (hg : s.loaded = some g) (src : List UInt8) :
    Safe ((ownedLoader ldr g).save s src).2 ∧ ((ownedLoader ldr g).save s src).2.loaded = some g := by
  have hext : Safe ({s with ext := (ldr.save s.ext src).2} : Llext E Z) := h.same ⟨rfl, rfl, rfl, rfl⟩
  exact ⟨hext.use hg, hg⟩

theorem wrote_owned {ldr : MsgLoader E} {g : ℕ} {s s' : Llext E Z} (h : Safe s) (hg : s.loaded = some g)
    (hwrote : Wrote cfg (ownedLoader ldr g) s s') : Safe s' := by
  have hkept := hwrote.keeps (P := fun s => Safe s ∧ s.loaded = some g) (ownedLoader_reset_safe ldr h hg)
    fun _ src hs => ownedLoader_save_safe ldr hs.1 hs.2 src
  exact hkept.1

/-- Any event but a runtime is received through loaders that are there. -/
theorem received_of_not_runtime {rx : Rx} {r : ListenResult (Server cfg (Llext E Z))}
    (h : Safe server.model.runtime) (hopens : ¬ Starts .runtime rx true)
    (hl : protocolListen cfg (loaderPicker (llextBuild A X)) server rx = some r) :
    Safe r.world.model.runtime := by
  rcases protocolListen_wrote hl with hw | ⟨-, iospec, hw⟩ | ⟨t, ldr, s, hstarts, hldr, hwrote, hw⟩
  · rw [hw]
    exact h
  · rw [hw]
    exact h
  rw [hw]
  cases hldr with
  | runtime => exact absurd hstarts hopens
  | data hdata =>
    obtain ⟨g, hg, rfl⟩ := Option.map_eq_some_iff.mp hdata
    exact wrote_owned h (h.table g hg) hwrote
  | model hmodel =>
    obtain ⟨g, hg, rfl⟩ := Option.map_eq_some_iff.mp hmodel
    exact wrote_owned h (h.table g hg) hwrote

/-- The condition on a round: a runtime that comes with a payload, where it unloads one that a pointer
belongs to, comes whole, is saved, and sets the pointers anew. -/
def ReplacesRuntime (A : LlextApi Z) (X : Extension E) (server : Server cfg (Llext E Z))
    (io : Rx × Tx) : Prop :=
  Starts .runtime io.1 true → server.model.runtime.loaded ≠ none →
    (resetRuntime A server.model.runtime).1 = statusOk →
    server.model.runtime.gpLlextRuntime ≠ none ∨ server.model.runtime.ldrTable ≠ none →
    ∃ m ms tail received, io.1 = bytes (wires (m :: ms)) ++ tail ∧ Series m ms ∧
      saveMessages cfg (msgLoaderLlext A) (resetRuntime A server.model.runtime).2 (m :: ms) =
        (statusOk, received) ∧
      Replaces A X (received.written%2^32) received

theorem received_whole_runtime {m : Message} {ms : List Message} (ho : Opens m.hdr .runtime)
    (hp : m.hdr.flags.hasPayload = true) (hseries : Series m ms) (tail : Rx)
    (hreset : (resetRuntime A server.model.runtime).1 = statusOk) {received : Llext E Z}
    (hsave : saveMessages cfg (msgLoaderLlext A) (resetRuntime A server.model.runtime).2 (m :: ms) =
      (statusOk, received))
    {r : ListenResult (Server cfg (Llext E Z))}
    (hl : protocolListen cfg (loaderPicker (llextBuild A X)) server
      (bytes (wires (m :: ms)) ++ tail) = some r) :
    r.world = Server.runtimeLens.set server received ∧
      ∃ event, r.event = .ok event ∧ event.payloadSize = received.written%2^32 := by
  have hldr : loaderPicker (llextBuild A X) server .runtime =
      some ((msgLoaderLlext A).lift Server.runtimeLens) := rfl
  have hstatus : (((msgLoaderLlext A).lift Server.runtimeLens).reset server).1 = statusOk := hreset
  obtain ⟨left, hrec, hleft⟩ := receiveMessages_series cfg (msgLoaderLlext A) hseries
    (resetRuntime A server.model.runtime).2 tail
  have hget : Server.runtimeLens.get (((msgLoaderLlext A).lift Server.runtimeLens).reset server).2 =
      (resetRuntime A server.model.runtime).2 := rfl
  rw [hsave] at hrec
  rw [wires_cons, bytes_append, List.append_assoc, protocolListen_payload cfg _ ho hp hldr,
    if_neg (not_not_intro hstatus), receiveMessages_lift, hget, hrec] at hl
  simp only [ne_eq, not_true_eq_false, if_false] at hl
  cases hl
  exact ⟨rfl, _, rfl, rfl⟩

/-- After a runtime with a payload, the pointers are safe, or they will be set anew. -/
theorem received_of_runtime {io : Rx × Tx} (h : Safe server.model.runtime)
    (hg : ReplacesRuntime A X server io) (hopens : Starts .runtime io.1 true)
    {r : ListenResult (Server cfg (Llext E Z))}
    (hl : protocolListen cfg (loaderPicker (llextBuild A X)) server io.1 = some r) :
    Safe r.world.model.runtime ∨ ∃ event, r.event = .ok event ∧ Sound r.world.model.runtime ∧
      r.world.model.runtime.loaded = none ∧ Replaces A X event.payloadSize r.world.model.runtime := by
  have hsame : Same (resetRuntime A server.model.runtime).2 r.world.model.runtime := by
    obtain ⟨hdr, rest, hrx, ho, hp⟩ := hopens
    rw [hrx] at hl
    obtain ⟨ldr, hldr, hw⟩ := protocolListen_opened cfg ho hp hl
    obtain rfl : (msgLoaderLlext A).lift Server.runtimeLens = ldr := Option.some.inj hldr
    rcases protocolListen_component cfg hw with hw | hw
    · rw [hw]
      exact Same.refl _
    · rw [hw]
      exact receiveMessages_keeps cfg (P := Same (resetRuntime A server.model.runtime).2)
        (fun s src hs => hs.trans (saveRuntime_same src s)) (Same.refl _) hdr rest
  rcases resetRuntime_cases (A := A) server.model.runtime with ⟨hkept, -⟩ | ⟨hreset, g, hunloads⟩
  · exact Or.inl ((h.same hkept).same hsame)
  -- The extension is gone. That is harmless if no pointer is set.
  have hsound := (h.toSound.unloads hunloads).same hsame
  by_cases hset : server.model.runtime.gpLlextRuntime ≠ none ∨ server.model.runtime.ldrTable ≠ none
  swap
  · rw [not_or, not_ne_iff, not_ne_iff] at hset
    refine Or.inl (hsound.safe_of_none ?_ ?_)
    · rw [hsame.gp, hunloads.gp, hset.1]
    · rw [hsame.table, hunloads.table, hset.2]
  have hloaded : server.model.runtime.loaded ≠ none := by
    rw [hunloads.was]
    exact Option.some_ne_none g
  -- Otherwise the condition says what comes in its place.
  obtain ⟨m, ms, tail, received, hrx, hseries, hsave, hreplaces⟩ := hg hopens hloaded hreset hset
  obtain ⟨ho, hp⟩ : Opens m.hdr .runtime ∧ m.hdr.flags.hasPayload = true := by
    obtain ⟨hdr, rest, hrx', ho, hp⟩ := hopens
    rw [hrx, wires_cons, bytes_append, List.append_assoc] at hrx'
    obtain ⟨rfl, -⟩ := encode_unique hrx'
    exact ⟨ho, hp⟩
  rw [hrx] at hl
  obtain ⟨hw, event, hevent, hsize⟩ := received_whole_runtime ho hp hseries tail hreset hsave hl
  refine Or.inr ⟨event, hevent, hsound, hsame.loaded.trans hunloads.loaded, ?_⟩
  rw [hw, hsize]
  exact hreplaces

variable {checksum : ℕ → BitVec 8}

theorem operates_pointers {event : ProtocolEvent} {m m' : Model (Llext E Z)}
    (ho : Operates (llextBuild A X) event m m')
    (h : Safe m.runtime ∨ event.messageType = .runtime ∧ Sound m.runtime ∧ m.runtime.loaded = none ∧
      Replaces A X event.payloadSize m.runtime) : Safe m'.runtime := by
  by_cases ht : event.messageType = .runtime
  swap
  · have hsafe : Safe m.runtime := h.resolve_right fun hr => ht hr.1
    exact ho.preserves wrapper_preserves ht hsafe
  have hload : ((loadRuntime A X event.payloadSize m.runtime).1 ≠ statusOk →
        Safe (loadRuntime A X event.payloadSize m.runtime).2) ∧
      ((loadRuntime A X event.payloadSize m.runtime).1 = statusOk →
        Safe (runtimeInit A X (loadRuntime A X event.payloadSize m.runtime).2).2) := by
    rcases h with h | ⟨-, hsound, hnone, hr⟩
    · exact loadRuntime_safe h.toSound (fun _ => h) fun hnone => h.replaces hnone _
    · exact loadRuntime_safe hsound (fun hl => absurd hnone hl) fun _ => hr
  cases ho with
  | runtimeLoaded _ hllext hok =>
    cases hllext
    rw [Model.modelInit_runtime]
    exact hload.2 hok
  | runtimeFailed _ hllext hfail =>
    cases hllext
    exact hload.1 hfail
  | nothing hnone => cases hnone ht
  | data h | model h | process h | output h | stats _ h | iospec h => cases ht.symm.trans h

theorem llextRound_safe {io : Rx × Tx} (h : Safe server.model.runtime)
    (hg : ReplacesRuntime A X server io) (hs : llextRound checksum A X server io = some server') :
    Safe server'.model.runtime := by
  rw [llextRound] at hs
  by_cases hopens : Starts .runtime io.1 true
  · rw [readsWritten_runtime hopens] at hs
    rcases serve_cases hs with ⟨status, rest, hl⟩ | ⟨event, received, rest, handled, hl, hh, rfl⟩
    · rcases received_of_runtime h hg hopens hl with hsafe | ⟨event, hevent, -⟩
      · exact hsafe
      · cases hevent
    · obtain ⟨hdr, rest', hrx, ho, -⟩ := protocolListen_event cfg _ hl
      obtain ⟨ht, -⟩ := hopens.unique hrx ho
      apply operates_pointers (handleProtocolEvent_operates hh)
      rcases received_of_runtime h hg hopens hl with hsafe | ⟨event', hevent, hreplaces⟩
      · exact Or.inl hsafe
      · cases hevent
        exact Or.inr ⟨ht, hreplaces⟩
  · have hread : Safe (readsWritten io.1 server.model.runtime) := readsWritten_safe io.1 h
    rcases serve_cases hs with ⟨status, rest, hl⟩ | ⟨event, received, rest, handled, hl, hh, rfl⟩
    · exact received_of_not_runtime hread hopens hl
    · exact operates_pointers (handleProtocolEvent_operates hh)
        (Or.inl (received_of_not_runtime hread hopens hl))

/-- In every run whose rounds meet the condition, `gp_llext_runtime` and the loaders of the runtime are
followed only while the extension that they belong to is loaded. -/
theorem reaches_extensionLoaded {ext : E} {zephyr : Z} {protocolInit : Status} {ls : List (Rx × Tx)}
    (h : Reaches (llextRound checksum A X)
      (initServer (llextBuild A X) protocolInit (bootServer cfg (Llext.boot ext zephyr))).2 ls server)
    (hg : Guarded (llextRound checksum A X) (ReplacesRuntime A X)
      (initServer (llextBuild A X) protocolInit (bootServer cfg (Llext.boot ext zephyr))).2 ls) :
    Disciplined nothing server.model.runtime.record := by
  have hboot : Safe (Llext.boot ext zephyr) := by
    refine Sound.safe_of_none ⟨trivial, ?_⟩ rfl rfl
    intro g
    rfl
  have hinit : Safe (initServer (llextBuild A X) protocolInit
      (bootServer cfg (Llext.boot ext zephyr))).2.model.runtime := by
    rw [initServer_llext rfl]
    exact hboot
  have hstep : ∀ (s : Server cfg (Llext E Z)) (io : Rx × Tx) (s' : Server cfg (Llext E Z)),
      Safe s.model.runtime → ReplacesRuntime A X s io → llextRound checksum A X s io = some s' →
        Safe s'.model.runtime := by
    intro s io s' hi hg hs
    exact llextRound_safe hi hg hs
  exact (h.invariant hstep hinit hg).disciplined

end

/-- A Zephyr that gives as much memory as it is asked for, and loads what is not empty. -/
def roomyZephyr : LlextApi Unit where
  llextTeardown z := (statusOk, z)
  llextUnload z := (statusOk, z)
  llextLoad _ size z := (if size = 0 then Module.callbacks.statusError else statusOk, z)
  llextBringup z := (statusOk, z)
  llextFindSym _ _ := true
  kHeapFree z := z
  kHeapAlignedAlloc n z := (some ⟨List.replicate n 0, length_zeros n⟩, z)

/-- A loader that takes everything and keeps its size. -/
def countingLoader : MsgLoader ℕ where
  save n src := (statusOk, n+src.length)
  reset _ := (statusOk, 0)
  written n := n

/-- An extension that does nothing else than to register its loaders. -/
def idleExtension : Extension ℕ where
  load _ _ := 0
  runtimeInit n := (statusOk, true, n)
  runtimeInitWeights n := (statusOk, n)
  runtimeInitInput n := (statusOk, n)
  runtimeRunModel n := (statusOk, n)
  runtimeRunModelBench n := (statusOk, n)
  runtimeGetModelOutput _ _ buffer n := (statusOk, buffer, n)
  runtimeGetStatistics _ buffer size n := (statusOk, buffer, size, n)
  msgLoaderModel := countingLoader
  msgLoaderInput := countingLoader

/-- A runtime of one byte, behind its size. -/
def runtimeRequest : Message := requestMessage .runtime [1, 0, 0, 0, 9] (by decide)

def llextServer : Server smallConfig (Llext ℕ Unit) :=
  (initServer (llextBuild roomyZephyr idleExtension) statusOk
    (bootServer smallConfig (Llext.boot 0 ()))).2

/-- The runtime is unloaded for one of which only the header comes; then the statistics are asked for
through the pointer that was left, or an input is saved through the loader that was left. -/
theorem extension_used_unloaded :
    (∃ server, Reaches (llextRound (fun _ => 0) roomyZephyr idleExtension) llextServer
        (rounds [wires [runtimeRequest], wires [iospecRequest],
          wires [requestMessage .model [1] (by decide)], runtimeRequest.hdr.encode,
          wires [emptyRequest .stats]]) server ∧
      ¬ Disciplined nothing server.model.runtime.record) ∧
    ∃ server, Reaches (llextRound (fun _ => 0) roomyZephyr idleExtension) llextServer
        (rounds [wires [runtimeRequest], runtimeRequest.hdr.encode,
          wires [requestMessage .data [7] (by decide)]]) server ∧
      server.model.runtime.record = [.create 0, .use 0, .destroy 0, .use 0, .use 0, .use 0] ∧
      ¬ Disciplined nothing server.model.runtime.record := by
  constructor
  · let p (server : Server smallConfig (Llext ℕ Unit)) : Bool :=
      decide (¬ Disciplined nothing server.model.runtime.record)
    have hrun : (run (llextRound (fun _ => 0) roomyZephyr idleExtension) llextServer
        (rounds [wires [runtimeRequest], wires [iospecRequest],
          wires [requestMessage .model [1] (by decide)], runtimeRequest.hdr.encode,
          wires [emptyRequest .stats]])).any p = true := by
      decide +kernel
    obtain ⟨server, hreach, hp⟩ := exists_reaches hrun
    exact ⟨server, hreach, of_decide_eq_true hp⟩
  · let p (server : Server smallConfig (Llext ℕ Unit)) : Bool :=
      decide (server.model.runtime.record =
        [.create 0, .use 0, .destroy 0, .use 0, .use 0, .use 0])
    have hrun : (run (llextRound (fun _ => 0) roomyZephyr idleExtension) llextServer
        (rounds [wires [runtimeRequest], runtimeRequest.hdr.encode,
          wires [requestMessage .data [7] (by decide)]])).any p = true := by
      decide +kernel
    obtain ⟨server, hreach, hp⟩ := exists_reaches hrun
    have hrecord := of_decide_eq_true hp
    refine ⟨server, hreach, hrecord, ?_⟩
    rw [hrecord]
    decide

/-- The size comes in the first chunk, and what it is the size of in the second. -/
theorem saveMessages_runtimeRequest (s : Llext ℕ Unit) (ha : s.addr = none) :
    saveMessages smallConfig (msgLoaderLlext roomyZephyr) s [runtimeRequest] =
      (statusOk, {s with addr := some [9], written := 1, maxSize := 1}) := by
  have hchunks : chunks 4 runtimeRequest.payload = [[1, 0, 0, 0], [9]] := by
    have hpayload : runtimeRequest.payload = [1, 0, 0, 0, 9] := rfl
    rw [hpayload, chunks_cons 4 (by decide) _ (List.cons_ne_nil _ _)]
    exact congrArg _ (chunks_of_le 4 [9] (List.cons_ne_nil _ _) (by decide))
  have hfirst : saveRuntime roomyZephyr s [1, 0, 0, 0] =
      (statusOk, {s with addr := some [0], written := 0, maxSize := 1}) := by
    rw [saveRuntime, ha]
    rfl
  have hpayload : savePayload smallConfig (msgLoaderLlext roomyZephyr) s runtimeRequest.payload =
      (statusOk, {s with addr := some [9], written := 1, maxSize := 1}) := by
    rw [savePayload, show smallConfig.messageRecvBufferSize = 4 from rfl, hchunks]
    simp only [List.foldl_cons, List.foldl_nil, saveChunk, msgLoaderLlext, hfirst]
    rfl
  simp only [saveMessages, hpayload, ne_eq, not_true_eq_false, if_false]

theorem resetRuntime_roomy (s : Llext ℕ Unit) :
    (resetRuntime roomyZephyr s).2.addr = none ∧ (resetRuntime roomyZephyr s).2.loaded = none := by
  rw [resetRuntime]
  rcases hl : s.loaded with _ | g
  · exact ⟨rfl, rfl⟩
  · exact ⟨rfl, rfl⟩

theorem loadRuntime_idle (s : Llext ℕ Unit) (hl : s.loaded = none) :
    (loadRuntime roomyZephyr idleExtension 1 s).1 = statusOk := by
  have hsome : s.loaded.isSome = false := by
    rw [hl]
    rfl
  rw [loadRuntime]
  simp only [runtimeDeinit, ne_eq, not_true_eq_false, if_false, hsome, Bool.false_eq_true]
  rfl

theorem replacesRuntime_request (server : Server smallConfig (Llext ℕ Unit)) (tx : Tx) :
    ReplacesRuntime roomyZephyr idleExtension server (bytes (wires [runtimeRequest]), tx) := by
  intro _ _ _ _
  obtain ⟨haddr, hloaded⟩ := resetRuntime_roomy server.model.runtime
  refine ⟨runtimeRequest, [], [], _, (List.append_nil _).symm, .last rfl,
    saveMessages_runtimeRequest _ haddr, ?_⟩
  have hload := loadRuntime_idle {(resetRuntime roomyZephyr server.model.runtime).2 with
    addr := some [9], written := 1, maxSize := 1} hloaded
  exact ⟨fun _ => hload, fun _ => ⟨hload, rfl, rfl⟩⟩

theorem replacesRuntime_of_other {server : Server smallConfig (Llext ℕ Unit)} {m : Message}
    {t : MessageType} (ho : Opens m.hdr t) (ht : t ≠ .runtime) (tx : Tx) :
    ReplacesRuntime roomyZephyr idleExtension server (bytes (wires [m]), tx) := by
  intro hopens
  exact absurd (hopens.of_wires ho).1 ht

/-- A runtime that is replaced, and a model that the new one gets. -/
theorem reaches_extensionLoaded_replaced :
    ∃ server, Reaches (llextRound (fun _ => 0) roomyZephyr idleExtension) llextServer
        (rounds [wires [runtimeRequest], wires [runtimeRequest], wires [iospecRequest],
          wires [requestMessage .model [1] (by decide)], wires [emptyRequest .stats]]) server ∧
      server.model.modelState = .weightsLoaded ∧ server.model.runtime.loaded = some 1 ∧
      Disciplined nothing server.model.runtime.record := by
  let p (server : Server smallConfig (Llext ℕ Unit)) : Bool :=
    decide (server.model.modelState = .weightsLoaded ∧ server.model.runtime.loaded = some 1)
  have hrun : (run (llextRound (fun _ => 0) roomyZephyr idleExtension) llextServer
      (rounds [wires [runtimeRequest], wires [runtimeRequest], wires [iospecRequest],
        wires [requestMessage .model [1] (by decide)], wires [emptyRequest .stats]])).any p = true := by
    decide +kernel
  obtain ⟨server, hreach, hp⟩ := exists_reaches hrun
  obtain ⟨hstate, hloaded⟩ := of_decide_eq_true hp
  refine ⟨server, hreach, hstate, hloaded, reaches_extensionLoaded hreach ?_⟩
  refine ⟨?_, fun _ _ => ⟨?_, fun _ _ => ⟨?_, fun _ _ => ⟨?_, fun _ _ => ⟨?_, fun _ _ => trivial⟩⟩⟩⟩⟩
  · exact replacesRuntime_request _ _
  · exact replacesRuntime_request _ _
  · exact replacesRuntime_of_other (t := .iospec) ⟨Or.inr rfl, rfl, rfl⟩ (by decide) _
  · exact replacesRuntime_of_other (t := .model) ⟨Or.inr rfl, rfl, rfl⟩ (by decide) _
  · exact replacesRuntime_of_other (t := .stats) ⟨Or.inr rfl, rfl, rfl⟩ (by decide) _

end KenningRuntime
