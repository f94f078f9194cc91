import KenningRuntime.ElfOwnership
import KenningRuntime.ExtensionLifetime

/-! How long the blocks of `llext_heap` stay allocated over the rounds of the server. -/
namespace KenningRuntime
open ByteSource Transition

namespace Elf

section
variable {cfg : Config} {E Z : Type} {A : LlextApi Z} {X : Extension E} {P : Elf E Z → Prop}
  {server server' : Server cfg (Elf E Z)}

/-! ### A round -/

theorem received_of_starts {rx : Rx} {r : ListenResult (Server cfg (Elf E Z))} (hP : Stable A X P)
    (hopens : Starts .runtime rx true) (h : P (resetRuntime A server.model.runtime).2)
    (hl : protocolListen cfg (loaderPicker (elfBuild A X)) server rx = some r) :
    P r.world.model.runtime := by
  obtain ⟨hdr, rest, rfl, ho, hp⟩ := hopens
  obtain ⟨ldr, hldr, hw⟩ := protocolListen_opened cfg ho hp hl
  obtain rfl : (msgLoaderLlext A).lift Server.runtimeLens = ldr := Option.some.inj hldr
  rcases protocolListen_component cfg hw with hw | hw
  · rw [hw]
    exact h
  · rw [hw]
    exact receiveMessages_keeps cfg (fun s src => hP.saveRuntime s src) h hdr rest

/-- The loaders of the extension have nothing to do with the heap. -/
theorem ownedLoader_same {ldr : MsgLoader E} {g : ℕ} {s s' : Elf E Z}
    (h : Wrote cfg ((Llext.ownedLoader ldr g).lift llextLens) s s') : Same s s' :=
  h.keeps (SameFile.same ⟨rfl, rfl⟩) fun _ _ hs => hs.trans (SameFile.same ⟨rfl, rfl⟩)

theorem received_of_not_starts {rx : Rx} {r : ListenResult (Server cfg (Elf E Z))}
    (hP : Stable A X P) (hopens : ¬ Starts .runtime rx true) (h : P server.model.runtime)
    (hl : protocolListen cfg (loaderPicker (elfBuild A X)) server rx = some r) :
    P r.world.model.runtime := by
  rcases protocolListen_wrote hl with hw | ⟨-, iospec, hw⟩ | ⟨t, ldr, s, hstarts, hldr, hwrote, hw⟩
  · rw [hw]
    exact h
  · rw [hw]
    exact h
  rw [hw]
  cases hldr with
  | runtime => exact absurd hstarts hopens
  | data hdata =>
    obtain ⟨ldr', hldr', rfl⟩ := Option.map_eq_some_iff.mp hdata
    obtain ⟨g, -, rfl⟩ := Option.map_eq_some_iff.mp hldr'
    exact hP.same _ _ (ownedLoader_same hwrote) h
  | model hmodel =>
    obtain ⟨ldr', hldr', rfl⟩ := Option.map_eq_some_iff.mp hmodel
    obtain ⟨g, -, rfl⟩ := Option.map_eq_some_iff.mp hldr'
    exact hP.same _ _ (ownedLoader_same hwrote) h

theorem operates_stable (hP : Stable A X P) {event : ProtocolEvent} {m m' : Model (Elf E Z)}
    (ho : Operates (elfBuild A X) event m m') (h : P m.runtime) : P m'.runtime := by
  -- Only a RUNTIME event loads an extension; the others go through the runtime wrapper.
  by_cases ht : event.messageType = .runtime
  swap
  · have hsame := ho.preserves (P := Same m.runtime) (wrapper_same _) ht (Same.refl _)
    exact hP.same _ _ hsame h
  cases ho with
  | runtimeLoaded _ hllext =>
    cases hllext
    rw [Model.modelInit_runtime]
    exact hP.same _ _ (runtimeInit_sameFile _).same (hP.loadRuntime _ _ h)
  | runtimeFailed _ hllext =>
    cases hllext
    exact hP.loadRuntime _ _ h
  | nothing hnone => cases hnone ht
  | data h | model h | process h | output h | stats _ h | iospec h => cases ht.symm.trans h

variable {checksum : ℕ → BitVec 8} {io : Rx × Tx}

theorem serveRound_stable (hP : Stable A X P)
    (hother : ¬ Starts .runtime io.1 true → P server.model.runtime)
    (hreset : Starts .runtime io.1 true → P (resetRuntime A server.model.runtime).2)
    (hs : serveRound checksum (elfBuild A X) server io = some server') : P server'.model.runtime := by
  have hreceived : ∀ r, protocolListen cfg (loaderPicker (elfBuild A X)) server io.1 = some r →
      P r.world.model.runtime := by
    intro r hl
    by_cases hopens : Starts .runtime io.1 true
    · exact received_of_starts hP hopens (hreset hopens) hl
    · exact received_of_not_starts hP hopens (hother hopens) hl
  rcases serve_cases hs with ⟨status, rest, hl⟩ | ⟨event, received, rest, handled, hl, hh, rfl⟩
  · exact hreceived _ hl
  · exact operates_stable hP (handleProtocolEvent_operates hh) (hreceived _ hl)

theorem handleProtocolEvent_returns {event : ProtocolEvent} (ht : event.messageType = .runtime)
    (server : Server cfg (Elf E Z)) (tx : Tx) :
    ∃ handled, handleProtocolEvent checksum (elfBuild A X) event server tx = some handled := by
  have hcallback : ∃ answer, msgCallback (elfBuild A X) event server .runtime = some answer ∧
      answer.payloadSize = 0 := by
    simp only [msgCallback, runtimeCallback, elfBuild, validateHeader_eq ht]
    split
    · exact ⟨_, rfl, rfl⟩
    · exact ⟨_, rfl, rfl⟩
  obtain ⟨answer, hanswer, hsize⟩ := hcallback
  have hle : answer.payloadSize ≤ cfg.responsePayloadSize := hsize ▸ Nat.zero_le _
  rw [← ht] at hanswer
  simp only [handleProtocolEvent, hanswer, if_pos hle]
  cases event.isRequest with
  | false => exact ⟨_, rfl⟩
  | true => exact ⟨_, rfl⟩

/-- A round with a runtime always comes to its end. -/
theorem serveRound_returns (hopens : Starts .runtime io.1 true) :
    ∃ server', serveRound checksum (elfBuild A X) server io = some server' := by
  obtain ⟨hdr, rest, hrx, ho, hp⟩ := hopens
  have hldr : loaderPicker (elfBuild A X) server .runtime =
    some ((msgLoaderLlext A).lift Server.runtimeLens) := rfl
  have hl := protocolListen_payload cfg (loaderPicker (elfBuild A X)) ho hp hldr rest
  rw [serveRound, serve, waitForProtocolEvent, hrx, hl]
  -- The reset fails, or the reception does, or the event is handled.
  by_cases hreset : (((msgLoaderLlext A).lift Server.runtimeLens).reset server).1 = statusOk
  swap
  · rw [if_pos hreset]
    exact ⟨_, rfl⟩
  rw [if_neg (not_not_intro hreset)]
  rcases receiveMessages cfg ((msgLoaderLlext A).lift Server.runtimeLens) hdr
    (((msgLoaderLlext A).lift Server.runtimeLens).reset server).2 rest with ⟨status, received, left⟩
  by_cases hstatus : status = statusOk
  · simp only [hstatus, ne_eq, not_true_eq_false, if_false]
    obtain ⟨handled, hh⟩ : ∃ handled, handleProtocolEvent checksum (elfBuild A X)
        (eventOf cfg hdr .runtime (some ((msgLoaderLlext A).lift Server.runtimeLens)) received)
        received io.2 = some handled :=
      handleProtocolEvent_returns rfl received io.2
    exact ⟨_, congrArg (Option.map Handled.server) hh⟩
  · simp only [hstatus, ne_eq, not_false_eq_true, if_true]
    exact ⟨_, rfl⟩

/-- The condition on a round: where a runtime with a payload comes, no extension is loaded from a block
of the heap. -/
def NoImage (server : Server cfg (Elf E Z)) (io : Rx × Tx) : Prop :=
  Starts .runtime io.1 true → server.model.runtime.heap.image = none

/-- A round keeps the invariant exactly if it meets the condition. -/
theorem serveRound_kept_iff (h : Settled server.model.runtime ∧ ImageKept server.model.runtime) :
    (∀ server', serveRound checksum (elfBuild A X) server io = some server' →
      Settled server'.model.runtime ∧ ImageKept server'.model.runtime) ↔ NoImage server io := by
  constructor
  · intro hall hopens
    obtain ⟨server', hs⟩ : ∃ server', serveRound checksum (elfBuild A X) server io = some server' :=
      serveRound_returns hopens
    by_contra himage
    -- The block was freed too early, and this is not forgotten.
    refine serveRound_stable lost_stable (fun hother => absurd hopens hother) (fun _ hkept => ?_) hs
      (hall server' hs).2
    exact himage ((resetRuntime_imageKept_iff h.1 h.2).mp hkept)
  · intro hfree server' hs
    refine serveRound_stable kept_stable (fun _ => h) (fun hopens => ?_) hs
    exact ⟨h.1.resetRuntime, (resetRuntime_imageKept_iff h.1 h.2).mpr (hfree hopens)⟩

theorem serveRound_settled (h : Settled server.model.runtime)
    (hs : serveRound checksum (elfBuild A X) server io = some server') :
    Settled server'.model.runtime :=
  serveRound_stable settled_stable (fun _ => h) (fun _ => h.resetRuntime) hs

/-! ### Runs -/

/-- The server before the first round. -/
def elfServer (A : LlextApi Z) (X : Extension E) (cfg : Config) (protocolInit : Status) (ext : E)
    (zephyr : Z) : Server cfg (Elf E Z) :=
  (initServer (elfBuild A X) protocolInit (bootServer cfg (Elf.boot ext zephyr))).2

theorem elfServer_runtime (protocolInit : Status) (ext : E) (zephyr : Z) :
    (elfServer A X cfg protocolInit ext zephyr).model.runtime = Elf.boot ext zephyr := by
  rw [elfServer, initServer_llext rfl]
  rfl

theorem boot_settled (ext : E) (zephyr : Z) : Settled (Elf.boot ext zephyr) := by
  have hnone : ∀ b, ¬ LlextHeap.boot.Allocated b := fun b hb => Nat.not_lt_zero b hb.1
  refine ⟨rfl, fun _ => rfl, fun b hb => absurd hb List.not_mem_nil, fun b hb => (nomatch hb),
    List.mem_singleton_self _, ?_⟩
  intro heap hheap
  rw [List.mem_singleton.mp hheap]
  exact ⟨List.nodup_nil, fun b hb => absurd hb (hnone b)⟩

theorem boot_imageKept (ext : E) (zephyr : Z) : ImageKept (Elf.boot ext zephyr) := by
  intro heap hheap b hb
  rw [List.mem_singleton.mp hheap] at hb
  cases hb

/-- In every state that a run reaches, each block was freed at most once, and was referenced by
`ldr->addr` until then. -/
theorem reaches_settled {protocolInit : Status} {ext : E} {zephyr : Z} {ios : List (Rx × Tx)}
    (h : Reaches (serveRound checksum (elfBuild A X)) (elfServer A X cfg protocolInit ext zephyr) ios
      server) : Settled server.model.runtime := by
  have hstart : Settled (elfServer A X cfg protocolInit ext zephyr).model.runtime := by
    rw [elfServer_runtime]
    exact boot_settled ext zephyr
  have hstep : ∀ (s : Server cfg (Elf E Z)) (io : Rx × Tx) (s' : Server cfg (Elf E Z)),
      Settled s.model.runtime → serveRound checksum (elfBuild A X) s io = some s' →
        Settled s'.model.runtime := by
    intro s io s' hi hs
    exact serveRound_settled hi hs
  exact h.invariant_always hstep hstart

/-- Exactly when, on the way to every state that a run reaches, each block was freed at most once and
referenced until then, and the block that a loaded extension is in was allocated: the loader frees its
block before it unloads the extension, so no runtime may come while one is loaded. -/
theorem reaches_imageAllocated_iff (checksum : ℕ → BitVec 8) (A : LlextApi Z) (X : Extension E)
    (cfg : Config) (protocolInit : Status) (ext : E) (zephyr : Z) (ios : List (Rx × Tx)) :
    (∀ p server, p <+: ios →
      Reaches (serveRound checksum (elfBuild A X)) (elfServer A X cfg protocolInit ext zephyr) p server →
      ∀ heap ∈ server.model.runtime.passed, heap.Owned ∧ heap.ImageAllocated) ↔
    Guarded (serveRound checksum (elfBuild A X)) NoImage (elfServer A X cfg protocolInit ext zephyr)
      ios := by
  have hstart : Settled (elfServer A X cfg protocolInit ext zephyr).model.runtime ∧
      ImageKept (elfServer A X cfg protocolInit ext zephyr).model.runtime := by
    rw [elfServer_runtime]
    exact ⟨boot_settled ext zephyr, boot_imageKept ext zephyr⟩
  have hstep : ∀ (server : Server cfg (Elf E Z)) (io : Rx × Tx),
      Settled server.model.runtime ∧ ImageKept server.model.runtime →
        ((∀ server', serveRound checksum (elfBuild A X) server io = some server' →
          Settled server'.model.runtime ∧ ImageKept server'.model.runtime) ↔ NoImage server io) := by
    intro server io h
    exact serveRound_kept_iff h
  rw [← always_iff_guarded hstep hstart]
  constructor
  · intro hall p server hp hreach
    exact ⟨reaches_settled hreach, fun heap hheap => (hall p server hp hreach heap hheap).2⟩
  · intro hall p server hp hreach heap hheap
    obtain ⟨hsettled, hkept⟩ := hall p server hp hreach
    exact ⟨hsettled.owned heap hheap, hkept heap hheap⟩

end

/-- A runtime of which only the size comes, and one that comes whole and is loaded from the next block;
after that, none. -/
def runtimeOnce : List (Rx × Tx) :=
  rounds [runtimeRequest.hdr.encode ++ [1, 0, 0, 0], wires [runtimeRequest], wires [iospecRequest],
    wires [emptyRequest .process], wires [emptyRequest .stats]]

theorem reaches_imageAllocated_once :
    ∃ server, Reaches (serveRound (fun _ => 0) (elfBuild roomyZephyr idleExtension))
        (elfServer roomyZephyr idleExtension smallConfig statusOk 0 ()) runtimeOnce server ∧
      server.model.runtime.heap = ⟨2, [0], some 1, some 1⟩ ∧
      ∀ heap ∈ server.model.runtime.passed, heap.Owned ∧ heap.ImageAllocated := by
  let p (server : Server smallConfig (Elf ℕ Unit)) : Bool :=
    decide (server.model.runtime.heap = ⟨2, [0], some 1, some 1⟩)
  have hrun : (run (serveRound (fun _ => 0) (elfBuild roomyZephyr idleExtension))
      (elfServer roomyZephyr idleExtension smallConfig statusOk 0 ()) runtimeOnce).any p = true := by
    decide +kernel
  have hchecks : checks (serveRound (fun _ => 0) (elfBuild roomyZephyr idleExtension))
      (fun server io => decide (server.model.runtime.heap.image = none ∨
        openedType io.1 ≠ some .runtime))
      (elfServer roomyZephyr idleExtension smallConfig statusOk 0 ()) runtimeOnce = true := by
    decide +kernel
  obtain ⟨server, hreach, hp⟩ := exists_reaches hrun
  refine ⟨server, hreach, of_decide_eq_true hp, ?_⟩
  refine (reaches_imageAllocated_iff (fun _ => 0) roomyZephyr idleExtension smallConfig statusOk 0 ()
    runtimeOnce).mpr ?_ runtimeOnce server (List.prefix_refl _) hreach
  apply guarded_of_checks _ hchecks
  intro server io hcheck hopens
  exact (of_decide_eq_true hcheck).resolve_right (not_not_intro (openedType_of_starts hopens))

/-- A Zephyr that does not tear extensions down. -/
def stubbornZephyr : LlextApi Unit :=
  {roomyZephyr with llextTeardown := fun z => (Module.loaders.statusError, z)}

theorem not_imageAllocated {heap : LlextHeap} {b : ℕ} (himage : heap.image = some b)
    (hfreed : b ∈ heap.freed) : ¬ heap.ImageAllocated := by
  intro h
  exact (h b himage).2 hfreed

/-- A second runtime comes while one is loaded: the block is freed before the extension is unloaded. One
that is not torn down stays loaded, in a block that is free. -/
theorem image_freed :
    (∃ server, Reaches (serveRound (fun _ => 0) (elfBuild roomyZephyr idleExtension))
        (elfServer roomyZephyr idleExtension smallConfig statusOk 0 ())
        (rounds [wires [runtimeRequest], wires [runtimeRequest]]) server ∧
      ⟨1, [0], some 0, some 0⟩ ∈ server.model.runtime.passed ∧
      ¬ ∀ heap ∈ server.model.runtime.passed, heap.Owned ∧ heap.ImageAllocated) ∧
    ∃ server, Reaches (serveRound (fun _ => 0) (elfBuild stubbornZephyr idleExtension))
        (elfServer stubbornZephyr idleExtension smallConfig statusOk 0 ())
        (rounds [wires [runtimeRequest], wires [runtimeRequest]]) server ∧
      server.model.runtime.heap = ⟨1, [0], none, some 0⟩ ∧
      ¬ server.model.runtime.heap.ImageAllocated := by
  constructor
  · let p (server : Server smallConfig (Elf ℕ Unit)) : Bool :=
      decide (⟨1, [0], some 0, some 0⟩ ∈ server.model.runtime.passed)
    have hrun : (run (serveRound (fun _ => 0) (elfBuild roomyZephyr idleExtension))
        (elfServer roomyZephyr idleExtension smallConfig statusOk 0 ())
        (rounds [wires [runtimeRequest], wires [runtimeRequest]])).any p = true := by
      decide +kernel
    obtain ⟨server, hreach, hp⟩ := exists_reaches hrun
    have hmem := of_decide_eq_true hp
    refine ⟨server, hreach, hmem, fun hall => ?_⟩
    exact not_imageAllocated rfl (List.mem_singleton_self 0) (hall _ hmem).2
  · let p (server : Server smallConfig (Elf ℕ Unit)) : Bool :=
      decide (server.model.runtime.heap = ⟨1, [0], none, some 0⟩)
    have hrun : (run (serveRound (fun _ => 0) (elfBuild stubbornZephyr idleExtension))
        (elfServer stubbornZephyr idleExtension smallConfig statusOk 0 ())
        (rounds [wires [runtimeRequest], wires [runtimeRequest]])).any p = true := by
      decide +kernel
    obtain ⟨server, hreach, hp⟩ := exists_reaches hrun
    have hheap := of_decide_eq_true hp
    refine ⟨server, hreach, hheap, ?_⟩
    rw [hheap]
    exact not_imageAllocated rfl (List.mem_singleton_self 0)

end Elf

end KenningRuntime
