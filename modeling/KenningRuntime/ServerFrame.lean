import KenningRuntime.InferenceServer
import KenningRuntime.LoaderSimulation
import KenningRuntime.ModelFrame
import KenningRuntime.Library.Transition

/-! What the rounds of the server can do to the state of the model layer and to the specification. -/
namespace KenningRuntime
open Transition

section
variable {cfg : Config} {S : Type} {B : Build S} {server server' : Server cfg S}

theorem validateHeader_eq {t : MessageType} {event : ProtocolEvent} (h : event.messageType = t)
    (callback : Option (Answer cfg S)) : validateHeader t event server callback = callback :=
  if_neg (not_not_intro h.symm)

theorem pingCallback_answer (event : ProtocolEvent) (server : Server cfg S) :
    ∃ status connected, pingCallback event server =
      some ⟨status, 0, {server with clientConnected := connected}⟩ := by
  simp only [pingCallback]
  generalize (if event.flags.fail = true then false else server.clientConnected) = connected
  cases event.flags.success <;> cases connected <;> exact ⟨_, _, rfl⟩

/-- What the callback for an event does to the model layer: it calls one function of it, or loads a
runtime and then calls `model_init`, or does nothing. -/
inductive Operates (B : Build S) (event : ProtocolEvent) (m : Model S) : Model S → Prop
  | data {status : Status} {m' : Model S} : event.messageType = .data →
      m.modelLoadInputFromLoader B.runtime event.payloadSize = some (status, m') →
      Operates B event m m'
  | model : event.messageType = .model → Operates B event m (m.modelLoadWeightsFromLoader B.runtime).2
  | process : event.messageType = .process → Operates B event m (m.modelRunBench B.runtime).2
  | output {n : ℕ} {buffer : Buffer n} {r : Model.Retrieved S n} : event.messageType = .output →
      m.modelGetOutput B.runtime n buffer 0 = some r → Operates B event m r.model
  | stats {n : ℕ} (buffer : Buffer n) : event.messageType = .stats →
      Operates B event m (m.modelGetStatistics B.runtime n buffer 0).model
  | iospec {status : Status} {m' : Model S} : event.messageType = .iospec →
      m.modelLoadStructFromLoader = some (status, m') → Operates B event m m'
  | runtimeLoaded {llext : LlextSupport S} : event.messageType = .runtime → B.llext = some llext →
      (llext.loadRuntime event.payloadSize m.runtime).1 = statusOk →
      Operates B event m (({m with
        runtime := (llext.loadRuntime event.payloadSize m.runtime).2 } : Model S).modelInit B.runtime).2
  | runtimeFailed {llext : LlextSupport S} : event.messageType = .runtime → B.llext = some llext →
      (llext.loadRuntime event.payloadSize m.runtime).1 ≠ statusOk →
      Operates B event m {m with runtime := (llext.loadRuntime event.payloadSize m.runtime).2}
  | nothing : (event.messageType = .runtime → B.llext = none) → event.messageType ≠ .model →
      Operates B event m m

theorem runtimeCallback_operates {event : ProtocolEvent} (ht : event.messageType = .runtime)
    {answer : Answer cfg S} (h : runtimeCallback B event server = some answer) :
    Operates B event server.model answer.server.model := by
  unfold runtimeCallback at h
  split at h
  · next hnone =>
    cases h
    apply Operates.nothing
    · exact fun _ => hnone
    · rw [ht]
      decide
  next llext hllext =>
    rw [validateHeader_eq ht] at h
    by_cases hload : (llext.loadRuntime event.payloadSize server.model.runtime).1 = statusOk
    · simp only [hload, if_true] at h
      cases h
      exact Operates.runtimeLoaded ht hllext hload
    · simp only [hload, if_false] at h
      cases h
      exact Operates.runtimeFailed ht hllext hload

theorem msgCallback_operates {event : ProtocolEvent} {answer : Answer cfg S}
    (h : msgCallback B event server event.messageType = some answer) :
    Operates B event server.model answer.server.model := by
  cases ht : event.messageType with
  | ping =>
    rw [ht] at h
    obtain ⟨status, connected, hping⟩ := pingCallback_answer event server
    cases hping.symm.trans h
    apply Operates.nothing
    · exact fun hr => absurd (ht.symm.trans hr) (by decide)
    · rw [ht]
      decide
  | data =>
    rw [ht] at h
    simp only [msgCallback, dataCallback, validateHeader_eq ht] at h
    split at h
    · cases h
    · next hload =>
      cases h
      exact Operates.data ht hload
  | model =>
    rw [ht] at h
    simp only [msgCallback, modelCallback, validateHeader_eq ht] at h
    cases h
    exact Operates.model ht
  | process =>
    rw [ht] at h
    simp only [msgCallback, processCallback, validateHeader_eq ht] at h
    cases h
    exact Operates.process ht
  | output =>
    rw [ht] at h
    simp only [msgCallback, outputCallback, validateHeader_eq ht] at h
    split at h
    · cases h
    · next hget =>
      cases h
      exact Operates.output ht hget
  | stats =>
    rw [ht] at h
    simp only [msgCallback, statsCallback, validateHeader_eq ht] at h
    cases h
    exact Operates.stats _ ht
  | iospec =>
    rw [ht] at h
    simp only [msgCallback, iospecCallback, validateHeader_eq ht] at h
    split at h
    · cases h
    · next hload =>
      cases h
      exact Operates.iospec ht hload
  | runtime =>
    rw [ht] at h
    exact runtimeCallback_operates ht h
  | status | traceData | optimizers | optimizeModel | unoptimizedModel | logs =>
    rw [ht] at h
    cases h
    apply Operates.nothing
    · exact fun hr => absurd (ht.symm.trans hr) (by decide)
    · rw [ht]
      decide

theorem handleProtocolEvent_operates {checksum : ℕ → BitVec 8} {event : ProtocolEvent} {tx : Tx}
    {handled : Handled cfg S} (h : handleProtocolEvent checksum B event server tx = some handled) :
    Operates B event server.model handled.server.model := by
  unfold handleProtocolEvent at h
  split at h
  · cases h
  next hanswer =>
    have hoperates := msgCallback_operates hanswer
    split at h
    · split at h
      · cases h
        exact hoperates
      · cases h
    · cases h
      exact hoperates

theorem Operates.keeps {event : ProtocolEvent} {m m' : Model S} (h : Operates B event m m') :
    m.Keeps m' := by
  cases h with
  | data _ hload => exact Model.modelLoadInputFromLoader_keeps B.runtime hload
  | model => exact Model.modelLoadWeightsFromLoader_keeps B.runtime
  | process => exact Model.runWith_keeps B.runtime.runtimeRunModelBench
  | output _ hget => exact (Model.modelGetOutput_asks B.runtime hget).keeps
  | stats buffer => exact (Model.modelGetStatistics_asks B.runtime _ buffer 0).keeps
  | iospec _ hload => exact Model.modelLoadStructFromLoader_keeps hload
  | runtimeLoaded => exact (Model.Keeps.of_runtime _).trans (Model.modelInit_keeps B.runtime)
  | runtimeFailed => exact Model.Keeps.of_runtime _
  | nothing => exact Model.Keeps.refl m

/-- What the functions of the runtime keep, every event keeps, but for one that loads a runtime. -/
theorem Operates.preserves {P : S → Prop} (hR : B.runtime.Preserves P) {event : ProtocolEvent}
    (ht : event.messageType ≠ .runtime) {m m' : Model S} (h : Operates B event m m')
    (hP : P m.runtime) : P m'.runtime := by
  cases h with
  | data _ hload =>
    exact (Model.modelLoadInputFromLoader_calls B.runtime hload).preserves hR.runtimeInitInput hP
  | model => exact (Model.modelLoadWeightsFromLoader_calls B.runtime).preserves hR.runtimeInitWeights hP
  | process =>
    exact (Model.runWith_calls B.runtime.runtimeRunModelBench).preserves hR.runtimeRunModelBench hP
  | output _ hget =>
    exact (Model.modelGetOutput_asks B.runtime hget).preserves (hR.runtimeGetModelOutput _ _) hP
  | stats buffer =>
    exact (Model.modelGetStatistics_asks B.runtime _ buffer 0).preserves
      (hR.runtimeGetStatistics _ buffer 0) hP
  | iospec _ hload =>
    rw [Model.modelLoadStructFromLoader_runtime hload]
    exact hP
  | runtimeLoaded htype => exact absurd htype ht
  | runtimeFailed htype => exact absurd htype ht
  | nothing => exact hP

/-- The loader of a message type: the one that writes to the specification, one that the runtime has
put into its table, or the one for the runtime itself. -/
inductive PickedLoader (B : Build S) (server : Server cfg S) :
    MessageType → MsgLoader (Server cfg S) → Prop
  | iospec : PickedLoader B server .iospec ((msgLoaderBuf modelSpecSize).lift Server.iospecLens)
  | data {ldr : MsgLoader S} : B.runtime.dataLoader server.model.runtime = some ldr →
      PickedLoader B server .data (ldr.lift Server.runtimeLens)
  | model {ldr : MsgLoader S} : B.runtime.modelLoader server.model.runtime = some ldr →
      PickedLoader B server .model (ldr.lift Server.runtimeLens)
  | runtime {llext : LlextSupport S} : B.llext = some llext →
      PickedLoader B server .runtime (llext.loader.lift Server.runtimeLens)

theorem loaderPicker_cases {t : MessageType} {ldr : MsgLoader (Server cfg S)}
    (h : loaderPicker B server t = some ldr) : PickedLoader B server t ldr := by
  cases t with
  | iospec =>
    have h : (if server.model.iospecPrepared then
        some ((msgLoaderBuf modelSpecSize).lift Server.iospecLens) else none) = some ldr := h
    split at h
    · cases h
      exact .iospec
    · cases h
  | data =>
    simp only [loaderPicker, msgLdrMap, ldrTable0, ldrTable1, Option.or_none] at h
    obtain ⟨ldr', hldr', rfl⟩ := Option.map_eq_some_iff.mp h
    exact .data hldr'
  | model =>
    simp only [loaderPicker, msgLdrMap, ldrTable0, ldrTable1, Option.or_none] at h
    obtain ⟨ldr', hldr', rfl⟩ := Option.map_eq_some_iff.mp h
    exact .model hldr'
  | runtime =>
    simp only [loaderPicker, msgLdrMap, ldrTable0, ldrTable1, Option.none_or] at h
    obtain ⟨llext, hllext, rfl⟩ := Option.map_eq_some_iff.mp h
    exact .runtime hllext
  | ping | status | process | output | stats | traceData | optimizers | optimizeModel
  | unoptimizedModel | logs => cases h

/-- The loaders that belong to the runtime. -/
inductive RuntimeLoader (B : Build S) (s : S) : MessageType → MsgLoader S → Prop
  | data {ldr : MsgLoader S} : B.runtime.dataLoader s = some ldr → RuntimeLoader B s .data ldr
  | model {ldr : MsgLoader S} : B.runtime.modelLoader s = some ldr → RuntimeLoader B s .model ldr
  | runtime {llext : LlextSupport S} : B.llext = some llext → RuntimeLoader B s .runtime llext.loader

/-- A reception writes to the specification or to the data of the runtime, each through its loader. -/
theorem protocolListen_wrote {rx : Rx} {r : ListenResult (Server cfg S)}
    (h : protocolListen cfg (loaderPicker B) server rx = some r) :
    r.world = server ∨
      (Starts .iospec rx true ∧ ∃ iospec, r.world = Server.iospecLens.set server iospec) ∨
      ∃ t ldr s, Starts t rx true ∧ RuntimeLoader B server.model.runtime t ldr ∧
        Wrote cfg ldr server.model.runtime s ∧ r.world = Server.runtimeLens.set server s := by
  rcases protocolListen_world cfg h with hw | ⟨hdr, t, rest, ldr, hrx, hopens, hp, hldr, hw⟩
  · exact Or.inl hw
  have hstarts : Starts t rx true := ⟨hdr, rest, hrx, hopens, hp⟩
  have hruntime (ldr' : MsgLoader S) (hldr' : RuntimeLoader B server.model.runtime t ldr')
      (hw : r.world = ((ldr'.lift Server.runtimeLens).reset server).2 ∨
        r.world = (receiveMessages cfg (ldr'.lift Server.runtimeLens) hdr
          ((ldr'.lift Server.runtimeLens).reset server).2 rest).2.1) :
      ∃ t ldr s, Starts t rx true ∧ RuntimeLoader B server.model.runtime t ldr ∧
        Wrote cfg ldr server.model.runtime s ∧ r.world = Server.runtimeLens.set server s := by
    rcases protocolListen_component cfg hw with hw | hw
    · exact ⟨t, ldr', _, hstarts, hldr', .reset, hw⟩
    · exact ⟨t, ldr', _, hstarts, hldr', .saved hdr rest, hw⟩
  apply Or.inr
  cases loaderPicker_cases hldr with
  | iospec =>
    -- Only this loader writes to the specification.
    rcases protocolListen_component cfg hw with hw | hw
    · exact Or.inl ⟨hstarts, _, hw⟩
    · exact Or.inl ⟨hstarts, _, hw⟩
  | data hdata => exact Or.inr (hruntime _ (.data hdata) hw)
  | model hmodel => exact Or.inr (hruntime _ (.model hmodel) hw)
  | runtime hllext => exact Or.inr (hruntime _ (.runtime hllext) hw)

/-- A reception changes the data of the runtime, or else it is an IOSPEC event with a payload and
changes the specification. -/
theorem protocolListen_server {rx : Rx} {r : ListenResult (Server cfg S)}
    (h : protocolListen cfg (loaderPicker B) server rx = some r) :
    (∃ s, r.world = Server.runtimeLens.set server s) ∨
      (Starts .iospec rx true ∧ ∃ iospec, r.world = Server.iospecLens.set server iospec) := by
  rcases protocolListen_wrote h with hw | hiospec | ⟨t, ldr, s, -, -, -, hw⟩
  · exact Or.inl ⟨server.model.runtime, hw⟩
  · exact Or.inr hiospec
  · exact Or.inl ⟨s, hw⟩

/-- A round receives an event and handles it, or fails to receive one. -/
theorem serve_cases {checksum : ℕ → BitVec 8} {rx : Rx} {tx : Tx}
    (h : serve checksum B server rx tx = some server') :
    (∃ status rest, protocolListen cfg (loaderPicker B) server rx =
        some ⟨.error status, server', rest⟩) ∨
      ∃ event received rest handled, protocolListen cfg (loaderPicker B) server rx =
          some ⟨.ok event, received, rest⟩ ∧
        handleProtocolEvent checksum B event received tx = some handled ∧
        server' = handled.server := by
  unfold serve waitForProtocolEvent at h
  rcases hl : protocolListen cfg (loaderPicker B) server rx with _ | ⟨status | event, received, rest⟩
  · rw [hl] at h
    cases h
  · rw [hl] at h
    cases h
    exact Or.inl ⟨_, _, rfl⟩
  · rw [hl] at h
    obtain ⟨handled, hh, rfl⟩ := Option.map_eq_some_iff.mp h
    exact Or.inr ⟨_, _, _, handled, rfl, hh, rfl⟩

/-- After the reception, a round keeps the specification. -/
theorem serve_keeps {checksum : ℕ → BitVec 8} {rx : Rx} {tx : Tx}
    (h : serve checksum B server rx tx = some server') :
    ∃ event received rest,
      protocolListen cfg (loaderPicker B) server rx = some ⟨event, received, rest⟩ ∧
      received.model.Keeps server'.model := by
  rcases serve_cases h with ⟨status, rest, hl⟩ | ⟨event, received, rest, handled, hl, hh, rfl⟩
  · exact ⟨_, _, _, hl, Model.Keeps.refl _⟩
  · exact ⟨_, _, _, hl, (handleProtocolEvent_operates hh).keeps⟩

/-! ### The IOSPEC loader is there once the server is initialized -/

/-- From `MODEL_STATE_INITIALIZED` on, `g_ldr_tables[0]` holds the IOSPEC loader. -/
def Model.Prepared (m : Model S) : Prop :=
  ModelState.initialized ≤ m.modelState → m.iospecPrepared = true

theorem Model.Prepared.keeps {m m' : Model S} (h : m.Prepared) (hk : m.Keeps m') : m'.Prepared := by
  intro hi
  rcases hk.initialized hi with hi | hp
  · exact hk.prepared (h hi)
  · exact hp

theorem Model.Prepared.of_reception {m : Model S} (h : m.Prepared) (s : S)
    (iospec : BufLoader modelSpecSize) : ({m with runtime := s, iospec} : Model S).Prepared := h

theorem serverStep_prepared {checksum : ℕ → BitVec 8} {l : ServerStep} (h : server.model.Prepared)
    (hs : serverStep checksum B server l = some server') : server'.model.Prepared := by
  cases l with
  | serve rx tx =>
    obtain ⟨event, received, rest, hl, hk⟩ := serve_keeps hs
    rcases protocolListen_server hl with ⟨s, hw⟩ | ⟨-, iospec, hw⟩
    · obtain rfl : received = _ := hw
      exact (h.of_reception s server.model.iospec).keeps hk
    · obtain rfl : received = _ := hw
      exact (h.of_reception server.model.runtime iospec).keeps hk
  | call c =>
    obtain ⟨model, hm, rfl⟩ := Option.map_eq_some_iff.mp hs
    rcases Model.modelStep_keeps B.runtime hm with hk | ⟨d, -, hk⟩
    · exact h.keeps hk
    · exact (h.of_reception server.model.runtime _).keeps hk

/-- With `CONFIG_LLEXT` nothing is initialized before a runtime is loaded. -/
theorem initServer_llext {llext : LlextSupport S} (h : B.llext = some llext) (protocolInit : Status)
    (server : Server cfg S) : (initServer B protocolInit server).2 = server := by
  rw [initServer, h]
  split <;> rfl

theorem initServer_keeps (protocolInit : Status) :
    server.model.Keeps (initServer B protocolInit server).2.model := by
  rw [initServer]
  split
  · exact Model.Keeps.refl _
  split
  · exact Model.Keeps.refl _
  · exact Model.modelInit_keeps B.runtime

theorem reaches_prepared {checksum : ℕ → BitVec 8} {s : S} {protocolInit : Status}
    {ls : List ServerStep}
    (h : Reaches (serverStep checksum B) (initServer B protocolInit (bootServer cfg s)).2 ls server) :
    server.model.Prepared := by
  have hboot : (bootServer cfg s).model.Prepared := fun hi =>
    absurd hi (by show ¬ ModelState.initialized ≤ ModelState.uninitialized; decide)
  exact h.invariant_always (fun _ _ _ hp hs => serverStep_prepared hp hs)
    (hboot.keeps (initServer_keeps protocolInit))

end

end KenningRuntime
