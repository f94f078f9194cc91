import KenningRuntime.History
import KenningRuntime.ServerFrame
import KenningRuntime.SpecInvariant

/-! Through which pointers `protocol_listen` uses the loader that it is given. -/
namespace KenningRuntime
open ByteSource

/-- A call of the loader, or a read of a field of it, and whether the pointer is null. -/
inductive LoaderUse where
  | reset (null : Bool)
  | save (null : Bool)
  | written (null : Bool)
deriving DecidableEq, Repr

def LoaderUse.null : LoaderUse → Bool
  | reset null => null
  | save null => null
  | written null => null

section
variable (cfg : Config) {W : Type} (loaderCallback : W → MessageType → Option (MsgLoader W))

/-- `protocol_listen` with a record of how it uses the loader. `receive_messages` stands for the calls
of `save` in it; a call through a null pointer is the last use. -/
def protocolListenUses (w : W) (rx : Rx) : Option (ListenResult W) × List LoaderUse :=
  match receiveMessageHeader rx with
  | (.error status, rx) => (some ⟨.error status, w, rx⟩, [])
  | (.ok header, rx) =>
    if header.flowControlFlags ≠ flowControlTransmission ∧
        header.flowControlFlags ≠ flowControlRequest then
      (some ⟨.error kenningProtocolStatusFlowControlError, w,
        protocolSkipData header.payloadSize.toNat rx⟩, [])
    else if header.flags.first = false then
      (some ⟨.error kenningProtocolStatusFlowControlError, w,
        protocolSkipData header.payloadSize.toNat rx⟩, [])
    else
      match MessageType.ofNumber? header.messageType.toNat with
      | none => (some ⟨.error kenningProtocolStatusInvalidMessageType, w,
          protocolSkipData header.payloadSize.toNat rx⟩, [])
      | some messageType =>
        let ldr := loaderCallback w messageType
        if header.flags.hasPayload then
          match ldr with
          -- Nothing stands between the callback and this call.
          | none => (none, [.reset true])
          | some ldr =>
            match ldr.reset w with
            | (loaderStatus, w) =>
              if loaderStatus ≠ statusOk then
                (some ⟨.error loaderStatus, w, protocolSkipData header.payloadSize.toNat rx⟩,
                  [.reset false])
              else
                match receiveMessages cfg ldr header w rx with
                | (status, w, rx) =>
                  (if status ≠ statusOk then some ⟨.error status, w, rx⟩
                    else some ⟨.ok (eventOf cfg header messageType ldr w), w, rx⟩,
                    [.reset false, .save false, .written false])
        else (some ⟨.ok (eventOf cfg header messageType ldr w), w, rx⟩, [.written ldr.isNone])

/-- The record changes nothing. -/
theorem protocolListenUses_fst (w : W) (rx : Rx) :
    (protocolListenUses cfg loaderCallback w rx).1 = protocolListen cfg loaderCallback w rx := by
  rw [protocolListenUses, protocolListen]
  rcases receiveMessageHeader rx with ⟨status | header, rest⟩
  · rfl
  simp only
  split
  · rfl
  split
  · rfl
  rcases MessageType.ofNumber? header.messageType.toNat with _ | messageType
  · rfl
  simp only
  split
  swap
  · rfl
  rcases loaderCallback w messageType with _ | ldr
  · rfl
  simp only
  split
  · rfl
  · rfl

variable {hdr : MessageHdr} {t : MessageType} {w : W}

/-- What an opening message makes of the loader of its type. -/
theorem protocolListenUses_opened (h : Opens hdr t) (rx : Rx) :
    (protocolListenUses cfg loaderCallback w (bytes hdr.encode ++ rx)).2 =
      if hdr.flags.hasPayload then
        match loaderCallback w t with
        | none => [.reset true]
        | some ldr =>
          if (ldr.reset w).1 ≠ statusOk then [.reset false]
          else [.reset false, .save false, .written false]
      else [.written (loaderCallback w t).isNone] := by
  have ht : MessageType.ofNumber? hdr.messageType.toNat = some t := h.messageType
  rw [protocolListenUses, receiveMessageHeader_encode]
  simp only [if_neg h.flowControl_guard, h.first, Bool.true_eq_false, if_false, ht]
  split
  swap
  · rfl
  rcases loaderCallback w t with _ | ldr
  · rfl
  simp only
  split
  · rfl
  · rfl

/-- The loader is used only if there is one; a payload without one is drained, and rejected. -/
structure UsesLoader (hdr : MessageHdr) (t : MessageType) (w : W) (rx : Rx) : Prop where
  uses : ∀ u ∈ (protocolListenUses cfg loaderCallback w (bytes hdr.encode ++ rx)).2, u.null = false
  drained : loaderCallback w t = none → hdr.flags.hasPayload = true →
    ∃ status, status ≠ statusOk ∧ (protocolListenUses cfg loaderCallback w
      (bytes hdr.encode ++ rx)).1 = some ⟨.error status, w, protocolSkipData hdr.payloadSize.toNat rx⟩

theorem usesLoader_iff (h : Opens hdr t) (rx : Rx) :
    UsesLoader cfg loaderCallback hdr t w rx ↔ (loaderCallback w t).isSome = true := by
  have huses := protocolListenUses_opened cfg loaderCallback (w := w) h rx
  rcases hldr : loaderCallback w t with _ | ldr
  · -- The null pointer is used on both paths.
    rw [hldr] at huses
    refine iff_of_false ?_ Bool.false_ne_true
    intro hall
    have hnull := hall.uses
    rw [huses] at hnull
    by_cases hp : hdr.flags.hasPayload = true
    · rw [if_pos hp] at hnull
      cases hnull _ (List.mem_singleton_self _)
    · rw [if_neg hp] at hnull
      cases hnull _ (List.mem_singleton_self _)
  · rw [hldr] at huses
    refine iff_of_true ⟨?_, ?_⟩ rfl
    · rw [huses]
      split
      · simp only
        split <;> decide
      · intro u hu
        rw [List.mem_singleton.mp hu]
        rfl
    · intro hnone
      rw [hldr] at hnone
      cases hnone

end

section
variable {cfg : Config} {S : Type} (B : Build S)

/-- The type of the message is mapped to a type of loaders, and one of the tables has such a loader. -/
def SlotPrepared (server : Server cfg S) (t : MessageType) : Prop :=
  msgLdrMap t ≠ .none ∧
    ((ldrTable0 B server (msgLdrMap t)).isSome = true ∨
      (ldrTable1 B server (msgLdrMap t)).isSome = true)

theorem loaderPicker_isSome (server : Server cfg S) (t : MessageType) :
    (loaderPicker B server t).isSome = true ↔ SlotPrepared B server t := by
  rw [loaderPicker, Option.isSome_or, Bool.or_eq_true, SlotPrepared, or_comm]
  constructor
  · intro hor
    refine ⟨?_, hor⟩
    intro hnone
    rw [hnone] at hor
    rcases hor with h0 | h1
    · cases h0
    · cases h1
  · exact fun h => h.2

/-- Exactly when the server, in any state, listens to an event without using a null loader. There is no
check of the pointer, so every event of a type without loader uses it. -/
theorem protocolListen_usesLoader_iff {hdr : MessageHdr} {t : MessageType} (hopens : Opens hdr t)
    (server : Server cfg S) (rx : Rx) :
    UsesLoader cfg (loaderPicker B) hdr t server rx ↔ SlotPrepared B server t := by
  rw [usesLoader_iff cfg (loaderPicker B) hopens rx, loaderPicker_isSome]

/-- In every state the server reaches, the specification can be sent from the initialization on. -/
theorem reaches_usesLoader_iospec {checksum : ℕ → BitVec 8} {s : S} {protocolInit : Status}
    {ls : List ServerStep} {server : Server cfg S} {hdr : MessageHdr} (hopens : Opens hdr .iospec)
    (hreach : Transition.Reaches (serverStep checksum B)
      (initServer B protocolInit (bootServer cfg s)).2 ls server)
    (hinit : ModelState.initialized ≤ server.model.modelState) (rx : Rx) :
    UsesLoader cfg (loaderPicker B) hdr .iospec server rx := by
  rw [usesLoader_iff cfg (loaderPicker B) hopens rx, loaderPicker_isSome]
  refine ⟨by decide, Or.inl ?_⟩
  have hprepared := reaches_prepared hreach hinit
  simp only [msgLdrMap, ldrTable0, hprepared, if_true, Option.isSome_some]

end

/-! A server after `init_server`, which a client sends a specification, or a ping. -/

def startedServer : Server smallConfig ℕ := (initServer neverFails statusOk (bootServer smallConfig 0)).2

theorem protocolListen_usesLoader_iospec :
    UsesLoader smallConfig (loaderPicker neverFails) iospecRequest.hdr .iospec startedServer
      (bytes iospecRequest.payload) :=
  (protocolListen_usesLoader_iff neverFails ⟨Or.inr rfl, rfl, rfl⟩ startedServer _).mpr
    ⟨by decide, Or.inl rfl⟩

/-- A ping reads `written` through a null pointer; with a payload `reset` is called through it. -/
theorem ping_uses_null :
    (protocolListenUses smallConfig (loaderPicker neverFails) startedServer
        (bytes (emptyRequest .ping).hdr.encode ++ [])).2 = [.written true] ∧
      (protocolListenUses smallConfig (loaderPicker neverFails) startedServer
        (bytes (requestMessage .ping [1] (by decide)).hdr.encode ++ bytes [1])).2 = [.reset true] ∧
      ¬ UsesLoader smallConfig (loaderPicker neverFails) (emptyRequest .ping).hdr .ping startedServer
        [] := by
  refine ⟨rfl, rfl, ?_⟩
  rw [usesLoader_iff smallConfig (loaderPicker neverFails) ⟨Or.inr rfl, rfl, rfl⟩ []]
  exact Bool.false_ne_true

end KenningRuntime
