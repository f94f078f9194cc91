import KenningRuntime.MessageRun

/-! `protocol_listen` on messages. -/
namespace KenningRuntime
open ByteSource

section
variable (cfg : Config) {W : Type} (loaderCallback : W → MessageType → Option (MsgLoader W))

/-- The event that a message with header `h`, of type `t`, starts, when the loaders are in state `w`
at its end. -/
def eventOf (h : MessageHdr) (t : MessageType) (ldr : Option (MsgLoader W)) (w : W) :
    ProtocolEvent where
  messageType := t
  flags := h.flags
  isRequest := h.isRequest
  payloadSize := loaderWritten cfg ldr w%2^32

/-- `protocol_listen` when message `m` comes next and the messages `ms` follow it. -/
def listenRun (ms : List Message) (m : Message) (w : W) :
    Option (Outcome (Except Status ProtocolEvent) W) :=
  if m.hdr.flowControlFlags ≠ flowControlTransmission ∧
      m.hdr.flowControlFlags ≠ flowControlRequest then
    some (.done (.error kenningProtocolStatusFlowControlError) w ms)
  else if m.hdr.flags.first = false then
    some (.done (.error kenningProtocolStatusFlowControlError) w ms)
  else
    match m.hdr.messageType? with
    | none => some (.done (.error kenningProtocolStatusInvalidMessageType) w ms)
    | some t =>
      if m.hdr.flags.hasPayload then
        match loaderCallback w t with
        | none => none
        | some ldr =>
          match ldr.reset w with
          | (loaderStatus, w) =>
            if loaderStatus ≠ statusOk then some (.done (.error loaderStatus) w ms)
            else
              match receiveRun cfg ldr ms m w with
              | .starved w => some (.starved w)
              | .done status w rest =>
                if status ≠ statusOk then some (.done (.error status) w rest)
                else some (.done (.ok (eventOf cfg m.hdr t ldr w)) w rest)
      else some (.done (.ok (eventOf cfg m.hdr t (loaderCallback w t) w)) w ms)

/-- The result on bytes is the outcome on messages, when `tail` follows the messages. -/
def ListenDescribes (tail : Rx) : Option (Outcome (Except Status ProtocolEvent) W) →
    Option (ListenResult W) → Prop
  | none, r => r = none
  | some (.done event w rest), r => r = some ⟨event, w, bytes (wires rest) ++ tail⟩
  | some (.starved w), r => tail = [] → r = some ⟨.error kenningProtocolStatusTimeout, w, []⟩

variable {hdr : MessageHdr} {t : MessageType} {w : W}

theorem Opens.flowControl_guard (h : Opens hdr t) :
    ¬ (hdr.flowControlFlags ≠ flowControlTransmission ∧
      hdr.flowControlFlags ≠ flowControlRequest) := by
  intro hall
  obtain ⟨h3, h0⟩ := hall
  rcases h.flowControl with hf | hf
  · exact h3 hf
  · exact h0 hf

/-- An opening message with a payload, up to the end of the series that it starts. -/
theorem protocolListen_payload (h : Opens hdr t) (hp : hdr.flags.hasPayload = true)
    {ldr : MsgLoader W} (hldr : loaderCallback w t = some ldr) (rx : Rx) :
    protocolListen cfg loaderCallback w (bytes hdr.encode ++ rx) =
      if (ldr.reset w).1 ≠ statusOk then
        some ⟨.error (ldr.reset w).1, (ldr.reset w).2, protocolSkipData hdr.payloadSize.toNat rx⟩
      else
        match receiveMessages cfg ldr hdr (ldr.reset w).2 rx with
        | (status, w, rx) =>
          if status ≠ statusOk then some ⟨.error status, w, rx⟩
          else some ⟨.ok (eventOf cfg hdr t ldr w), w, rx⟩ := by
  have ht : MessageType.ofNumber? hdr.messageType.toNat = some t := h.messageType
  rw [protocolListen, receiveMessageHeader_encode]
  simp only [if_neg h.flowControl_guard, h.first, Bool.true_eq_false, if_false, ht, hp, if_true, hldr]
  rfl

/-- The only way for the call not to return. -/
theorem protocolListen_null (h : Opens hdr t) (hp : hdr.flags.hasPayload = true)
    (hldr : loaderCallback w t = none) (rx : Rx) :
    protocolListen cfg loaderCallback w (bytes hdr.encode ++ rx) = none := by
  have ht : MessageType.ofNumber? hdr.messageType.toNat = some t := h.messageType
  rw [protocolListen, receiveMessageHeader_encode]
  simp only [if_neg h.flowControl_guard, h.first, Bool.true_eq_false, if_false, ht, hp, if_true, hldr]

/-- An opening message without a payload is the whole event. -/
theorem protocolListen_empty (h : Opens hdr t) (hp : hdr.flags.hasPayload = false) (rx : Rx) :
    protocolListen cfg loaderCallback w (bytes hdr.encode ++ rx) =
      some ⟨.ok (eventOf cfg hdr t (loaderCallback w t) w), w, rx⟩ := by
  have ht : MessageType.ofNumber? hdr.messageType.toNat = some t := h.messageType
  rw [protocolListen, receiveMessageHeader_encode]
  simp only [if_neg h.flowControl_guard, h.first, Bool.true_eq_false, if_false, ht, hp]
  rfl

/-- `protocol_listen` refines `listenRun` on a stream of well-framed messages. -/
theorem protocolListen_describes (tail : Rx) (ms : List Message) (m : Message) (w : W)
    (hframed : ∀ m' ∈ m :: ms, m'.WellFramed) :
    ListenDescribes tail (listenRun cfg loaderCallback ms m w)
      (protocolListen cfg loaderCallback w (bytes (wires (m :: ms)) ++ tail)) := by
  have hwires : bytes (wires (m :: ms)) ++ tail =
      bytes m.hdr.encode ++ (bytes m.payload ++ (bytes (wires ms) ++ tail) : Rx) := by
    simp only [wires_cons, bytes_append, List.append_assoc]
  have hskip : protocolSkipData m.hdr.payloadSize.toNat
      (bytes m.payload ++ (bytes (wires ms) ++ tail)) = bytes (wires ms) ++ tail := by
    have hw : m.hdr.payloadSize.toNat = m.payload.length := hframed m List.mem_cons_self
    rw [hw, protocolSkipData_bytes]
  rw [hwires, listenRun]
  by_cases hf : m.hdr.flowControlFlags ≠ flowControlTransmission ∧
      m.hdr.flowControlFlags ≠ flowControlRequest
  · -- The flow control value starts nothing.
    rw [if_pos hf, protocolListen, receiveMessageHeader_encode]
    simp only [if_pos hf, hskip]
    rfl
  rw [if_neg hf]
  by_cases h1 : m.hdr.flags.first = false
  · -- The message is not the first of an event.
    rw [if_pos h1, protocolListen, receiveMessageHeader_encode]
    simp only [if_neg hf, if_pos h1, hskip]
    rfl
  rw [if_neg h1]
  rcases ht : m.hdr.messageType? with _ | t
  · -- There is no such type.
    have ht' : MessageType.ofNumber? m.hdr.messageType.toNat = none := ht
    rw [protocolListen, receiveMessageHeader_encode]
    simp only [if_neg hf, if_neg h1, ht', hskip]
    rfl
  have hopens : Opens m.hdr t := by
    refine ⟨?_, Bool.not_eq_false _ ▸ h1, ht⟩
    by_contra hc
    rw [not_or] at hc
    exact hf hc
  -- The message opens an event.
  by_cases hp : m.hdr.flags.hasPayload = true
  swap
  · rw [Bool.not_eq_true] at hp
    rw [protocolListen_empty cfg loaderCallback hopens hp, Message.payload_of_not_hasPayload hp]
    simp only [hp, Bool.false_eq_true, if_false]
    rfl
  rcases hldr : loaderCallback w t with _ | ldr
  · rw [protocolListen_null cfg loaderCallback hopens hp hldr]
    simp only [hp, if_true, hldr]
    rfl
  rw [protocolListen_payload cfg loaderCallback hopens hp hldr]
  simp only [hp, if_true, hldr]
  by_cases hr : (ldr.reset w).1 = statusOk
  swap
  · simp only [hr, ne_eq, not_false_eq_true, if_true, hskip]
    rfl
  simp only [hr, ne_eq, not_true_eq_false, if_false]
  -- The reset succeeded, and the series is received.
  have hd := receiveMessages_describes cfg ldr tail ms m (ldr.reset w).2 fun m' hm' =>
    Or.inl (hframed m' (List.mem_cons_of_mem _ hm'))
  rw [bytes_append, List.append_assoc] at hd
  rcases hrun : receiveRun cfg ldr ms m (ldr.reset w).2 with ⟨status, w', rest⟩ | w'
  · rw [hrun] at hd
    simp only [Outcome.Describes] at hd
    rw [hd]
    by_cases hs : status = statusOk
    · simp only [hs, not_true_eq_false, if_false]
      rfl
    · simp only [hs, not_false_eq_true, if_true]
      rfl
  · intro htail
    rw [hrun] at hd
    rw [hd htail]
    exact if_pos kenningProtocolTimeout_ne

theorem encode_unique {hdr hdr' : MessageHdr} {rx rx' : Rx}
    (h : (bytes hdr.encode ++ rx : Rx) = bytes hdr'.encode ++ rx') : hdr = hdr' ∧ rx = rx' := by
  obtain ⟨hbytes, hrest⟩ := List.append_inj h (by simp only [length_bytes, MessageHdr.length_encode])
  exact ⟨MessageHdr.encode_injective (bytes_injective hbytes), hrest⟩

/-- The input starts with an event of type `t`, with or without a payload. -/
def Starts (t : MessageType) (rx : Rx) (hasPayload : Bool) : Prop :=
  ∃ hdr rest, rx = bytes hdr.encode ++ rest ∧ Opens hdr t ∧ hdr.flags.hasPayload = hasPayload

theorem Starts.unique {t' : MessageType} {rx : Rx} {p : Bool} (h : Starts t' rx p) {rest : Rx}
    (hrx : rx = bytes hdr.encode ++ rest) (ho : Opens hdr t) : t = t' ∧ hdr.flags.hasPayload = p := by
  obtain ⟨hdr', rest', hrx', ho', hp⟩ := h
  obtain ⟨rfl, -⟩ := encode_unique (hrx'.symm.trans hrx)
  have ht := ho'.messageType
  rw [ho.messageType] at ht
  exact ⟨Option.some.inj ht, hp⟩

/-- What the first message of an input opens is what the input starts with. -/
theorem Starts.of_wires {t' : MessageType} {m : Message} {ms : List Message} {p : Bool}
    (h : Starts t' (bytes (wires (m :: ms))) p) (ho : Opens m.hdr t) :
    t = t' ∧ m.hdr.flags.hasPayload = p := by
  have hrx : bytes (wires (m :: ms)) = (bytes m.hdr.encode ++ bytes (m.payload ++ wires ms) : Rx) := by
    rw [wires_cons, bytes_append]
  exact h.unique hrx ho

/-- Either an event starts, or the call fails without a look at the loaders. -/
theorem protocolListen_cases (rx : Rx) :
    (∃ hdr t rest, Opens hdr t ∧ rx = bytes hdr.encode ++ rest) ∨
      ∃ status rest, status ≠ statusOk ∧
        ∀ w, protocolListen cfg loaderCallback w rx = some ⟨.error status, w, rest⟩ := by
  rcases hh : receiveMessageHeader rx with ⟨status | hdr, rest⟩
  · refine Or.inr ⟨status, rest, receiveMessageHeader_error hh, ?_⟩
    intro w
    rw [protocolListen, hh]
  have hrx := receiveMessageHeader_ok hh
  by_cases hf : hdr.flowControlFlags ≠ flowControlTransmission ∧
      hdr.flowControlFlags ≠ flowControlRequest
  · refine Or.inr ⟨_, protocolSkipData hdr.payloadSize.toNat rest, flowControlError_ne, ?_⟩
    intro w
    rw [protocolListen, hh]
    exact if_pos hf
  by_cases h1 : hdr.flags.first = false
  · refine Or.inr ⟨_, protocolSkipData hdr.payloadSize.toNat rest, flowControlError_ne, ?_⟩
    intro w
    rw [protocolListen, hh]
    simp only [if_neg hf, if_pos h1]
  rcases ht : MessageType.ofNumber? hdr.messageType.toNat with _ | t
  · refine Or.inr ⟨_, protocolSkipData hdr.payloadSize.toNat rest, invalidMessageType_ne, ?_⟩
    intro w
    rw [protocolListen, hh]
    simp only [if_neg hf, if_neg h1, ht]
  · refine Or.inl ⟨hdr, t, rest, ⟨?_, Bool.not_eq_false _ ▸ h1, ht⟩, hrx⟩
    by_contra hc
    rw [not_or] at hc
    exact hf hc

theorem protocolListen_error {rx rest : Rx} {status : Status} {w w' : W}
    (h : protocolListen cfg loaderCallback w rx = some ⟨.error status, w', rest⟩) :
    status ≠ statusOk := by
  rcases protocolListen_cases cfg loaderCallback rx with ⟨hdr, t, rx₁, hopens, rfl⟩ | hfail
  swap
  · obtain ⟨status', rest', hne, herr⟩ := hfail
    rw [herr] at h
    cases h
    exact hne
  by_cases hp : hdr.flags.hasPayload = true
  swap
  · rw [protocolListen_empty cfg loaderCallback hopens (Bool.not_eq_true _ ▸ hp)] at h
    cases h
  rcases hldr : loaderCallback w t with _ | ldr
  · rw [protocolListen_null cfg loaderCallback hopens hp hldr] at h
    cases h
  rw [protocolListen_payload cfg loaderCallback hopens hp hldr] at h
  split at h
  · next hr =>
    cases h
    exact hr
  · split at h
    split at h
    · next hs =>
      cases h
      exact hs
    · cases h

theorem ListenResult.event_of_status {rx : Rx} {w : W} {r : ListenResult W}
    (h : protocolListen cfg loaderCallback w rx = some r) (hs : r.status = statusOk) :
    ∃ event, r.event = .ok event := by
  rcases r with ⟨status | event, w', rest⟩
  · exact absurd hs (protocolListen_error cfg loaderCallback h)
  · exact ⟨event, rfl⟩

/-- How an event comes to be received with `STATUS_OK`, whatever the input. -/
theorem protocolListen_ok {rx rest : Rx} {event : ProtocolEvent} {w' : W}
    (h : protocolListen cfg loaderCallback w rx = some ⟨.ok event, w', rest⟩) :
    ∃ m t, Opens m.hdr t ∧
      ((m.hdr.flags.hasPayload = false ∧ rx = bytes (wires [m]) ++ rest ∧ w' = w ∧
          event = eventOf cfg m.hdr t (loaderCallback w t) w) ∨
        (m.hdr.flags.hasPayload = true ∧ ∃ ldr ms, loaderCallback w t = some ldr ∧
          (ldr.reset w).1 = statusOk ∧ Series m ms ∧ rx = bytes (wires (m :: ms)) ++ rest ∧
          saveMessages cfg ldr (ldr.reset w).2 (m :: ms) = (statusOk, w') ∧
          event = eventOf cfg m.hdr t ldr w')) := by
  rcases protocolListen_cases cfg loaderCallback rx with ⟨hdr, t, rx₁, hopens, rfl⟩ | ⟨_, _, -, herr⟩
  swap
  · rw [herr] at h
    cases h
  -- `STATUS_OK` is left for an event without payload, and for one that was stored whole.
  by_cases hp : hdr.flags.hasPayload = true
  swap
  · rw [Bool.not_eq_true] at hp
    let m : Message := ⟨hdr, [], by rw [hp]; rfl⟩
    rw [protocolListen_empty cfg loaderCallback hopens hp] at h
    cases h
    refine ⟨m, t, hopens, Or.inl ⟨hp, ?_, rfl, rfl⟩⟩
    simp only [wires_cons, wires_nil, List.append_nil, m]
  rcases hldr : loaderCallback w t with _ | ldr
  · rw [protocolListen_null cfg loaderCallback hopens hp hldr] at h
    cases h
  rw [protocolListen_payload cfg loaderCallback hopens hp hldr] at h
  by_cases hr : (ldr.reset w).1 = statusOk
  swap
  · rw [if_pos hr] at h
    cases h
  rw [if_neg (not_not_intro hr)] at h
  rcases hrec : receiveMessages cfg ldr hdr (ldr.reset w).2 rx₁ with ⟨status, w₂, rx₂⟩
  rw [hrec] at h
  by_cases hs : status = statusOk
  swap
  · simp only [hs, ne_eq, not_false_eq_true, if_true] at h
    cases h
  subst hs
  obtain ⟨m, ms, rfl, hseries, rfl, hsave⟩ := receiveMessagesLoop_ok cfg ldr hrec
  simp only [ne_eq, not_true_eq_false, if_false] at h
  cases h
  refine ⟨m, t, hopens, Or.inr ⟨hp, ldr, ms, hldr, hr, hseries, ?_, hsave, rfl⟩⟩
  rw [wires_cons]
  simp only [bytes_append, List.append_assoc]

/-- An event is of the type that its first message opens; without a payload it touches nothing. -/
theorem protocolListen_event {rx rest : Rx} {event : ProtocolEvent} {w' : W}
    (h : protocolListen cfg loaderCallback w rx = some ⟨.ok event, w', rest⟩) :
    ∃ hdr rest', rx = bytes hdr.encode ++ rest' ∧ Opens hdr event.messageType ∧
      (hdr.flags.hasPayload = false → w' = w) := by
  obtain ⟨m, t, hopens, hcase⟩ := protocolListen_ok cfg loaderCallback h
  rcases hcase with ⟨hp, hrx, hw, rfl⟩ | ⟨hp, ldr, ms, -, -, -, hrx, -, rfl⟩
  · refine ⟨m.hdr, bytes (m.payload ++ wires []) ++ rest, ?_, hopens, fun _ => hw⟩
    rw [hrx, wires_cons, bytes_append, List.append_assoc]
  · refine ⟨m.hdr, bytes (m.payload ++ wires ms) ++ rest, ?_, hopens, ?_⟩
    · rw [hrx, wires_cons, bytes_append, List.append_assoc]
    · intro hp'
      rw [hp] at hp'
      cases hp'

end

end KenningRuntime
