import KenningRuntime.Resynchronisation

/-! Which series of messages are received with `STATUS_OK`, when the loaders take everything. -/
namespace KenningRuntime
open ByteSource

/-- A loader that takes every byte. -/
def MsgLoader.Accepts {W : Type} (ldr : MsgLoader W) : Prop :=
  ∀ w, (ldr.reset w).1 = statusOk ∧ ∀ src, (ldr.save w src).1 = statusOk

/-- The messages of one event as `protocol_transmit` sends it, or a request. -/
structure IsEvent (ms : List Message) : Prop extends CompleteEvent ms where
  messageType : ∃ t, ∀ m ∈ ms, m.hdr.messageType? = some t
  flowControl : ∀ m ∈ ms, m.hdr.flowControlFlags = flowControlTransmission ∨
    m.hdr.flowControlFlags = flowControlRequest

theorem isEvent_cons {m : Message} {ms : List Message} :
    IsEvent (m :: ms) ↔ (∃ t, Opens m.hdr t) ∧ Series m ms ∧
      ∀ m' ∈ ms, m'.hdr.flags.first = false := by
  constructor
  · intro hall
    obtain ⟨hc, ⟨t, ht⟩, hf⟩ := hall
    obtain ⟨h1, hs, hnot⟩ := completeEvent_cons.mp hc
    exact ⟨⟨t, hf m List.mem_cons_self, h1, ht m List.mem_cons_self⟩, hs, hnot⟩
  · intro hall
    obtain ⟨⟨t, hopens⟩, hs, hnot⟩ := hall
    have hkind : ∀ x ∈ m :: ms, m.SameKind x := by
      intro x hx
      rcases List.mem_cons.mp hx with rfl | hx
      · exact ⟨rfl, rfl⟩
      · exact hs.sameKind x hx
    refine ⟨completeEvent_cons.mpr ⟨hopens.first, hs, hnot⟩, ⟨t, ?_⟩, ?_⟩
    · intro x hx
      rw [MessageHdr.messageType?, (hkind x hx).1]
      exact hopens.messageType
    · intro x hx
      rw [(hkind x hx).2]
      exact hopens.flowControl

/-- The messages that a call takes are an event exactly if the call returns `STATUS_OK`. -/
def GrammarHolds (cfg : Config) {W : Type}
    (loaderCallback : W → MessageType → Option (MsgLoader W)) (w : W) (ms : List Message) : Prop :=
  ∃ r taken rest, protocolListen cfg loaderCallback w (bytes (wires ms)) = some r ∧
    ms = taken ++ rest ∧ r.rx = bytes (wires rest) ∧ (r.status = statusOk ↔ IsEvent taken)

/-- The condition on the messages: a first message without payload is the final one, and no later
message of a series with payload has `first`. -/
def FirstsChecked (ms : List Message) : Prop :=
  ∀ m later t, ms = m :: later → Opens m.hdr t →
    (m.hdr.flags.hasPayload = false → m.hdr.flags.last = true) ∧
      (m.hdr.flags.hasPayload = true → ∀ run rest, later = run ++ rest → Series m run →
        ∀ m' ∈ run, m'.hdr.flags.first = false)

section
variable (cfg : Config) {W : Type} {ldr : MsgLoader W}

theorem savePayload_accepts (h : ldr.Accepts) (w : W) (payload : List UInt8) :
    (savePayload cfg ldr w payload).1 = statusOk := by
  rw [savePayload]
  induction (Chunks.chunks cfg.messageRecvBufferSize payload) using List.reverseRecOn with
  | nil => rfl
  | append_singleton cs c _ =>
    rw [List.foldl_append]
    exact if_neg (not_not_intro ((h _).2 c))

theorem saveMessages_accepts (h : ldr.Accepts) (w : W) (ms : List Message) :
    (saveMessages cfg ldr w ms).1 = statusOk := by
  induction ms generalizing w with
  | nil => rfl
  | cons m ms ih =>
    rw [saveMessages]
    simp only [savePayload_accepts cfg h, ne_eq, not_true_eq_false, if_false]
    exact ih _

variable {loaderCallback : W → MessageType → Option (MsgLoader W)}

theorem isEvent_of_ok {w : W} {m : Message} {later taken rest : List Message} {r : ListenResult W}
    (hc : FirstsChecked (m :: later))
    (hlisten : protocolListen cfg loaderCallback w (bytes (wires (m :: later))) = some r)
    (hms : m :: later = taken ++ rest) (hrx : r.rx = bytes (wires rest)) (hs : r.status = statusOk) :
    IsEvent taken := by
  obtain ⟨event, hevent⟩ := ListenResult.event_of_status cfg loaderCallback hlisten hs
  rcases r with ⟨_, w', _⟩
  simp only at hevent hrx
  subst hevent hrx
  -- The bytes that were read are those of the messages that were taken.
  have htaken {m' : Message} {run : List Message}
      (h : (bytes (wires (m :: later)) : Rx) = bytes (wires (m' :: run)) ++ bytes (wires rest)) :
      m = m' ∧ later = run ++ rest ∧ taken = m' :: run := by
    rw [← bytes_append, ← wires_append] at h
    have hml := wires_injective (bytes_injective h)
    obtain ⟨rfl, rfl⟩ := List.cons.inj hml
    rw [hml] at hms
    exact ⟨rfl, rfl, (List.append_cancel_right hms).symm⟩
  obtain ⟨m', t, hopens, ⟨hp, h, -, -⟩ | ⟨hp, ldr, run, -, -, hseries, h, -, -⟩⟩ :=
    protocolListen_ok cfg loaderCallback hlisten
  · obtain ⟨rfl, -, rfl⟩ := htaken h
    exact isEvent_cons.mpr ⟨⟨t, hopens⟩, .last ((hc m later t rfl hopens).1 hp), by simp⟩
  · obtain ⟨rfl, hlater, rfl⟩ := htaken h
    exact isEvent_cons.mpr ⟨⟨t, hopens⟩, hseries,
      (hc m later t rfl hopens).2 hp run rest hlater hseries⟩

variable (hacc : ∀ w t, ∃ ldr, loaderCallback w t = some ldr ∧ ldr.Accepts)

include hacc

/-- A complete series with payload is accepted, whether or not a later message has `first`. -/
theorem protocolListen_accepts {m : Message} {run : List Message} {t : MessageType}
    (hopens : Opens m.hdr t) (hp : m.hdr.flags.hasPayload = true) (hs : Series m run) (w : W)
    (tail : Rx) :
    ∃ event w', protocolListen cfg loaderCallback w (bytes (wires (m :: run)) ++ tail) =
      some ⟨.ok event, w', tail⟩ := by
  obtain ⟨ldr, hldr, hldracc⟩ := hacc w t
  obtain ⟨left, hrec, hleft⟩ := receiveMessages_series cfg ldr hs (ldr.reset w).2 tail
  have hsaved := saveMessages_accepts cfg hldracc (ldr.reset w).2 (m :: run)
  rw [hleft hsaved, hsaved, wires_nil, bytes_nil, List.nil_append] at hrec
  refine ⟨eventOf cfg m.hdr t ldr (saveMessages cfg ldr (ldr.reset w).2 (m :: run)).2,
    (saveMessages cfg ldr (ldr.reset w).2 (m :: run)).2, ?_⟩
  rw [wires_cons, bytes_append, List.append_assoc,
    protocolListen_payload cfg loaderCallback hopens hp hldr,
    if_neg (not_not_intro (hldracc w).1), hrec]
  exact if_neg (not_not_intro rfl)

theorem firstsChecked_of_grammarHolds {w : W} {ms : List Message}
    (h : GrammarHolds cfg loaderCallback w ms) : FirstsChecked ms := by
  obtain ⟨r, taken, rest, hlisten, hms, hrx, hiff⟩ := h
  intro m later t hrx hopens
  subst hrx
  -- The rest of the input tells which messages were taken.
  have htaken {event : ProtocolEvent} {w' : W} {taken' rest' : List Message}
      (hms' : m :: later = taken' ++ rest')
      (hr : protocolListen cfg loaderCallback w (bytes (wires (m :: later))) =
        some ⟨.ok event, w', bytes (wires rest')⟩) : IsEvent taken' := by
    rw [hlisten] at hr
    obtain rfl := Option.some.inj hr
    have hrest : rest' = rest := wires_injective (bytes_injective hrx)
    subst hrest
    rw [hms'] at hms
    rw [List.append_cancel_right hms]
    exact hiff.mp rfl
  constructor
  · intro hp
    have hone : IsEvent [m] := @htaken _ _ [m] later rfl (by
      rw [wires_cons, Message.payload_of_not_hasPayload hp, List.nil_append, bytes_append,
        protocolListen_empty cfg loaderCallback hopens hp])
    obtain ⟨-, hs, -⟩ := isEvent_cons.mp hone
    cases hs with
    | last hl => exact hl
  · intro hp run rest' hlater hs
    obtain ⟨event, w', hr⟩ := protocolListen_accepts cfg hacc hopens hp hs w (bytes (wires rest'))
    rw [← bytes_append, ← wires_append, List.cons_append, ← hlater] at hr
    exact (isEvent_cons.mp (htaken (by rw [hlater, List.cons_append]) hr)).2.2

theorem ok_of_isEvent {w : W} {m : Message} {later taken rest : List Message} {r : ListenResult W}
    (hlisten : protocolListen cfg loaderCallback w (bytes (wires (m :: later))) = some r)
    (hms : m :: later = taken ++ rest) (h : IsEvent taken) : r.status = statusOk := by
  cases taken with
  | nil => exact absurd rfl h.ne_nil
  | cons m' run =>
    obtain ⟨rfl, rfl⟩ := List.cons.inj hms
    obtain ⟨⟨t, hopens⟩, hs, -⟩ := isEvent_cons.mp h
    by_cases hp : m.hdr.flags.hasPayload = true
    · obtain ⟨event, w', hr⟩ := protocolListen_accepts cfg hacc hopens hp hs w (bytes (wires rest))
      rw [← bytes_append, ← wires_append, List.cons_append] at hr
      obtain rfl := Option.some.inj (hr.symm.trans hlisten)
      rfl
    · rw [wires_cons, bytes_append,
        protocolListen_empty cfg loaderCallback hopens (Bool.not_eq_true _ ▸ hp)] at hlisten
      obtain rfl := Option.some.inj hlisten
      rfl

/-- Exactly when `STATUS_OK` means that one event was taken. A first message without payload is not
asked for `last`, and a later one is not asked for `first`. -/
theorem protocolListen_grammar (w : W) {ms : List Message} (hframed : ∀ m ∈ ms, m.WellFramed) :
    GrammarHolds cfg loaderCallback w ms ↔ FirstsChecked ms := by
  refine ⟨firstsChecked_of_grammarHolds cfg hacc, ?_⟩
  intro hc
  cases ms with
  | nil =>
    refine ⟨⟨.error kenningProtocolStatusTimeout, w, []⟩, [], [], rfl, rfl, rfl, ?_⟩
    exact ⟨fun h => absurd h kenningProtocolTimeout_ne, fun h => absurd rfl h.ne_nil⟩
  | cons m later =>
    have hldr (w : W) (t : MessageType) : loaderCallback w t ≠ none := by
      obtain ⟨ldr, hldr, -⟩ := hacc w t
      rw [hldr]
      exact Option.some_ne_none ldr
    obtain ⟨r, taken, rest, hlisten, hms, -, hrx⟩ := protocolListen_consumes cfg hldr hframed w
    exact ⟨r, taken, rest, hlisten, hms, hrx, isEvent_of_ok cfg hc hlisten hms hrx,
      ok_of_isEvent cfg hacc hlisten hms⟩

end

/-! The failing input: a transmission that was broken off after its first message, and a new one. -/

/-- A loader that takes everything and keeps it. -/
def msgLoaderAll : MsgLoader (List UInt8) where
  save kept src := (statusOk, kept ++ src)
  reset _ := (statusOk, [])
  written := List.length

theorem msgLoaderAll_accepts (w : List UInt8) (t : MessageType) :
    ∃ ldr, (fun (_ : List UInt8) (_ : MessageType) => some msgLoaderAll) w t = some ldr ∧
      ldr.Accepts :=
  ⟨msgLoaderAll, rfl, fun _ => ⟨rfl, fun _ => rfl⟩⟩

/-- The first message of two, that carries one byte. -/
def brokenOff : Message where
  hdr := {
    messageType := 2
    flowControlFlags := flowControlTransmission
    checksum := 0
    flags := ⟨false, false, true, true, true, false, false, false, 0, 0⟩
    payloadSize := 1 }
  payload := [1]
  payload_length := rfl

/-- A whole transmission in one message. -/
def newTransmission : Message where
  hdr := {
    messageType := 2
    flowControlFlags := flowControlTransmission
    checksum := 0
    flags := ⟨false, false, true, true, true, true, false, false, 0, 0⟩
    payloadSize := 1 }
  payload := [2]
  payload_length := rfl

theorem grammar_two_transmissions :
    ¬ GrammarHolds smallConfig (fun _ _ => some msgLoaderAll) [] [brokenOff, newTransmission] := by
  intro hall
  obtain ⟨r, taken, rest, hlisten, hms, hrx, hiff⟩ := hall
  obtain rfl := Option.some.inj hlisten
  have hbytes : (bytes (wires []) : Rx) = bytes (wires rest) := hrx
  obtain rfl := wires_injective (bytes_injective hbytes)
  rw [List.append_nil] at hms
  subst hms
  have hfirst := (hiff.mp rfl).first 1 (by decide)
  exact absurd hfirst (by decide)

theorem protocolListen_grammar_two :
    GrammarHolds smallConfig (fun _ _ => some msgLoaderAll) [] [brokenOff, newTransmission] ↔
      FirstsChecked [brokenOff, newTransmission] :=
  protocolListen_grammar smallConfig msgLoaderAll_accepts [] (by decide)

end KenningRuntime
