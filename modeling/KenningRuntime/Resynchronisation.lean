import KenningRuntime.Capacity

/-! The receiver stays in step with the stream: a call takes whole messages, and the calls on a
stream of complete events fall into blocks, one for each event. -/
namespace KenningRuntime
open ByteSource

section
variable (cfg : Config) {W : Type} {loaderCallback : W → MessageType → Option (MsgLoader W)}
  {m : Message} {ms : List Message} {w : W}

/-- Calls of `protocol_listen` on one input, as long as there is some. What happens to the loaders
between the calls is open: each call starts in a state of its own. -/
inductive Calls (loaderCallback : W → MessageType → Option (MsgLoader W)) :
    Rx → List (W × ListenResult W) → Rx → Prop
  | nil (rx : Rx) : Calls loaderCallback rx [] rx
  | cons {rx rx' : Rx} {w : W} {r : ListenResult W} {calls : List (W × ListenResult W)} :
      rx ≠ [] → protocolListen cfg loaderCallback w rx = some r →
      Calls loaderCallback r.rx calls rx' → Calls loaderCallback rx ((w, r) :: calls) rx'

/-- How a call on messages ends: the loader is missing, or it takes message `m` alone, or it takes what
`receive_messages` takes. -/
inductive Takes (loaderCallback : W → MessageType → Option (MsgLoader W)) (ms : List Message)
    (m : Message) (w : W) : Option (Outcome (Except Status ProtocolEvent) W) → Prop
  | null {t : MessageType} : loaderCallback w t = none → Takes loaderCallback ms m w none
  | one (event : Except Status ProtocolEvent) (w' : W) :
      Takes loaderCallback ms m w (some (.done event w' ms))
  | series {ldr : MsgLoader W} {w₁ w' : W} {status : Status} {rest : List Message}
      (event : Except Status ProtocolEvent) : receiveRun cfg ldr ms m w₁ = .done status w' rest →
      Takes loaderCallback ms m w (some (.done event w' rest))
  | starved {ldr : MsgLoader W} {w₁ w' : W} : receiveRun cfg ldr ms m w₁ = .starved w' →
      Takes loaderCallback ms m w (some (.starved w'))

theorem listenRun_takes (loaderCallback : W → MessageType → Option (MsgLoader W)) (ms : List Message)
    (m : Message) (w : W) :
    Takes cfg loaderCallback ms m w (listenRun cfg loaderCallback ms m w) := by
  unfold listenRun
  split
  · exact .one _ _
  split
  · exact .one _ _
  split
  · exact .one _ _
  split
  · split
    · next hnone => exact .null hnone
    split
    split
    · exact .one _ _
    split
    · next hrun => exact .starved hrun
    · next hrun =>
      split
      · exact .series _ hrun
      · exact .series _ hrun
  · exact .one _ _

theorem listenRun_suffix {ms rest : List Message} {m : Message} {w w' : W}
    {event : Except Status ProtocolEvent}
    (h : listenRun cfg loaderCallback ms m w = some (.done event w' rest)) : rest <:+ ms := by
  have htakes := listenRun_takes cfg loaderCallback ms m w
  rw [h] at htakes
  cases htakes with
  | one => exact List.suffix_refl _
  | series _ hrun => exact receiveRun_suffix cfg _ hrun

/-- A null loader is the only way for a call not to return. -/
theorem listenRun_isSome (hldr : ∀ w t, loaderCallback w t ≠ none) (ms : List Message) (m : Message)
    (w : W) :
    (listenRun cfg loaderCallback ms m w).isSome = true := by
  have htakes := listenRun_takes cfg loaderCallback ms m w
  generalize listenRun cfg loaderCallback ms m w = o at htakes ⊢
  cases htakes with
  | null hnone => exact absurd hnone (hldr w _)
  | one | series | starved => rfl

/-- A call on a stream of whole messages takes at least one of them, and only whole ones. -/
theorem protocolListen_consumes (hldr : ∀ w t, loaderCallback w t ≠ none)
    (hframed : ∀ m' ∈ m :: ms, m'.WellFramed) (w : W) :
    ∃ r taken rest, protocolListen cfg loaderCallback w (bytes (wires (m :: ms))) = some r ∧
      m :: ms = taken ++ rest ∧ taken ≠ [] ∧ r.rx = bytes (wires rest) := by
  have hd := protocolListen_describes cfg loaderCallback [] ms m w hframed
  rw [List.append_nil] at hd
  -- The call does not return, or ends between two messages, or waits for one more.
  rcases hrun : listenRun cfg loaderCallback ms m w with _ | ⟨event, w', rest⟩ | w'
  · have hsome := listenRun_isSome cfg hldr ms m w
    rw [hrun] at hsome
    cases hsome
  · rw [hrun] at hd
    simp only [ListenDescribes, List.append_nil] at hd
    obtain ⟨taken, rfl⟩ := listenRun_suffix cfg hrun
    exact ⟨_, m :: taken, rest, hd, rfl, List.cons_ne_nil _ _, rfl⟩
  · rw [hrun] at hd
    exact ⟨_, m :: ms, [], hd rfl, (List.append_nil _).symm, List.cons_ne_nil _ _, rfl⟩

/-! ### Complete events -/

/-- An event that can be delivered: the messages carry payload, the type and the flow control value
are valid, and the buffer loader for the type is large enough, whatever happened before. -/
structure Deliverable (loaderCallback : W → MessageType → Option (MsgLoader W)) (ms : List Message)
    (t : MessageType) : Prop where
  hasPayload : ∀ m ∈ ms, m.hdr.flags.hasPayload = true
  messageType : ∀ m ∈ ms, m.hdr.messageType? = some t
  flowControl : ∀ m ∈ ms, m.hdr.flowControlFlags = flowControlTransmission ∨
    m.hdr.flowControlFlags = flowControlRequest
  fits : ∀ w, ∃ (C : ℕ) (L : Lens W (BufLoader C)),
    loaderCallback w t = some ((msgLoaderBuf C).lift L) ∧ (payloads ms).length ≤ C

/-- The call from state `w` with result `r` delivers the event intact: its type, the flags of its first
message, whether it is a request, its size, and in the buffer its bytes. -/
def Delivers (loaderCallback : W → MessageType → Option (MsgLoader W)) (ms : List Message)
    (t : MessageType) (w : W) (r : ListenResult W) : Prop :=
  ∃ (C : ℕ) (L : Lens W (BufLoader C)) (event : ProtocolEvent),
    loaderCallback w t = some ((msgLoaderBuf C).lift L) ∧ r.event = .ok event ∧
    event.messageType = t ∧
    (∀ m ∈ ms.head?, event.flags = m.hdr.flags ∧ event.isRequest = m.hdr.isRequest) ∧
    event.payloadSize = (payloads ms).length ∧
    (L.get r.world).mem.take event.payloadSize = payloads ms

/-- The calls `calls` fall into blocks, one for each event of the stream and in the same order. Each
block takes exactly the messages of its event; that of an event that can be delivered is one call,
which delivers it. -/
inductive Blocks (loaderCallback : W → MessageType → Option (MsgLoader W)) :
    List (List Message) → List (W × ListenResult W) → Prop
  | nil : Blocks loaderCallback [] []
  | cons {ms : List Message} {events : List (List Message)} {block calls : List (W × ListenResult W)} :
      Calls cfg loaderCallback (bytes (wires (ms ++ events.flatten))) block
        (bytes (wires events.flatten)) →
      block ≠ [] →
      (∀ t, Deliverable loaderCallback ms t →
        ∃ w r, block = [(w, r)] ∧ Delivers loaderCallback ms t w r) →
      Blocks loaderCallback events calls → Blocks loaderCallback (ms :: events) (block ++ calls)

theorem Calls.bytes_nil {calls : List (W × ListenResult W)} {rx' : Rx}
    (h : Calls cfg loaderCallback [] calls rx') : calls = [] := by
  cases h with
  | nil => rfl
  | cons hne => exact absurd rfl hne

theorem wires_ne_nil (m : Message) (ms : List Message) : (bytes (wires (m :: ms)) : Rx) ≠ [] := by
  intro h
  have hlen := congrArg List.length h
  simp only [length_bytes, wires_cons, List.length_append, MessageHdr.length_encode, messageHdrSize,
    List.length_nil] at hlen
  omega

theorem listenRun_not_first (h1 : m.hdr.flags.first = false) :
    listenRun cfg loaderCallback ms m w =
      some (.done (.error kenningProtocolStatusFlowControlError) w ms) := by
  rw [listenRun, if_pos h1, ite_self]

/-- The rest of an event is skipped message by message. -/
theorem Calls.skip {left later : List Message} (h1 : ∀ m ∈ left, m.hdr.flags.first = false)
    (hframed : ∀ m ∈ left ++ later, m.WellFramed) {calls : List (W × ListenResult W)}
    (h : Calls cfg loaderCallback (bytes (wires (left ++ later))) calls []) :
    ∃ skipped rest, calls = skipped ++ rest ∧
      Calls cfg loaderCallback (bytes (wires (left ++ later))) skipped (bytes (wires later)) ∧
      Calls cfg loaderCallback (bytes (wires later)) rest [] ∧
      (left = [] → skipped = []) := by
  induction left generalizing calls with
  | nil => exact ⟨[], calls, rfl, .nil _, h, fun _ => rfl⟩
  | cons m left ih =>
    generalize hrx : bytes (wires (m :: left ++ later)) = rx at h
    cases h with
    | nil => exact absurd hrx (wires_ne_nil m (left ++ later))
    | @cons _ _ w r calls hne hlisten hcalls =>
      subst hrx
      -- The first call returns an error and leaves the messages after `m`.
      have hd := protocolListen_describes cfg loaderCallback [] (left ++ later) m w hframed
      rw [List.append_nil] at hd
      rw [List.cons_append] at hlisten
      rw [listenRun_not_first cfg (h1 m List.mem_cons_self), hlisten] at hd
      simp only [ListenDescribes, List.append_nil, Option.some.injEq] at hd
      subst hd
      obtain ⟨skipped, rest, rfl, hskip, hrest, -⟩ := ih
        (fun x hx => h1 x (List.mem_cons_of_mem _ hx))
        (fun x hx => hframed x (List.mem_cons_of_mem _ hx)) hcalls
      exact ⟨(w, _) :: skipped, rest, rfl, .cons hne hlisten hskip, hrest, fun hc => nomatch hc⟩

/-- A call at the start of a complete event stays within the event. -/
theorem listenRun_within (hs : Series m ms) (later : List Message)
    {o : Outcome (Except Status ProtocolEvent) W}
    (h : listenRun cfg loaderCallback (ms ++ later) m w = some o) :
    ∃ event w' left, left <:+ ms ∧ o = .done event w' (left ++ later) := by
  have htakes := listenRun_takes cfg loaderCallback (ms ++ later) m w
  rw [h] at htakes
  cases htakes with
  | one event w' => exact ⟨event, w', ms, List.suffix_refl _, rfl⟩
  | @series ldr w₁ _ _ _ event hrun =>
    -- The reception of a complete series ends within the series.
    obtain ⟨left, hsuffix, hleft, -⟩ := receiveRun_series cfg ldr hs later w₁
    rw [hrun] at hleft
    cases hleft
    exact ⟨event, _, left, hsuffix, rfl⟩
  | @starved ldr w₁ _ hrun =>
    obtain ⟨left, -, hleft, -⟩ := receiveRun_series cfg ldr hs later w₁
    rw [hrun] at hleft
    cases hleft

/-- An event that can be delivered is delivered by the call at its start, whatever follows it. -/
theorem protocolListen_delivers {t : MessageType} (hc : CompleteEvent (m :: ms))
    (hd : Deliverable loaderCallback (m :: ms) t) (w : W) (tail : Rx) :
    ∃ r, protocolListen cfg loaderCallback w (bytes (wires (m :: ms)) ++ tail) = some r ∧
      r.rx = tail ∧ Delivers loaderCallback (m :: ms) t w r := by
  obtain ⟨h1, hs, -⟩ := completeEvent_cons.mp hc
  obtain ⟨C, L, hldr, hfit⟩ := hd.fits w
  have hopens : Opens m.hdr t := ⟨hd.flowControl m List.mem_cons_self, h1,
    hd.messageType m List.mem_cons_self⟩
  obtain ⟨l, hsave, hstored⟩ := saveMessages_fit cfg (bufReset (L.get w)).2 (m :: ms) (by
    rw [BufLoader.room, bufReset_written, Nat.sub_zero]
    exact hfit)
  rw [bufReset_stored, List.nil_append] at hstored
  obtain ⟨left, hlisten⟩ := protocolListen_series cfg L hopens (hd.hasPayload m List.mem_cons_self) hs
    hldr tail
  rw [hsave, if_neg (not_not_intro rfl)] at hlisten
  refine ⟨_, hlisten, rfl, C, L, _, hldr, rfl, rfl, ?_, ?_, ?_⟩
  · intro m' hm'
    obtain rfl := Option.some.inj hm'
    exact ⟨rfl, rfl⟩
  · exact BufLoader.written_of_stored hstored
  · rw [Lens.get_set]
    exact hstored

/-- The calls that start at a complete event begin with a block for it. -/
theorem Calls.block (hldr : ∀ w t, loaderCallback w t ≠ none) (hc : CompleteEvent (m :: ms))
    {later : List Message} (hframed : ∀ m' ∈ m :: ms ++ later, m'.WellFramed)
    {calls : List (W × ListenResult W)}
    (h : Calls cfg loaderCallback (bytes (wires (m :: ms ++ later))) calls []) :
    ∃ block rest, calls = block ++ rest ∧ block ≠ [] ∧
      Calls cfg loaderCallback (bytes (wires (m :: ms ++ later))) block (bytes (wires later)) ∧
      Calls cfg loaderCallback (bytes (wires later)) rest [] ∧
      ∀ t, Deliverable loaderCallback (m :: ms) t →
        ∃ w r, block = [(w, r)] ∧ Delivers loaderCallback (m :: ms) t w r := by
  obtain ⟨-, hs, hnot⟩ := completeEvent_cons.mp hc
  generalize hrx : bytes (wires (m :: ms ++ later)) = rx at h
  cases h with
  | nil => exact absurd hrx (wires_ne_nil m (ms ++ later))
  | @cons _ _ w r calls hne hlisten hcalls =>
    subst hrx
    have hdesc := protocolListen_describes cfg loaderCallback [] (ms ++ later) m w hframed
    rw [List.append_nil] at hdesc
    rw [List.cons_append] at hlisten
    rw [hlisten] at hdesc
    obtain ⟨o, ho⟩ := Option.isSome_iff_exists.mp
      (listenRun_isSome cfg hldr (ms ++ later) m w)
    -- The first call leaves a part of the event, which the next calls skip.
    obtain ⟨event, w', left, hsuffix, rfl⟩ := listenRun_within cfg hs later ho
    rw [ho] at hdesc
    simp only [ListenDescribes, List.append_nil, Option.some.injEq] at hdesc
    subst hdesc
    have hmem : ∀ x ∈ left, x ∈ ms := fun x hx => hsuffix.mem hx
    obtain ⟨skipped, rest, rfl, hskip, hrest, hnil⟩ := hcalls.skip cfg
      (fun x hx => hnot x (hmem x hx)) fun x hx => hframed x (by
        rcases List.mem_append.mp hx with hx | hx
        · exact List.mem_append_left _ (List.mem_cons_of_mem _ (hmem x hx))
        · exact List.mem_append_right _ hx)
    refine ⟨(w, _) :: skipped, rest, rfl, List.cons_ne_nil _ _, .cons hne hlisten hskip, hrest, ?_⟩
    intro t hd
    -- An event that can be delivered leaves nothing to skip.
    obtain ⟨r, hr, hrest', hdel⟩ := protocolListen_delivers cfg hc hd w (bytes (wires later))
    rw [← bytes_append, ← wires_append, List.cons_append, hlisten] at hr
    obtain rfl := Option.some.inj hr
    have hleft : left = [] := by
      have heq := wires_injective (bytes_injective hrest')
      exact List.append_left_eq_self.mp heq
    exact ⟨w, _, by rw [hnil hleft], hdel⟩

theorem Calls.blocks (hldr : ∀ w t, loaderCallback w t ≠ none) {events : List (List Message)}
    (hc : ∀ ms ∈ events, CompleteEvent ms) (hframed : ∀ m ∈ events.flatten, m.WellFramed)
    {calls : List (W × ListenResult W)}
    (h : Calls cfg loaderCallback (bytes (wires events.flatten)) calls []) :
    Blocks cfg loaderCallback events calls := by
  induction events generalizing calls with
  | nil =>
    rw [Calls.bytes_nil cfg h]
    exact .nil
  | cons ms events ih =>
    have hms := hc ms List.mem_cons_self
    rw [List.flatten_cons] at h hframed
    cases ms with
    | nil => exact absurd rfl hms.ne_nil
    | cons m ms =>
      obtain ⟨block, rest, rfl, hne, hblock, hrest, hdel⟩ := h.block cfg hldr hms hframed
      exact .cons hblock hne hdel (ih (fun x hx => hc x (List.mem_cons_of_mem _ hx))
        (fun x hx => hframed x (List.mem_append_right _ hx)) hrest)

/-- Error isolation: on a stream of whole messages every call takes a positive number of them, and
on a stream of complete events every event that can be delivered is delivered intact by exactly one
call, in stream order, however the others fail. -/
theorem listen_resynchronises (hldr : ∀ w t, loaderCallback w t ≠ none) :
    (∀ w m ms, (∀ m' ∈ m :: ms, m'.WellFramed) →
      ∃ r taken rest, protocolListen cfg loaderCallback w (bytes (wires (m :: ms))) = some r ∧
        m :: ms = taken ++ rest ∧ taken ≠ [] ∧ r.rx = bytes (wires rest)) ∧
      ∀ events calls, (∀ ms ∈ events, CompleteEvent ms) →
        (∀ m ∈ events.flatten, m.WellFramed) →
        Calls cfg loaderCallback (bytes (wires events.flatten)) calls [] →
        Blocks cfg loaderCallback events calls :=
  ⟨fun w _ _ hframed => protocolListen_consumes cfg hldr hframed w,
    fun _ _ hc hframed h => h.blocks cfg hldr hc hframed⟩

end

/-- A request of a type that does not exist. -/
def unknownRequest : Message where
  hdr := {
    messageType := 99
    flowControlFlags := flowControlRequest
    checksum := 0
    flags := ⟨false, false, true, true, true, true, false, false, 0, 0⟩
    payloadSize := 2 }
  payload := [7, 7]
  payload_length := rfl

def oneByte : Message := requestMessage .data [1] (by decide)

theorem listen_resynchronises_unknown :
    ∃ calls, Calls smallConfig (oneLoader 6) (bytes (wires [unknownRequest, oneByte])) calls [] ∧
      Blocks smallConfig (oneLoader 6) [[unknownRequest], [oneByte]] calls := by
  have hcalls : Calls smallConfig (oneLoader 6) (bytes (wires [unknownRequest, oneByte])) _ [] :=
    .cons (w := emptyBuffer 6 (by decide)) (wires_ne_nil _ _) rfl
      (.cons (w := emptyBuffer 6 (by decide)) (wires_ne_nil oneByte []) rfl (.nil _))
  have hone (m : Message) (h1 : m.hdr.flags.first = true) (hl : m.hdr.flags.last = true) :
      CompleteEvent [m] := completeEvent_cons.mpr ⟨h1, .last hl, by simp⟩
  refine ⟨_, hcalls, (listen_resynchronises smallConfig (fun _ _ => Option.some_ne_none _)).2
    [[unknownRequest], [oneByte]] _ ?_ (by decide) hcalls⟩
  simp only [List.mem_cons, List.not_mem_nil, or_false, forall_eq_or_imp, forall_eq]
  exact ⟨hone _ (by decide) (by decide), hone _ (by decide) (by decide)⟩

end KenningRuntime
