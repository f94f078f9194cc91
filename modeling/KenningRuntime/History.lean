import KenningRuntime.Capacity

/-! What earlier events leave in a buffer loader, and whether the reception of the next one depends
on it. -/
namespace KenningRuntime
open ByteSource

section
variable {C : ℕ}

/-- The two buffers hold the same bytes, whatever lies behind them. -/
def BufLoader.Alike (l l' : BufLoader C) : Prop := l.stored = l'.stored

theorem BufLoader.Alike.written_eq {l l' : BufLoader C} (h : l.Alike l') : l.written = l'.written := by
  rw [← l.length_stored, ← l'.length_stored, h]

theorem msgLoaderBuf_simulates :
    (msgLoaderBuf C).Simulates BufLoader.Alike (msgLoaderBuf C) := by
  constructor
  · intro l l' src h
    by_cases hfit : l.written+src.length ≤ C
    · have hfit' : l'.written+src.length ≤ C := h.written_eq ▸ hfit
      simp only [msgLoaderBuf, bufSave_fit l src hfit, bufSave_fit l' src hfit']
    · have hfull : C < l'.written+src.length := h.written_eq ▸ Nat.lt_of_not_le hfit
      simp only [msgLoaderBuf, bufSave_full l src (Nat.lt_of_not_le hfit), bufSave_full l' src hfull]
  · intro l l' src h
    by_cases hfit : l.written+src.length ≤ C
    · have hfit' : l'.written+src.length ≤ C := h.written_eq ▸ hfit
      simp only [msgLoaderBuf, bufSave_fit l src hfit, bufSave_fit l' src hfit', BufLoader.Alike,
        BufLoader.stored_append]
      rw [h]
    · have hfull : C < l'.written+src.length := h.written_eq ▸ Nat.lt_of_not_le hfit
      simp only [msgLoaderBuf, bufSave_full l src (Nat.lt_of_not_le hfit), bufSave_full l' src hfull]
      exact h

variable (cfg : Config) {W : Type} (L : Lens W (BufLoader C))

/-- The event reports as its size the payload bytes of the messages that were consumed for it. -/
def ReportsOwnPayload (rx : Rx) (r : ListenResult W) : Prop :=
  ∀ event, r.event = .ok event →
    ∃ ms, rx = bytes (wires ms) ++ r.rx ∧ event.payloadSize = (payloads ms).length

/-- Two runs on one input that report the same. -/
structure SameReport (r r' : ListenResult W) : Prop where
  status : r.status = r'.status
  event : ∀ event event', r.event = .ok event → r'.event = .ok event' → event = event' ∧
    (L.get r.world).mem.take event.payloadSize = (L.get r'.world).mem.take event'.payloadSize

theorem not_reportsOwnPayload {ms : List Message} {event : ProtocolEvent} {w : W} {rest : Rx}
    (h : event.payloadSize ≠ (payloads ms).length) :
    ¬ ReportsOwnPayload (bytes (wires ms) ++ rest) ⟨.ok event, w, rest⟩ := by
  intro hown
  obtain ⟨ms', hrx, hsize⟩ := hown event rfl
  have hms : ms = ms' := wires_injective (bytes_injective (List.append_cancel_right hrx))
  exact h (hms ▸ hsize)

/-- A received series that fits, or that would have been refused, is reported in full. -/
theorem written_of_received {l l' : BufLoader C} {ms : List Message}
    (h : (payloads ms).length ≤ C ∨
      refuses cfg.messageRecvBufferSize C (ms.map fun m => m.payload.length) = true)
    (hs : saveMessages cfg (msgLoaderBuf C) (bufReset l).2 ms = (statusOk, l')) :
    l'.written = (payloads ms).length := by
  have hroom : (bufReset l).2.room = C := by rw [BufLoader.room, bufReset_written, Nat.sub_zero]
  rcases h with hfit | href
  · obtain ⟨l₁, hl₁, hstored⟩ := saveMessages_fit cfg (bufReset l).2 ms (by rw [hroom]; exact hfit)
    rw [hs] at hl₁
    obtain rfl := (Prod.mk.inj hl₁).2
    rw [bufReset_stored, List.nil_append] at hstored
    exact BufLoader.written_of_stored hstored
  · have hst := saveMessages_refuses cfg (bufReset l).2 ms
    rw [hroom, href, hs] at hst
    exact absurd hst.symm msgTooBig_ne

variable {loaderCallback : W → MessageType → Option (MsgLoader W)} {w : W}

/-- Reports of two runs on one input that agree, and are of the event's own messages. -/
def IndependentReports (rx : Rx) (r r' : ListenResult W) : Prop :=
  SameReport L r r' ∧ ReportsOwnPayload rx r ∧ ReportsOwnPayload rx r'

theorem independentReports_of_error (rx : Rx) {status : Status} {w w' : W} {rest : Rx} :
    IndependentReports L rx ⟨.error status, w, rest⟩ ⟨.error status, w', rest⟩ := by
  refine ⟨⟨rfl, ?_⟩, ?_, ?_⟩
  · intro event event' heq
    cases heq
  · intro event heq
    cases heq
  · intro event heq
    cases heq

/-- The condition on the input and on the two counts of bytes left from before. -/
structure HistoryFree (l l' : BufLoader C) (rx : Rx) : Prop where
  empty : ∀ m t rest, rx = bytes (wires [m]) ++ rest → Opens m.hdr t →
    m.hdr.flags.hasPayload = false → l.written = 0 ∧ l'.written = 0
  whole : ∀ m t ms rest, rx = bytes (wires (m :: ms)) ++ rest → Opens m.hdr t →
    m.hdr.flags.hasPayload = true → Series m ms → (payloads (m :: ms)).length ≤ C ∨
      refuses cfg.messageRecvBufferSize C ((m :: ms).map fun m => m.payload.length) = true

theorem wires_of_not_hasPayload {m : Message} (hp : m.hdr.flags.hasPayload = false) :
    wires [m] = m.hdr.encode := by
  rw [wires_cons, Message.payload_of_not_hasPayload hp, wires_nil, List.append_nil, List.append_nil]

section
variable (hldr : ∀ l t, loaderCallback (L.set w l) t = some ((msgLoaderBuf C).lift L))
  (l l' : BufLoader C)

include hldr

/-- An event without payload reports what the counts say, so they have to be zero. -/
theorem written_eq_zero_of_independent {m : Message} {t : MessageType} {rest : Rx}
    {r r' : ListenResult W} (hopens : Opens m.hdr t) (hp : m.hdr.flags.hasPayload = false)
    (hr : protocolListen cfg loaderCallback (L.set w l) (bytes (wires [m]) ++ rest) = some r)
    (hr' : protocolListen cfg loaderCallback (L.set w l') (bytes (wires [m]) ++ rest) = some r')
    (h : IndependentReports L (bytes (wires [m]) ++ rest) r r') :
    l.written = 0 ∧ l'.written = 0 := by
  obtain ⟨-, hown, hown'⟩ := h
  have hempty : (payloads [m]).length = 0 := by
    rw [payloads_cons, Message.payload_of_not_hasPayload hp]
    rfl
  rw [wires_of_not_hasPayload hp, protocolListen_buf_empty cfg L hopens hp (hldr l t),
    Lens.get_set] at hr
  rw [wires_of_not_hasPayload hp, protocolListen_buf_empty cfg L hopens hp (hldr l' t),
    Lens.get_set] at hr'
  obtain rfl := Option.some.inj hr
  obtain rfl := Option.some.inj hr'
  constructor
  · by_contra hne
    exact not_reportsOwnPayload (by rw [hempty]; exact hne) hown
  · by_contra hne
    exact not_reportsOwnPayload (by rw [hempty]; exact hne) hown'

theorem fits_or_refuses_of_own {m : Message} {t : MessageType} {ms : List Message} {rest : Rx}
    {r : ListenResult W} (hopens : Opens m.hdr t) (hp : m.hdr.flags.hasPayload = true)
    (hseries : Series m ms)
    (hr : protocolListen cfg loaderCallback (L.set w l) (bytes (wires (m :: ms)) ++ rest) = some r)
    (hown : ReportsOwnPayload (bytes (wires (m :: ms)) ++ rest) r) :
    (payloads (m :: ms)).length ≤ C ∨
      refuses cfg.messageRecvBufferSize C ((m :: ms).map fun m => m.payload.length) = true := by
  by_contra hc
  rw [not_or, Bool.not_eq_true] at hc
  obtain ⟨hbig, href⟩ := hc
  obtain ⟨left, hlisten⟩ := protocolListen_series cfg L hopens hp hseries (hldr l t) rest
  have hst := saveMessages_refuses cfg (bufReset (L.get (L.set w l))).2 (m :: ms)
  rw [BufLoader.room, bufReset_written, Nat.sub_zero, href] at hst
  rw [hst, if_neg (show ¬ savedStatus (!false) ≠ statusOk from not_not_intro rfl), hr] at hlisten
  obtain rfl := Option.some.inj hlisten
  have hle := (saveMessages cfg (msgLoaderBuf C) (bufReset (L.get (L.set w l))).2
    (m :: ms)).2.written_le
  exact not_reportsOwnPayload (Nat.lt_of_le_of_lt hle (Nat.lt_of_not_le hbig)).ne hown

theorem independent_of_empty {hdr : MessageHdr} {t : MessageType} {rest : Rx} (hopens : Opens hdr t)
    (hp : hdr.flags.hasPayload = false) (hfree : HistoryFree cfg l l' (bytes hdr.encode ++ rest)) :
    ∃ r r', protocolListen cfg loaderCallback (L.set w l) (bytes hdr.encode ++ rest) = some r ∧
      protocolListen cfg loaderCallback (L.set w l') (bytes hdr.encode ++ rest) = some r' ∧
      IndependentReports L (bytes hdr.encode ++ rest) r r' := by
  let m : Message := ⟨hdr, [], by rw [hp]; rfl⟩
  have hwire : wires [m] = hdr.encode := wires_of_not_hasPayload hp
  obtain ⟨h0, h0'⟩ := hfree.empty m t rest (by rw [hwire]) hopens hp
  have hlisten := protocolListen_buf_empty cfg L hopens hp (hldr l t) rest
  have hlisten' := protocolListen_buf_empty cfg L hopens hp (hldr l' t) rest
  rw [Lens.get_set, h0] at hlisten
  rw [Lens.get_set, h0'] at hlisten'
  refine ⟨_, _, hlisten, hlisten', ⟨rfl, ?_⟩, ?_, ?_⟩
  · intro event event' heq heq'
    cases heq
    cases heq'
    exact ⟨rfl, by rw [bufferEvent, List.take_zero, List.take_zero]⟩
  · intro event heq
    cases heq
    exact ⟨[m], by rw [hwire], rfl⟩
  · intro event heq
    cases heq
    exact ⟨[m], by rw [hwire], rfl⟩

theorem independent_of_payload {hdr : MessageHdr} {t : MessageType} {rx : Rx} (hopens : Opens hdr t)
    (hp : hdr.flags.hasPayload = true) (hfree : HistoryFree cfg l l' (bytes hdr.encode ++ rx)) :
    ∃ r r', protocolListen cfg loaderCallback (L.set w l) (bytes hdr.encode ++ rx) = some r ∧
      protocolListen cfg loaderCallback (L.set w l') (bytes hdr.encode ++ rx) = some r' ∧
      IndependentReports L (bytes hdr.encode ++ rx) r r' := by
  have hlisten := protocolListen_buf cfg L hopens hp (hldr l t) rx
  have hlisten' := protocolListen_buf cfg L hopens hp (hldr l' t) rx
  rw [Lens.get_set] at hlisten hlisten'
  -- After the resets the two buffers are alike, so the receptions cannot be told apart.
  have halike : (bufReset l).2.Alike (bufReset l').2 := rfl
  obtain ⟨hst, hrx, hbuf⟩ := receiveMessages_same cfg msgLoaderBuf_simulates halike hdr rx
  have hown {l₀ l₁ : BufLoader C} {rest : Rx}
      (hrec : receiveMessages cfg (msgLoaderBuf C) hdr (bufReset l₀).2 rx = (statusOk, l₁, rest)) :
      ∃ ms, bytes hdr.encode ++ rx = bytes (wires ms) ++ rest ∧ l₁.written = (payloads ms).length := by
    obtain ⟨m, ms, rfl, hseries, rfl, hsave⟩ := receiveMessagesLoop_ok cfg (msgLoaderBuf C) hrec
    have hwire : bytes m.hdr.encode ++ (bytes (m.payload ++ wires ms) ++ rest) =
        bytes (wires (m :: ms)) ++ rest := by
      simp only [wires_cons, bytes_append, List.append_assoc]
    exact ⟨m :: ms, hwire,
      written_of_received cfg (hfree.whole m t ms rest hwire hopens hp hseries) hsave⟩
  rcases hrec : receiveMessages cfg (msgLoaderBuf C) hdr (bufReset l).2 rx with ⟨st, l₁, rest⟩
  rcases hrec' : receiveMessages cfg (msgLoaderBuf C) hdr (bufReset l').2 rx with ⟨st', l₁', rest'⟩
  rw [hrec, hrec'] at hst hrx hbuf
  obtain rfl : st = st' := hst
  obtain rfl : rest = rest' := hrx
  simp only [hrec] at hlisten
  simp only [hrec'] at hlisten'
  by_cases hok : st = statusOk
  · subst hok
    rw [if_neg (not_not_intro rfl), Lens.set_set] at hlisten hlisten'
    refine ⟨_, _, hlisten, hlisten', ⟨rfl, ?_⟩, ?_, ?_⟩
    · intro event event' heq heq'
      cases heq
      cases heq'
      have hw : l₁.written = l₁'.written := hbuf.written_eq
      refine ⟨by rw [bufferEvent, bufferEvent, hw], ?_⟩
      rw [Lens.get_set, Lens.get_set]
      exact hbuf
    · intro event heq
      cases heq
      exact hown hrec
    · intro event heq
      cases heq
      exact hown hrec'
  · rw [if_pos hok] at hlisten hlisten'
    exact ⟨_, _, hlisten, hlisten', independentReports_of_error L _⟩

/-- Exactly when the reception does not depend on what earlier events left in the loader, and
reports the payload of the event's own messages. An event without payload reports the count that is
left from before, and a payload that is too big may be reported in part. -/
theorem protocolListen_history (rx : Rx) :
    (∃ r r', protocolListen cfg loaderCallback (L.set w l) rx = some r ∧
        protocolListen cfg loaderCallback (L.set w l') rx = some r' ∧ IndependentReports L rx r r') ↔
      HistoryFree cfg l l' rx := by
  constructor
  · intro hall
    obtain ⟨r, r', hr, hr', h⟩ := hall
    constructor
    · intro m t rest hrx hopens hp
      subst hrx
      exact written_eq_zero_of_independent cfg L hldr l l' hopens hp hr hr' h
    · intro m t ms rest hrx hopens hp hseries
      subst hrx
      exact fits_or_refuses_of_own cfg L hldr l hopens hp hseries hr h.2.1
  · intro hfree
    rcases protocolListen_cases cfg loaderCallback rx with ⟨hdr, t, rest, hopens, rfl⟩ | hfail
    · by_cases hp : hdr.flags.hasPayload = true
      · exact independent_of_payload cfg L hldr l l' hopens hp hfree
      · exact independent_of_empty cfg L hldr l l' hopens (Bool.not_eq_true _ ▸ hp) hfree
    · obtain ⟨status, rest, -, herr⟩ := hfail
      exact ⟨_, _, herr _, herr _, independentReports_of_error L rx⟩

end

end

/-! The failing input: a request without payload, after an event that left four bytes. -/

def emptyRequest (t : MessageType) : Message where
  hdr := {
    messageType := BitVec.ofNat 38 t.number
    flowControlFlags := flowControlRequest
    checksum := 0
    flags := ⟨false, false, true, false, true, true, false, false, 0, 0⟩
    payloadSize := 0 }
  payload := []
  payload_length := rfl

def usedBuffer : BufLoader 6 where
  mem := [1, 2, 3, 4, 0, 0]
  written := 4
  mem_length := rfl
  written_le := by decide
  capacity_lt := by decide

theorem history_stale :
    ¬ ∃ r r', protocolListen smallConfig (oneLoader 6) (emptyBuffer 6 (by decide))
        (bytes (wires [emptyRequest .data])) = some r ∧
      protocolListen smallConfig (oneLoader 6) usedBuffer
        (bytes (wires [emptyRequest .data])) = some r' ∧
      IndependentReports (Lens.whole (BufLoader 6)) (bytes (wires [emptyRequest .data])) r r' := by
  intro hall
  obtain ⟨r, r', hr, hr', hsame, -, -⟩ := hall
  obtain rfl := Option.some.inj hr
  obtain rfl := Option.some.inj hr'
  have hsize := congrArg ProtocolEvent.payloadSize (hsame.event _ _ rfl rfl).1
  exact absurd hsize (by decide)

theorem protocolListen_history_stale :
    (∃ r r', protocolListen smallConfig (oneLoader 6) (emptyBuffer 6 (by decide))
        (bytes (wires [emptyRequest .data])) = some r ∧
      protocolListen smallConfig (oneLoader 6) usedBuffer
        (bytes (wires [emptyRequest .data])) = some r' ∧
      IndependentReports (Lens.whole (BufLoader 6)) (bytes (wires [emptyRequest .data])) r r') ↔
    HistoryFree smallConfig (emptyBuffer 6 (by decide)) usedBuffer
      (bytes (wires [emptyRequest .data])) :=
  @protocolListen_history 6 smallConfig (BufLoader 6) (Lens.whole (BufLoader 6)) (oneLoader 6)
    usedBuffer (fun _ _ => rfl) (emptyBuffer 6 (by decide)) usedBuffer
    (bytes (wires [emptyRequest .data]))

end KenningRuntime
