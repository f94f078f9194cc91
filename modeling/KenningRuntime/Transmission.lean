import KenningRuntime.MessageRun

/-! What a transmission puts on the line, whatever becomes of the writes. -/
namespace KenningRuntime

section
variable (cfg : Config) (checksum : ℕ → BitVec 8) (event : TransmitEvent)

/-- Header and payload of a message. -/
def messageWire (hdr : MessageHdr) (payload : List UInt8) : List UInt8 :=
  hdr.encode ++ if hdr.flags.hasPayload then payload.take hdr.payloadSize.toNat else []

/-- The messages of an event from message `i` on, one after the other. -/
def eventWireFrom : ℕ → ℕ → ℕ → List UInt8
  | 0, _, _ => []
  | left+1, i, bytesSent =>
    let messagePayloadSize :=
      min (event.payload.length-bytesSent) cfg.protocolMaxOutgoingMessageSize
    messageWire (messageHdr cfg checksum event i messagePayloadSize) (event.payload.drop bytesSent) ++
      eventWireFrom left (i+1) (bytesSent+messagePayloadSize)

def eventWire : List UInt8 := eventWireFrom cfg checksum event (messageCount cfg event) 0 0

/-- From `tx` to `tx'` these bytes were sent, all of them if the status is `STATUS_OK`, and nothing
else. -/
def Sends (wire : List UInt8) (tx : Tx) (status : Status) (tx' : Tx) : Prop :=
  ∃ part, tx'.sent = tx.sent ++ part ∧ part <+: wire ∧ (status = statusOk → part = wire)

variable {cfg checksum event} {wire wire' : List UInt8} {tx tx' tx'' : Tx} {status status' : Status}

theorem Sends.append (h : Sends wire tx statusOk tx') (h' : Sends wire' tx' status tx'') :
    Sends (wire ++ wire') tx status tx'' := by
  obtain ⟨part, hsent, -, hpart⟩ := h
  obtain ⟨part', hsent', hprefix', hpart'⟩ := h'
  obtain rfl := hpart rfl
  refine ⟨part ++ part', ?_, (List.prefix_append_right_inj part).mpr hprefix', ?_⟩
  · rw [hsent', hsent, List.append_assoc]
  · exact fun hs => congrArg (part ++ ·) (hpart' hs)

theorem Sends.cut (h : Sends wire tx status tx') (hs : status' ≠ statusOk) :
    Sends (wire ++ wire') tx status' tx' := by
  obtain ⟨part, hsent, hprefix, -⟩ := h
  exact ⟨part, hsent, hprefix.trans (List.prefix_append _ _), fun hc => absurd hc hs⟩

/-- Only the bytes count, not the flag. -/
theorem Sends.congr {tx₀ tx₁ : Tx} (h : Sends wire tx status tx') (h₀ : tx₀.sent = tx.sent)
    (h₁ : tx₁.sent = tx'.sent) : Sends wire tx₀ status tx₁ := by
  rw [Sends, h₀, h₁]
  exact h

theorem messageCount_ne_zero (cfg : Config) (event : TransmitEvent) : messageCount cfg event ≠ 0 := by
  rw [messageCount]
  split
  · exact Nat.succ_ne_zero _
  · exact one_ne_zero

theorem protocolWriteData_busy (data : List UInt8) (tx : Tx) :
    (protocolWriteData data tx).2.protocolBusy = tx.protocolBusy := by
  rw [protocolWriteData]
  split <;> rfl

theorem protocolWriteData_sends (data : List UInt8) (tx : Tx) :
    Sends data tx (protocolWriteData data tx).1 (protocolWriteData data tx).2 := by
  rw [protocolWriteData]
  split
  · exact ⟨data, rfl, List.prefix_rfl, fun _ => rfl⟩
  · exact ⟨data, rfl, List.prefix_rfl, fun _ => rfl⟩
  · next e n _ _ => exact ⟨data.take n, rfl, List.take_prefix _ _, fun hs => absurd hs e.2⟩

theorem sendMessage_sends (hdr : MessageHdr) (payload : List UInt8) (tx : Tx) :
    Sends (messageWire hdr payload) tx (sendMessage hdr payload tx).1 (sendMessage hdr payload tx).2 := by
  have hheader := protocolWriteData_sends hdr.encode tx
  rw [messageWire, sendMessage]
  rcases hw : protocolWriteData hdr.encode tx with ⟨st, tx₁⟩
  rw [hw] at hheader
  -- Without the header nothing of the payload is sent.
  by_cases hs : checkProtocolStatus st = statusOk
  swap
  · simp only [hs, ne_eq, not_false_eq_true, if_true]
    exact hheader.cut hs
  obtain rfl := checkProtocolStatus_eq_ok.mp hs
  simp only [hs, ne_eq, not_true_eq_false, if_false]
  cases hp : hdr.flags.hasPayload with
  | false =>
    simp only [Bool.false_eq_true, if_false, List.append_nil]
    exact hheader
  | true =>
    have hpayload := protocolWriteData_sends (payload.take hdr.payloadSize.toNat) tx₁
    simp only [if_true]
    obtain ⟨part, hsent, hprefix, hpart⟩ := hpayload
    exact hheader.append
      ⟨part, hsent, hprefix, fun hs' => hpart (checkProtocolStatus_eq_ok.mp hs')⟩

theorem transmitLoop_sends (left i bytesSent : ℕ) (tx : Tx) :
    Sends (eventWireFrom cfg checksum event left i bytesSent) tx
      (transmitLoop cfg checksum event left i bytesSent tx).1
      (transmitLoop cfg checksum event left i bytesSent tx).2 := by
  induction left generalizing i bytesSent tx with
  | zero => exact ⟨[], (List.append_nil _).symm, List.prefix_rfl, fun _ => rfl⟩
  | succ left ih =>
    let size := min (event.payload.length-bytesSent) cfg.protocolMaxOutgoingMessageSize
    have hmessage := sendMessage_sends (messageHdr cfg checksum event i size)
      (event.payload.drop bytesSent) {tx with protocolBusy := true}
    rw [eventWireFrom, transmitLoop]
    rcases hw : sendMessage (messageHdr cfg checksum event i size)
      (event.payload.drop bytesSent) {tx with protocolBusy := true} with ⟨st, tx₁⟩
    rw [hw] at hmessage
    simp only [size] at hmessage
    simp only
    -- The first message that fails is the last one.
    by_cases hs : st = statusOk
    · subst hs
      simp only [ne_eq, not_true_eq_false, if_false]
      have hsent : Sends _ tx statusOk {tx₁ with protocolBusy := false} := hmessage.congr rfl rfl
      exact hsent.append (ih _ _ _)
    · simp only [ne_eq, hs, not_false_eq_true, if_true]
      exact (hmessage.congr rfl rfl).cut hs

theorem transmitLoop_idle (left i bytesSent : ℕ) {tx : Tx} (hidle : tx.protocolBusy = false) :
    (transmitLoop cfg checksum event left i bytesSent tx).2.protocolBusy = false := by
  induction left generalizing i bytesSent tx with
  | zero => exact hidle
  | succ left ih =>
    rw [transmitLoop]
    split
    simp only
    split
    · rfl
    · exact ih _ _ rfl

/-- The messages of an event go out one after the other, up to the first write that fails, and the line
is idle again. -/
theorem protocolTransmit_sends (cfg : Config) (checksum : ℕ → BitVec 8) (event : TransmitEvent)
    {tx : Tx} (hidle : tx.protocolBusy = false) :
    Sends (eventWire cfg checksum event) tx (protocolTransmit cfg checksum event tx).1
        (protocolTransmit cfg checksum event tx).2 ∧
      (protocolTransmit cfg checksum event tx).2.protocolBusy = false := by
  have hidle' : ¬ tx.protocolBusy = true := by
    rw [hidle]
    exact Bool.false_ne_true
  rw [protocolTransmit, if_neg hidle']
  exact ⟨transmitLoop_sends _ _ _ _, transmitLoop_idle _ _ _ hidle⟩

end

end KenningRuntime
