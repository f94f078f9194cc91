import KenningRuntime.Reception

/-! `receive_messages` and `protocol_listen` on messages instead of bytes, and that the functions on
bytes do the same. -/
namespace KenningRuntime
open ByteSource

/-- How a reception from a list of messages ends: with a result and the messages it did not touch,
or waiting for a message after the last one. -/
inductive Outcome (α W : Type) where
  | done (result : α) (w : W) (rest : List Message)
  | starved (w : W)

section
variable (cfg : Config) {W : Type} (ldr : MsgLoader W)

/-- `receive_messages` from message `m` on, when the messages `ms` follow it. -/
def receiveRun : List Message → Message → W → Outcome Status W
  | [], m, w =>
    match savePayload cfg ldr w m.payload with
    | (status, w) =>
      if status ≠ statusOk then .done status w []
      else if m.hdr.flags.last then .done statusOk w []
      else .starved w
  | m' :: ms, m, w =>
    match savePayload cfg ldr w m.payload with
    | (status, w) =>
      if status ≠ statusOk then .done status w (m' :: ms)
      else if m.hdr.flags.last then .done statusOk w (m' :: ms)
      else if m'.hdr.messageType ≠ m.hdr.messageType then
        .done kenningProtocolStatusInvalidMessageType w ms
      else if m'.hdr.flowControlFlags ≠ m.hdr.flowControlFlags then
        .done kenningProtocolStatusFlowControlError w ms
      else receiveRun ms m' w

/-- The result `r` on bytes is the outcome on messages, when `tail` follows the messages. What
happens after the last message depends on `tail`; here it only matters when nothing follows. -/
def Outcome.Describes {W : Type} (tail : Rx) : Outcome Status W → Status × W × Rx → Prop
  | .done status w rest, r => r = (status, w, bytes (wires rest) ++ tail)
  | .starved w, r => tail = [] → r = (kenningProtocolStatusTimeout, w, [])

theorem receivePart_bytes (m : Message) (w : W) (rx : Rx) :
    (if m.hdr.flags.hasPayload
      then receiveMessagePayload cfg ldr m.hdr.payloadSize.toNat w (bytes m.payload ++ rx)
      else (statusOk, w, bytes m.payload ++ rx)) =
      ((savePayload cfg ldr w m.payload).1, (savePayload cfg ldr w m.payload).2, rx) := by
  by_cases hp : m.hdr.flags.hasPayload = true
  · rw [if_pos hp, ← Message.payload_length_of_hasPayload hp, receiveMessagePayload_bytes]
  · rw [if_neg hp, Message.payload_of_not_hasPayload (Bool.not_eq_true _ ▸ hp), savePayload_nil]
    rfl

/-- What a round read without an error is the payload of a message with its header. -/
theorem receivePart_ok {hdr : MessageHdr} {w w' : W} {rx rest : Rx}
    (h : (if hdr.flags.hasPayload
      then receiveMessagePayload cfg ldr hdr.payloadSize.toNat w rx
      else (statusOk, w, rx)) = (statusOk, w', rest)) :
    ∃ m : Message, m.hdr = hdr ∧ rx = bytes m.payload ++ rest ∧
      savePayload cfg ldr w m.payload = (statusOk, w') := by
  by_cases hp : hdr.flags.hasPayload = true
  · rw [if_pos hp] at h
    obtain ⟨data, hlen, hrx, hsave⟩ := receiveMessagePayload_ok cfg ldr h
    exact ⟨⟨hdr, data, by rw [hlen, if_pos hp]⟩, rfl, hrx, hsave⟩
  · rw [if_neg hp] at h
    obtain ⟨-, rfl, rfl⟩ := h
    exact ⟨⟨hdr, [], by rw [if_neg hp]; rfl⟩, rfl, rfl, savePayload_nil cfg ldr w⟩

/-! ### The loop without a bound -/

theorem length_of_next {hdr hdr' : MessageHdr} {w w₁ : W} {rx rx₁ rx₂ : Rx}
    (hpart : (if hdr.flags.hasPayload
      then receiveMessagePayload cfg ldr hdr.payloadSize.toNat w rx
      else (statusOk, w, rx)) = (statusOk, w₁, rx₁))
    (hh : receiveMessageHeader rx₁ = (.ok hdr', rx₂)) : rx₂.length < rx.length := by
  obtain ⟨m, -, hrx, -⟩ := receivePart_ok cfg ldr hpart
  have hrx₁ := receiveMessageHeader_ok hh
  rw [hrx, hrx₁]
  simp only [List.length_append, length_bytes, MessageHdr.length_encode, messageHdrSize]
  omega

/-- Each round but the last reads a header, so a bound above the length of the input is not met. -/
theorem receiveMessagesLoop_fuel (messageType : BitVec 38) (flowControlFlags : BitVec 2)
    {fuel fuel' : ℕ} {rx : Rx} (hrx : rx.length < fuel) (hrx' : rx.length < fuel')
    (hdr : MessageHdr) (w : W) :
    receiveMessagesLoop cfg ldr messageType flowControlFlags fuel hdr w rx =
      receiveMessagesLoop cfg ldr messageType flowControlFlags fuel' hdr w rx := by
  induction fuel generalizing fuel' hdr w rx with
  | zero => omega
  | succ fuel ih =>
    cases fuel' with
    | zero => omega
    | succ fuel' =>
      rw [receiveMessagesLoop, receiveMessagesLoop]
      rcases hpart : (if hdr.flags.hasPayload
        then receiveMessagePayload cfg ldr hdr.payloadSize.toNat w rx
        else (statusOk, w, rx)) with ⟨status, w₁, rx₁⟩
      simp only
      by_cases hs : status = statusOk
      swap
      · rw [if_pos hs, if_pos hs]
      subst hs
      rw [if_neg (not_not_intro rfl), if_neg (not_not_intro rfl)]
      rcases hh : receiveMessageHeader rx₁ with ⟨status₂ | hdr₂, rx₂⟩
      · rfl
      have hlen := length_of_next cfg ldr hpart hh
      simp only [@ih fuel' rx₂ (by omega) (by omega) hdr₂ w₁]

/-- The loop of `receive_messages` as the source has it. -/
theorem receiveMessages_loop (header : MessageHdr) (w : W) (rx : Rx) :
    receiveMessages cfg ldr header w rx =
      match (if header.flags.hasPayload
        then receiveMessagePayload cfg ldr header.payloadSize.toNat w rx
        else (statusOk, w, rx)) with
      | (status, w, rx) =>
        if status ≠ statusOk then (status, w, rx)
        else if header.flags.last then (status, w, rx)
        else
          match receiveMessageHeader rx with
          | (.error status, rx) => (status, w, rx)
          | (.ok next, rx) =>
            if next.messageType ≠ header.messageType then
              (kenningProtocolStatusInvalidMessageType, w,
                protocolSkipData next.payloadSize.toNat rx)
            else if next.flowControlFlags ≠ header.flowControlFlags then
              (kenningProtocolStatusFlowControlError, w,
                protocolSkipData next.payloadSize.toNat rx)
            else receiveMessages cfg ldr next w rx := by
  rw [receiveMessages, receiveMessagesLoop]
  rcases hpart : (if header.flags.hasPayload
    then receiveMessagePayload cfg ldr header.payloadSize.toNat w rx
    else (statusOk, w, rx)) with ⟨status, w₁, rx₁⟩
  simp only
  by_cases hs : status = statusOk
  swap
  · rw [if_pos hs, if_pos hs]
  subst hs
  rw [if_neg (not_not_intro rfl), if_neg (not_not_intro rfl)]
  rcases hh : receiveMessageHeader rx₁ with ⟨status₂ | next, rx₂⟩
  · rfl
  have hlen := length_of_next cfg ldr hpart hh
  simp only
  by_cases ht : next.messageType = header.messageType
  swap
  · rw [if_pos ht, if_pos ht]
  by_cases hf : next.flowControlFlags = header.flowControlFlags
  swap
  · rw [if_pos hf, if_pos hf]
  -- The next round is bounded by what was there at the start, and has enough with what is left.
  have hloop : receiveMessagesLoop cfg ldr next.messageType next.flowControlFlags rx.length next w₁
      rx₂ = receiveMessages cfg ldr next w₁ rx₂ :=
    receiveMessagesLoop_fuel cfg ldr _ _ hlen (Nat.lt_succ_self _) next w₁
  rw [← hloop, ht, hf]

theorem receiveMessagesLoop_describes (tail : Rx) {ms : List Message} {m : Message} {w : W}
    {fuel : ℕ} (hfuel : (wires ms).length+tail.length < fuel)
    (hframed : ∀ m' ∈ ms, m'.WellFramed ∨ m.SameKind m') :
    (receiveRun cfg ldr ms m w).Describes tail
      (receiveMessagesLoop cfg ldr m.hdr.messageType m.hdr.flowControlFlags fuel m.hdr w
        (bytes (m.payload ++ wires ms) ++ tail)) := by
  induction ms generalizing m w fuel with
  | nil =>
    cases fuel with
    | zero => omega
    | succ fuel =>
      rw [receiveRun, receiveMessagesLoop, wires_nil, List.append_nil, receivePart_bytes]
      by_cases hs : (savePayload cfg ldr w m.payload).1 = statusOk
      · by_cases hl : m.hdr.flags.last = true
        · simp only [hs, hl, ne_eq, not_true_eq_false, if_false, if_true]
          rfl
        · simp only [hs, hl, ne_eq, not_true_eq_false, if_false]
          intro ht
          rw [ht, receiveMessageHeader_nil]
          rfl
      · simp only [hs, ne_eq, not_false_eq_true, if_true]
        rfl
  | cons m' ms ih =>
    have hlen : (wires (m' :: ms)).length = messageHdrSize + (m'.payload.length+(wires ms).length) := by
      rw [wires_cons, List.length_append, List.length_append, MessageHdr.length_encode]
    rw [messageHdrSize] at hlen
    cases fuel with
    | zero => omega
    | succ fuel =>
      -- The payload behind a header that is refused is skipped, if the header states its size.
      have hskip (h : ¬ m.SameKind m') : protocolSkipData m'.hdr.payloadSize.toNat
          (bytes m'.payload ++ (bytes (wires ms) ++ tail)) = bytes (wires ms) ++ tail := by
        have hw : m'.hdr.payloadSize.toNat = m'.payload.length :=
          (hframed m' List.mem_cons_self).resolve_right h
        rw [hw, protocolSkipData_bytes]
      rw [receiveRun, receiveMessagesLoop, bytes_append, List.append_assoc, receivePart_bytes]
      by_cases hs : (savePayload cfg ldr w m.payload).1 = statusOk
      · by_cases hl : m.hdr.flags.last = true
        · simp only [hs, hl, ne_eq, not_true_eq_false, if_false, if_true]
          rfl
        simp only [hs, hl, ne_eq, not_true_eq_false, if_false, wires_cons, bytes_append,
          List.append_assoc, receiveMessageHeader_encode]
        by_cases ht : m'.hdr.messageType = m.hdr.messageType
        · by_cases hf : m'.hdr.flowControlFlags = m.hdr.flowControlFlags
          · simp only [ht, hf, not_true_eq_false, if_false]
            -- The loop goes on with the kind of the first message, which is that of `m'`.
            have hm' := @ih m' (savePayload cfg ldr w m.payload).2 fuel (by omega) fun x hx =>
              (hframed x (List.mem_cons_of_mem _ hx)).imp_right
                fun hk => ⟨hk.1.trans ht.symm, hk.2.trans hf.symm⟩
            rwa [ht, hf, bytes_append, List.append_assoc] at hm'
          · simp only [ht, hf, not_true_eq_false, not_false_eq_true, if_false, if_true,
              hskip fun hk => hf hk.2]
            rfl
        · simp only [ht, not_false_eq_true, if_true, hskip fun hk => ht hk.1]
          rfl
      · simp only [hs, ne_eq, not_false_eq_true, if_true]
        rfl

/-- `receive_messages` refines `receiveRun` on the messages that are left. -/
theorem receiveMessages_describes (tail : Rx) (ms : List Message) (m : Message) (w : W)
    (hframed : ∀ m' ∈ ms, m'.WellFramed ∨ m.SameKind m') :
    (receiveRun cfg ldr ms m w).Describes tail
      (receiveMessages cfg ldr m.hdr w (bytes (m.payload ++ wires ms) ++ tail)) := by
  refine receiveMessagesLoop_describes cfg ldr tail ?_ hframed
  simp only [List.length_append, length_bytes]
  omega

/-! ### Complete series -/

/-- The payloads of a series of messages, saved one after the other up to the first failure. -/
def saveMessages (w : W) : List Message → Status × W
  | [] => (statusOk, w)
  | m :: ms =>
    match savePayload cfg ldr w m.payload with
    | (status, w) => if status ≠ statusOk then (status, w) else saveMessages w ms

/-- A complete series is received up to its end, or to the first message that is not saved. -/
theorem receiveRun_series {m : Message} {ms : List Message} (h : Series m ms) (rest : List Message)
    (w : W) :
    ∃ left, left <:+ ms ∧ receiveRun cfg ldr (ms ++ rest) m w =
        .done (saveMessages cfg ldr w (m :: ms)).1 (saveMessages cfg ldr w (m :: ms)).2
          (left ++ rest) ∧
      ((saveMessages cfg ldr w (m :: ms)).1 = statusOk → left = []) := by
  induction h generalizing w with
  | @last m hl =>
    refine ⟨[], List.nil_suffix, ?_, fun _ => rfl⟩
    rw [saveMessages, List.nil_append]
    cases rest with
    | nil =>
      rw [receiveRun]
      by_cases hs : (savePayload cfg ldr w m.payload).1 = statusOk
      · simp only [hs, hl, ne_eq, not_true_eq_false, if_false, if_true, saveMessages]
      · simp only [hs, ne_eq, not_false_eq_true, if_true]
    | cons m' rest =>
      rw [receiveRun]
      by_cases hs : (savePayload cfg ldr w m.payload).1 = statusOk
      · simp only [hs, hl, ne_eq, not_true_eq_false, if_false, if_true, saveMessages]
      · simp only [hs, ne_eq, not_false_eq_true, if_true]
  | @more m m' ms hl hk _ ih =>
    obtain ⟨left, hsuffix, hrun, hleft⟩ := ih (savePayload cfg ldr w m.payload).2
    rw [List.cons_append, receiveRun, saveMessages]
    -- A message that is not saved ends the run, and leaves the rest of the series.
    by_cases hs : (savePayload cfg ldr w m.payload).1 = statusOk
    · refine ⟨left, hsuffix.trans (List.suffix_cons m' ms), ?_, ?_⟩
      · simp only [hs, hl, hk.1, hk.2, ne_eq, not_true_eq_false, if_false, Bool.false_eq_true, hrun]
      · simpa only [hs, ne_eq, not_true_eq_false, if_false] using hleft
    · refine ⟨m' :: ms, List.suffix_refl _, ?_, ?_⟩
      · simp only [hs, ne_eq, not_false_eq_true, if_true, List.cons_append]
      · simp only [hs, ne_eq, not_false_eq_true, if_true, false_implies]

/-- The same on bytes. Nothing is skipped in a complete series, so its messages need not state the
size of a payload that is not there. -/
theorem receiveMessages_series {m : Message} {ms : List Message} (h : Series m ms) (w : W)
    (tail : Rx) :
    ∃ left, receiveMessages cfg ldr m.hdr w (bytes (m.payload ++ wires ms) ++ tail) =
        ((saveMessages cfg ldr w (m :: ms)).1, (saveMessages cfg ldr w (m :: ms)).2,
          bytes (wires left) ++ tail) ∧
      ((saveMessages cfg ldr w (m :: ms)).1 = statusOk → left = []) := by
  obtain ⟨left, -, hrun, hleft⟩ := receiveRun_series cfg ldr h [] w
  have hd := receiveMessages_describes cfg ldr tail (ms ++ []) m w fun m' hm' =>
    Or.inr (h.sameKind m' (List.append_nil ms ▸ hm'))
  rw [hrun, List.append_nil, List.append_nil] at hd
  exact ⟨left, hd, hleft⟩

theorem receiveRun_suffix {m : Message} {ms rest : List Message} {w w' : W} {status : Status}
    (h : receiveRun cfg ldr ms m w = .done status w' rest) : rest <:+ ms := by
  induction ms generalizing m w with
  | nil =>
    rw [receiveRun] at h
    split at h
    split at h
    · cases h
      exact List.suffix_refl _
    split at h
    · cases h
      exact List.suffix_refl _
    · cases h
  | cons m' ms ih =>
    rw [receiveRun] at h
    split at h
    split at h
    · cases h
      exact List.suffix_refl _
    split at h
    · cases h
      exact List.suffix_refl _
    split at h
    · cases h
      exact List.suffix_cons m' _
    split at h
    · cases h
      exact List.suffix_cons m' _
    · exact (ih h).trans (List.suffix_cons m' ms)

/-- A reception that ended with `STATUS_OK` has read a complete series and has saved all of it. -/
theorem receiveMessagesLoop_ok {fuel : ℕ} {hdr : MessageHdr} {w w' : W} {rx rest : Rx}
    (h : receiveMessagesLoop cfg ldr hdr.messageType hdr.flowControlFlags fuel hdr w rx =
      (statusOk, w', rest)) :
    ∃ m ms, m.hdr = hdr ∧ Series m ms ∧ rx = bytes (m.payload ++ wires ms) ++ rest ∧
      saveMessages cfg ldr w (m :: ms) = (statusOk, w') := by
  induction fuel generalizing hdr w rx with
  | zero => exact absurd (congrArg Prod.fst h) kenningProtocolTimeout_ne
  | succ fuel ih =>
    rw [receiveMessagesLoop] at h
    rcases hpart : (if hdr.flags.hasPayload
      then receiveMessagePayload cfg ldr hdr.payloadSize.toNat w rx
      else (statusOk, w, rx)) with ⟨status, w₁, rx₁⟩
    rw [hpart] at h
    by_cases hs : status = statusOk
    swap
    · simp only [hs, ne_eq, not_false_eq_true, if_true] at h
      exact absurd (congrArg Prod.fst h) hs
    subst hs
    obtain ⟨m, rfl, rfl, hsave⟩ := receivePart_ok cfg ldr hpart
    have hstep (ms : List Message) :
        saveMessages cfg ldr w (m :: ms) = saveMessages cfg ldr w₁ ms := by
      rw [saveMessages, hsave]
      rfl
    simp only [ne_eq, not_true_eq_false, if_false] at h
    by_cases hl : m.hdr.flags.last = true
    · rw [if_pos hl] at h
      obtain ⟨-, rfl, rfl⟩ := h
      exact ⟨m, [], rfl, .last hl, by rw [wires_nil, List.append_nil], hstep []⟩
    rw [if_neg hl] at h
    rcases hh : receiveMessageHeader rx₁ with ⟨status | hdr', rx₂⟩
    · rw [hh] at h
      exact absurd (congrArg Prod.fst h) (receiveMessageHeader_error hh)
    rw [hh] at h
    simp only at h
    by_cases ht : hdr'.messageType = m.hdr.messageType
    swap
    · rw [if_pos ht] at h
      exact absurd (congrArg Prod.fst h) invalidMessageType_ne
    by_cases hf : hdr'.flowControlFlags = m.hdr.flowControlFlags
    swap
    · rw [if_neg (not_not_intro ht), if_pos hf] at h
      exact absurd (congrArg Prod.fst h) flowControlError_ne
    rw [if_neg (not_not_intro ht), if_neg (not_not_intro hf), ← ht, ← hf] at h
    -- The header that was read passed both checks, so it goes on with the same kind.
    obtain ⟨m', ms, rfl, hseries, rfl, hms⟩ := ih h
    refine ⟨m, m' :: ms, rfl, .more (Bool.not_eq_true _ ▸ hl) ⟨ht, hf⟩ hseries, ?_, ?_⟩
    · rw [receiveMessageHeader_ok hh, wires_cons]
      simp only [bytes_append, List.append_assoc]
    · rw [hstep, hms]

end

end KenningRuntime
