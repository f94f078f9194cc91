import KenningRuntime.Framing
import KenningRuntime.Library.Chunks

/-! What the receiving functions do on a stream of whole messages, and that a reception that ends
with `STATUS_OK` has read one. -/
namespace KenningRuntime
open ByteSource Chunks

@[simp] theorem checkProtocolStatus_ok : checkProtocolStatus statusOk = statusOk := by decide

theorem checkProtocolStatus_eq_ok {s : Status} : checkProtocolStatus s = statusOk ↔ s = statusOk := by
  unfold checkProtocolStatus
  by_cases ht : s = protocolStatusTimeout
  · rw [if_pos ht, ht]
    exact ⟨fun h => absurd h kenningProtocolTimeout_ne, fun h => absurd h protocolTimeout_ne⟩
  · rw [if_neg ht]
    by_cases hs : s = statusOk
    · rw [if_neg (not_not_intro hs)]
      exact ⟨fun _ => hs, fun _ => rfl⟩
    · rw [if_pos hs]
      exact ⟨fun h => absurd h lowerLayerError_ne, fun h => absurd h hs⟩

theorem protocolReadData_bytes (bs : List UInt8) (rx : Rx) :
    protocolReadData bs.length (bytes bs ++ rx) = (statusOk, bs, rx) := by
  rw [protocolReadData, read_bytes]

theorem protocolReadData_ok {n : ℕ} {rx rest : Rx} {data : List UInt8}
    (h : protocolReadData n rx = (statusOk, data, rest)) :
    data.length = n ∧ rx = bytes data ++ rest := by
  unfold protocolReadData at h
  split at h
  · next hr =>
    obtain ⟨-, rfl, rfl⟩ := h
    exact read_ok _ hr
  · next e _ _ _ => exact absurd (congrArg Prod.fst h) e.property

theorem protocolSkipData_bytes (bs : List UInt8) (rx : Rx) :
    protocolSkipData bs.length (bytes bs ++ rx) = rx := by
  rw [protocolSkipData, protocolReadData_bytes]

theorem receiveMessageHeader_nil :
    receiveMessageHeader [] = (.error kenningProtocolStatusTimeout, []) := rfl

theorem receiveMessageHeader_encode (hdr : MessageHdr) (rx : Rx) :
    receiveMessageHeader (bytes hdr.encode ++ rx) = (.ok hdr, rx) := by
  have hr := protocolReadData_bytes hdr.encode rx
  rw [MessageHdr.length_encode] at hr
  simp only [receiveMessageHeader, hr, checkProtocolStatus_ok, ne_eq, not_true_eq_false, if_false,
    MessageHdr.decode_encode]

theorem receiveMessageHeader_ok {rx rest : Rx} {hdr : MessageHdr}
    (h : receiveMessageHeader rx = (.ok hdr, rest)) : rx = bytes hdr.encode ++ rest := by
  unfold receiveMessageHeader at h
  rcases hr : protocolReadData messageHdrSize rx with ⟨status, data, rx'⟩
  simp only [hr] at h
  split at h
  · cases h
  · next hs =>
    cases h
    rw [not_not, checkProtocolStatus_eq_ok] at hs
    subst hs
    obtain ⟨hlen, rfl⟩ := protocolReadData_ok hr
    rw [MessageHdr.encode_decode data hlen]

theorem receiveMessageHeader_error {rx rest : Rx} {status : Status}
    (h : receiveMessageHeader rx = (.error status, rest)) : status ≠ statusOk := by
  unfold receiveMessageHeader at h
  rcases hr : protocolReadData messageHdrSize rx with ⟨s, data, rx'⟩
  simp only [hr] at h
  split at h
  · next hs =>
    cases h
    exact hs
  · cases h

/-! ### One payload -/

section
variable (cfg : Config) {W : Type} (ldr : MsgLoader W)

/-- A round of the payload loop: the status it leaves does not depend on the one before. -/
def saveChunk (s : Status × W) (chunk : List UInt8) : Status × W :=
  (if (ldr.save s.2 chunk).1 ≠ statusOk then kenningProtocolStatusMsgTooBig else statusOk,
    (ldr.save s.2 chunk).2)

/-- A payload is saved in chunks of the size of the receive buffer. -/
def savePayload (w : W) (payload : List UInt8) : Status × W :=
  (chunks cfg.messageRecvBufferSize payload).foldl (saveChunk ldr) (statusOk, w)

@[simp] theorem savePayload_nil (w : W) : savePayload cfg ldr w [] = (statusOk, w) := by
  rw [savePayload, chunks_nil, List.foldl_nil]

theorem toRead_eq (n : ℕ) :
    (if cfg.messageRecvBufferSize > n then n else cfg.messageRecvBufferSize) =
      min n cfg.messageRecvBufferSize := by
  split <;> omega

theorem receivePayloadLoop_bytes {fuel : ℕ} {data : List UInt8} (hfuel : data.length ≤ fuel)
    (status : Status) (w : W) (rest : Rx) :
    receivePayloadLoop cfg ldr fuel data.length status w (bytes data ++ rest) =
      (((chunks cfg.messageRecvBufferSize data).foldl (saveChunk ldr) (status, w)).1,
        ((chunks cfg.messageRecvBufferSize data).foldl (saveChunk ldr) (status, w)).2, rest) := by
  have hB := cfg.messageRecvBufferSize_pos
  induction fuel generalizing data status w with
  | zero =>
    obtain rfl : data = [] := List.length_eq_zero_iff.mp (Nat.le_zero.mp hfuel)
    simp only [receivePayloadLoop, chunks_nil, List.foldl_nil, bytes_nil, List.nil_append]
  | succ fuel ih =>
    rw [receivePayloadLoop]
    by_cases hd : data = []
    · subst hd
      simp only [List.length_nil, if_true, chunks_nil, List.foldl_nil, bytes_nil, List.nil_append]
    have hpos : 0 < data.length := List.length_pos_iff.mpr hd
    have hlen : (data.take cfg.messageRecvBufferSize).length =
        min data.length cfg.messageRecvBufferSize := by rw [List.length_take, min_comm]
    -- The read takes the next chunk.
    have hread : protocolReadData (min data.length cfg.messageRecvBufferSize) (bytes data ++ rest) =
        (statusOk, data.take cfg.messageRecvBufferSize,
          bytes (data.drop cfg.messageRecvBufferSize) ++ rest) := by
      calc protocolReadData (min data.length cfg.messageRecvBufferSize) (bytes data ++ rest)
          = protocolReadData (data.take cfg.messageRecvBufferSize).length
              (bytes (data.take cfg.messageRecvBufferSize) ++
                (bytes (data.drop cfg.messageRecvBufferSize) ++ rest)) := by
            rw [hlen, ← List.append_assoc, ← bytes_append, List.take_append_drop]
        _ = _ := protocolReadData_bytes _ _
    have hrest : data.length-min data.length cfg.messageRecvBufferSize =
        (data.drop cfg.messageRecvBufferSize).length := by
      rw [List.length_drop]
      omega
    rw [if_neg hpos.ne', toRead_eq]
    simp only [hread, checkProtocolStatus_ok, ne_eq, not_true_eq_false, if_false]
    rw [hrest, ih (by rw [List.length_drop]; omega), chunks_cons _ hB data hd, List.foldl_cons]
    rfl

theorem receiveMessagePayload_bytes (data : List UInt8) (w : W) (rest : Rx) :
    receiveMessagePayload cfg ldr data.length w (bytes data ++ rest) =
      ((savePayload cfg ldr w data).1, (savePayload cfg ldr w data).2, rest) :=
  receivePayloadLoop_bytes cfg ldr le_rfl statusOk w rest

theorem receivePayloadLoop_ok {fuel n : ℕ} (hfuel : n ≤ fuel) {status : Status} {w w' : W}
    {rx rest : Rx} (h : receivePayloadLoop cfg ldr fuel n status w rx = (statusOk, w', rest)) :
    ∃ data : List UInt8, data.length = n ∧ rx = bytes data ++ rest := by
  have hB := cfg.messageRecvBufferSize_pos
  induction fuel generalizing n status w rx with
  | zero =>
    obtain rfl : n = 0 := Nat.le_zero.mp hfuel
    obtain ⟨-, -, rfl⟩ := h
    exact ⟨[], rfl, rfl⟩
  | succ fuel ih =>
    rw [receivePayloadLoop, toRead_eq] at h
    by_cases hn : n = 0
    · subst hn
      obtain ⟨-, -, rfl⟩ := h
      exact ⟨[], rfl, rfl⟩
    rw [if_neg hn] at h
    rcases hr : protocolReadData (min n cfg.messageRecvBufferSize) rx with ⟨s, got, rx'⟩
    simp only [hr] at h
    split at h
    · next hs => exact absurd (congrArg Prod.fst h) hs
    · next hs =>
      rw [not_not, checkProtocolStatus_eq_ok] at hs
      subst hs
      obtain ⟨hlen, rfl⟩ := protocolReadData_ok hr
      -- A chunk is not empty, so one unit of fuel less is enough for the others.
      obtain ⟨data, hdata, rfl⟩ := ih (by omega) h
      refine ⟨got ++ data, ?_, by rw [bytes_append, List.append_assoc]⟩
      rw [List.length_append, hlen, hdata]
      omega

/-- Each round reads a byte at least, so a bound from `n` on is never met. -/
theorem receivePayloadLoop_fuel {fuel fuel' n : ℕ} (hn : n ≤ fuel) (hn' : n ≤ fuel')
    (status : Status) (w : W) (rx : Rx) :
    receivePayloadLoop cfg ldr fuel n status w rx =
      receivePayloadLoop cfg ldr fuel' n status w rx := by
  have hB := cfg.messageRecvBufferSize_pos
  induction fuel generalizing fuel' n status w rx with
  | zero =>
    obtain rfl : n = 0 := Nat.le_zero.mp hn
    cases fuel' <;> rfl
  | succ fuel ih =>
    cases fuel' with
    | zero =>
      obtain rfl : n = 0 := Nat.le_zero.mp hn'
      rfl
    | succ fuel' =>
      simp only [receivePayloadLoop, toRead_eq]
      by_cases h0 : n = 0
      · rw [if_pos h0, if_pos h0]
      rw [if_neg h0, if_neg h0]
      have hleft : n-min n cfg.messageRecvBufferSize ≤ fuel := by omega
      have hleft' : n-min n cfg.messageRecvBufferSize ≤ fuel' := by omega
      simp only [ih hleft hleft']

/-- A payload that was received with `STATUS_OK` was there in full. -/
theorem receiveMessagePayload_ok {n : ℕ} {w w' : W} {rx rest : Rx}
    (h : receiveMessagePayload cfg ldr n w rx = (statusOk, w', rest)) :
    ∃ data : List UInt8, data.length = n ∧ rx = bytes data ++ rest ∧
      savePayload cfg ldr w data = (statusOk, w') := by
  obtain ⟨data, rfl, rfl⟩ := receivePayloadLoop_ok cfg ldr le_rfl h
  rw [receiveMessagePayload_bytes] at h
  have hs := congrArg Prod.fst h
  have hw := congrArg (fun r => r.2.1) h
  exact ⟨data, rfl, rfl, Prod.ext hs hw⟩

end

end KenningRuntime
