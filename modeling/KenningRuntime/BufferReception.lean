import KenningRuntime.LoaderSimulation

/-! What a buffer loader keeps of a payload that is saved in chunks. -/
namespace KenningRuntime
open Chunks

section
variable (cfg : Config) {C : ℕ}

/-- The bytes a buffer can still take. -/
def BufLoader.room (l : BufLoader C) : ℕ := C-l.written

/-- The status of a payload loop whose last round saved its chunk, or did not. -/
def savedStatus (saved : Bool) : Status :=
  if saved then statusOk else kenningProtocolStatusMsgTooBig

@[simp] theorem savedStatus_eq_ok {saved : Bool} : savedStatus saved = statusOk ↔ saved = true := by
  cases saved
  · exact ⟨fun h => absurd h msgTooBig_ne, fun h => absurd h Bool.false_ne_true⟩
  · exact ⟨fun _ => rfl, fun _ => rfl⟩

/-- A buffer takes a chunk whole or leaves it. -/
theorem saveChunk_offer (s : Status × BufLoader C) (chunk : List UInt8) (saved : Bool) :
    (saveChunk (msgLoaderBuf C) s chunk).1 = savedStatus (offer (saved, s.2.room) chunk.length).1 ∧
      (saveChunk (msgLoaderBuf C) s chunk).2.room = (offer (saved, s.2.room) chunk.length).2 := by
  have hle := s.2.written_le
  have hroom : s.2.room = C-s.2.written := rfl
  by_cases h : chunk.length ≤ s.2.room
  · have hsave := bufSave_fit s.2 chunk (by omega)
    rw [offer, if_pos h]
    constructor
    · simp only [saveChunk, msgLoaderBuf, hsave, ne_eq, not_true_eq_false, if_false]
      rfl
    · simp only [saveChunk, msgLoaderBuf, hsave, BufLoader.room, BufLoader.written_append]
      omega
  · have hsave := bufSave_full s.2 chunk (by omega)
    rw [offer, if_neg h]
    constructor
    · simp only [saveChunk, msgLoaderBuf, hsave, notEnoughMemory_ne, ne_eq, not_false_eq_true,
        if_true]
      rfl
    · simp only [saveChunk, msgLoaderBuf, hsave]

theorem saveChunks_offers (cs : List (List UInt8)) (saved : Bool) (l : BufLoader C) :
    (cs.foldl (saveChunk (msgLoaderBuf C)) (savedStatus saved, l)).1 =
        savedStatus ((cs.map List.length).foldl offer (saved, l.room)).1 ∧
      (cs.foldl (saveChunk (msgLoaderBuf C)) (savedStatus saved, l)).2.room =
        ((cs.map List.length).foldl offer (saved, l.room)).2 := by
  induction cs generalizing saved l with
  | nil => exact ⟨rfl, rfl⟩
  | cons c cs ih =>
    obtain ⟨hst, hroom⟩ := saveChunk_offer (savedStatus saved, l) c saved
    have h := ih (offer (saved, l.room) c.length).1
      (saveChunk (msgLoaderBuf C) (savedStatus saved, l) c).2
    rw [hroom, ← hst] at h
    exact h

theorem saveChunks_fit (cs : List (List UInt8)) (l : BufLoader C) (h : cs.flatten.length ≤ l.room) :
    ∃ l', cs.foldl (saveChunk (msgLoaderBuf C)) (statusOk, l) = (statusOk, l') ∧
      l'.stored = l.stored ++ cs.flatten := by
  induction cs generalizing l with
  | nil => exact ⟨l, rfl, (List.append_nil _).symm⟩
  | cons c cs ih =>
    rw [List.flatten_cons, List.length_append, BufLoader.room] at h
    have hle := l.written_le
    have hsave := bufSave_fit l c (by omega)
    have hchunk : saveChunk (msgLoaderBuf C) (statusOk, l) c = (statusOk, l.append c (by omega)) := by
      simp only [saveChunk, msgLoaderBuf, hsave, ne_eq, not_true_eq_false, if_false]
    obtain ⟨l', hl', hstored⟩ := ih (l.append c (by omega)) (by
      rw [BufLoader.room, BufLoader.written_append]
      omega)
    refine ⟨l', by rw [List.foldl_cons, hchunk, hl'], ?_⟩
    rw [hstored, BufLoader.stored_append, List.flatten_cons, List.append_assoc]

theorem savePayload_fit (l : BufLoader C) (payload : List UInt8) (h : payload.length ≤ l.room) :
    ∃ l', savePayload cfg (msgLoaderBuf C) l payload = (statusOk, l') ∧
      l'.stored = l.stored ++ payload := by
  have hflat := flatten_chunks cfg.messageRecvBufferSize cfg.messageRecvBufferSize_pos payload
  obtain ⟨l', hl', hstored⟩ := saveChunks_fit (chunks cfg.messageRecvBufferSize payload) l
    (by rw [hflat]; exact h)
  exact ⟨l', hl', by rw [hstored, hflat]⟩

/-- What fits is received: the payloads of the messages one after the other. -/
theorem saveMessages_fit (l : BufLoader C) (ms : List Message) (h : (payloads ms).length ≤ l.room) :
    ∃ l', saveMessages cfg (msgLoaderBuf C) l ms = (statusOk, l') ∧
      l'.stored = l.stored ++ payloads ms := by
  induction ms generalizing l with
  | nil => exact ⟨l, rfl, (List.append_nil _).symm⟩
  | cons m ms ih =>
    rw [payloads_cons, List.length_append] at h
    obtain ⟨l₁, hl₁, hstored₁⟩ := savePayload_fit cfg l m.payload (by omega)
    have hlen := congrArg List.length hstored₁
    rw [List.length_append, BufLoader.length_stored, BufLoader.length_stored] at hlen
    rw [BufLoader.room] at h
    obtain ⟨l₂, hl₂, hstored₂⟩ := ih l₁ (by rw [BufLoader.room]; omega)
    refine ⟨l₂, ?_, by rw [hstored₂, hstored₁, payloads_cons, List.append_assoc]⟩
    simp only [saveMessages, hl₁, ne_eq, not_true_eq_false, if_false, hl₂]

/-- Whether a series of payloads of these sizes is refused by a buffer with that much room: a
payload that does not fit is refused unless its last chunk is a short one that still fits. A payload
that is let pass so leaves only that chunk and the full chunks before the first that was too big. -/
def refuses (B : ℕ) : ℕ → List ℕ → Bool
  | _, [] => false
  | room, n :: ns =>
    if n ≤ room then refuses B (room-n) ns
    else if 0 < n%B ∧ n%B ≤ room%B then refuses B (room%B-n%B) ns
    else true

theorem savePayload_offers (l : BufLoader C) (payload : List UInt8) :
    (savePayload cfg (msgLoaderBuf C) l payload).1 =
        savedStatus (payload.length ≤ l.room ∨ (0 < payload.length%cfg.messageRecvBufferSize ∧
          payload.length%cfg.messageRecvBufferSize ≤ l.room%cfg.messageRecvBufferSize)) ∧
      (savePayload cfg (msgLoaderBuf C) l payload).2.room =
        if payload.length ≤ l.room then l.room-payload.length
        else if 0 < payload.length%cfg.messageRecvBufferSize ∧
          payload.length%cfg.messageRecvBufferSize ≤ l.room%cfg.messageRecvBufferSize
        then l.room%cfg.messageRecvBufferSize-payload.length%cfg.messageRecvBufferSize
        else l.room%cfg.messageRecvBufferSize := by
  have hB := cfg.messageRecvBufferSize_pos
  have h := saveChunks_offers (chunks cfg.messageRecvBufferSize payload) true l
  by_cases hfit : payload.length ≤ l.room
  · have hsum : ((chunks cfg.messageRecvBufferSize payload).map List.length).sum = payload.length := by
      rw [← List.length_flatten, flatten_chunks _ hB]
    -- Every chunk is saved.
    rw [offers_fit _ _ _ (hsum.trans_le hfit), hsum, Bool.true_or] at h
    rw [if_pos hfit, decide_eq_true (Or.inl hfit)]
    exact h
  · -- The status is that of the last chunk, which is saved if it is short and fits.
    rw [offers_overflow _ hB _ _ _ (Nat.lt_of_not_le hfit)] at h
    rw [if_neg hfit]
    simp only [hfit, false_or]
    by_cases hs : 0 < payload.length%cfg.messageRecvBufferSize ∧
        payload.length%cfg.messageRecvBufferSize ≤ l.room%cfg.messageRecvBufferSize
    · rw [if_pos hs] at h ⊢
      rw [decide_eq_true hs]
      exact h
    · rw [if_neg hs] at h ⊢
      rw [decide_eq_false hs]
      exact h

/-- A series is received with `STATUS_OK` exactly if no message of it is refused. -/
theorem saveMessages_refuses (l : BufLoader C) (ms : List Message) :
    (saveMessages cfg (msgLoaderBuf C) l ms).1 =
      savedStatus (!refuses cfg.messageRecvBufferSize l.room (ms.map fun m => m.payload.length)) := by
  induction ms generalizing l with
  | nil => rfl
  | cons m ms ih =>
    obtain ⟨hst, hroom⟩ := savePayload_offers cfg l m.payload
    rw [List.map_cons, refuses, saveMessages]
    by_cases hfit : m.payload.length ≤ l.room
    · rw [if_pos hfit] at hroom ⊢
      rw [decide_eq_true (Or.inl hfit)] at hst
      simp only [savedStatus_eq_ok.mpr rfl] at hst
      simp only [hst, ne_eq, not_true_eq_false, if_false, ih, hroom]
    rw [if_neg hfit] at hroom ⊢
    by_cases hs : 0 < m.payload.length%cfg.messageRecvBufferSize ∧
        m.payload.length%cfg.messageRecvBufferSize ≤ l.room%cfg.messageRecvBufferSize
    · -- The payload is let pass, and the reception goes on.
      rw [if_pos hs] at hroom ⊢
      rw [decide_eq_true (Or.inr hs)] at hst
      simp only [savedStatus_eq_ok.mpr rfl] at hst
      simp only [hst, ne_eq, not_true_eq_false, if_false, ih, hroom]
    · rw [if_neg hs]
      rw [decide_eq_false (not_or.mpr ⟨hfit, hs⟩)] at hst
      have hne : savedStatus false ≠ statusOk := msgTooBig_ne
      simp only [hst, hne, ne_eq, not_false_eq_true, if_true, Bool.not_true]

end

theorem bufSave_tail {C : ℕ} (mem : List UInt8) (l : BufLoader C) (src : List UInt8)
    (h : l.mem.drop l.written = mem.drop l.written) :
    (bufSave l src).2.mem.drop (bufSave l src).2.written = mem.drop (bufSave l src).2.written := by
  by_cases hfit : l.written+src.length ≤ C
  · rw [bufSave_fit l src hfit, BufLoader.written_append]
    have hdrop : (Memory.splice l.mem l.written src).drop (l.written+src.length) =
        l.mem.drop (l.written+src.length) :=
      Memory.drop_splice (by rw [l.mem_length]; exact hfit)
    rw [show (l.append src hfit).mem = Memory.splice l.mem l.written src from rfl, hdrop,
      ← List.drop_drop, h, List.drop_drop]
  · rw [bufSave_full l src (Nat.lt_of_not_le hfit)]
    exact h

/-! ### Listening with a buffer loader -/

section
open ByteSource
variable (cfg : Config) {C : ℕ} {W : Type} (L : Lens W (BufLoader C))
variable {loaderCallback : W → MessageType → Option (MsgLoader W)} {hdr : MessageHdr}
  {t : MessageType} {w : W}

/-- The event that a message with header `h` starts, when the buffer holds `written` bytes at its
end. -/
def bufferEvent (h : MessageHdr) (t : MessageType) (written : ℕ) : ProtocolEvent :=
  ⟨t, h.flags, h.isRequest, written⟩

theorem eventOf_buf (l : BufLoader C) :
    eventOf cfg hdr t (some ((msgLoaderBuf C).lift L)) (L.set w l) = bufferEvent hdr t l.written := by
  simp only [eventOf, bufferEvent, loaderWritten, MsgLoader.lift, msgLoaderBuf, Lens.get_set,
    BufLoader.written_mod]

/-- The reset of a buffer never fails, so an opening message with a payload is received. -/
theorem protocolListen_buf (h : Opens hdr t) (hp : hdr.flags.hasPayload = true)
    (hldr : loaderCallback w t = some ((msgLoaderBuf C).lift L)) (rx : Rx) :
    protocolListen cfg loaderCallback w (bytes hdr.encode ++ rx) =
      match receiveMessages cfg (msgLoaderBuf C) hdr (bufReset (L.get w)).2 rx with
      | (status, l, rx) =>
        if status ≠ statusOk then some ⟨.error status, L.set w l, rx⟩
        else some ⟨.ok (bufferEvent hdr t l.written), L.set w l, rx⟩ := by
  have hreset : ((msgLoaderBuf C).lift L).reset w =
      (statusOk, L.set w (bufReset (L.get w)).2) := rfl
  rw [protocolListen_payload cfg loaderCallback h hp hldr, hreset, if_neg (not_not_intro rfl),
    receiveMessages_lift]
  simp only [Lens.get_set, Lens.set_set, eventOf_buf]

theorem protocolListen_buf_empty (h : Opens hdr t) (hp : hdr.flags.hasPayload = false)
    (hldr : loaderCallback w t = some ((msgLoaderBuf C).lift L)) (rx : Rx) :
    protocolListen cfg loaderCallback w (bytes hdr.encode ++ rx) =
      some ⟨.ok (bufferEvent hdr t (L.get w).written), w, rx⟩ := by
  have hevent : eventOf cfg hdr t (some ((msgLoaderBuf C).lift L)) (L.set w (L.get w)) =
      bufferEvent hdr t (L.get w).written := eventOf_buf cfg L (L.get w)
  rw [L.set_get] at hevent
  rw [protocolListen_empty cfg loaderCallback h hp, hldr, hevent]

theorem protocolListen_series {m : Message} {ms : List Message} (h : Opens m.hdr t)
    (hp : m.hdr.flags.hasPayload = true) (hs : Series m ms)
    (hldr : loaderCallback w t = some ((msgLoaderBuf C).lift L)) (tail : Rx) :
    let s := saveMessages cfg (msgLoaderBuf C) (bufReset (L.get w)).2 (m :: ms)
    ∃ left, protocolListen cfg loaderCallback w (bytes (wires (m :: ms)) ++ tail) =
      if s.1 ≠ statusOk then some ⟨.error s.1, L.set w s.2, bytes (wires left) ++ tail⟩
      else some ⟨.ok (bufferEvent m.hdr t s.2.written), L.set w s.2, tail⟩ := by
  intro s
  obtain ⟨left, hrec, hleft⟩ := receiveMessages_series cfg (msgLoaderBuf C) hs
    (bufReset (L.get w)).2 tail
  refine ⟨left, ?_⟩
  rw [wires_cons, bytes_append, List.append_assoc, protocolListen_buf cfg L h hp hldr, hrec]
  by_cases hst : s.1 = statusOk
  · simp only [s] at hst hleft ⊢
    rw [hleft hst, wires_nil, bytes_nil, List.nil_append]
  · simp only [s, hst, not_false_eq_true, ne_eq, if_true]

/-- What a reception stores is copied to the start of the memory, and the rest of it stays. -/
theorem receiveMessages_mem (hdr : MessageHdr) (l : BufLoader C) (rx : Rx) :
    (receiveMessages cfg (msgLoaderBuf C) hdr (bufReset l).2 rx).2.1.mem =
      Memory.splice l.mem 0 (receiveMessages cfg (msgLoaderBuf C) hdr (bufReset l).2 rx).2.1.stored := by
  have htail : (receiveMessages cfg (msgLoaderBuf C) hdr (bufReset l).2 rx).2.1.mem.drop
      (receiveMessages cfg (msgLoaderBuf C) hdr (bufReset l).2 rx).2.1.written =
        l.mem.drop (receiveMessages cfg (msgLoaderBuf C) hdr (bufReset l).2 rx).2.1.written := by
    apply receiveMessages_keeps cfg
      (P := fun l' : BufLoader C => l'.mem.drop l'.written = l.mem.drop l'.written)
    · exact fun l' src h => bufSave_tail l.mem l' src h
    · rfl
  generalize (receiveMessages cfg (msgLoaderBuf C) hdr (bufReset l).2 rx).2.1 = l' at htail ⊢
  calc l'.mem = l'.mem.take l'.written ++ l'.mem.drop l'.written := (List.take_append_drop _ _).symm
    _ = l'.stored ++ l.mem.drop l'.stored.length := by
      rw [htail, BufLoader.length_stored]
      rfl
    _ = Memory.splice l.mem 0 l'.stored := by
      rw [Memory.splice, List.take_zero, List.nil_append, Nat.zero_add]

/-- A complete series that fits is copied to the start of the memory, and the rest of it stays. -/
theorem receiveMessages_fit {m : Message} {ms : List Message} (h : Series m ms) (l : BufLoader C)
    (hlen : (payloads (m :: ms)).length ≤ C) (tail : Rx) :
    ∃ l' : BufLoader C, receiveMessages cfg (msgLoaderBuf C) m.hdr (bufReset l).2
        (bytes (m.payload ++ wires ms) ++ tail) = (statusOk, l', tail) ∧
      l'.mem = Memory.splice l.mem 0 (payloads (m :: ms)) := by
  obtain ⟨left, hrec, hleft⟩ := receiveMessages_series cfg (msgLoaderBuf C) h (bufReset l).2 tail
  obtain ⟨l', hsave, hstored⟩ := saveMessages_fit cfg (bufReset l).2 (m :: ms) hlen
  rw [hsave] at hrec hleft
  rw [hleft rfl, wires_nil, bytes_nil, List.nil_append] at hrec
  rw [bufReset_stored, List.nil_append] at hstored
  have hmem := receiveMessages_mem cfg m.hdr l (bytes (m.payload ++ wires ms) ++ tail)
  rw [hrec] at hmem
  exact ⟨l', hrec, by rw [hmem, hstored]⟩

end

end KenningRuntime
