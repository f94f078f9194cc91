import KenningRuntime.Library.SizedEntries
import KenningRuntime.Library.Transition
import KenningRuntime.Logger

/-! What becomes of log messages: the entries in the buffer, and those that were sent. -/
namespace KenningRuntime
open SizedEntries Transition

namespace Logger

variable {S : ℕ}

/-- The bytes of the messages that were added and not sent yet. -/
def pending (l : Logger S) : List UInt8 := l.msgBuffer.bytes.take l.msgBufferLen

/-- The number of characters that the buffer has room for, behind a size byte. -/
def room (l : Logger S) : ℕ := S-1-l.msgBufferLen

/-- The number of characters of a text that are placed in a buffer with that much room. -/
def fitted (text : List UInt8) (room : ℕ) : ℕ := min text.length (min maxSingleMessageLength room)

/-- The entry of a text in a buffer with that much room. The last character that fits is dropped, which
is the line feed if the text is not cut off. -/
def entryOf (text : List UInt8) (room : ℕ) : Option (List UInt8) :=
  if fitted text room = 0 then none else some (text.take (fitted text room-1))

theorem entryOf_prefix {text e : List UInt8} {room : ℕ} (h : entryOf text room = some e) :
    e <+: text := by
  rw [entryOf] at h
  split at h
  · cases h
  · cases h
    exact List.take_prefix _ _

theorem entryOf_none {text : List UInt8} {room : ℕ} (hne : text ≠ []) (h : entryOf text room = none) :
    room = 0 := by
  have hlen : 0 < text.length := List.length_pos_iff.mpr hne
  rw [entryOf] at h
  split at h
  · next hz =>
    rw [fitted, maxSingleMessageLength] at hz
    omega
  · cases h

theorem entryOf_length {text e : List UInt8} {room : ℕ} (h : entryOf text room = some e) :
    e.length < 256 := by
  rw [entryOf] at h
  split at h
  · cases h
  · cases h
    have hle : fitted text room ≤ maxSingleMessageLength := (min_le_right _ _).trans (min_le_left _ _)
    rw [List.length_take]
    rw [maxSingleMessageLength] at hle
    omega

/-- The logger with one more character of the current message. -/
def withCharacter (c : UInt8) (l : Logger S) : Logger S :=
  {l with
    msgBuffer := ⟨l.msgBuffer.bytes.set (l.msgBufferLen+1+l.currMsgLen) c, l.msgBuffer.length_set _ c⟩
    currMsgLen := l.currMsgLen+1 }

theorem renderCharacter_fits (c : UInt8) {l : Logger S}
    (h : l.currMsgLen < min maxSingleMessageLength l.room) :
    renderCharacter [c] l = some (1, l.withCharacter c) := by
  obtain ⟨hmax, hroom⟩ := lt_min_iff.mp h
  have hindex : 0+l.currMsgLen+l.msgBufferLen+1 = l.msgBufferLen+1+l.currMsgLen := by omega
  have hlt : l.msgBufferLen+1+l.currMsgLen < S := by
    rw [room] at hroom
    omega
  have hno : ¬ (l.msgBufferLen+1+l.currMsgLen ≥ S ∨ l.currMsgLen ≥ maxSingleMessageLength) := by omega
  simp only [renderCharacter, renderLoop, hindex, if_neg hno, Buffer.assign, if_pos hlt]
  rfl

theorem renderCharacter_full (c : UInt8) {l : Logger S}
    (h : min maxSingleMessageLength l.room ≤ l.currMsgLen) :
    renderCharacter [c] l = some (0, l) := by
  have hfull : 0+l.currMsgLen+l.msgBufferLen+1 ≥ S ∨ l.currMsgLen ≥ maxSingleMessageLength := by
    rw [room] at h
    rcases min_le_iff.mp h with hmax | hroom
    · exact Or.inr hmax
    · exact Or.inl (by omega)
  simp only [renderCharacter, renderLoop, if_pos hfull]

/-- The characters of a text that fit are placed one after the other, and the others are dropped. -/
structure Rendered (text : List UInt8) (l l' : Logger S) : Prop where
  msgBufferLen : l'.msgBufferLen = l.msgBufferLen
  sendingLogs : l'.sendingLogs = l.sendingLogs
  currMsgLen : l'.currMsgLen = min (l.currMsgLen+text.length) (min maxSingleMessageLength l.room)
  bytes : l'.msgBuffer.bytes = Memory.splice l.msgBuffer.bytes (l.msgBufferLen+1+l.currMsgLen)
    (text.take (l'.currMsgLen-l.currMsgLen))

theorem logOutputMsgProcess_rendered (text : List UInt8) {l : Logger S}
    (h : l.currMsgLen ≤ min maxSingleMessageLength l.room) :
    ∃ l', logOutputMsgProcess text l = some l' ∧ Rendered text l l' := by
  -- From the first character on that does not fit, none does.
  induction text generalizing l with
  | nil =>
    refine ⟨l, rfl, rfl, rfl, ?_, ?_⟩
    · rw [List.length_nil, Nat.add_zero, min_eq_left h]
    · rw [List.take_nil, Memory.splice_nil]
  | cons c text ih =>
    rcases Nat.lt_or_ge l.currMsgLen (min maxSingleMessageLength l.room) with hlt | hge
    · have hroom : (l.withCharacter c).room = l.room := rfl
      have hcurr : (l.withCharacter c).currMsgLen = l.currMsgLen+1 := rfl
      obtain ⟨l', hl', hr⟩ := ih (l := l.withCharacter c) (by rw [hroom, hcurr]; omega)
      have hcount := hr.currMsgLen
      rw [hroom, hcurr] at hcount
      refine ⟨l', ?_, hr.msgBufferLen, hr.sendingLogs, ?_, ?_⟩
      · simp only [logOutputMsgProcess, renderCharacter_fits c hlt, hl']
      · rw [hcount, List.length_cons]
        congr 1
        omega
      · -- The character and the rest of the text are one copy.
        have hbytes := hr.bytes
        have hset : (l.withCharacter c).msgBuffer.bytes =
          l.msgBuffer.bytes.set (l.msgBufferLen+1+l.currMsgLen) c := rfl
        have hlen : (l.withCharacter c).msgBufferLen = l.msgBufferLen := rfl
        have hindex : l.msgBufferLen+1+l.currMsgLen < l.msgBuffer.bytes.length := by
          rw [l.msgBuffer.length_eq]
          have hfit := (lt_min_iff.mp hlt).2
          rw [room] at hfit
          omega
        have hsub : l'.currMsgLen-l.currMsgLen = (l'.currMsgLen-(l.currMsgLen+1))+1 := by omega
        rw [hbytes, hset, hlen, hcurr, ← Nat.add_assoc, Memory.splice_set hindex, hsub,
          List.take_succ_cons]
    · obtain ⟨l', hl', hr⟩ := ih h
      have hcount := hr.currMsgLen
      refine ⟨l', ?_, hr.msgBufferLen, hr.sendingLogs, ?_, ?_⟩
      · simp only [logOutputMsgProcess, renderCharacter_full c hge, hl']
      · rw [hcount, List.length_cons]
        omega
      · have hsub : l'.currMsgLen-l.currMsgLen = 0 := by omega
        rw [hr.bytes, hsub, List.take_zero, List.take_zero]

/-- A message is added to the buffer: its entry follows those that are there. -/
structure Added (text : List UInt8) (l l' : Logger S) : Prop where
  msgBufferLen : l'.msgBufferLen = l.msgBufferLen+fitted text l.room
  sendingLogs : l'.sendingLogs = l.sendingLogs
  pending : l'.pending = l.pending ++ encode (entryOf text l.room).toList

theorem Added.len_lt {text : List UInt8} {l l' : Logger S} (h : Added text l l')
    (hlen : l.msgBufferLen < S) : l'.msgBufferLen < S := by
  have hfit : fitted text l.room ≤ S-1-l.msgBufferLen := (min_le_right _ _).trans (min_le_right _ _)
  rw [h.msgBufferLen]
  omega

theorem sizeByte_pred (k : ℕ) : UInt8.ofNat (k+1+255) = UInt8.ofNat k := by
  apply UInt8.toNat_inj.mp
  rw [UInt8.toNat_ofNat', UInt8.toNat_ofNat', Nat.add_assoc, Nat.add_mod_right]

theorem addMessage_added (text : List UInt8) {l : Logger S} (h : l.msgBufferLen < S) :
    ∃ l', addMessage text l = some l' ∧ Added text l l' := by
  obtain ⟨l₁, hl₁, hr⟩ := logOutputMsgProcess_rendered text (l := {l with currMsgLen := 0})
    (Nat.zero_le _)
  have hlen : l₁.msgBufferLen = l.msgBufferLen := hr.msgBufferLen
  have hcount : l₁.currMsgLen = fitted text l.room := by
    rw [hr.currMsgLen, Nat.zero_add]
    rfl
  have hbytes : l₁.msgBuffer.bytes = Memory.splice l.msgBuffer.bytes (l.msgBufferLen+1)
      (text.take (fitted text l.room)) := by
    rw [hr.bytes, hcount]
    rfl
  have hindex : l.msgBufferLen < l.msgBuffer.bytes.length := by
    rw [l.msgBuffer.length_eq]
    exact h
  have hfit : fitted text l.room ≤ text.length := min_le_left _ _
  let sizeByte := UInt8.ofNat (fitted text l.room+255)
  have hadd : addMessage text l = some {l₁ with
      msgBuffer := ⟨l₁.msgBuffer.bytes.set l.msgBufferLen sizeByte, l₁.msgBuffer.length_set _ _⟩
      msgBufferLen := l.msgBufferLen+fitted text l.room } := by
    simp only [addMessage, hl₁, Buffer.assign, hlen, if_pos h, hcount]
    rfl
  refine ⟨_, hadd, rfl, hr.sendingLogs, ?_⟩
  -- The new length cuts the last character off, since the size byte takes a place.
  have hpending : (l₁.msgBuffer.bytes.set l.msgBufferLen sizeByte).take
      (l.msgBufferLen+fitted text l.room) =
        l.pending ++ (sizeByte :: text.take (fitted text l.room)).take (fitted text l.room) := by
    rw [hbytes, Memory.set_splice hindex, Memory.take_splice_le hindex.le]
    · rfl
    · rw [List.length_cons, List.length_take]
      omega
  rw [pending, hpending, entryOf]
  congr 1
  rcases hk : fitted text l.room with _ | k
  · -- A size byte of -1 was written, but is not part of what is pending.
    rfl
  · -- One of the characters that fit is not in the entry.
    have hentry : (text.take (k+1-1)).length = k := by
      rw [List.length_take]
      omega
    have hbyte : sizeByte = UInt8.ofNat k := by
      rw [show sizeByte = UInt8.ofNat (fitted text l.room+255) from rfl, hk]
      exact sizeByte_pred k
    rw [if_neg (Nat.succ_ne_zero k), Option.toList_some, encode, List.flatMap_singleton, encodeEntry,
      hentry, hbyte, List.take_succ_cons, List.take_take, min_eq_left (Nat.le_succ k)]
    rfl

end Logger

/-- The backend over a protocol that refuses a transmission or accepts it. The payloads that were
transmitted are kept, and so are the texts of the messages, each with the room that it found. -/
structure LogStream (S : ℕ) where
  logger : Logger S
  accepts : Bool
  transmitted : List (List UInt8)
  processed : List (List UInt8 × ℕ)

namespace LogStream

variable {S : ℕ}

def loggerLens : Lens (LogStream S) (Logger S) where
  get s := s.logger
  set s logger := {s with logger}
  get_set _ _ := rfl
  set_get _ := rfl
  set_set _ _ _ := rfl

/-- `protocol_transmit`, which succeeds, or refuses before it writes anything. -/
def transmit (event : TransmitEvent) (s : LogStream S) : Option (Status × LogStream S) :=
  if s.accepts then some (statusOk, {s with transmitted := s.transmitted ++ [event.payload]})
  else some (kenningProtocolStatusBusy, s)

/-- The next message, and whether a transmission is accepted now. -/
def logStep (s : LogStream S) (message : List UInt8 × Bool) : Option (LogStream S) :=
  process loggerLens transmit message.1 {s with
    accepts := message.2
    processed := s.processed ++ [(message.1, s.logger.room)] }

/-- The entries of the messages, each as far as there was room for it. -/
def entries (s : LogStream S) : List (List UInt8) :=
  s.processed.filterMap fun m => Logger.entryOf m.1 m.2

/-- The buffer and what was transmitted are made of entries, and these are the entries of the messages,
one after the other. -/
structure Holds (s : LogStream S) : Prop where
  sendingLogs : s.logger.sendingLogs = false
  len_lt : s.logger.msgBufferLen < S
  entries : ∃ (sent : List (List (List UInt8))) (pending : List (List UInt8)),
    s.transmitted = sent.map encode ∧ s.logger.pending = encode pending ∧
      sent.flatten ++ pending = s.entries

theorem sendAllMessages_eq (s : LogStream S) : sendAllMessages loggerLens transmit s = some (
    if s.accepts then {s with
      logger := {s.logger with msgBufferLen := 0}
      transmitted := s.transmitted ++ [s.logger.pending] }
    else s) := by
  rw [sendAllMessages, transmit]
  by_cases ha : s.accepts = true
  · rw [if_pos ha, if_pos ha]
    exact if_pos rfl
  · have hbusy : kenningProtocolStatusBusy ≠ statusOk := status_ne_ok _ (by decide)
    rw [if_neg ha, if_neg ha]
    exact if_neg hbusy

/-- A message is added, and then all that is there is sent. -/
theorem logStep_eq {s t : LogStream S} (hsending : s.logger.sendingLogs = false) {text : List UInt8}
    {l : Logger S} (hadd : Logger.addMessage text {s.logger with sendingLogs := true} = some l)
    {accepts : Bool} (hsend : sendAllMessages loggerLens transmit
      ⟨l, accepts, s.transmitted, s.processed ++ [(text, s.logger.room)]⟩ = some t) :
    logStep s (text, accepts) = some {t with logger := {t.logger with sendingLogs := false}} := by
  have hidle : ¬ s.logger.sendingLogs = true := by
    rw [hsending]
    exact Bool.false_ne_true
  rw [logStep, process]
  simp only [loggerLens, if_neg hidle, hadd] at hsend ⊢
  rw [hsend]

/-- One message. What was added to the buffer stays there if the transmission is refused. -/
theorem logStep_holds {s : LogStream S} (h : s.Holds) (text : List UInt8) (accepts : Bool) :
    ∃ s', logStep s (text, accepts) = some s' ∧ s'.Holds ∧
      s'.processed = s.processed ++ [(text, s.logger.room)] := by
  obtain ⟨sent, pending, hsent, hpending, hall⟩ := h.entries
  obtain ⟨l, hadd, hadded⟩ := Logger.addMessage_added text
    (l := {s.logger with sendingLogs := true}) h.len_lt
  have hlen := hadded.len_lt h.len_lt
  let entry := (Logger.entryOf text s.logger.room).toList
  have hbuffer : l.pending = encode (pending ++ entry) := by
    rw [encode_append, ← hpending]
    exact hadded.pending
  have hentries : (s.processed ++ [(text, s.logger.room)]).filterMap
      (fun m => Logger.entryOf m.1 m.2) = sent.flatten ++ (pending ++ entry) := by
    rw [List.filterMap_append, ← List.append_assoc, hall]
    rfl
  refine ⟨_, logStep_eq h.sendingLogs hadd (sendAllMessages_eq _), ?_⟩
  cases accepts with
  | true =>
    -- What was pending, with the new entry, is transmitted as one payload.
    refine ⟨⟨rfl, Nat.zero_lt_of_lt hlen, sent ++ [pending ++ entry], [], ?_, List.take_zero, ?_⟩, rfl⟩
    · rw [List.map_append, ← hsent, List.map_singleton, ← hbuffer]
      rfl
    · rw [List.append_nil, List.flatten_append, List.flatten_singleton]
      exact hentries.symm
  | false => exact ⟨⟨rfl, hlen, sent, pending ++ entry, hsent, hbuffer, hentries.symm⟩, rfl⟩

/-- What a client can rely on: the buffer and every transmitted payload parse as entries, the entries
are those of the messages, each a prefix of its text, and a message has none only if the buffer had no
room for a character. -/
structure Intact (s : LogStream S) : Prop where
  len_lt : s.logger.msgBufferLen < S
  entries : ∃ (sent : List (List (List UInt8))) (pending : List (List UInt8)),
    s.transmitted.map parse = sent.map some ∧ parse s.logger.pending = some pending ∧
      sent.flatten ++ pending = s.entries
  prefixes : ∀ m ∈ s.processed, ∀ e, Logger.entryOf m.1 m.2 = some e → e <+: m.1
  dropped : ∀ m ∈ s.processed, Logger.entryOf m.1 m.2 = none → m.2 = 0

theorem Holds.intact {s : LogStream S} (h : s.Holds) (hne : ∀ m ∈ s.processed, m.1 ≠ []) :
    s.Intact := by
  refine ⟨h.len_lt, ?_, fun m _ _ he => Logger.entryOf_prefix he,
    fun m hm he => Logger.entryOf_none (hne m hm) he⟩
  obtain ⟨sent, pending, hsent, hpending, hall⟩ := h.entries
  have hshort : ∀ e ∈ s.entries, e.length < 256 := by
    intro e he
    obtain ⟨m, -, hm⟩ := List.mem_filterMap.mp he
    exact Logger.entryOf_length hm
  rw [← hall] at hshort
  refine ⟨sent, pending, ?_, ?_, hall⟩
  · rw [hsent, List.map_map]
    apply List.map_congr_left
    intro es hes
    apply parse_encode
    intro e he
    exact hshort e (List.mem_append_left _ (List.mem_flatten_of_mem hes he))
  · rw [hpending]
    exact parse_encode fun e he => hshort e (List.mem_append_right _ he)

/-- The backend after `logger_start`. -/
def start (l : Logger S) : LogStream S := ⟨l.loggerStart, false, [], []⟩

theorem run_intact {s : LogStream S} (h : s.Holds) (hprocessed : ∀ m ∈ s.processed, m.1 ≠ [])
    (messages : List (List UInt8 × Bool)) (hne : ∀ m ∈ messages, m.1 ≠ []) :
    ∃ t, Reaches logStep s messages t ∧ t.Intact ∧
      t.processed.map Prod.fst = s.processed.map Prod.fst ++ messages.map Prod.fst := by
  induction messages generalizing s with
  | nil => exact ⟨s, .refl s, h.intact hprocessed, (List.append_nil _).symm⟩
  | cons message messages ih =>
    obtain ⟨s', hs, hholds, hprocessed'⟩ := logStep_holds h message.1 message.2
    obtain ⟨t, ht, hintact, htexts⟩ := ih hholds
      (by
        rw [hprocessed']
        intro m hm
        rcases List.mem_append.mp hm with hm | hm
        · exact hprocessed m hm
        · rw [List.mem_singleton.mp hm]
          exact hne message List.mem_cons_self)
      fun m hm => hne m (List.mem_cons_of_mem _ hm)
    refine ⟨t, .next hs ht, hintact, ?_⟩
    rw [htexts, hprocessed', List.map_append, List.append_assoc]
    rfl

/-- For every size of the buffer, all messages and all refusals: no write leaves the buffer, and after
the messages the stream of log entries is intact. -/
theorem reaches_intact (hS : 1 ≤ S) (l : Logger S) (hl : l.sendingLogs = false)
    (messages : List (List UInt8 × Bool)) (hne : ∀ m ∈ messages, m.1 ≠ []) :
    ∃ t, Reaches logStep (start l) messages t ∧ t.Intact ∧
      t.processed.map Prod.fst = messages.map Prod.fst :=
  run_intact (s := start l) ⟨hl, hS, [], [], rfl, List.take_zero, rfl⟩
    (fun _ hm => absurd hm List.not_mem_nil) messages hne

/-- A buffer of four bytes, and three messages: one that fits, one of which a character fits, and one
that finds no room. The first transmission is refused. -/
theorem reaches_intact_small :
    ∃ t : LogStream 4, Reaches logStep
        (start ⟨⟨[0, 0, 0, 0], rfl⟩, 0, 0, false, by decide⟩)
        [([104, 10], false), ([105, 10], false), ([106, 10], true)] t ∧ t.Intact ∧
      t.processed.map Prod.fst = [[104, 10], [105, 10], [106, 10]] :=
  reaches_intact (by decide) ⟨⟨[0, 0, 0, 0], rfl⟩, 0, 0, false, by decide⟩ rfl
    [([104, 10], false), ([105, 10], false), ([106, 10], true)] (by decide)

end LogStream

end KenningRuntime
