import KenningRuntime.LogStream

/-! The entry that `process` (core/logger.c) adds for a text and the line feed behind it. -/
namespace KenningRuntime
open SizedEntries Transition

/-- `panic`, the function of the backend; `none` if it does not return. -/
def panic {S : ℕ} {W : Type} (L : Lens W (Logger S))
    (protocolTransmit : TransmitEvent → W → Option (Status × W)) (w : W) : Option W :=
  match sendAllMessages L protocolTransmit (L.set w {L.get w with sendingLogs := true}) with
  | none => none
  | some w => some (L.set w {L.get w with sendingLogs := false})

def lineFeed : UInt8 := 10

/-- What the backend is called for, and whether a transmission is accepted then. -/
inductive LogEvent where
  | process (text : List UInt8) (accepts : Bool)
  | panic (accepts : Bool)
  | loggerStart

namespace LogStream

variable {S : ℕ}

def eventStep (s : LogStream S) : LogEvent → Option (LogStream S)
  | .process text accepts => logStep s (text, accepts)
  | .panic accepts => panic loggerLens transmit {s with accepts}
  | .loggerStart => some {s with logger := s.logger.loggerStart}

/-- The bytes that were transmitted, and those in the buffer. -/
def stream (s : LogStream S) : List UInt8 := s.transmitted.flatten ++ s.logger.pending

/-- The number of bytes that are free in `msg_buffer`. -/
def free (s : LogStream S) : ℕ := S-s.logger.msgBufferLen

/-- Between two calls. -/
structure Ready (s : LogStream S) : Prop where
  sendingLogs : s.logger.sendingLogs = false
  len_lt : s.logger.msgBufferLen < S

/-- A transmission moves the bytes of the buffer, and a refused one leaves them where they are. -/
theorem sendAllMessages_stream (s : LogStream S) :
    ∃ s', sendAllMessages loggerLens transmit s = some s' ∧ s'.stream = s.stream ∧
      s'.logger.msgBufferLen ≤ s.logger.msgBufferLen := by
  refine ⟨_, sendAllMessages_eq s, ?_⟩
  split
  · have hempty : (⟨s.logger.msgBuffer, 0, s.logger.currMsgLen, s.logger.sendingLogs, s.logger.size_lt⟩ :
        Logger S).pending = [] := List.take_zero
    refine ⟨?_, Nat.zero_le _⟩
    rw [stream, stream, hempty, List.append_nil, List.flatten_append, List.flatten_singleton]
  · exact ⟨rfl, le_rfl⟩

/-- `process` adds the entry of the text, whether the buffer is transmitted then or not. -/
theorem logStep_stream {s : LogStream S} (h : s.Ready) (text : List UInt8) (accepts : Bool) :
    ∃ s', logStep s (text, accepts) = some s' ∧ s'.Ready ∧
      s'.stream = s.stream ++ encode (Logger.entryOf text s.logger.room).toList := by
  obtain ⟨l, hadd, hadded⟩ := Logger.addMessage_added text
    (l := {s.logger with sendingLogs := true}) h.len_lt
  have hlen := hadded.len_lt h.len_lt
  have hpending : l.pending = s.logger.pending ++ encode (Logger.entryOf text s.logger.room).toList :=
    hadded.pending
  obtain ⟨s', hsend, hstream, hle⟩ := sendAllMessages_stream
    ⟨l, accepts, s.transmitted, s.processed ++ [(text, s.logger.room)]⟩
  have hadded' : s'.stream = s.transmitted.flatten ++ l.pending := hstream
  rw [hpending, ← List.append_assoc] at hadded'
  exact ⟨_, logStep_eq h.sendingLogs hadd hsend, ⟨rfl, hle.trans_lt hlen⟩, hadded'⟩

theorem panic_ready {s : LogStream S} (h : s.Ready) (accepts : Bool) :
    ∃ s', panic loggerLens transmit {s with accepts} = some s' ∧ s'.Ready := by
  obtain ⟨s', hsend, -, hle⟩ := sendAllMessages_stream
    ⟨{s.logger with sendingLogs := true}, accepts, s.transmitted, s.processed⟩
  refine ⟨{s' with logger := {s'.logger with sendingLogs := false}}, ?_, rfl, hle.trans_lt h.len_lt⟩
  rw [panic]
  simp only [loggerLens] at hsend ⊢
  rw [hsend]

theorem eventStep_ready {s s' : LogStream S} {e : LogEvent} (h : s.Ready) (hs : eventStep s e = some s') :
    s'.Ready := by
  cases e with
  | process text accepts =>
    obtain ⟨t, ht, hready, -⟩ := logStep_stream h text accepts
    obtain rfl := Option.some.inj (hs.symm.trans ht)
    exact hready
  | panic accepts =>
    obtain ⟨t, ht, hready⟩ := panic_ready h accepts
    obtain rfl := Option.some.inj (hs.symm.trans ht)
    exact hready
  | loggerStart =>
    cases hs
    exact ⟨h.sendingLogs, Nat.zero_lt_of_lt h.len_lt⟩

/-! ### Which entries are right -/

/-- The longest prefix of a text that fits a size field of one byte and the free space. -/
structure LongestFit (text : List UInt8) (free : ℕ) (e : List UInt8) : Prop where
  start : e <+: text
  size : e.length ≤ 255
  fits : 1+e.length ≤ free
  longest : ∀ e', e' <+: text → e'.length ≤ 255 → 1+e'.length ≤ free → e'.length ≤ e.length

theorem LongestFit.length_eq {text e : List UInt8} {free : ℕ} (h : LongestFit text free e) :
    e.length = min text.length (min 255 (free-1)) := by
  have hle := h.start.length_le
  have hsize := h.size
  have hfits := h.fits
  have hlongest := h.longest (text.take (min 255 (free-1))) (List.take_prefix _ _)
  rw [List.length_take] at hlongest
  omega

def Appends (s : LogStream S) (text : List UInt8) (accepts : Bool) (e : List UInt8) : Prop :=
  ∃ s', logStep s (text, accepts) = some s' ∧ s'.stream = s.stream ++ encodeEntry e

theorem appends_iff {s : LogStream S} (h : s.Ready) {text e : List UInt8} {accepts : Bool} :
    s.Appends text accepts e ↔ Logger.entryOf text s.logger.room = some e := by
  obtain ⟨s', hs', -, hstream⟩ := logStep_stream h text accepts
  rw [← encode_toList_eq, Appends]
  constructor
  · rintro ⟨t, ht, ht'⟩
    obtain rfl := Option.some.inj (hs'.symm.trans ht)
    exact List.append_cancel_left (hstream.symm.trans ht')
  · intro he
    exact ⟨s', hs', hstream.trans (congrArg (s.stream ++ ·) he)⟩

/-- Only the line feed is dropped: the entry is the text if that fits, and otherwise as much of it as
fits. -/
def KeepsText (s : LogStream S) (text : List UInt8) (accepts : Bool) : Prop :=
  ∃ e, s.Appends (text ++ [lineFeed]) accepts e ∧
    (text.length ≤ 255 ∧ 1+text.length ≤ s.free → e = text) ∧
    (¬ (text.length ≤ 255 ∧ 1+text.length ≤ s.free) → LongestFit text s.free e)

/-- The entry is as long as it should be exactly if there is room for the line feed too. -/
theorem keepsText_iff {s : LogStream S} (h : s.Ready) (text : List UInt8) (accepts : Bool) :
    s.KeepsText text accepts ↔ text.length ≤ 254 ∧ text.length+2 ≤ s.free := by
  have hlen := h.len_lt
  have hroom : s.logger.room = s.free-1 := by
    rw [Logger.room, free]
    omega
  have hfree : 1 ≤ s.free := Nat.sub_pos_of_lt hlen
  have hfitted : Logger.fitted (text ++ [lineFeed]) s.logger.room =
      min (text.length+1) (min 255 (s.free-1)) := by
    rw [Logger.fitted, List.length_append, hroom]
    rfl
  constructor
  · -- From the right length of the entry to the room for the line feed.
    rintro ⟨e, happends, hself, hlongest⟩
    have hentry := (appends_iff h).mp happends
    rw [Logger.entryOf, hfitted] at hentry
    -- What is stored is one longer than the entry.
    obtain ⟨hstored, he⟩ : min (text.length+1) (min 255 (s.free-1)) ≠ 0 ∧
        (text ++ [lineFeed]).take (min (text.length+1) (min 255 (s.free-1))-1) = e := by
      split at hentry
      · cases hentry
      · next hne => exact ⟨hne, Option.some.inj hentry⟩
    have hlength : e.length = min (text.length+1) (min 255 (s.free-1))-1 := by
      rw [← he, List.length_take, List.length_append, List.length_singleton]
      omega
    -- Both cases of the property come to the same length.
    have hright : e.length = min text.length (min 255 (s.free-1)) := by
      by_cases hfits : text.length ≤ 255 ∧ 1+text.length ≤ s.free
      · rw [hself hfits]
        omega
      · exact (hlongest hfits).length_eq
    omega
  · rintro ⟨hsize, hfits⟩
    refine ⟨text, (appends_iff h).mpr ?_, fun _ => rfl, fun hno => absurd ⟨by omega, by omega⟩ hno⟩
    -- The line feed is stored, so it is the character that is dropped.
    have hall : min (text.length+1) (min 255 (s.free-1)) = text.length+1 := by omega
    rw [Logger.entryOf, hfitted, hall, if_neg (Nat.succ_ne_zero _), Nat.add_sub_cancel, List.take_left]

/-- For every size of the buffer, every state that is reached from `logger_start` on, and every text: only
the line feed is dropped exactly if it was stored behind the text. -/
theorem reaches_keepsText_iff (hS : 1 ≤ S) (l : Logger S) (hl : l.sendingLogs = false)
    (events : List LogEvent) (s : LogStream S) (hs : Reaches eventStep (start l) events s)
    (text : List UInt8) (accepts : Bool) :
    s.KeepsText text accepts ↔ text.length ≤ 254 ∧ text.length+2 ≤ s.free :=
  keepsText_iff (hs.invariant_always (fun _ _ _ h => eventStep_ready h) ⟨hl, hS⟩) text accepts

/-- A buffer of eight bytes with a message that was not sent yet, and then a text that fits with the line
feed behind it. -/
theorem reaches_keepsText_small :
    ∃ s : LogStream 8, Reaches eventStep
        (start ⟨⟨[0, 0, 0, 0, 0, 0, 0, 0], rfl⟩, 0, 0, false, by decide⟩)
        [.process [104, 105, 10] false, .panic false] s ∧
      (s.KeepsText [106, 107, 108] false ↔ [(106 : UInt8), 107, 108].length ≤ 254 ∧ 3+2 ≤ s.free) ∧
      s.free = 5 := by
  have hrun : (run eventStep (start (S := 8) ⟨⟨[0, 0, 0, 0, 0, 0, 0, 0], rfl⟩, 0, 0, false, by decide⟩)
      [.process [104, 105, 10] false, .panic false]).any (fun s => decide (s.free = 5)) = true := by decide
  obtain ⟨s, hs, hfree⟩ := exists_reaches hrun
  exact ⟨s, hs, reaches_keepsText_iff (by decide) _ rfl _ s hs [106, 107, 108] false,
    of_decide_eq_true hfree⟩

/-- A buffer of three bytes has room for a text of two, but not for the line feed. The entry is one
character short. -/
theorem keepsText_cut :
    lineFeed ∉ [(104 : UInt8), 105] ∧
      Reaches eventStep (start (S := 3) ⟨⟨[0, 0, 0], rfl⟩, 0, 0, false, by decide⟩) []
        (start ⟨⟨[0, 0, 0], rfl⟩, 0, 0, false, by decide⟩) ∧
      (start (S := 3) ⟨⟨[0, 0, 0], rfl⟩, 0, 0, false, by decide⟩).free = 1+2 ∧
      (start (S := 3) ⟨⟨[0, 0, 0], rfl⟩, 0, 0, false, by decide⟩).Appends [104, 105, 10] false [104] ∧
      ¬ (start (S := 3) ⟨⟨[0, 0, 0], rfl⟩, 0, 0, false, by decide⟩).KeepsText [104, 105] false := by
  refine ⟨by decide, .refl _, rfl, ⟨_, rfl, rfl⟩, ?_⟩
  rintro ⟨e, ⟨s, hs, hstream⟩, hself, -⟩
  obtain rfl : e = [104, 105] := hself ⟨by decide, le_rfl⟩
  cases hs
  exact absurd hstream (by decide)

end LogStream

end KenningRuntime
