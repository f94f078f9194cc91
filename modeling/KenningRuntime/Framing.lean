import KenningRuntime.KenningProtocol

/-! Messages as units of the input: what a stream of whole messages looks like, and what an event is
in terms of messages. -/
namespace KenningRuntime
open ByteSource

/-- A message: a header and the payload it announces. -/
@[ext] structure Message where
  hdr : MessageHdr
  payload : List UInt8
  payload_length : payload.length = if hdr.flags.hasPayload then hdr.payloadSize.toNat else 0

namespace Message

def wire (m : Message) : List UInt8 := m.hdr.encode ++ m.payload

/-- The header states the size of the payload also when there is none. -/
def WellFramed (m : Message) : Prop := m.hdr.payloadSize.toNat = m.payload.length

instance (m : Message) : Decidable m.WellFramed := inferInstanceAs (Decidable (_ = _))

theorem payload_of_not_hasPayload {m : Message} (h : m.hdr.flags.hasPayload = false) :
    m.payload = [] := by
  have hlen := m.payload_length
  rw [h] at hlen
  exact List.length_eq_zero_iff.mp hlen

theorem payload_length_of_hasPayload {m : Message} (h : m.hdr.flags.hasPayload = true) :
    m.payload.length = m.hdr.payloadSize.toNat := by
  rw [m.payload_length, if_pos h]

end Message

def wires (ms : List Message) : List UInt8 := ms.flatMap Message.wire

@[simp] theorem wires_nil : wires [] = [] := rfl

@[simp] theorem wires_cons (m : Message) (ms : List Message) :
    wires (m :: ms) = m.hdr.encode ++ (m.payload ++ wires ms) := by
  rw [wires, List.flatMap_cons, Message.wire, List.append_assoc, wires]

theorem wires_append (ms ms' : List Message) : wires (ms ++ ms') = wires ms ++ wires ms' :=
  List.flatMap_append

/-- The bytes of a series of messages determine the messages. -/
theorem wires_injective : Function.Injective wires := by
  intro ms
  induction ms with
  | nil =>
    intro ms' h
    cases ms' with
    | nil => rfl
    | cons m' ms' =>
      have hlen := congrArg List.length h
      simp only [wires_nil, wires_cons, List.length_nil, List.length_append,
        MessageHdr.length_encode, messageHdrSize] at hlen
      omega
  | cons m ms ih =>
    intro ms' h
    cases ms' with
    | nil =>
      have hlen := congrArg List.length h
      simp only [wires_nil, wires_cons, List.length_nil, List.length_append,
        MessageHdr.length_encode, messageHdrSize] at hlen
      omega
    | cons m' ms' =>
      simp only [wires_cons] at h
      -- The headers are of one length, and they say how long the payloads are.
      obtain ⟨hhdr, hrest⟩ := List.append_inj h (by simp only [MessageHdr.length_encode])
      have hh : m.hdr = m'.hdr := MessageHdr.encode_injective hhdr
      have hlen : m.payload.length = m'.payload.length := by
        rw [m.payload_length, m'.payload_length, hh]
      obtain ⟨hp, hms⟩ := List.append_inj hrest hlen
      rw [Message.ext hh hp, ih hms]

/-- The payload of a series of messages. -/
def payloads (ms : List Message) : List UInt8 := ms.flatMap Message.payload

@[simp] theorem payloads_nil : payloads [] = [] := rfl

@[simp] theorem payloads_cons (m : Message) (ms : List Message) :
    payloads (m :: ms) = m.payload ++ payloads ms := List.flatMap_cons

def MessageHdr.messageType? (h : MessageHdr) : Option MessageType :=
  MessageType.ofNumber? h.messageType.toNat

def MessageHdr.isRequest (h : MessageHdr) : Bool := h.flowControlFlags = flowControlRequest

/-- `protocol_listen` starts an event of type `t` at a message with this header. -/
structure Opens (h : MessageHdr) (t : MessageType) : Prop where
  flowControl : h.flowControlFlags = flowControlTransmission ∨ h.flowControlFlags = flowControlRequest
  first : h.flags.first = true
  messageType : h.messageType? = some t

/-- The two messages have one type and one flow control value. -/
def Message.SameKind (m m' : Message) : Prop :=
  m'.hdr.messageType = m.hdr.messageType ∧ m'.hdr.flowControlFlags = m.hdr.flowControlFlags

instance (m m' : Message) : Decidable (m.SameKind m') := inferInstanceAs (Decidable (_ ∧ _))

/-- The messages `m :: ms` are a series that `receive_messages` takes for complete: of one kind, and
with `last` on the final one only. The flag `first` of `ms` is not looked at. -/
inductive Series : Message → List Message → Prop
  | last {m : Message} : m.hdr.flags.last = true → Series m []
  | more {m m' : Message} {ms : List Message} : m.hdr.flags.last = false → m.SameKind m' →
      Series m' ms → Series m (m' :: ms)

theorem Series.sameKind {m : Message} {ms : List Message} (h : Series m ms) :
    ∀ m' ∈ ms, m.SameKind m' := by
  induction h with
  | last => simp
  | more _ hk _ ih =>
    intro m' hm'
    rcases List.mem_cons.mp hm' with rfl | hm'
    · exact hk
    · exact ⟨(ih m' hm').1.trans hk.1, (ih m' hm').2.trans hk.2⟩

theorem series_iff {m : Message} {ms : List Message} :
    Series m ms ↔ (∀ m' ∈ ms, m.SameKind m') ∧
      ∀ i (h : i < (m :: ms).length),
        (m :: ms)[i].hdr.flags.last = decide (i+1 = (m :: ms).length) := by
  constructor
  · intro h
    refine ⟨h.sameKind, ?_⟩
    induction h with
    | last hl =>
      intro i hi
      obtain rfl : i = 0 := Nat.lt_one_iff.mp hi
      simpa using hl
    | more hl _ _ ih =>
      intro i hi
      cases i with
      | zero => simpa using hl
      | succ i => simpa using ih i (Nat.lt_of_succ_lt_succ hi)
  · intro hall
    obtain ⟨hk, hl⟩ := hall
    induction ms generalizing m with
    | nil => exact .last (hl 0 Nat.one_pos)
    | cons m' ms ih =>
      have hm' := hk m' List.mem_cons_self
      -- The first message is not the final one, as there are others.
      have h0 : m.hdr.flags.last = false := (hl 0 (Nat.succ_pos _)).trans (by simp)
      refine .more h0 hm' (ih ?_ ?_)
      · intro x hx
        have hx' := hk x (List.mem_cons_of_mem _ hx)
        exact ⟨hx'.1.trans hm'.1.symm, hx'.2.trans hm'.2.symm⟩
      · intro i hi
        simpa using hl (i+1) (Nat.succ_lt_succ hi)

/-- A series of messages that one transmission consists of: of one kind, with `first` on the first
message and `last` on the final one, and on no other. -/
structure CompleteEvent (ms : List Message) : Prop where
  ne_nil : ms ≠ []
  sameKind : ∀ m ∈ ms, ∀ m' ∈ ms, m.SameKind m'
  first : ∀ i (h : i < ms.length), ms[i].hdr.flags.first = decide (i = 0)
  last : ∀ i (h : i < ms.length), ms[i].hdr.flags.last = decide (i+1 = ms.length)

theorem completeEvent_cons {m : Message} {ms : List Message} :
    CompleteEvent (m :: ms) ↔ m.hdr.flags.first = true ∧ Series m ms ∧
      ∀ m' ∈ ms, m'.hdr.flags.first = false := by
  constructor
  · intro h
    refine ⟨h.first 0 (Nat.succ_pos _), series_iff.mpr ⟨?_, h.last⟩, ?_⟩
    · intro m' hm'
      exact h.sameKind m List.mem_cons_self m' (List.mem_cons_of_mem _ hm')
    · intro m' hm'
      obtain ⟨i, hi, rfl⟩ := List.getElem_of_mem hm'
      simpa using h.first (i+1) (Nat.succ_lt_succ hi)
  · intro hall
    obtain ⟨h1, hs, hrest⟩ := hall
    obtain ⟨hk, hl⟩ := series_iff.mp hs
    have hkind : ∀ x ∈ m :: ms, m.SameKind x := by
      intro x hx
      rcases List.mem_cons.mp hx with rfl | hx
      · exact ⟨rfl, rfl⟩
      · exact hk x hx
    refine ⟨List.cons_ne_nil _ _, ?_, ?_, hl⟩
    · intro x hx y hy
      exact ⟨(hkind y hy).1.trans (hkind x hx).1.symm, (hkind y hy).2.trans (hkind x hx).2.symm⟩
    · intro i hi
      cases i with
      | zero => simpa using h1
      | succ i => simpa using hrest _ (List.getElem_mem (Nat.lt_of_succ_lt_succ hi))

end KenningRuntime
