import KenningRuntime.Library.Transition
import KenningRuntime.Logger
import KenningRuntime.Segmentation

/-! The tracing backend (zephelin/tracing_backend.c): traced packets are gathered in a buffer, which is
sent to the client when it is half full. -/
namespace KenningRuntime
open Transition

/-- One call of `tracing_backend_kenning_protocol_output`, with what it finds: whether a client is
connected, whether `protocol_transmit` is busy, and `transmission.flags`, which are never written. -/
structure TraceCall where
  data : List UInt8
  connected : Bool
  busy : Bool
  flags : Flags

/-- The data of the backend: the `S` bytes of `g_trace_buffer`, an array in a 32-bit memory, the `int`
`g_trace_buffer_size`, and what was written to the line. -/
structure TraceBackend (S : ℕ) where
  gTraceBuffer : Buffer S
  gTraceBufferSize : BitVec 32
  sent : List UInt8
  size_lt : S < 2^31

namespace TraceBackend

variable {S : ℕ}

/-- `tracing_backend_kenning_protocol_init`. -/
def init (b : TraceBackend S) : TraceBackend S := {b with gTraceBufferSize := 0}

theorem length_payload_lt (b : TraceBackend S) :
    (b.gTraceBuffer.bytes.take b.gTraceBufferSize.toNat).length < 2^31 := by
  rw [List.length_take, b.gTraceBuffer.length_eq]
  exact (min_le_right _ _).trans_lt b.size_lt

/-- The event that is sent when the buffer is flushed. -/
def transmission (flags : Flags) (b : TraceBackend S) : TransmitEvent where
  messageType := BitVec.ofNat 64 MessageType.traceData.number
  flags
  payload := b.gTraceBuffer.bytes.take b.gTraceBufferSize.toNat
  payload_length_lt := b.length_payload_lt

/-- The copy loop from byte `i` on; `none` if it writes outside of the buffer. -/
def copyLoop (size : ℤ) : List UInt8 → ℕ → Buffer S → Option (Buffer S)
  | [], _, buffer => some buffer
  | c :: data, i, buffer =>
    let index := i+size
    if index < 0 then none
    else
      match buffer.assign index.toNat c with
      | none => none
      | some buffer => copyLoop size data (i+1) buffer

section
variable (cfg : Config) (checksum : ℕ → BitVec 8)

/-- What happens when a flush is due. The sum of an `int` and a `uint32_t` is a `uint32_t`. -/
def flush (call : TraceCall) (b : TraceBackend S) : TraceBackend S :=
  let tx : Tx := ⟨b.sent, call.busy, []⟩
  match if call.connected then protocolTransmit32 cfg checksum (b.transmission call.flags) tx
      else (statusOk, tx) with
  | (status, tx) =>
    let b := {b with sent := tx.sent}
    -- Without a client the status is `STATUS_OK` too, so the buffer is emptied and nothing is sent.
    if status = statusOk ∨ (b.gTraceBufferSize+BitVec.ofNat 32 call.data.length).toNat > S
    then {b with gTraceBufferSize := 0} else b

/-- `tracing_backend_kenning_protocol_output`. -/
def output (b : TraceBackend S) (call : TraceCall) : Option (TraceBackend S) :=
  let length := BitVec.ofNat 32 call.data.length
  let b := if (b.gTraceBufferSize+length).toNat > S/2 then flush cfg checksum call b else b
  -- The packet is copied whatever became of the flush.
  match copyLoop b.gTraceBufferSize.toInt call.data 0 b.gTraceBuffer with
  | none => none
  | some gTraceBuffer => some {b with gTraceBuffer, gTraceBufferSize := b.gTraceBufferSize+length}

end

/-! ### What one call does -/

/-- The bytes that were traced and not sent yet. -/
def pending (b : TraceBackend S) : List UInt8 := b.gTraceBuffer.bytes.take b.gTraceBufferSize.toNat

theorem copyLoop_splice (n i : ℕ) (data : List UInt8) (buffer : Buffer S) (h : n+i+data.length ≤ S) :
    ∃ buffer', copyLoop (n : ℤ) data i buffer = some buffer' ∧
      buffer'.bytes = Memory.splice buffer.bytes (n+i) data := by
  induction data generalizing i buffer with
  | nil => exact ⟨buffer, rfl, (Memory.splice_nil _ _).symm⟩
  | cons c data ih =>
    -- The assignment and the rest of the loop are one copy.
    rw [List.length_cons] at h
    have hnonneg : ¬ ((i : ℤ)+n < 0) := by omega
    have hindex : ((i : ℤ)+n).toNat = n+i := by omega
    have hlt : n+i < S := by omega
    let next : Buffer S := ⟨buffer.bytes.set (n+i) c, buffer.length_set _ c⟩
    obtain ⟨buffer', hbuffer', hbytes⟩ := ih (i+1) next (by omega)
    refine ⟨buffer', ?_, ?_⟩
    · simp only [copyLoop, if_neg hnonneg, hindex, Buffer.assign, if_pos hlt]
      exact hbuffer'
    · have hpos : n+i < buffer.bytes.length := by
        rw [buffer.length_eq]
        exact hlt
      rw [hbytes, ← Nat.add_assoc]
      exact Memory.splice_set hpos c data

end TraceBackend

/-! ### The packets in the order of the calls -/

def packets (calls : List TraceCall) : List UInt8 := calls.flatMap TraceCall.data

theorem packets_append (calls calls' : List TraceCall) :
    packets (calls ++ calls') = packets calls ++ packets calls' := List.flatMap_append

/-- Packets that left the buffer together, because they were sent or because they were removed. -/
structure TraceRun where
  calls : List TraceCall
  sent : Bool

/-- Why packets left the buffer at a call: a flush was due, and they were sent, or no client was
connected, or the transmission was refused and the packet of the call would not have fitted. -/
structure TraceRun.Flushed (S : ℕ) (run : TraceRun) (next : TraceCall) : Prop where
  due : S/2 < (packets run.calls).length+next.data.length
  sent : run.sent = true → next.connected = true ∧ next.busy = false
  removed : run.sent = false → next.connected = false ∨
    (next.busy = true ∧ S < (packets run.calls).length+next.data.length)

/-- The calls cut into the runs that left the buffer, each at the call behind it, and the calls whose
packets are still there. -/
structure Cut (S : ℕ) (calls : List TraceCall) (runs : List TraceRun) (buffered : List TraceCall) :
    Prop where
  calls_eq : calls = runs.flatMap TraceRun.calls ++ buffered
  flushed : ∀ before run after, runs = before ++ run :: after →
    ∃ next rest, after.flatMap TraceRun.calls ++ buffered = next :: rest ∧ run.Flushed S next

section
variable {S : ℕ} {calls buffered : List TraceCall} {runs : List TraceRun}

theorem Cut.keep (h : Cut S calls runs buffered) (call : TraceCall) :
    Cut S (calls ++ [call]) runs (buffered ++ [call]) := by
  refine ⟨?_, ?_⟩
  · rw [h.calls_eq, List.append_assoc]
  · intro before run after hruns
    obtain ⟨next, rest, hnext, hflushed⟩ := h.flushed before run after hruns
    refine ⟨next, rest ++ [call], ?_, hflushed⟩
    rw [← List.append_assoc, hnext, List.cons_append]

theorem Cut.flush (h : Cut S calls runs buffered) {call : TraceCall} {sent : Bool}
    (hflushed : TraceRun.Flushed S ⟨buffered, sent⟩ call) :
    Cut S (calls ++ [call]) (runs ++ [⟨buffered, sent⟩]) [call] := by
  refine ⟨?_, ?_⟩
  · rw [h.calls_eq, List.flatMap_append, List.flatMap_singleton]
  · intro before run after hruns
    rcases List.eq_nil_or_concat after with rfl | ⟨after', last, rfl⟩
    · -- The new run leaves at this call.
      obtain ⟨-, hrun⟩ := List.append_inj' hruns rfl
      obtain rfl := List.singleton_inj.mp hrun
      exact ⟨call, [], rfl, hflushed⟩
    · -- A run from before leaves at the call it left at, which has one more call behind it now.
      rw [List.concat_eq_append, ← List.cons_append, ← List.append_assoc] at hruns
      obtain ⟨hruns', hlast⟩ := List.append_inj' hruns rfl
      obtain rfl := List.singleton_inj.mp hlast
      obtain ⟨next, rest, hnext, hflushed'⟩ := h.flushed before run after' hruns'
      refine ⟨next, rest ++ [call], ?_, hflushed'⟩
      rw [List.concat_eq_append, List.flatMap_append, List.flatMap_singleton, hnext, List.cons_append]

end

namespace TraceBackend

variable {S : ℕ} {cfg : Config} {checksum : ℕ → BitVec 8} {b : TraceBackend S}
  {line : List UInt8} {calls buffered : List TraceCall} {runs : List TraceRun}

/-- The messages on the line are those of the runs that were sent, and the packets that follow the runs
are in the buffer. -/
structure Holds (line : List UInt8) (runs : List TraceRun) (buffered : List TraceCall)
    (b : TraceBackend S) : Prop where
  size_le : b.gTraceBufferSize.toNat ≤ S
  pending : b.pending = packets buffered
  sent : ∃ messages, b.sent = line ++ wires messages ∧
    (∀ m ∈ messages, m.WellFramed ∧ m.hdr.messageType.toNat = MessageType.traceData.number) ∧
    payloads messages = packets ((runs.filter TraceRun.sent).flatMap TraceRun.calls)

theorem toInt_size (h : b.gTraceBufferSize.toNat ≤ S) :
    b.gTraceBufferSize.toInt = b.gTraceBufferSize.toNat := by
  have hS := b.size_lt
  rw [BitVec.toInt_eq_toNat_cond, if_pos (by omega)]

/-- The sum that is compared with the thresholds does not wrap around. -/
theorem toNat_add_length (h : b.gTraceBufferSize.toNat ≤ S) {length : ℕ} (hlength : length ≤ S) :
    (b.gTraceBufferSize+BitVec.ofNat 32 length).toNat = b.gTraceBufferSize.toNat+length := by
  have hS := b.size_lt
  rw [BitVec.toNat_add, BitVec.toNat_ofNat]
  omega

theorem Holds.length_packets (h : Holds line runs buffered b) :
    (packets buffered).length = b.gTraceBufferSize.toNat := by
  rw [← h.pending, TraceBackend.pending, List.length_take, b.gTraceBuffer.length_eq]
  exact min_eq_left h.size_le

/-- What is in the buffer goes out as messages that contain it. -/
theorem protocolTransmit32_transmission (cfg : Config) (checksum : ℕ → BitVec 8) (flags : Flags)
    (b : TraceBackend S) :
    ∃ messages, protocolTransmit32 cfg checksum (b.transmission flags) (idleTx b.sent) =
        (statusOk, idleTx (b.sent ++ wires messages)) ∧
      (∀ m ∈ messages, m.WellFramed ∧ m.hdr.messageType.toNat = MessageType.traceData.number) ∧
      payloads messages = b.pending := by
  let event := b.transmission flags
  have hsegmented := segments_segmented cfg checksum event
  have hsucceeds : writeAll ((segments cfg checksum event).flatMap Message.writes) (idleTx b.sent) = _ :=
    writeAll_succeeds fun _ hf => absurd (List.mem_of_mem_take hf) List.not_mem_nil
  refine ⟨segments cfg checksum event, ?_, ?_, hsegmented.payload⟩
  · rw [protocolTransmit32_eq_writeAll cfg checksum event rfl, hsucceeds, flatten_writes]
    simp only [idleTx, List.drop_nil]
  · intro m hm
    obtain ⟨i, hi⟩ := List.mem_iff_getElem?.mp hm
    refine ⟨hsegmented.framed m hm, ?_⟩
    rw [hsegmented.hdr i m hi]
    rfl

theorem flush_disconnected {call : TraceCall} (h : call.connected = false) :
    flush cfg checksum call b = {b with gTraceBufferSize := 0} := by
  simp only [flush, h, Bool.false_eq_true, if_false, true_or, if_true]

theorem flush_sends {call : TraceCall} (hconnected : call.connected = true) (hbusy : call.busy = false)
    {sent : List UInt8}
    (h : protocolTransmit32 cfg checksum (b.transmission call.flags) (idleTx b.sent) =
      (statusOk, idleTx sent)) :
    flush cfg checksum call b = {b with gTraceBufferSize := 0, sent} := by
  rw [idleTx] at h
  simp only [flush, hconnected, hbusy, if_true, h, true_or]
  rfl

theorem flush_refused {call : TraceCall} (hconnected : call.connected = true) (hbusy : call.busy = true) :
    flush cfg checksum call b =
      if (b.gTraceBufferSize+BitVec.ofNat 32 call.data.length).toNat > S
      then {b with gTraceBufferSize := 0} else b := by
  have hrefused : kenningProtocolStatusBusy ≠ statusOk := status_ne_ok _ (by decide)
  simp only [flush, hconnected, hbusy, if_true, protocolTransmit32, hrefused, false_or]

/-- Runs that were not sent leave nothing on the line. -/
theorem Holds.remove (h : Holds line runs buffered b) :
    Holds line (runs ++ [⟨buffered, false⟩]) [] {b with gTraceBufferSize := 0} := by
  obtain ⟨messages, hsent, htypes, hpayloads⟩ := h.sent
  refine ⟨Nat.zero_le _, List.take_zero, messages, hsent, htypes, ?_⟩
  rw [List.filter_append, List.filter_cons_of_neg Bool.false_ne_true, List.filter_nil, List.append_nil]
  exact hpayloads

theorem Holds.send (h : Holds line runs buffered b) {messages : List Message}
    (htypes : ∀ m ∈ messages, m.WellFramed ∧ m.hdr.messageType.toNat = MessageType.traceData.number)
    (hpayloads : payloads messages = b.pending) :
    Holds line (runs ++ [⟨buffered, true⟩]) []
      {b with gTraceBufferSize := 0, sent := b.sent ++ wires messages} := by
  obtain ⟨messages', hsent, htypes', hpayloads'⟩ := h.sent
  refine ⟨Nat.zero_le _, List.take_zero, messages' ++ messages, ?_, ?_, ?_⟩
  · rw [hsent, wires_append, List.append_assoc]
  · intro m hm
    exact (List.mem_append.mp hm).elim (htypes' m) (htypes m)
  · rw [List.filter_append, List.filter_cons_of_pos rfl, List.filter_nil, List.flatMap_append,
      List.flatMap_singleton, packets_append, ← hpayloads', ← h.pending, ← hpayloads]
    exact List.flatMap_append

/-- A flush sends what is in the buffer, or removes it, or leaves it there where the next packet still
fits. -/
theorem flush_holds (h : Holds line runs buffered b) {call : TraceCall} (hcall : call.data.length ≤ S)
    (hdue : S/2 < b.gTraceBufferSize.toNat+call.data.length) :
    (∃ sent, Holds line (runs ++ [⟨buffered, sent⟩]) [] (flush cfg checksum call b) ∧
        (flush cfg checksum call b).gTraceBufferSize = 0 ∧ TraceRun.Flushed S ⟨buffered, sent⟩ call) ∨
      (flush cfg checksum call b = b ∧ b.gTraceBufferSize.toNat+call.data.length ≤ S) := by
  have hlength := h.length_packets
  rw [← hlength] at hdue ⊢
  cases hconnected : call.connected with
  | false =>
    rw [flush_disconnected hconnected]
    exact Or.inl ⟨false, h.remove, rfl, hdue, fun hs => absurd hs Bool.false_ne_true,
      fun _ => Or.inl hconnected⟩
  | true =>
    cases hbusy : call.busy with
    | false =>
      obtain ⟨messages, htransmit, htypes, hpayloads⟩ :=
        protocolTransmit32_transmission cfg checksum call.flags b
      rw [flush_sends hconnected hbusy htransmit]
      exact Or.inl ⟨true, h.send htypes hpayloads, rfl, hdue, fun _ => ⟨hconnected, hbusy⟩,
        fun hs => absurd hs.symm Bool.false_ne_true⟩
    | true =>
      rw [flush_refused hconnected hbusy, toNat_add_length h.size_le hcall, ← hlength]
      by_cases hfit : (packets buffered).length+call.data.length > S
      · -- An overflow is imminent: the packets are given up although a client is there.
        rw [if_pos hfit]
        exact Or.inl ⟨false, h.remove, rfl, hdue, fun hs => absurd hs Bool.false_ne_true,
          fun _ => Or.inr ⟨hbusy, hfit⟩⟩
      · rw [if_neg hfit]
        exact Or.inr ⟨rfl, Nat.not_lt.mp hfit⟩

/-- A packet that fits is put behind those that are there. -/
theorem copyLoop_holds (h : Holds line runs buffered b) {call : TraceCall}
    (hfit : b.gTraceBufferSize.toNat+call.data.length ≤ S) :
    ∃ gTraceBuffer, copyLoop b.gTraceBufferSize.toInt call.data 0 b.gTraceBuffer = some gTraceBuffer ∧
      Holds line runs (buffered ++ [call]) {b with
        gTraceBuffer
        gTraceBufferSize := b.gTraceBufferSize+BitVec.ofNat 32 call.data.length } := by
  obtain ⟨gTraceBuffer, hcopy, hbytes⟩ :=
    copyLoop_splice b.gTraceBufferSize.toNat 0 call.data b.gTraceBuffer hfit
  have hsum := toNat_add_length h.size_le ((Nat.le_add_left _ _).trans hfit)
  -- The index is an `int`, and the length as a signed number is the length.
  rw [← toInt_size h.size_le] at hcopy
  refine ⟨gTraceBuffer, hcopy, ?_, ?_, h.sent⟩
  · rw [hsum]
    exact hfit
  · rw [TraceBackend.pending, hsum, hbytes, Nat.add_zero,
      Memory.take_splice (by rw [b.gTraceBuffer.length_eq]; exact hfit), packets_append, ← h.pending]
    exact congrArg (b.pending ++ ·) (List.flatMap_singleton _ _).symm

/-- What holds of the backend after some calls: the payloads of the messages on the line, and behind
them the bytes in the buffer, are the packets in their order, but for the runs that were removed. -/
structure Delivered (line : List UInt8) (calls : List TraceCall) (b : TraceBackend S) : Prop where
  nonneg : 0 ≤ b.gTraceBufferSize.toInt
  le : b.gTraceBufferSize.toInt ≤ S
  stream : ∃ runs buffered, Cut S calls runs buffered ∧ Holds line runs buffered b

theorem output_delivered (cfg : Config) (checksum : ℕ → BitVec 8) (h : Delivered line calls b)
    {call : TraceCall} (hcall : call.data.length ≤ S) :
    ∃ b', output cfg checksum b call = some b' ∧ Delivered line (calls ++ [call]) b' := by
  obtain ⟨runs, buffered, hcut, hholds⟩ := h.stream
  have hsum := toNat_add_length hholds.size_le hcall
  -- Once there is room for the packet, it is put behind the others.
  have hcopied (b₁ : TraceBackend S) (runs₁ : List TraceRun) (buffered₁ : List TraceCall)
      (hb₁ : (if (b.gTraceBufferSize+BitVec.ofNat 32 call.data.length).toNat > S/2
        then flush cfg checksum call b else b) = b₁)
      (hholds₁ : Holds line runs₁ buffered₁ b₁) (hfit : b₁.gTraceBufferSize.toNat+call.data.length ≤ S)
      (hcut₁ : Cut S (calls ++ [call]) runs₁ (buffered₁ ++ [call])) :
      ∃ b', output cfg checksum b call = some b' ∧ Delivered line (calls ++ [call]) b' := by
    obtain ⟨gTraceBuffer, hcopy, hholds'⟩ := copyLoop_holds hholds₁ hfit
    have hint := toInt_size hholds'.size_le
    refine ⟨_, ?_, ?_, ?_, runs₁, buffered₁ ++ [call], hcut₁, hholds'⟩
    · simp only [output, hb₁, hcopy]
    · rw [hint]
      exact Int.natCast_nonneg _
    · rw [hint]
      exact Int.ofNat_le.mpr hholds'.size_le
  by_cases hdue : S/2 < b.gTraceBufferSize.toNat+call.data.length
  · rw [hsum, if_pos hdue] at hcopied
    rcases flush_holds hholds hcall hdue with ⟨sent, hholds₁, hzero, hflushed⟩ | ⟨hkept, hfit⟩
    · refine hcopied _ _ [] rfl hholds₁ ?_ (hcut.flush hflushed)
      rw [hzero]
      exact (Nat.zero_add _).trans_le hcall
    · exact hcopied _ _ _ hkept hholds hfit (hcut.keep call)
  · rw [hsum, if_neg hdue] at hcopied
    exact hcopied b runs buffered rfl hholds (by omega) (hcut.keep call)

theorem reaches_delivered_of (h : Delivered line calls b) (calls' : List TraceCall)
    (hcalls : ∀ call ∈ calls', call.data.length ≤ S) :
    ∃ b', Reaches (output cfg checksum) b calls' b' ∧ Delivered line (calls ++ calls') b' := by
  induction calls' generalizing b calls with
  | nil =>
    rw [List.append_nil]
    exact ⟨b, .refl b, h⟩
  | cons call calls' ih =>
    obtain ⟨hcall, hrest⟩ := List.forall_mem_cons.mp hcalls
    obtain ⟨b₁, hstep, h₁⟩ := output_delivered cfg checksum h hcall
    obtain ⟨b', hreaches, h'⟩ := ih h₁ hrest
    rw [List.append_assoc] at h'
    exact ⟨b', .next hstep hreaches, h'⟩

theorem init_delivered (b : TraceBackend S) : Delivered b.sent [] b.init := by
  refine ⟨le_rfl, Int.natCast_nonneg S, [], [], ⟨rfl, ?_⟩, Nat.zero_le _, List.take_zero, [],
    (List.append_nil _).symm, fun _ hm => absurd hm List.not_mem_nil, rfl⟩
  intro before run after hruns
  exact absurd (congrArg List.length hruns) (by
    rw [List.length_append, List.length_cons, List.length_nil]
    omega)

/-- For every size of the buffer, all packets that a buffer can hold and whatever the calls find: no write
leaves the buffer, its length stays in bounds, and the packets are delivered in their order. -/
theorem outputs_delivered (cfg : Config) (checksum : ℕ → BitVec 8) (b : TraceBackend S)
    (calls : List TraceCall) (hcalls : ∀ call ∈ calls, call.data.length ≤ S) :
    ∃ t, Reaches (output cfg checksum) b.init calls t ∧ Delivered b.sent calls t :=
  reaches_delivered_of (init_delivered b) calls hcalls

/-- A buffer of four bytes. The first packet is sent at the second call; the second one and the third
one are removed at the fourth call, when the transmission is refused again. -/
theorem outputs_delivered_small :
    ∃ t : TraceBackend 4, Reaches (output smallConfig fun _ => 0)
        (init ⟨⟨[0, 0, 0, 0], rfl⟩, 0, [], by decide⟩)
        [⟨[1, 2], true, false, .ofRawBytes 0⟩, ⟨[3], true, false, .ofRawBytes 0⟩,
          ⟨[4, 5], true, true, .ofRawBytes 0⟩, ⟨[6, 7], true, true, .ofRawBytes 0⟩] t ∧
      Delivered []
        [⟨[1, 2], true, false, .ofRawBytes 0⟩, ⟨[3], true, false, .ofRawBytes 0⟩,
          ⟨[4, 5], true, true, .ofRawBytes 0⟩, ⟨[6, 7], true, true, .ofRawBytes 0⟩] t :=
  outputs_delivered smallConfig (fun _ => 0) ⟨⟨[0, 0, 0, 0], rfl⟩, 0, [], by decide⟩
    [⟨[1, 2], true, false, .ofRawBytes 0⟩, ⟨[3], true, false, .ofRawBytes 0⟩,
      ⟨[4, 5], true, true, .ofRawBytes 0⟩, ⟨[6, 7], true, true, .ofRawBytes 0⟩] (by decide)

end TraceBackend

end KenningRuntime
