import KenningRuntime.Library.LittleEndian

/-! The message header (`flags_t` and `message_hdr_t`, core/kenning_protocol.h) and its layout in
memory, which is its layout on the wire. -/
namespace KenningRuntime
open LittleEndian

/-- `flags_t`, bits 0 to 7 one by one. Bits 12 to 15 have a meaning that depends on the message
type. -/
@[ext] structure Flags where
  success : Bool
  fail : Bool
  isHostMessage : Bool
  hasPayload : Bool
  first : Bool
  last : Bool
  isKenning : Bool
  isZephyr : Bool
  reserved : BitVec 4
  specific : BitVec 4
deriving DecidableEq, Repr

namespace Flags

/-- The `raw_bytes` member of the union. -/
def rawBytes (f : Flags) : ℕ :=
  f.success.toNat + 2*f.fail.toNat + 4*f.isHostMessage.toNat + 8*f.hasPayload.toNat +
    16*f.first.toNat + 32*f.last.toNat + 64*f.isKenning.toNat + 128*f.isZephyr.toNat +
    256*f.reserved.toNat + 4096*f.specific.toNat

def ofRawBytes (n : ℕ) : Flags where
  success := n%2 = 1
  fail := n/2%2 = 1
  isHostMessage := n/4%2 = 1
  hasPayload := n/8%2 = 1
  first := n/16%2 = 1
  last := n/32%2 = 1
  isKenning := n/64%2 = 1
  isZephyr := n/128%2 = 1
  reserved := BitVec.ofNat 4 (n/256)
  specific := BitVec.ofNat 4 (n/4096)

/-- The fields as digits: eight bits, and two of four bits each. -/
theorem fields_le (f : Flags) :
    (f.success.toNat ≤ 1 ∧ f.fail.toNat ≤ 1 ∧ f.isHostMessage.toNat ≤ 1 ∧ f.hasPayload.toNat ≤ 1) ∧
      (f.first.toNat ≤ 1 ∧ f.last.toNat ≤ 1 ∧ f.isKenning.toNat ≤ 1 ∧ f.isZephyr.toNat ≤ 1) ∧
      f.reserved.toNat < 2^4 ∧ f.specific.toNat < 2^4 :=
  ⟨⟨Bool.toNat_le _, Bool.toNat_le _, Bool.toNat_le _, Bool.toNat_le _⟩,
    ⟨Bool.toNat_le _, Bool.toNat_le _, Bool.toNat_le _, Bool.toNat_le _⟩,
    f.reserved.isLt, f.specific.isLt⟩

theorem rawBytes_lt (f : Flags) : f.rawBytes < 2^16 := by
  have hfields := f.fields_le
  unfold rawBytes
  omega

theorem decide_eq_of_toNat {b : Bool} {n : ℕ} (h : n%2 = b.toNat) : decide (n%2 = 1) = b := by
  cases b
  · exact decide_eq_false (by simpa using h)
  · exact decide_eq_true h

theorem toNat_decide (n : ℕ) : (decide (n%2 = 1)).toNat = n%2 := by
  rcases Nat.mod_two_eq_zero_or_one n with h | h <;> rw [h] <;> rfl

theorem ofRawBytes_rawBytes (f : Flags) : ofRawBytes f.rawBytes = f := by
  have hfields := f.fields_le
  apply Flags.ext
  case reserved | specific =>
    apply BitVec.eq_of_toNat_eq
    simp only [ofRawBytes, rawBytes, BitVec.toNat_ofNat]
    omega
  -- The other fields are single bits.
  all_goals
    apply decide_eq_of_toNat
    unfold rawBytes
    omega

theorem rawBytes_ofRawBytes (n : ℕ) (hn : n < 2^16) : (ofRawBytes n).rawBytes = n := by
  simp only [rawBytes, ofRawBytes, toNat_decide, BitVec.toNat_ofNat]
  omega

end Flags

/-- `message_hdr_t`. The type and the flow control value share the first five bytes. -/
@[ext] structure MessageHdr where
  messageType : BitVec 38
  flowControlFlags : BitVec 2
  checksum : BitVec 8
  flags : Flags
  payloadSize : BitVec 32
deriving DecidableEq, Repr

/-- `sizeof(message_hdr_t)`. -/
def messageHdrSize : ℕ := 12

namespace MessageHdr

/-- The packed little-endian layout. -/
def encode (h : MessageHdr) : List UInt8 :=
  toBytes 5 (h.messageType.toNat + 2^38*h.flowControlFlags.toNat) ++ toBytes 1 h.checksum.toNat ++
    toBytes 2 h.flags.rawBytes ++ toBytes 4 h.payloadSize.toNat

/-- The fields of the header whose bytes are `bs`. -/
def decode (bs : List UInt8) : MessageHdr where
  messageType := BitVec.ofNat 38 (word bs 0 5)
  flowControlFlags := BitVec.ofNat 2 (word bs 0 5/2^38)
  checksum := BitVec.ofNat 8 (word bs 5 1)
  flags := Flags.ofRawBytes (word bs 6 2)
  payloadSize := BitVec.ofNat 32 (word bs 8 4)

@[simp] theorem length_encode (h : MessageHdr) : h.encode.length = messageHdrSize := by
  simp only [encode, List.length_append, length_toBytes, messageHdrSize]

/-- Where the fields of a header are: the type and the flow control value in five bytes, the
checksum, the flags and the payload size. -/
theorem encode_words (h : MessageHdr) :
    word h.encode 0 5 = h.messageType.toNat + 2^38*h.flowControlFlags.toNat ∧
      word h.encode 5 1 = h.checksum.toNat ∧ word h.encode 6 2 = h.flags.rawBytes ∧
      word h.encode 8 4 = h.payloadSize.toNat := by
  have ht := h.messageType.isLt
  have hf := h.flowControlFlags.isLt
  refine ⟨?_, ?_, ?_, ?_⟩
  · rw [encode, List.append_assoc, List.append_assoc]
    exact word_toBytes_zero (by omega)
  · rw [encode, List.append_assoc]
    exact word_toBytes (length_toBytes _ _) h.checksum.isLt
  · rw [encode]
    exact word_toBytes (by simp only [List.length_append, length_toBytes]) h.flags.rawBytes_lt
  · rw [encode, ← List.append_nil (_ ++ _)]
    exact word_toBytes (by simp only [List.length_append, length_toBytes]) h.payloadSize.isLt

theorem decode_encode (h : MessageHdr) : decode h.encode = h := by
  have ht := h.messageType.isLt
  have hf := h.flowControlFlags.isLt
  obtain ⟨hword, hsum, hflags, hsize⟩ := h.encode_words
  rw [decode, hword, hsum, hflags, hsize, Flags.ofRawBytes_rawBytes]
  refine MessageHdr.ext (BitVec.eq_of_toNat_eq ?_) (BitVec.eq_of_toNat_eq ?_) ?_ rfl ?_
  · simp only [BitVec.toNat_ofNat]
    omega
  · simp only [BitVec.toNat_ofNat]
    omega
  · simp only [BitVec.ofNat_toNat, BitVec.setWidth_eq]
  · simp only [BitVec.ofNat_toNat, BitVec.setWidth_eq]

theorem encode_injective : Function.Injective encode := Function.LeftInverse.injective decode_encode

/-- Any twelve bytes are a header: every bit of them belongs to a field. -/
theorem encode_decode (bs : List UInt8) (hbs : bs.length = messageHdrSize) :
    (decode bs).encode = bs := by
  rw [messageHdrSize] at hbs
  have hword : word bs 0 5 < 2^40 := word_lt bs _ _
  have hsum : word bs 5 1 < 2^8 := word_lt bs _ _
  have hflags : word bs 6 2 < 2^16 := word_lt bs _ _
  have hsize : word bs 8 4 < 2^32 := word_lt bs _ _
  have hfive : word bs 0 5%2^38 + 2^38*(word bs 0 5/2^38%2^2) = word bs 0 5 := by omega
  simp only [encode, decode, BitVec.toNat_ofNat, hfive, Nat.mod_eq_of_lt hsum, Nat.mod_eq_of_lt hsize,
    Flags.rawBytes_ofRawBytes _ hflags]
  rw [toBytes_word (by omega), toBytes_word (by omega), toBytes_word (by omega),
    toBytes_word (by omega)]
  -- The four fields follow each other without a gap.
  have h8 : (bs.drop 8).take 4 = bs.drop 8 :=
    List.take_of_length_le (by rw [List.length_drop, hbs])
  have h6 : (bs.drop 6).take 2 ++ bs.drop 8 = bs.drop 6 := by
    have hsplit := List.take_append_drop 2 (bs.drop 6)
    rwa [List.drop_drop] at hsplit
  have h5 : (bs.drop 5).take 1 ++ bs.drop 6 = bs.drop 5 := by
    have hsplit := List.take_append_drop 1 (bs.drop 5)
    rwa [List.drop_drop] at hsplit
  calc (bs.drop 0).take 5 ++ (bs.drop 5).take 1 ++ (bs.drop 6).take 2 ++ (bs.drop 8).take 4
      = bs.take 5 ++ ((bs.drop 5).take 1 ++ ((bs.drop 6).take 2 ++ bs.drop 8)) := by
        rw [h8, List.drop_zero, List.append_assoc, List.append_assoc]
    _ = bs.take 5 ++ bs.drop 5 := by rw [h6, h5]
    _ = bs := List.take_append_drop 5 bs

end MessageHdr

end KenningRuntime
