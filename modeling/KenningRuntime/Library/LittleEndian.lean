import Mathlib.Tactic

/-! Little-endian words of a fixed width, as lists of bytes. -/
namespace LittleEndian

/-- The `width` low bytes of `n`, least significant first. -/
def toBytes : ℕ → ℕ → List UInt8
  | 0, _ => []
  | width+1, n => UInt8.ofNat n :: toBytes width (n/256)

def ofBytes : List UInt8 → ℕ
  | [] => 0
  | b :: bs => b.toNat + 256*ofBytes bs

@[simp] theorem length_toBytes (width n : ℕ) : (toBytes width n).length = width := by
  induction width generalizing n with
  | zero => rfl
  | succ width ih => simp only [toBytes, List.length_cons, ih]

theorem ofBytes_toBytes (width n : ℕ) (hn : n < 256^width) :
    ofBytes (toBytes width n) = n := by
  induction width generalizing n with
  | zero =>
    simp only [pow_zero] at hn
    simp only [toBytes, ofBytes]
    omega
  | succ width ih =>
    have hdiv : n/256 < 256^width := by
      apply Nat.div_lt_of_lt_mul
      rwa [pow_succ, mul_comm] at hn
    simp only [toBytes, ofBytes, ih _ hdiv, UInt8.toNat_ofNat']
    omega

theorem ofBytes_lt (bs : List UInt8) : ofBytes bs < 256^bs.length := by
  induction bs with
  | nil => simp only [ofBytes, List.length_nil, pow_zero, Nat.lt_one_iff]
  | cons b bs ih =>
    have hb := b.toNat_lt
    simp only [ofBytes, List.length_cons, pow_succ]
    omega

/-- Every byte list is the encoding of the number it denotes. -/
theorem toBytes_ofBytes (bs : List UInt8) : toBytes bs.length (ofBytes bs) = bs := by
  induction bs with
  | nil => rfl
  | cons b bs ih =>
    have hb := b.toNat_lt
    have hdiv : (b.toNat + 256*ofBytes bs)/256 = ofBytes bs := by omega
    have hmod : UInt8.ofNat (b.toNat + 256*ofBytes bs) = b := by
      apply UInt8.toNat_inj.mp
      rw [UInt8.toNat_ofNat']
      omega
    -- The low byte is `b`, and the others are those of the quotient.
    simp only [List.length_cons, ofBytes, toBytes, hdiv, hmod, ih]

/-! ### A word inside a longer byte list -/

/-- The word of `width` bytes at position `off`. -/
def word (bs : List UInt8) (off width : ℕ) : ℕ := ofBytes ((bs.drop off).take width)

theorem word_append {bs : List UInt8} {off width : ℕ} (h : off+width ≤ bs.length) (tail : List UInt8) :
    word (bs ++ tail) off width = word bs off width := by
  have hlen : width ≤ (bs.drop off).length := by
    rw [List.length_drop]
    omega
  rw [word, word, List.drop_append_of_le_length (by omega), List.take_append_of_le_length hlen]

theorem length_drop_take {bs : List UInt8} {off width : ℕ} (h : off+width ≤ bs.length) :
    ((bs.drop off).take width).length = width := by
  rw [List.length_take, List.length_drop]
  omega

/-- Also a word that the end of the list cuts off. -/
theorem word_lt (bs : List UInt8) (off width : ℕ) : word bs off width < 256^width := by
  have hle : ((bs.drop off).take width).length ≤ width := List.length_take_le _ _
  exact (ofBytes_lt _).trans_le (Nat.pow_le_pow_right (by decide) hle)

theorem toBytes_word {bs : List UInt8} {off width : ℕ} (h : off+width ≤ bs.length) :
    toBytes width (word bs off width) = (bs.drop off).take width := by
  have hb := toBytes_ofBytes ((bs.drop off).take width)
  rwa [length_drop_take h] at hb

theorem word_toBytes {pre post : List UInt8} {off width n : ℕ} (hpre : pre.length = off)
    (hn : n < 256^width) : word (pre ++ toBytes width n ++ post) off width = n := by
  have htake : (toBytes width n ++ post).take width = toBytes width n := by
    rw [List.take_append_of_le_length (length_toBytes width n).ge,
      List.take_of_length_le (length_toBytes width n).le]
  rw [word, List.append_assoc, ← hpre, List.drop_left, htake, ofBytes_toBytes width n hn]

theorem word_toBytes_zero {post : List UInt8} {width n : ℕ} (hn : n < 256^width) :
    word (toBytes width n ++ post) 0 width = n := by
  have h := @word_toBytes [] post 0 width n rfl hn
  rwa [List.nil_append] at h

end LittleEndian
