import Mathlib.Tactic

/-! A source of bytes that can fail in the middle of a read. What it will deliver
is fixed in advance, as a list of bytes and of failures. -/
namespace ByteSource

inductive Item (ε : Type*) where
  | byte (b : UInt8)
  | fault (e : ε)
deriving DecidableEq

variable {ε : Type*}

/-- Read `n` bytes. A failure ends the read and is reported; so does the end of
the source, with the error `starved`. What was read up to there is gone. -/
def read (starved : ε) : ℕ → List (Item ε) → Option ε × List UInt8 × List (Item ε)
  | 0, src => (none, [], src)
  | _+1, [] => (some starved, [], [])
  | _+1, .fault e :: src => (some e, [], src)
  | n+1, .byte b :: src =>
    match read starved n src with
    | (err, got, rest) => (err, b :: got, rest)

/-- The source that delivers `bs` and nothing else. -/
def bytes (bs : List UInt8) : List (Item ε) := bs.map Item.byte

@[simp] theorem bytes_nil : (bytes [] : List (Item ε)) = [] := rfl

@[simp] theorem bytes_append (as bs : List UInt8) :
    (bytes (as ++ bs) : List (Item ε)) = bytes as ++ bytes bs := List.map_append

@[simp] theorem length_bytes (bs : List UInt8) :
    (bytes bs : List (Item ε)).length = bs.length := List.length_map _

theorem bytes_injective : Function.Injective (bytes : List UInt8 → List (Item ε)) :=
  List.map_injective_iff.mpr fun _ _ h => Item.byte.inj h

variable (starved : ε)

@[simp] theorem read_zero (src : List (Item ε)) : read starved 0 src = (none, [], src) := by
  cases src <;> rfl

theorem read_bytes (bs : List UInt8) (src : List (Item ε)) :
    read starved bs.length (bytes bs ++ src) = (none, bs, src) := by
  induction bs with
  | nil => exact read_zero starved src
  | cons b bs ih =>
    simp only [bytes, List.map_cons, List.cons_append, List.length_cons, read] at ih ⊢
    rw [ih]

/-- A failure that comes before the last byte is reported. -/
theorem read_fault {n : ℕ} (bs : List UInt8) (e : ε) (src : List (Item ε)) (h : bs.length < n) :
    read starved n (bytes bs ++ .fault e :: src) = (some e, bs, src) := by
  induction bs generalizing n with
  | nil =>
    cases n with
    | zero => exact absurd h (lt_irrefl 0)
    | succ n => rfl
  | cons b bs ih =>
    cases n with
    | zero => exact absurd h (Nat.not_lt_zero _)
    | succ n =>
      have hrest := ih (Nat.lt_of_succ_lt_succ h)
      simp only [bytes, List.map_cons, List.cons_append, read] at hrest ⊢
      rw [hrest]

/-- The only successful read of `n` bytes is the one that takes `n` bytes off the source. -/
theorem read_ok {n : ℕ} {src rest : List (Item ε)} {got : List UInt8}
    (h : read starved n src = (none, got, rest)) :
    got.length = n ∧ src = bytes got ++ rest := by
  induction n generalizing src got rest with
  | zero =>
    rw [read_zero] at h
    obtain ⟨-, rfl, rfl⟩ := h
    exact ⟨rfl, rfl⟩
  | succ n ih =>
    cases src with
    | nil => cases h
    | cons item src =>
      cases item with
      | fault e => cases h
      | byte b =>
        -- The first byte is there, so the read of the others succeeded too.
        simp only [read] at h
        rcases hr : read starved n src with ⟨err, got', rest'⟩
        rw [hr] at h
        obtain ⟨rfl, rfl, rfl⟩ := h
        obtain ⟨hlen, hsrc⟩ := ih hr
        exact ⟨by simp only [List.length_cons, hlen], by rw [hsrc]; rfl⟩

/-! ### What a source delivered -/

/-- The bytes of a source, without its failures. -/
def delivered (src : List (Item ε)) : List UInt8 :=
  src.filterMap fun item =>
    match item with
    | .byte b => some b
    | .fault _ => none

@[simp] theorem delivered_nil : delivered ([] : List (Item ε)) = [] := rfl

@[simp] theorem delivered_byte (b : UInt8) (src : List (Item ε)) :
    delivered (.byte b :: src) = b :: delivered src := rfl

@[simp] theorem delivered_append (src src' : List (Item ε)) :
    delivered (src ++ src') = delivered src ++ delivered src' := List.filterMap_append

@[simp] theorem delivered_bytes (bs : List UInt8) : delivered (bytes bs : List (Item ε)) = bs := by
  induction bs with
  | nil => rfl
  | cons b bs ih => exact congrArg (b :: ·) ih

/-- Behind the bytes `got` the source fails only where `P` holds of all bytes up to there. -/
inductive FailsAt (P : List UInt8 → Prop) : List UInt8 → List (Item ε) → Prop
  | nil (got : List UInt8) : FailsAt P got []
  | byte {got : List UInt8} {b : UInt8} {src : List (Item ε)} :
      FailsAt P (got ++ [b]) src → FailsAt P got (.byte b :: src)
  | fault {got : List UInt8} (e : ε) {src : List (Item ε)} :
      P got → FailsAt P got src → FailsAt P got (.fault e :: src)

variable {P : List UInt8 → Prop} {got : List UInt8} {src src' : List (Item ε)}

theorem FailsAt.append (h : FailsAt P got src) (h' : FailsAt P (got ++ delivered src) src') :
    FailsAt P got (src ++ src') := by
  induction h with
  | nil got => rwa [delivered_nil, List.append_nil] at h'
  | byte _ ih =>
    rw [delivered_byte, List.append_cons] at h'
    exact .byte (ih h')
  | fault e hP _ ih => exact .fault e hP (ih h')

theorem failsAt_bytes (bs : List UInt8) : FailsAt P got (bytes bs : List (Item ε)) := by
  induction bs generalizing got with
  | nil => exact .nil got
  | cons b bs ih => exact .byte ih

/-- If it must not fail inside of `bs`, then a source that goes on with `bs` delivers them in one piece,
or is over before their end. -/
theorem FailsAt.piece {bs rest : List UInt8} (h : FailsAt P got src)
    (hdelivered : delivered src <+: bs ++ rest)
    (hinside : ∀ as cs, bs = as ++ cs → cs ≠ [] → ¬ P (got ++ as)) :
    (∃ src', src = bytes bs ++ src') ∨ ∃ as cs, bs = as ++ cs ∧ cs ≠ [] ∧ src = bytes as := by
  induction bs generalizing got src with
  | nil => exact Or.inl ⟨src, rfl⟩
  | cons b bs ih =>
    cases h with
    | nil => exact Or.inr ⟨[], b :: bs, rfl, List.cons_ne_nil b bs, rfl⟩
    | fault e hP =>
      have hnot := hinside [] (b :: bs) rfl (List.cons_ne_nil b bs)
      rw [List.append_nil] at hnot
      exact absurd hP hnot
    | @byte _ c src hsrc =>
      rw [delivered_byte, List.cons_append, List.cons_prefix_cons] at hdelivered
      obtain ⟨rfl, hdelivered⟩ := hdelivered
      have hinside' : ∀ as cs, bs = as ++ cs → cs ≠ [] → ¬ P (got ++ [c] ++ as) := by
        intro as cs hbs hcs
        rw [List.append_assoc]
        exact hinside (c :: as) cs (congrArg (c :: ·) hbs) hcs
      rcases ih hsrc hdelivered hinside' with ⟨src', rfl⟩ | ⟨as, cs, rfl, hcs, rfl⟩
      · exact Or.inl ⟨src', rfl⟩
      · exact Or.inr ⟨c :: as, cs, rfl, hcs, rfl⟩

end ByteSource
