import KenningRuntime.CnnLoading
import KenningRuntime.Library.Transition

/-! Where the model loader of the ai8x runtime writes, whatever words it is given. -/
namespace KenningRuntime
open Transition

namespace Ai8x

/-- An entry as it was read: its address, the length that was declared for it, and the addresses to
which its content went. -/
structure ReadEntry where
  address : BitVec 32
  length : BitVec 32
  targets : List (BitVec 32)
deriving DecidableEq

/-- The addresses `address + 4*k` of the first `n` words. -/
def wordAddresses (address : BitVec 32) (n : ℕ) : List (BitVec 32) :=
  (List.range n).map fun k => address+4*BitVec.ofNat 32 k

def CnnWrite.wordAddress : CnnWrite → Option (BitVec 32)
  | .byte _ _ => none
  | .word addr _ => some addr

/-- The loader with the entry that it is reading, and those that it has read to their end. -/
structure EntryReader where
  loader : CnnLoader
  current : ReadEntry
  finished : List ReadEntry

namespace EntryReader

/-- The reader after one word: what the word is taken for depends on the state of the loader. -/
def read (r : EntryReader) (val : BitVec 32) : EntryReader :=
  let loader := (bufSaveOneCnn r.loader val).2
  match r.loader.state with
  | .weightsStart | .biasesStart => {r with loader, current := ⟨val, 0, []⟩}
  | .weightsLength | .biasesLength => {r with loader, current := {r.current with length := val}}
  | .weights | .biases =>
    let stored := (loader.writes.drop r.loader.writes.length).filterMap CnnWrite.wordAddress
    let current := {r.current with targets := r.current.targets ++ stored}
    if loader.state = r.loader.state then {r with loader, current}
    else {loader, current := ⟨0, 0, []⟩, finished := r.finished ++ [current]}
  | .loadEnd => {r with loader}

/-- After a reset, whatever the loader has done before. -/
def initial (l : CnnLoader) : EntryReader := ⟨(bufResetCnn l).2, ⟨0, 0, []⟩, []⟩

def step (r : EntryReader) (val : BitVec 32) : Option EntryReader := some (r.read val)

/-- Content is stored inside its entry: word `k` of an entry goes to `address + 4*k`, where `k` is less
than the declared length, and an entry is at its end after exactly as many words. -/
structure InBounds (r : EntryReader) : Prop where
  address : ∀ p : Phase, r.loader.state = p.length →
    r.current = ⟨r.loader.addr, 0, []⟩
  content : ∀ p : Phase, r.loader.state = p.content →
    r.loader.written < r.loader.maxSize ∧ r.current =
      ⟨r.loader.addr, r.loader.maxSize, wordAddresses r.loader.addr r.loader.written.toNat⟩
  finished : ∀ e ∈ r.finished, e.targets = wordAddresses e.address e.length.toNat

/-- A word that is read as a length is not zero. -/
def LengthNonzero (r : EntryReader) (val : BitVec 32) : Prop :=
  ∀ p : Phase, r.loader.state = p.length → val ≠ 0

theorem wordAddresses_succ (address written : BitVec 32) :
    wordAddresses address (written.toNat+1) =
      wordAddresses address written.toNat ++ [address+4*written] := by
  rw [wordAddresses, List.range_succ, List.map_append, List.map_singleton, BitVec.ofNat_toNat,
    BitVec.setWidth_eq, wordAddresses]

/-- The loader expects an address, a length or content, or it is at its end. -/
theorem state_cases (s : CnnLoadState) : (∃ p : Phase, s = p.start) ∨ (∃ p : Phase, s = p.length) ∨
    (∃ p : Phase, s = p.content) ∨ s = .loadEnd := by
  cases s with
  | weightsStart => exact .inl ⟨.weights, rfl⟩
  | biasesStart => exact .inl ⟨.biases, rfl⟩
  | weightsLength => exact .inr (.inl ⟨.weights, rfl⟩)
  | biasesLength => exact .inr (.inl ⟨.biases, rfl⟩)
  | weights => exact .inr (.inr (.inl ⟨.weights, rfl⟩))
  | biases => exact .inr (.inr (.inl ⟨.biases, rfl⟩))
  | loadEnd => exact .inr (.inr (.inr rfl))

/-! ### One word -/

variable {r : EntryReader} {p : Phase}

theorem read_start (h : r.loader.state = p.start) (val : BitVec 32) :
    r.read val = {r with loader := (bufSaveOneCnn r.loader val).2, current := ⟨val, 0, []⟩} := by
  rw [read, h]
  cases p with
  | weights | biases => rfl

theorem read_length (h : r.loader.state = p.length) (val : BitVec 32) :
    r.read val = {r with
      loader := (bufSaveOneCnn r.loader val).2
      current := {r.current with length := val} } := by
  rw [read, h]
  cases p with
  | weights | biases => rfl

theorem start_ne_length (p q : Phase) : p.start ≠ q.length := by
  cases p <;> cases q <;> exact (CnnLoadState.noConfusion ·)

theorem start_ne_content (p q : Phase) : p.start ≠ q.content := by
  cases p <;> cases q <;> exact (CnnLoadState.noConfusion ·)

theorem length_ne_content (p q : Phase) : p.length ≠ q.content := by
  cases p <;> cases q <;> exact (CnnLoadState.noConfusion ·)

theorem next_ne_length (p q : Phase) : p.next ≠ q.length := by
  cases p <;> cases q <;> exact (CnnLoadState.noConfusion ·)

theorem next_ne_content (p q : Phase) : p.next ≠ q.content := by
  cases p <;> cases q <;> exact (CnnLoadState.noConfusion ·)

/-- A word of content is stored once, behind the words before it. -/
theorem read_content (h : r.loader.state = p.content) (val : BitVec 32) :
    r.read val =
      let current := {r.current with
        targets := r.current.targets ++ [r.loader.addr+4*r.loader.written] }
      if r.loader.written+1 = r.loader.maxSize then
        ⟨r.loader.append val p.start, ⟨0, 0, []⟩, r.finished ++ [current]⟩
      else {r with loader := r.loader.append val p.start, current} := by
  have hsave := bufSaveOneCnn_content h val
  have hstored : ((r.loader.append val p.start).writes.drop r.loader.writes.length).filterMap
      CnnWrite.wordAddress = [r.loader.addr+4*r.loader.written] := by
    rw [CnnLoader.writes_append, List.drop_left]
    rfl
  have hstate : (r.loader.append val p.start).state = r.loader.state ↔
      ¬ r.loader.written+1 = r.loader.maxSize := by
    by_cases hlast : r.loader.written+1 = r.loader.maxSize
    · rw [CnnLoader.state_append_last hlast, h]
      exact iff_of_false (start_ne_content p p) (not_not_intro hlast)
    · rw [CnnLoader.append_more hlast]
      exact iff_of_true rfl hlast
  rw [read, hsave]
  simp only [hstored, hstate, ite_not]
  rw [h]
  cases p with
  | weights | biases => rfl

/-- An address is taken as it is: where it leads to content, its length comes first. -/
theorem InBounds.start (hr : r.InBounds) (h : r.loader.state = p.start) (val : BitVec 32) :
    (r.read val).InBounds := by
  rw [read_start h]
  by_cases hval : val = 0
  · subst hval
    have hsave := bufSaveOneCnn_zero h
    refine ⟨?_, ?_, hr.finished⟩
    · intro q hq
      rw [hsave] at hq
      exact absurd hq (next_ne_length p q)
    · intro q hq
      rw [hsave] at hq
      exact absurd hq (next_ne_content p q)
  · have hsave := bufSaveOneCnn_address h hval
    refine ⟨?_, ?_, hr.finished⟩
    · intro q hq
      simp only [hsave]
    · intro q hq
      rw [hsave] at hq
      exact absurd hq (length_ne_content p q)

/-- A length is in order exactly if it is not zero. -/
theorem inBounds_length_iff (hr : r.InBounds) (h : r.loader.state = p.length) (val : BitVec 32) :
    (r.read val).InBounds ↔ val ≠ 0 := by
  have hsave := bufSaveOneCnn_length h val
  have hstate : (bufSaveOneCnn r.loader val).2.state = p.content := by
    rw [hsave]
  rw [read_length h]
  constructor
  · intro hnext
    have hlt := (hnext.content p hstate).1
    rw [hsave] at hlt
    exact (BitVec.pos_iff_ne_zero _).mp hlt
  · intro hval
    refine ⟨?_, ?_, hr.finished⟩
    · intro q hq
      exact absurd (hq.symm.trans hstate) (length_ne_content q p)
    · intro q _
      rw [hr.address p h, hsave]
      exact ⟨(BitVec.pos_iff_ne_zero _).mpr hval, rfl⟩

/-- A word of content is the last one of its entry, or there is room for one more. -/
theorem InBounds.content_word (hr : r.InBounds) (h : r.loader.state = p.content) (val : BitVec 32) :
    (r.read val).InBounds := by
  obtain ⟨hlt, hcurrent⟩ := hr.content p h
  have hnat : r.loader.written.toNat < r.loader.maxSize.toNat := hlt
  have hsucc : (r.loader.written+1).toNat = r.loader.written.toNat+1 := by
    have hmax := r.loader.maxSize.isLt
    have hroom : r.loader.written.toNat+1 < 2^32 := by omega
    rw [BitVec.toNat_add]
    exact Nat.mod_eq_of_lt hroom
  have htargets := wordAddresses_succ r.loader.addr r.loader.written
  rw [read_content h, hcurrent]
  simp only
  -- The last word of the entry finishes it; any other leaves room for one more.
  by_cases hlast : r.loader.written+1 = r.loader.maxSize
  · have hstate : (r.loader.append val p.start).state = p.start := CnnLoader.state_append_last hlast
    rw [if_pos hlast]
    refine ⟨?_, ?_, ?_⟩
    · intro q hq
      exact absurd (hstate.symm.trans hq) (start_ne_length p q)
    · intro q hq
      exact absurd (hstate.symm.trans hq) (start_ne_content p q)
    · intro e he
      rcases List.mem_append.mp he with he | he
      · exact hr.finished e he
      · rw [List.mem_singleton.mp he]
        simp only
        rw [← htargets, ← hsucc, hlast]
  · have hmore : (r.loader.written+1).toNat < r.loader.maxSize.toNat := by
      have hne : (r.loader.written+1).toNat ≠ r.loader.maxSize.toNat := fun heq =>
        hlast (BitVec.eq_of_toNat_eq heq)
      omega
    rw [if_neg hlast, CnnLoader.append_more hlast]
    refine ⟨?_, ?_, hr.finished⟩
    · intro q hq
      exact absurd (hq.symm.trans h) (length_ne_content q p)
    · intro q _
      refine ⟨hmore, ?_⟩
      simp only
      rw [← htargets, hsucc]

theorem InBounds.loadEnd (hr : r.InBounds) (h : r.loader.state = .loadEnd) (val : BitVec 32) :
    (r.read val).InBounds := by
  have hread : r.read val = r := by
    rw [read, h, bufSaveOneCnn, h]
  rw [hread]
  exact hr

theorem initial_inBounds (l : CnnLoader) : (initial l).InBounds := by
  have hstate : (initial l).loader.state = Phase.weights.start := rfl
  refine ⟨?_, ?_, ?_⟩
  · intro q hq
    exact absurd (hstate.symm.trans hq) (start_ne_length _ q)
  · intro q hq
    exact absurd (hstate.symm.trans hq) (start_ne_content _ q)
  · intro e he
    exact absurd he List.not_mem_nil

theorem inBounds_read_iff (hr : r.InBounds) (val : BitVec 32) :
    (r.read val).InBounds ↔ r.LengthNonzero val := by
  rcases state_cases r.loader.state with ⟨p, h⟩ | ⟨p, h⟩ | ⟨p, h⟩ | h
  · refine iff_of_true (hr.start h val) ?_
    intro q hq
    exact absurd (h.symm.trans hq) (start_ne_length p q)
  · rw [inBounds_length_iff hr h]
    exact ⟨fun hval _ _ => hval, fun hval => hval p h⟩
  · refine iff_of_true (hr.content_word h val) ?_
    intro q hq
    exact absurd (hq.symm.trans h) (length_ne_content q p)
  · refine iff_of_true (hr.loadEnd h val) ?_
    intro q hq
    rw [h] at hq
    cases q with
    | weights | biases => cases hq

/-! ### All words after a reset -/

/-- Whatever words come after a reset: content stays inside its entries exactly as long as no length
is declared that is zero. -/
theorem reads_inBounds_iff (l : CnnLoader) (words : List (BitVec 32)) :
    (∀ p r, p <+: words → Reaches step (initial l) p r → r.InBounds) ↔
      Guarded step LengthNonzero (initial l) words := by
  refine always_iff_guarded ?_ (initial_inBounds l) words
  intro r val hr
  rw [← inBounds_read_iff hr val]
  exact ⟨fun h => h _ rfl, fun h r' hs => (Option.some.inj hs) ▸ h⟩

/-- An entry that is declared empty does not end: what comes behind it is stored at its address. -/
theorem reads_zero_length :
    ∃ r, Reaches step (initial ⟨.loadEnd, 0, 0, 0, []⟩) [0x50180000, 0, 0x50108000, 1] r ∧
      r.loader.state = .weights ∧ r.current = ⟨0x50180000, 0, [0x50180000, 0x50180004]⟩ ∧
      ¬ r.InBounds := by
  obtain ⟨r, hr, hp⟩ := exists_reaches
    (p := fun r : EntryReader => r.loader.state = .weights ∧
      r.current = ⟨0x50180000, 0, [0x50180000, 0x50180004]⟩)
    (show (run step (initial ⟨.loadEnd, 0, 0, 0, []⟩) [0x50180000, 0, 0x50108000, 1]).any _ = true
      by decide)
  obtain ⟨hstate, hcurrent⟩ := of_decide_eq_true hp
  refine ⟨r, hr, hstate, hcurrent, ?_⟩
  intro h
  obtain ⟨hlt, hcurrent'⟩ := h.content .weights hstate
  have hmax : 0 = r.loader.maxSize := congrArg ReadEntry.length (hcurrent.symm.trans hcurrent')
  rw [← hmax] at hlt
  exact absurd hlt (BitVec.not_lt_zero)

end EntryReader

end Ai8x

end KenningRuntime
