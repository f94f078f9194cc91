import KenningRuntime.LogStream

/-! What `render_character` (core/logger.c) stores, and where, for a text that comes in chunks. -/
namespace KenningRuntime

/-- What a call of `render_character` returns, and its assignments to elements of `msg_buffer`. -/
structure RenderCall where
  count : ℕ
  stores : List (ℕ × UInt8)
deriving DecidableEq

namespace Logger

variable {S : ℕ}

/-- The loop of `render_character` again, with the assignments. -/
def storeLoop : List UInt8 → ℕ → Logger S → Option (RenderCall × Logger S)
  | [], i, l => some (⟨i, []⟩, l)
  | c :: data, i, l =>
    let index := i+l.currMsgLen+l.msgBufferLen+1
    if index ≥ S ∨ l.currMsgLen ≥ maxSingleMessageLength then some (⟨i, []⟩, l)
    else
      match l.msgBuffer.assign index c with
      | none => none
      | some msgBuffer =>
        match storeLoop data (i+1) {l with msgBuffer, currMsgLen := l.currMsgLen+1} with
        | none => none
        | some (call, l) => some (⟨call.count, (index, c) :: call.stores⟩, l)

def renderStores (data : List UInt8) (l : Logger S) : Option (RenderCall × Logger S) := storeLoop data 0 l

theorem storeLoop_renderLoop (data : List UInt8) (i : ℕ) (l : Logger S) :
    (storeLoop data i l).map (fun r => (r.1.count, r.2)) = renderLoop data i l := by
  induction data generalizing i l with
  | nil => rfl
  | cons c data ih =>
    rw [storeLoop, renderLoop]
    split_ifs
    · rfl
    · cases l.msgBuffer.assign (i+l.currMsgLen+l.msgBufferLen+1) c with
      | none => rfl
      | some msgBuffer =>
        simp only
        rw [← ih]
        rcases storeLoop data (i+1) {l with msgBuffer, currMsgLen := l.currMsgLen+1} with _ | ⟨call, l'⟩
        · rfl
        · rfl

/-- Without the assignments it is `render_character`. -/
theorem renderStores_renderCharacter (data : List UInt8) (l : Logger S) :
    (renderStores data l).map (fun r => (r.1.count, r.2)) = renderCharacter data l :=
  storeLoop_renderLoop data 0 l

/-! ### One call -/

/-- The position of the next character of the current message. -/
def position (l : Logger S) : ℕ := l.msgBufferLen+1+l.currMsgLen

/-- No character is stored. -/
def Full (l : Logger S) : Prop :=
  maxSingleMessageLength ≤ l.currMsgLen ∨ S ≤ l.currMsgLen+l.msgBufferLen+1

/-- A second character is stored in the same call. -/
def TakesTwo (l : Logger S) : Prop :=
  l.currMsgLen+1 < maxSingleMessageLength ∧ l.currMsgLen+l.msgBufferLen+3 < S

theorem storeLoop_stop {c : UInt8} {data : List UInt8} {i : ℕ} {l : Logger S}
    (h : S ≤ i+l.currMsgLen+l.msgBufferLen+1 ∨ maxSingleMessageLength ≤ l.currMsgLen) :
    storeLoop (c :: data) i l = some (⟨i, []⟩, l) := if_pos h

def stored (index : ℕ) (c : UInt8) (l : Logger S) : Logger S :=
  {l with
    msgBuffer := ⟨l.msgBuffer.bytes.set index c, l.msgBuffer.length_set _ c⟩
    currMsgLen := l.currMsgLen+1 }

theorem storeLoop_store {c : UInt8} {data : List UInt8} {i : ℕ} {l : Logger S}
    (hindex : i+l.currMsgLen+l.msgBufferLen+1 < S) (hmax : l.currMsgLen < maxSingleMessageLength) :
    storeLoop (c :: data) i l =
      (storeLoop data (i+1) (l.stored (i+l.currMsgLen+l.msgBufferLen+1) c)).map fun r =>
        (⟨r.1.count, (i+l.currMsgLen+l.msgBufferLen+1, c) :: r.1.stores⟩, r.2) := by
  have hno : ¬ (i+l.currMsgLen+l.msgBufferLen+1 ≥ S ∨ l.currMsgLen ≥ maxSingleMessageLength) := by omega
  rw [storeLoop]
  simp only [if_neg hno, Buffer.assign, if_pos hindex]
  rw [stored]
  rcases storeLoop data (i+1) _ with _ | ⟨call, l'⟩
  · rfl
  · rfl

/-- What is returned counts the assignments, and no assignment is outside of the buffer. -/
theorem storeLoop_count (data : List UInt8) (i : ℕ) (l : Logger S) :
    ∃ call l', storeLoop data i l = some (call, l') ∧ call.count = i+call.stores.length := by
  induction data generalizing i l with
  | nil => exact ⟨_, l, rfl, rfl⟩
  | cons c data ih =>
    by_cases hstop : S ≤ i+l.currMsgLen+l.msgBufferLen+1 ∨ maxSingleMessageLength ≤ l.currMsgLen
    · exact ⟨_, l, storeLoop_stop hstop, rfl⟩
    · obtain ⟨call, l', hrest, hcount⟩ := ih (i+1) (l.stored (i+l.currMsgLen+l.msgBufferLen+1) c)
      refine ⟨⟨call.count, (i+l.currMsgLen+l.msgBufferLen+1, c) :: call.stores⟩, l', ?_, ?_⟩
      · rw [storeLoop_store (by omega) (by omega), hrest]
        rfl
      · rw [hcount, List.length_cons]
        omega

theorem renderStores_full (c : UInt8) (data : List UInt8) {l : Logger S} (h : l.Full) :
    renderStores (c :: data) l = some (⟨0, []⟩, l) := by
  rw [Full] at h
  exact storeLoop_stop (by omega)

theorem renderStores_first (c : UInt8) (data : List UInt8) {l : Logger S} (h : ¬ l.Full) :
    renderStores (c :: data) l =
      (storeLoop data 1 (l.withCharacter c)).map fun r =>
        (⟨r.1.count, (l.position, c) :: r.1.stores⟩, r.2) := by
  rw [Full, not_or, not_le, not_le] at h
  have hindex : 0+l.currMsgLen+l.msgBufferLen+1 = l.position := by
    rw [position]
    omega
  rw [renderStores, storeLoop_store (by omega) h.1, hindex]
  rfl

/-- The second one is stored two places behind the first one. -/
theorem renderStores_two (c c' : UInt8) (data : List UInt8) {l : Logger S} (h : l.TakesTwo) :
    ∃ call l', renderStores (c :: c' :: data) l = some (call, l') ∧
      ∃ stores, call.stores = (l.position, c) :: (l.position+2, c') :: stores := by
  obtain ⟨hmax, hroom⟩ := h
  have hfirst : ¬ l.Full := by
    rw [Full]
    omega
  have hcurr : (l.withCharacter c).currMsgLen = l.currMsgLen+1 := rfl
  have hlen : (l.withCharacter c).msgBufferLen = l.msgBufferLen := rfl
  -- Both `i` and `curr_msg_len` are one larger than for the first character.
  have hindex : 1+(l.withCharacter c).currMsgLen+(l.withCharacter c).msgBufferLen+1 = l.position+2 := by
    rw [position, hcurr, hlen]
    omega
  obtain ⟨call, l', hrest, -⟩ := storeLoop_count data (1+1) ((l.withCharacter c).stored (l.position+2) c')
  refine ⟨⟨call.count, (l.position, c) :: (l.position+2, c') :: call.stores⟩, l', ?_, call.stores, rfl⟩
  rw [renderStores_first c _ hfirst, storeLoop_store (by rw [hcurr, hlen]; omega) hmax, hindex, hrest]
  rfl

theorem renderStores_one (c : UInt8) {data : List UInt8} {l : Logger S} (h : ¬ l.Full)
    (hlast : data = [] ∨ ¬ l.TakesTwo) :
    renderStores (c :: data) l = some (⟨1, [(l.position, c)]⟩, l.withCharacter c) := by
  have hrest : storeLoop data 1 (l.withCharacter c) = some (⟨1, []⟩, l.withCharacter c) := by
    cases data with
    | nil => rfl
    | cons c' data =>
      have hno : ¬ l.TakesTwo := hlast.resolve_left (List.cons_ne_nil _ _)
      have hcurr : (l.withCharacter c).currMsgLen = l.currMsgLen+1 := rfl
      have hlen : (l.withCharacter c).msgBufferLen = l.msgBufferLen := rfl
      rw [TakesTwo] at hno
      apply storeLoop_stop
      rw [hcurr, hlen]
      omega
  rw [renderStores_first c data h, hrest]
  rfl

/-- The three things that a call can do with a chunk. -/
theorem renderStores_cases {c : UInt8} {data : List UInt8} {l l' : Logger S} {call : RenderCall}
    (h : renderStores (c :: data) l = some (call, l')) :
    (l.Full ∧ call = ⟨0, []⟩ ∧ l' = l) ∨
      (¬ l.Full ∧ (data = [] ∨ ¬ l.TakesTwo) ∧ call = ⟨1, [(l.position, c)]⟩ ∧ l' = l.withCharacter c) ∨
      (data ≠ [] ∧ l.TakesTwo ∧
        ∃ c' stores, call.stores = (l.position, c) :: (l.position+2, c') :: stores) := by
  by_cases hfull : l.Full
  · obtain ⟨rfl, rfl⟩ := Prod.mk.inj (Option.some.inj (h.symm.trans (renderStores_full c data hfull)))
    exact Or.inl ⟨hfull, rfl, rfl⟩
  by_cases hlast : data = [] ∨ ¬ l.TakesTwo
  · obtain ⟨rfl, rfl⟩ := Prod.mk.inj (Option.some.inj (h.symm.trans (renderStores_one c hfull hlast)))
    exact Or.inr (Or.inl ⟨hfull, hlast, rfl, rfl⟩)
  · -- There is a second character, and the loop has room for it.
    obtain ⟨hmore, htwo⟩ := not_or.mp hlast
    obtain ⟨c', rest, rfl⟩ := List.exists_cons_of_ne_nil hmore
    obtain ⟨call', l₁, hcall', stores, hstores⟩ := renderStores_two c c' rest (not_not.mp htwo)
    obtain ⟨rfl, rfl⟩ := Prod.mk.inj (Option.some.inj (h.symm.trans hcall'))
    exact Or.inr (Or.inr ⟨hmore, not_not.mp htwo, c', stores, hstores⟩)

theorem renderStores_count {data : List UInt8} {l l' : Logger S} {call : RenderCall}
    (h : renderStores data l = some (call, l')) : call.count = call.stores.length := by
  obtain ⟨call', l₁, hcall', hcount⟩ := storeLoop_count data 0 l
  obtain ⟨rfl, rfl⟩ := Prod.mk.inj (Option.some.inj (h.symm.trans hcall'))
  rw [hcount, Nat.zero_add]

/-- A call that returns 0 has stored nothing, since there was no room. -/
theorem renderStores_zero {c : UInt8} {data : List UInt8} {l l' : Logger S} {call : RenderCall}
    (h : renderStores (c :: data) l = some (call, l')) (hzero : call.count = 0) :
    l.Full ∧ call = ⟨0, []⟩ ∧ l' = l := by
  have hcount := renderStores_count h
  rcases renderStores_cases h with hfull | ⟨-, -, rfl, -⟩ | ⟨-, -, c', stores, hstores⟩
  · exact hfull
  · exact absurd hzero one_ne_zero
  · rw [hzero, hstores] at hcount
    exact absurd hcount.symm (Nat.succ_ne_zero _)

/-! ### A text in chunks -/

/-- Calls on consecutive chunks of a text, of the given sizes. Each one resumes where the one before it
stopped, up to the end of the text or a call that returns 0. -/
inductive Renders : Logger S → List UInt8 → List ℕ → List RenderCall → Logger S → Prop
  | done (l : Logger S) : Renders l [] [] [] l
  | stop {l l' : Logger S} {text : List UInt8} {n : ℕ} {call : RenderCall} :
      1 ≤ n → n ≤ text.length → renderStores (text.take n) l = some (call, l') → call.count = 0 →
        Renders l text [n] [call] l'
  | next {l l' l'' : Logger S} {text : List UInt8} {n : ℕ} {sizes : List ℕ} {call : RenderCall}
      {calls : List RenderCall} :
      1 ≤ n → n ≤ text.length → renderStores (text.take n) l = some (call, l') → call.count ≠ 0 →
        Renders l' (text.drop call.count) sizes calls l'' →
          Renders l text (n :: sizes) (call :: calls) l''

def storesOf (calls : List RenderCall) : List (ℕ × UInt8) := calls.flatMap RenderCall.stores

/-- The characters are stored one behind the other. -/
def Contiguous (l : Logger S) (calls : List RenderCall) : Prop :=
  (storesOf calls).map Prod.fst = List.range' l.position (storesOf calls).length

instance (l : Logger S) (calls : List RenderCall) : Decidable (Contiguous l calls) :=
  inferInstanceAs (Decidable (_ = _))

/-- The chunks do not matter: one character at a time leads to the same assignments and the same
state. -/
structure ChunkFree (l : Logger S) (text : List UInt8) (calls : List RenderCall) (l' : Logger S) :
    Prop where
  each : ∃ eachCalls l₁, Renders l text (List.replicate eachCalls.length 1) eachCalls l₁ ∧
    storesOf calls = storesOf eachCalls ∧ l'.currMsgLen = l₁.currMsgLen
  count : ∀ call ∈ calls, call.count = call.stores.length
  contiguous : Contiguous l calls

/-- Every chunk is one character, or there is no room for a second one when it is its turn. -/
def OneAtATime (l : Logger S) (sizes : List ℕ) : Prop :=
  ∀ i n, sizes[i]? = some n → n = 1 ∨ 254 ≤ l.currMsgLen+i ∨ S ≤ l.currMsgLen+i+l.msgBufferLen+3

theorem oneAtATime_cons {l : Logger S} {n : ℕ} {sizes : List ℕ} (c : UInt8) :
    OneAtATime l (n :: sizes) ↔ (n = 1 ∨ ¬ l.TakesTwo) ∧ OneAtATime (l.withCharacter c) sizes := by
  have hcurr : (l.withCharacter c).currMsgLen = l.currMsgLen+1 := rfl
  have hlen : (l.withCharacter c).msgBufferLen = l.msgBufferLen := rfl
  rw [TakesTwo, maxSingleMessageLength]
  constructor
  · intro h
    refine ⟨?_, ?_⟩
    · have hzero := h 0 n rfl
      omega
    · intro i m hm
      have hsucc := h (i+1) m hm
      rw [hcurr, hlen]
      omega
  · rintro ⟨hzero, hrest⟩ i m hm
    cases i with
    | zero =>
      obtain rfl := Option.some.inj hm
      omega
    | succ i =>
      have hsucc := hrest i m hm
      rw [hcurr, hlen] at hsucc
      omega

theorem oneAtATime_nil (l : Logger S) : OneAtATime l [] := by
  intro i n hn
  cases hn

theorem contiguous_cons_one {l : Logger S} {c : UInt8} {calls : List RenderCall} :
    Contiguous l (⟨1, [(l.position, c)]⟩ :: calls) ↔ Contiguous (l.withCharacter c) calls := by
  have hstores : storesOf (⟨1, [(l.position, c)]⟩ :: calls) = (l.position, c) :: storesOf calls :=
    List.flatMap_cons
  rw [Contiguous, hstores, List.map_cons, List.length_cons, List.range'_succ, List.cons_inj_right]
  rfl

/-- The place between the first two characters is left out. -/
theorem not_contiguous_two {l : Logger S} {call : RenderCall} {c c' : UInt8} {stores : List (ℕ × UInt8)}
    (h : call.stores = (l.position, c) :: (l.position+2, c') :: stores) (calls : List RenderCall) :
    ¬ Contiguous l (call :: calls) := by
  have hstores : storesOf (call :: calls) =
      (l.position, c) :: (l.position+2, c') :: (stores ++ storesOf calls) := by
    rw [storesOf, List.flatMap_cons, h]
    rfl
  rw [Contiguous, hstores]
  simp only [List.map_cons, List.length_cons, List.range'_succ, List.cons.injEq]
  omega

theorem Full.not_takesTwo {l : Logger S} (h : l.Full) : ¬ l.TakesTwo := by
  rw [Full] at h
  rw [TakesTwo]
  omega

theorem exists_chunk {text : List UInt8} {n : ℕ} (hn : 1 ≤ n) (hlen : n ≤ text.length) :
    ∃ c data, text.take n = c :: data ∧ text.take 1 = [c] ∧ (data = [] ↔ n = 1) := by
  cases text with
  | nil => exact absurd (hn.trans hlen) (Nat.not_succ_le_zero 0)
  | cons c text =>
    obtain ⟨n, rfl⟩ := Nat.exists_eq_add_of_le' hn
    rw [List.length_cons] at hlen
    refine ⟨c, text.take n, rfl, rfl, ?_⟩
    rw [← List.length_eq_zero_iff, List.length_take]
    omega

section
variable {l l' : Logger S} {text : List UInt8} {sizes : List ℕ} {calls : List RenderCall}

theorem Renders.count (h : Renders l text sizes calls l') :
    ∀ call ∈ calls, call.count = call.stores.length := by
  induction h with
  | done l => exact fun call hcall => absurd hcall List.not_mem_nil
  | stop _ _ hcall _ => exact List.forall_mem_singleton.mpr (renderStores_count hcall)
  | next _ _ hcall _ _ ih => exact List.forall_mem_cons.mpr ⟨renderStores_count hcall, ih⟩

/-- A call that stores two characters leaves a place out, and the others do not. -/
theorem Renders.contiguous_iff (h : Renders l text sizes calls l') :
    Contiguous l calls ↔ OneAtATime l sizes := by
  induction h with
  | done l => exact iff_of_true rfl (oneAtATime_nil l)
  | @stop l l' text n call hn hlen hcall hzero =>
    obtain ⟨c, data, hchunk, -, -⟩ := exists_chunk hn hlen
    rw [hchunk] at hcall
    obtain ⟨hfull, rfl, rfl⟩ := renderStores_zero hcall hzero
    exact iff_of_true rfl ((oneAtATime_cons c).mpr ⟨Or.inr hfull.not_takesTwo, oneAtATime_nil _⟩)
  | @next l l' l'' text n sizes call calls hn hlen hcall hne _ ih =>
    obtain ⟨c, data, hchunk, -, hdata⟩ := exists_chunk hn hlen
    rw [hchunk] at hcall
    rw [oneAtATime_cons c, ← hdata]
    rcases renderStores_cases hcall with ⟨-, rfl, -⟩ | ⟨-, hlast, rfl, rfl⟩ |
      ⟨hmore, htwo, c', stores, hstores⟩
    · exact absurd rfl hne
    · -- One character was stored, and the rest is contiguous from the next position on or not.
      rw [contiguous_cons_one, ih]
      exact (and_iff_right hlast).symm
    · refine iff_of_false (not_contiguous_two hstores calls) ?_
      rintro ⟨hdata' | hno, -⟩
      · exact hmore hdata'
      · exact hno htwo

/-- Where every call stores one character at most, the calls are those on one character each. -/
theorem Renders.each (h : Renders l text sizes calls l') (hone : OneAtATime l sizes) :
    Renders l text (List.replicate calls.length 1) calls l' := by
  induction h with
  | done l => exact .done l
  | @stop l l' text n call hn hlen hcall hzero =>
    obtain ⟨c, data, hchunk, hfirst, -⟩ := exists_chunk hn hlen
    rw [hchunk] at hcall
    obtain ⟨hfull, rfl, rfl⟩ := renderStores_zero hcall hzero
    refine .stop le_rfl (hn.trans hlen) ?_ rfl
    rw [hfirst]
    exact renderStores_full c [] hfull
  | @next l l' l'' text n sizes call calls hn hlen hcall hne _ ih =>
    obtain ⟨c, data, hchunk, hfirst, hdata⟩ := exists_chunk hn hlen
    obtain ⟨hsize, hrest⟩ := (oneAtATime_cons c).mp hone
    rw [hchunk] at hcall
    rcases renderStores_cases hcall with ⟨-, rfl, -⟩ | ⟨hroom, -, rfl, rfl⟩ | ⟨hmore, htwo, -⟩
    · exact absurd rfl hne
    · refine .next le_rfl (hn.trans hlen) ?_ hne (ih hrest)
      rw [hfirst]
      exact renderStores_one c hroom (Or.inl rfl)
    · rcases hsize with rfl | hno
      · exact absurd (hdata.mpr rfl) hmore
      · exact absurd htwo hno

/-- For every state, every text and all chunks: they do not matter exactly if no call gets two characters
that it would both store. -/
theorem renders_chunkFree_iff (h : Renders l text sizes calls l') :
    ChunkFree l text calls l' ↔ OneAtATime l sizes := by
  constructor
  · intro hfree
    exact h.contiguous_iff.mp hfree.contiguous
  · intro hone
    exact ⟨⟨calls, l', h.each hone, rfl, rfl⟩, h.count, h.contiguous_iff.mpr hone⟩

end

/-- Three characters in two chunks, for which a buffer of five bytes has no room: the second chunk is cut
after its first character. -/
theorem renders_chunkFree_small :
    ∃ calls l', Renders (S := 5) ⟨⟨[0, 0, 0, 0, 0], rfl⟩, 2, 0, false, by decide⟩ [104, 105, 106] [1, 2, 1]
        calls l' ∧ (ChunkFree ⟨⟨[0, 0, 0, 0, 0], rfl⟩, 2, 0, false, by decide⟩ [104, 105, 106] calls l' ↔
          OneAtATime (S := 5) ⟨⟨[0, 0, 0, 0, 0], rfl⟩, 2, 0, false, by decide⟩ [1, 2, 1]) := by
  refine ⟨_, _, .next le_rfl (by decide) rfl (by decide)
    (.next (by decide) le_rfl rfl (by decide) (.stop le_rfl le_rfl rfl rfl)), renders_chunkFree_iff ?_⟩
  exact .next le_rfl (by decide) rfl (by decide)
    (.next (by decide) le_rfl rfl (by decide) (.stop le_rfl le_rfl rfl rfl))

/-- Two characters in one chunk: the second one is stored two places behind the first one. -/
theorem renders_gap :
    ∃ l', Renders (S := 5) ⟨⟨[0, 0, 0, 0, 0], rfl⟩, 0, 0, false, by decide⟩ [104, 105] [2]
        [⟨2, [(1, 104), (3, 105)]⟩] l' ∧
      ¬ ChunkFree (S := 5) ⟨⟨[0, 0, 0, 0, 0], rfl⟩, 0, 0, false, by decide⟩ [104, 105]
        [⟨2, [(1, 104), (3, 105)]⟩] l' := by
  refine ⟨_, .next (by decide) le_rfl rfl (by decide) (.done _), ?_⟩
  intro h
  exact absurd h.contiguous (by decide)

end Logger

end KenningRuntime
