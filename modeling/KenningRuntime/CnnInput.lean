import KenningRuntime.CnnLoading

/-! How the input reaches the memory of the accelerator: the input loader of the ai8x runtime, and the
function of the generated code that it calls. -/
namespace KenningRuntime

namespace Ai8x

/-- The input memory that a model was generated for: how many words it has. They have addresses of
their own. -/
structure CnnInputMap where
  words : ℕ
  fits : 4*words < 2^32

theorem generatedInputMap_fits : 4*23 < 2^32 := by decide

/-- That of the model in the repository. -/
def generatedInputMap : CnnInputMap := ⟨23, generatedInputMap_fits⟩

/-- `memcpy32` to word `off` of the input memory. -/
def memcpy32 (mem : ℕ → BitVec 32) (off : ℕ) (src : List (BitVec 32)) : ℕ → BitVec 32 :=
  fun j => if off ≤ j then src.getD (j-off) (mem j) else mem j

/-- Offset and length are in words. -/
def cnnLoadInput (words : ℕ) (src : List (BitVec 32)) (off n : ℕ) (mem : ℕ → BitVec 32) :
    ℤ × (ℕ → BitVec 32) :=
  if n = 0 then (0, mem)
  else if off < words then
    let toWrite := min (words-off) n
    cnnLoadInput words src (off+toWrite) (n-toWrite) (memcpy32 mem off (src.take toWrite))
  else (-1, mem)
termination_by n
decreasing_by omega

/-- `msg_loader_input`, and the input memory. -/
@[ext] structure CnnInputLoader where
  written : BitVec 32
  mem : ℕ → BitVec 32

variable (I : CnnInputMap)

def bufSaveCnnInput (l : CnnInputLoader) (src : List UInt8) : Status × CnnInputLoader :=
  match cnnLoadInput I.words (chunkWords (src.length/4) src) l.written.toNat (src.length/4) l.mem with
  | (s, mem) =>
    if s ≠ 0 then (Module.loaders.statusError, {l with mem})
    -- The count is of bytes, and the next offset.
    else (statusOk, ⟨l.written+BitVec.ofNat 32 src.length, mem⟩)

def bufResetCnnInput (l : CnnInputLoader) : Status × CnnInputLoader := (statusOk, {l with written := 0})

def msgLoaderInput : MsgLoader CnnInputLoader where
  save := bufSaveCnnInput I
  reset := bufResetCnnInput
  written l := l.written.toNat

/-- The loader after one chunk after the other, and whether one of them has failed. -/
def saveInputs (s : Bool × CnnInputLoader) (chunks : List (List UInt8)) : Bool × CnnInputLoader :=
  chunks.foldl (fun s src => match bufSaveCnnInput I s.2 src with
    | (status, l) => (s.1 || decide (status ≠ statusOk), l)) s

/-- The chunks after a reset, whatever there was before, do the same as one call with all of them. -/
def SameAsOneCall (chunks : List (List UInt8)) : Prop :=
  ∀ l, saveInputs I (false, (bufResetCnnInput l).2) chunks =
    saveInputs I (false, (bufResetCnnInput l).2) [chunks.flatten]

/-- There is no second chunk, or no chunk fits and the last one begins as the first one does. -/
def NeverResumed (chunks : List (List UInt8)) : Prop :=
  chunks.length ≤ 1 ∨ (∀ src ∈ chunks, I.words < src.length/4) ∧
    ∀ first last, chunks.head? = some first → chunks.getLast? = some last →
      chunkWords I.words first = chunkWords I.words last

/-! ### One chunk -/

section
variable {I} {l : CnnInputLoader}

@[simp] theorem memcpy32_nil (mem : ℕ → BitVec 32) (off : ℕ) : memcpy32 mem off [] = mem := by
  funext j
  simp only [memcpy32, List.getD_nil, ite_self]

theorem memcpy32_before {mem : ℕ → BitVec 32} {off j : ℕ} (h : j < off) (src : List (BitVec 32)) :
    memcpy32 mem off src j = mem j := if_neg (Nat.not_le.mpr h)

theorem memcpy32_at {mem : ℕ → BitVec 32} {src : List (BitVec 32)} {j : ℕ} (h : j < src.length) :
    memcpy32 mem 0 src j = src[j] := by
  rw [memcpy32, if_pos (Nat.zero_le j), Nat.sub_zero, List.getD_eq_getElem?_getD,
    List.getElem?_eq_getElem h, Option.getD_some]

theorem memcpy32_past {mem : ℕ → BitVec 32} {src : List (BitVec 32)} {j : ℕ} (h : src.length ≤ j) :
    memcpy32 mem 0 src j = mem j := by
  rw [memcpy32, if_pos (Nat.zero_le j), Nat.sub_zero, List.getD_eq_getElem?_getD,
    List.getElem?_eq_none h, Option.getD_none]

/-- Words that are written twice hold what was written last. -/
theorem memcpy32_memcpy32 (mem : ℕ → BitVec 32) {src src' : List (BitVec 32)}
    (h : src.length = src'.length) : memcpy32 (memcpy32 mem 0 src) 0 src' = memcpy32 mem 0 src' := by
  funext j
  rcases Nat.lt_or_ge j src'.length with hj | hj
  · rw [memcpy32_at hj, memcpy32_at hj]
  · rw [memcpy32_past hj, memcpy32_past hj, memcpy32_past (h.trans_le hj)]

/-- What the loop of `cnn_load_input` comes to: all words are written, or as many as there is room for. -/
theorem cnnLoadInput_eq (words : ℕ) (src : List (BitVec 32)) (off n : ℕ) (mem : ℕ → BitVec 32)
    (hn : n ≠ 0) : cnnLoadInput words src off n mem =
      if off+n ≤ words then (0, memcpy32 mem off (src.take n))
      else (-1, memcpy32 mem off (src.take (words-off))) := by
  rw [cnnLoadInput, if_neg hn]
  rcases Nat.lt_or_ge off words with hoff | hoff
  · rw [if_pos hoff]
    rcases Nat.lt_or_ge words (off+n) with hover | hfit
    · -- The second round finds no room.
      have hmin : min (words-off) n = words-off := by omega
      have hleft : n-(words-off) ≠ 0 := by omega
      have hfull : ¬ off+(words-off) < words := by omega
      simp only [hmin]
      rw [cnnLoadInput, if_neg hleft, if_neg hfull, if_neg (by omega)]
    · have hmin : min (words-off) n = n := by omega
      simp only [hmin, Nat.sub_self]
      rw [cnnLoadInput, if_pos rfl, if_pos hfit]
  · have hnone : words-off = 0 := by omega
    rw [if_neg (by omega), if_neg (by omega), hnone, List.take_zero, memcpy32_nil]

theorem length_chunkWords (n : ℕ) (src : List UInt8) : (chunkWords n src).length = n := by
  induction n generalizing src with
  | zero => rfl
  | succ n ih => rw [chunkWords, List.length_cons, ih]

theorem take_chunkWords {m n : ℕ} (h : m ≤ n) (src : List UInt8) :
    (chunkWords n src).take m = chunkWords m src := by
  induction m generalizing n src with
  | zero => rfl
  | succ m ih =>
    obtain ⟨n, rfl⟩ := Nat.exists_eq_succ_of_ne_zero (Nat.ne_of_gt (Nat.lt_of_lt_of_le m.succ_pos h))
    rw [chunkWords, chunkWords, List.take_succ_cons, ih (Nat.le_of_succ_le_succ h)]

/-- A chunk as it may come: whole words, and at least one. -/
def WholeWords (src : List UInt8) : Prop := 4 ∣ src.length ∧ src ≠ []

theorem WholeWords.length_eq {src : List UInt8} (h : WholeWords src) :
    src.length = 4*(src.length/4) := (Nat.mul_div_cancel' h.1).symm

theorem WholeWords.ne_zero {src : List UInt8} (h : WholeWords src) : src.length/4 ≠ 0 := by
  have hpos := List.length_pos_of_ne_nil h.2
  have := h.length_eq
  omega

/-- The loader with a chunk that fits behind the count. -/
def CnnInputLoader.fitted (l : CnnInputLoader) (src : List UInt8) : CnnInputLoader where
  written := l.written+BitVec.ofNat 32 src.length
  mem := memcpy32 l.mem l.written.toNat (chunkWords (src.length/4) src)

/-- The loader with as much of a chunk as there is room for, which is not counted. -/
def CnnInputLoader.overrun (I : CnnInputMap) (l : CnnInputLoader) (src : List UInt8) :
    CnnInputLoader where
  written := l.written
  mem := memcpy32 l.mem l.written.toNat (chunkWords (I.words-l.written.toNat) src)

theorem bufSaveCnnInput_fit {src : List UInt8} (h : WholeWords src)
    (hfit : l.written.toNat+src.length/4 ≤ I.words) :
    bufSaveCnnInput I l src = (statusOk, l.fitted src) := by
  rw [bufSaveCnnInput, cnnLoadInput_eq _ _ _ _ _ h.ne_zero, if_pos hfit, take_chunkWords le_rfl]
  rfl

theorem bufSaveCnnInput_over {src : List UInt8} (h : WholeWords src)
    (hover : I.words < l.written.toNat+src.length/4) :
    bufSaveCnnInput I l src = (Module.loaders.statusError, l.overrun I src) := by
  have hle : I.words-l.written.toNat ≤ src.length/4 := by omega
  rw [bufSaveCnnInput, cnnLoadInput_eq _ _ _ _ _ h.ne_zero, if_neg (Nat.not_le.mpr hover),
    take_chunkWords hle]
  rfl

/-- The count goes up by the bytes of a chunk that fits, and does not wrap. -/
theorem written_fit {n : ℕ} (hfit : l.written.toNat+n ≤ I.words) :
    (l.written+BitVec.ofNat 32 (4*n)).toNat = l.written.toNat+4*n := by
  have hwords := I.fits
  rw [BitVec.toNat_add, BitVec.toNat_ofNat, Nat.mod_eq_of_lt (show 4*n < 2^32 by omega)]
  exact Nat.mod_eq_of_lt (by omega)

theorem written_fitted {src : List UInt8} (h : WholeWords src)
    (hfit : l.written.toNat+src.length/4 ≤ I.words) :
    (l.fitted src).written.toNat = l.written.toNat+src.length := by
  have hwritten := written_fit hfit
  rwa [← h.length_eq] at hwritten

theorem bufSaveCnnInput_empty (l : CnnInputLoader) : bufSaveCnnInput I l [] = (statusOk, l) := by
  rw [bufSaveCnnInput, List.length_nil, Nat.zero_div, cnnLoadInput, if_pos rfl]
  simp only [ne_eq, not_true_eq_false, if_false, BitVec.add_zero]

/-! ### A sequence of chunks -/

theorem saveInputs_nil (s : Bool × CnnInputLoader) : saveInputs I s [] = s := rfl

theorem statusError_ne_ok : Module.loaders.statusError ≠ statusOk := status_ne_ok _ (by decide)

variable {s : Bool × CnnInputLoader} {src : List UInt8} {chunks : List (List UInt8)}

theorem saveInputs_cons_fit (h : WholeWords src)
    (hfit : s.2.written.toNat+src.length/4 ≤ I.words) :
    saveInputs I s (src :: chunks) = saveInputs I (s.1, s.2.fitted src) chunks := by
  rw [saveInputs, List.foldl_cons, bufSaveCnnInput_fit h hfit]
  simp only [ne_eq, not_true_eq_false, decide_false, Bool.or_false]
  rfl

theorem saveInputs_cons_over (h : WholeWords src)
    (hover : I.words < s.2.written.toNat+src.length/4) :
    saveInputs I s (src :: chunks) = saveInputs I (true, s.2.overrun I src) chunks := by
  rw [saveInputs, List.foldl_cons, bufSaveCnnInput_over h hover]
  simp only [ne_eq, statusError_ne_ok, not_false_eq_true, decide_true, Bool.or_true]
  rfl

/-- The count only grows, and what lies below it stays as it is. -/
theorem saveInputs_below (h : ∀ src ∈ chunks, WholeWords src) (s : Bool × CnnInputLoader) :
    s.2.written.toNat ≤ (saveInputs I s chunks).2.written.toNat ∧
      ∀ j < s.2.written.toNat, (saveInputs I s chunks).2.mem j = s.2.mem j := by
  induction chunks generalizing s with
  | nil => exact ⟨le_rfl, fun _ _ => rfl⟩
  | cons src chunks ih =>
    obtain ⟨hsrc, hall⟩ := List.forall_mem_cons.mp h
    have hrest := ih hall
    rcases Nat.lt_or_ge I.words (s.2.written.toNat+src.length/4) with hover | hfit
    · rw [saveInputs_cons_over hsrc hover]
      obtain ⟨hle, hmem⟩ := hrest (true, s.2.overrun I src)
      refine ⟨hle, ?_⟩
      intro j hj
      rw [hmem j hj]
      exact memcpy32_before hj _
    · have hwritten := written_fitted hsrc hfit
      rw [saveInputs_cons_fit hsrc hfit]
      obtain ⟨hle, hmem⟩ := hrest (s.1, s.2.fitted src)
      simp only [hwritten] at hle hmem
      refine ⟨by omega, ?_⟩
      intro j hj
      rw [hmem j (by omega)]
      exact memcpy32_before hj _

/-- When nothing is counted in the end, no chunk has fit. -/
theorem overlong_of_written (h : ∀ src ∈ chunks, WholeWords src) (hs : s.2.written.toNat = 0)
    (hend : (saveInputs I s chunks).2.written.toNat = 0) :
    ∀ src ∈ chunks, I.words < src.length/4 := by
  induction chunks generalizing s with
  | nil => exact fun _ hmem => absurd hmem List.not_mem_nil
  | cons src chunks ih =>
    obtain ⟨hsrc, hrest⟩ := List.forall_mem_cons.mp h
    rcases Nat.lt_or_ge I.words (s.2.written.toNat+src.length/4) with hover | hfit
    · rw [saveInputs_cons_over hsrc hover] at hend
      have hlong := ih (s := (true, s.2.overrun I src)) hrest hs hend
      intro src' hmem
      rcases List.mem_cons.mp hmem with rfl | hmem
      · omega
      · exact hlong src' hmem
    · -- A chunk that fits is counted, and the count does not go back.
      exfalso
      have hwritten := written_fitted hsrc hfit
      have hpos := List.length_pos_of_ne_nil hsrc.2
      have hbelow := (saveInputs_below (I := I) hrest (s.1, s.2.fitted src)).1
      rw [saveInputs_cons_fit hsrc hfit] at hend
      rw [hend, hwritten] at hbelow
      omega

/-- Chunks of which none fits are written over each other. -/
theorem saveInputs_overlong (h : ∀ src ∈ chunks, WholeWords src)
    (hlong : ∀ src ∈ chunks, I.words < src.length/4) {last : List UInt8}
    (hlast : chunks.getLast? = some last) (hs : s.2.written.toNat = 0) :
    saveInputs I s chunks =
      (true, ⟨s.2.written, memcpy32 s.2.mem 0 (chunkWords I.words last)⟩) := by
  induction chunks generalizing s with
  | nil => cases hlast
  | cons src chunks ih =>
    obtain ⟨hsrc, hrest⟩ := List.forall_mem_cons.mp h
    obtain ⟨hfirst, hlong'⟩ := List.forall_mem_cons.mp hlong
    have hover : I.words < s.2.written.toNat+src.length/4 := by
      rw [hs, Nat.zero_add]
      exact hfirst
    have hmem : s.2.overrun I src = ⟨s.2.written, memcpy32 s.2.mem 0 (chunkWords I.words src)⟩ := by
      rw [CnnInputLoader.overrun, hs, Nat.sub_zero]
    rw [saveInputs_cons_over hsrc hover, hmem]
    cases chunks with
    | nil =>
      obtain rfl := Option.some.inj hlast
      rfl
    | cons next chunks =>
      rw [List.getLast?_cons_cons] at hlast
      rw [ih (s := (true, ⟨s.2.written, memcpy32 s.2.mem 0 (chunkWords I.words src)⟩)) hrest hlong'
        hlast hs]
      simp only
      rw [memcpy32_memcpy32 _ (by rw [length_chunkWords, length_chunkWords])]

/-! ### Against one call with everything -/

theorem WholeWords.flatten (h : ∀ src ∈ chunks, WholeWords src) (hne : chunks ≠ []) :
    WholeWords chunks.flatten := by
  refine ⟨?_, ?_⟩
  · rw [List.length_flatten]
    apply List.dvd_sum
    intro n hn
    obtain ⟨src, hmem, rfl⟩ := List.mem_map.mp hn
    exact (h src hmem).1
  · obtain ⟨src, hmem⟩ := List.exists_mem_of_ne_nil chunks hne
    intro hflat
    exact (h src hmem).2 (List.flatten_eq_nil_iff.mp hflat src hmem)

theorem sameAsOneCall_short (hlen : chunks.length ≤ 1) : SameAsOneCall I chunks := by
  intro l
  cases chunks with
  | nil =>
    rw [saveInputs, saveInputs, List.foldl_cons, List.flatten_nil, bufSaveCnnInput_empty]
    rfl
  | cons src chunks =>
    obtain rfl : chunks = [] := List.eq_nil_of_length_eq_zero (by simpa using hlen)
    rw [List.flatten_cons, List.flatten_nil, List.append_nil]

/-- The first words of a sequence of chunks are those of the first chunk. -/
theorem chunkWords_flatten {n : ℕ} (h : WholeWords src) (hn : n ≤ src.length/4) :
    chunkWords n (src :: chunks).flatten = chunkWords n src := by
  have happend := chunkWords_append h.length_eq 0 chunks.flatten
  rw [Nat.add_zero, chunkWords, List.append_nil] at happend
  rw [← take_chunkWords hn, List.flatten_cons, happend, take_chunkWords hn]

theorem memcpy32_injective {mem : ℕ → BitVec 32} {xs ys : List (BitVec 32)}
    (hlen : xs.length = ys.length) (h : memcpy32 mem 0 xs = memcpy32 mem 0 ys) : xs = ys := by
  apply List.ext_getElem hlen
  intro j hx hy
  have hj := congrFun h j
  rwa [memcpy32_at hx, memcpy32_at hy] at hj

/-- The first word of the second chunk comes behind the words of the first. -/
theorem getElem?_chunkWords_second {next : List UInt8} (hsrc : WholeWords src)
    (hnext : WholeWords next) (chunks : List (List UInt8)) :
    (chunkWords ((src :: next :: chunks).flatten.length/4) (src :: next :: chunks).flatten)[
      src.length/4]? = some (BitVec.ofNat 32 (LittleEndian.ofBytes (next.take 4))) := by
  obtain ⟨n, hn⟩ := Nat.exists_eq_succ_of_ne_zero hnext.ne_zero
  have hlen := hsrc.length_eq
  have hlen' : next.length = 4*(n+1) := by
    rw [hnext.length_eq, hn]
  have hcount : (src :: next :: chunks).flatten.length/4 =
      src.length/4+(n+1+chunks.flatten.length/4) := by
    simp only [List.flatten_cons, List.length_append]
    omega
  rw [hcount, List.flatten_cons, chunkWords_append hlen, List.flatten_cons, chunkWords_append hlen',
    List.getElem?_append_right (length_chunkWords _ _).le, length_chunkWords, Nat.sub_self]
  rfl

/-- Behind a chunk that has fit, the next word of the memory is left out. -/
theorem saveInputs_gap (h : ∀ src ∈ chunks, WholeWords src) (hsrc : WholeWords src)
    (hs : s.2.written.toNat = 0) (hfit : src.length/4 ≤ I.words) :
    (saveInputs I s (src :: chunks)).2.mem (src.length/4) = s.2.mem (src.length/4) := by
  have hfit' : s.2.written.toNat+src.length/4 ≤ I.words := by
    rwa [hs, Nat.zero_add]
  have hwritten := written_fitted hsrc hfit'
  have hpos := hsrc.ne_zero
  rw [saveInputs_cons_fit hsrc hfit']
  have hbelow := (saveInputs_below (I := I) h (s.1, s.2.fitted src)).2 (src.length/4)
    (by rw [hwritten]; omega)
  rw [hbelow, CnnInputLoader.fitted, hs]
  exact memcpy32_past (length_chunkWords _ _).le

/-- So a second chunk goes to another place than in one call. -/
theorem not_sameAsOneCall_fit {next : List UInt8}
    (h : ∀ src' ∈ src :: next :: chunks, WholeWords src')
    (hfit : (src :: next :: chunks).flatten.length/4 ≤ I.words) :
    ¬ SameAsOneCall I (src :: next :: chunks) := by
  have hsrc := h src List.mem_cons_self
  have hnext := h next (List.mem_cons_of_mem _ List.mem_cons_self)
  have hflat := WholeWords.flatten h (List.cons_ne_nil _ _)
  have hword := getElem?_chunkWords_second hsrc hnext chunks
  obtain ⟨hlt, hval⟩ := List.getElem?_eq_some_iff.mp hword
  rw [length_chunkWords] at hlt
  intro hsame
  -- A memory that does not hold the first word of the second chunk where it belongs.
  let l : CnnInputLoader := ⟨0, fun _ => BitVec.ofNat 32 (LittleEndian.ofBytes (next.take 4))+1⟩
  have hzero : (bufResetCnnInput l).2.written.toNat = 0 := rfl
  have hgap := saveInputs_gap (I := I) (s := (false, (bufResetCnnInput l).2))
    (fun src' hmem => h src' (List.mem_cons_of_mem _ hmem)) hsrc hzero (by omega)
  have hone : (saveInputs I (false, (bufResetCnnInput l).2)
      [(src :: next :: chunks).flatten]).2.mem (src.length/4) =
        BitVec.ofNat 32 (LittleEndian.ofBytes (next.take 4)) := by
    rw [saveInputs_cons_fit hflat (by rw [hzero, Nat.zero_add]; exact hfit), saveInputs_nil, ← hval]
    exact memcpy32_at (by rw [length_chunkWords]; exact hlt)
  rw [hsame l, hone] at hgap
  exact absurd hgap (by simp [bufResetCnnInput, l])

/-- One call with chunks that do not fit. -/
theorem saveInputs_flatten_overlong (h : ∀ src' ∈ src :: chunks, WholeWords src')
    (hsrc : I.words ≤ src.length/4) (hover : I.words < (src :: chunks).flatten.length/4)
    (hs : s.2.written.toNat = 0) : saveInputs I s [(src :: chunks).flatten] =
      (true, ⟨s.2.written, memcpy32 s.2.mem 0 (chunkWords I.words src)⟩) := by
  have hflat := WholeWords.flatten h (List.cons_ne_nil _ _)
  have hall : ∀ src' ∈ [(src :: chunks).flatten], WholeWords src' ∧ I.words < src'.length/4 := by
    intro src' hmem
    rw [List.mem_singleton.mp hmem]
    exact ⟨hflat, hover⟩
  have hlast : [(src :: chunks).flatten].getLast? = some (src :: chunks).flatten := rfl
  rw [saveInputs_overlong (fun src' hmem => (hall src' hmem).1) (fun src' hmem => (hall src' hmem).2)
    hlast hs, chunkWords_flatten (h src List.mem_cons_self) hsrc]

/-- Chunks of which none fits do what one call does exactly if the last leaves the words of the first. -/
theorem sameAsOneCall_overlong (h : ∀ src' ∈ src :: chunks, WholeWords src')
    (hlong : ∀ src' ∈ src :: chunks, I.words < src'.length/4) {last : List UInt8}
    (hlast : (src :: chunks).getLast? = some last) :
    SameAsOneCall I (src :: chunks) ↔ chunkWords I.words src = chunkWords I.words last := by
  have hsrc := hlong src List.mem_cons_self
  have hover : I.words < (src :: chunks).flatten.length/4 := by
    rw [List.flatten_cons, List.length_append]
    omega
  have heq : ∀ l, saveInputs I (false, (bufResetCnnInput l).2) (src :: chunks) =
        (true, ⟨0, memcpy32 l.mem 0 (chunkWords I.words last)⟩) ∧
      saveInputs I (false, (bufResetCnnInput l).2) [(src :: chunks).flatten] =
        (true, ⟨0, memcpy32 l.mem 0 (chunkWords I.words src)⟩) := fun l =>
    ⟨saveInputs_overlong h hlong hlast rfl, saveInputs_flatten_overlong h hsrc.le hover rfl⟩
  constructor
  · intro hsame
    have hl := hsame ⟨0, fun _ => 0⟩
    rw [(heq _).1, (heq _).2] at hl
    have hmem := congrArg (fun s => s.2.mem) hl
    exact (memcpy32_injective (by rw [length_chunkWords, length_chunkWords]) hmem).symm
  · intro hwords l
    rw [(heq l).1, (heq l).2, hwords]

/-- When one call does not succeed and does what the chunks do, none of the chunks fits. -/
theorem overlong_of_sameAsOneCall (h : ∀ src' ∈ src :: chunks, WholeWords src')
    (hover : I.words < (src :: chunks).flatten.length/4) (hsame : SameAsOneCall I (src :: chunks)) :
    ∀ src' ∈ src :: chunks, I.words < src'.length/4 := by
  have hflat := WholeWords.flatten h (List.cons_ne_nil _ _)
  let l : CnnInputLoader := ⟨0, fun _ => 0⟩
  have hzero : (bufResetCnnInput l).2.written.toNat = 0 := rfl
  apply overlong_of_written h (s := (false, (bufResetCnnInput l).2)) hzero
  rw [hsame l, saveInputs_cons_over hflat (by rw [hzero, Nat.zero_add]; exact hover)]
  rfl

/-- The chunks of an input do what one call with all of it does exactly if none continues another. -/
theorem sameAsOneCall_iff (I : CnnInputMap) (chunks : List (List UInt8))
    (h : ∀ src ∈ chunks, WholeWords src) : SameAsOneCall I chunks ↔ NeverResumed I chunks := by
  rcases Nat.lt_or_ge 1 chunks.length with hlen | hlen
  · obtain ⟨src, next, chunks, rfl⟩ : ∃ src next rest, chunks = src :: next :: rest := by
      match chunks, hlen with
      | src :: next :: rest, _ => exact ⟨src, next, rest, rfl⟩
    obtain ⟨last, hlast⟩ := Option.ne_none_iff_exists'.mp
      (mt List.getLast?_eq_none_iff.mp (List.cons_ne_nil src (next :: chunks)))
    constructor
    · intro hsame
      right
      rcases Nat.lt_or_ge I.words ((src :: next :: chunks).flatten.length/4) with hover | hfit
      · have hlong := overlong_of_sameAsOneCall h hover hsame
        refine ⟨hlong, ?_⟩
        intro first last' hfirst hlast'
        obtain rfl := Option.some.inj hfirst
        exact (sameAsOneCall_overlong h hlong hlast').mp hsame
      · exact absurd hsame (not_sameAsOneCall_fit h hfit)
    · rintro (hshort | ⟨hlong, hwords⟩)
      · exact sameAsOneCall_short hshort
      · exact (sameAsOneCall_overlong h hlong hlast).mpr (hwords src last rfl hlast)
  · exact iff_of_true (sameAsOneCall_short hlen) (.inl hlen)

/-- Two chunks of one word. -/
theorem wholeWords_two : ∀ src ∈ [([1, 0, 0, 0] : List UInt8), [2, 0, 0, 0]], WholeWords src := by
  intro src hmem
  rcases List.mem_pair.mp hmem with rfl | rfl
  · exact ⟨⟨1, rfl⟩, List.cons_ne_nil _ _⟩
  · exact ⟨⟨1, rfl⟩, List.cons_ne_nil _ _⟩

theorem sameAsOneCall_iff_two : SameAsOneCall generatedInputMap [[1, 0, 0, 0], [2, 0, 0, 0]] ↔
    NeverResumed generatedInputMap [[1, 0, 0, 0], [2, 0, 0, 0]] :=
  sameAsOneCall_iff generatedInputMap _ wholeWords_two

/-- The second one goes to word 4. -/
theorem sameAsOneCall_two : ¬ SameAsOneCall generatedInputMap [[1, 0, 0, 0], [2, 0, 0, 0]] :=
  not_sameAsOneCall_fit wholeWords_two (by decide)

end

end Ai8x

end KenningRuntime
