import KenningRuntime.RuntimeAi8x

/-! What the model loader of the ai8x runtime makes of an encoded model. -/
namespace KenningRuntime
open LittleEndian

namespace Ai8x

/-! ### Models, and how they are encoded -/

/-- An entry of the weights or of the biases: `content` goes to `address`. -/
structure CnnEntry where
  address : BitVec 32
  content : List (BitVec 32)
  address_ne : address ≠ 0
  content_ne : content ≠ []
  content_lt : content.length < 2^32

namespace CnnEntry

def encode (e : CnnEntry) : List (BitVec 32) :=
  e.address :: BitVec.ofNat 32 e.content.length :: e.content

/-- Word `k` of the content goes to `address + 4*k`. -/
def wordWrites (e : CnnEntry) : List CnnWrite :=
  e.content.mapIdx fun k val => .word (e.address+4*BitVec.ofNat 32 k) val

/-- The byte that is written first when the entry is one of the weights. -/
def marker (e : CnnEntry) : CnnWrite := .byte (e.address ||| 1) 1

end CnnEntry

/-- Both lists of a model end with a zero. -/
def encodeModel (weights biases : List CnnEntry) : List (BitVec 32) :=
  weights.flatMap CnnEntry.encode ++ 0 :: (biases.flatMap CnnEntry.encode ++ [0])

def modelWrites (weights biases : List CnnEntry) : List CnnWrite :=
  weights.flatMap (fun e => e.marker :: e.wordWrites) ++ biases.flatMap CnnEntry.wordWrites

/-- Words as they lie in memory. -/
def wordBytes (words : List (BitVec 32)) : List UInt8 :=
  words.flatMap fun val => toBytes 4 val.toNat

/-- The words that a chunk consists of. -/
def chunkWords : ℕ → List UInt8 → List (BitVec 32)
  | 0, _ => []
  | n+1, src => BitVec.ofNat 32 (ofBytes (src.take 4)) :: chunkWords n (src.drop 4)

/-- The loader after a sequence of words. -/
def saveWords (l : CnnLoader) (words : List (BitVec 32)) : CnnLoader :=
  words.foldl (fun l val => (bufSaveOneCnn l val).2) l

/-- The loader after a sequence of calls of `save`. -/
def saveChunks (l : CnnLoader) (chunks : List (List UInt8)) : CnnLoader :=
  chunks.foldl (fun l src => (bufSaveCnn l src).2) l

variable {l : CnnLoader}

/-! ### From chunks to words -/

@[simp] theorem saveWords_nil (l : CnnLoader) : saveWords l [] = l := rfl

theorem saveWords_cons (l : CnnLoader) (val : BitVec 32) (words : List (BitVec 32)) :
    saveWords l (val :: words) = saveWords (bufSaveOneCnn l val).2 words := rfl

theorem saveWords_append (l : CnnLoader) (words words' : List (BitVec 32)) :
    saveWords l (words ++ words') = saveWords (saveWords l words) words' := List.foldl_append

theorem bufSaveOneCnn_status (l : CnnLoader) (val : BitVec 32) :
    (bufSaveOneCnn l val).1 = statusOk := by
  unfold bufSaveOneCnn
  cases l.state with
  | weightsStart | biasesStart =>
    simp only
    split <;> rfl
  | weightsLength | weights | biasesLength | biases | loadEnd => rfl

theorem bufSaveCnnLoop_eq (src : List UInt8) (left i : ℕ) (l : CnnLoader) :
    bufSaveCnnLoop src left i l =
      (statusOk, saveWords l (chunkWords left (src.drop (4*i)))) := by
  induction left generalizing i l with
  | zero => rfl
  | succ left ih =>
    have hstatus := bufSaveOneCnn_status l (BitVec.ofNat 32 (word src (4*i) 4))
    have hdrop : (src.drop (4*i)).drop 4 = src.drop (4*(i+1)) := by
      rw [List.drop_drop, Nat.mul_add]
    simp only [bufSaveCnnLoop, hstatus, ne_eq, not_true_eq_false, if_false]
    rw [ih (i+1), chunkWords, saveWords_cons, hdrop]
    rfl

theorem bufSaveCnn_eq (l : CnnLoader) (src : List UInt8) :
    bufSaveCnn l src = (statusOk, saveWords l (chunkWords (src.length/4) src)) := by
  rw [bufSaveCnn, bufSaveCnnLoop_eq, Nat.mul_zero, List.drop_zero]

/-- The words of a chunk of whole words come before those of the rest. -/
theorem chunkWords_append {n : ℕ} {src : List UInt8} (h : src.length = 4*n) (m : ℕ)
    (rest : List UInt8) :
    chunkWords (n+m) (src ++ rest) = chunkWords n src ++ chunkWords m rest := by
  -- The induction is on the number of words of the first chunk.
  induction n generalizing src with
  | zero =>
    rw [List.length_eq_zero_iff.mp h, Nat.zero_add]
    rfl
  | succ n ih =>
    have hlen : 4 ≤ src.length := by omega
    have hdrop : (src.drop 4).length = 4*n := by
      rw [List.length_drop]
      omega
    rw [Nat.add_right_comm, chunkWords, List.take_append_of_le_length hlen,
      List.drop_append_of_le_length hlen, ih hdrop]
    rfl

/-- However the words are cut into chunks of whole words, the loader sees the words. -/
theorem saveChunks_eq {chunks : List (List UInt8)} (h : ∀ src ∈ chunks, 4 ∣ src.length)
    (l : CnnLoader) :
    saveChunks l chunks = saveWords l (chunkWords (chunks.flatten.length/4) chunks.flatten) := by
  induction chunks generalizing l with
  | nil => rfl
  | cons src chunks ih =>
    obtain ⟨n, hn⟩ := h src List.mem_cons_self
    have hcount : (src ++ chunks.flatten).length/4 = n+chunks.flatten.length/4 := by
      rw [List.length_append, hn]
      omega
    have hsrc : src.length/4 = n := by omega
    have hrest := ih (fun src hs => h src (List.mem_cons_of_mem _ hs)) (bufSaveCnn l src).2
    rw [saveChunks] at hrest ⊢
    rw [List.foldl_cons, hrest, List.flatten_cons, hcount, chunkWords_append hn, saveWords_append,
      bufSaveCnn_eq, hsrc]

theorem chunkWords_wordBytes (words : List (BitVec 32)) (rest : List UInt8) (m : ℕ) :
    chunkWords (words.length+m) (wordBytes words ++ rest) = words ++ chunkWords m rest := by
  induction words with
  | nil =>
    rw [List.length_nil, Nat.zero_add]
    rfl
  | cons val words ih =>
    have hlen : (toBytes 4 val.toNat).length = 4 := length_toBytes 4 _
    have hbytes : wordBytes (val :: words) ++ rest =
        toBytes 4 val.toNat ++ (wordBytes words ++ rest) := by
      rw [wordBytes, List.flatMap_cons, List.append_assoc, wordBytes]
    have hval : BitVec.ofNat 32 (ofBytes (toBytes 4 val.toNat)) = val := by
      rw [ofBytes_toBytes 4 _ val.isLt, BitVec.ofNat_toNat, BitVec.setWidth_eq]
    rw [List.length_cons, Nat.add_right_comm, chunkWords, hbytes, List.take_left' hlen,
      List.drop_left' hlen, hval, ih]
    rfl

theorem length_wordBytes (words : List (BitVec 32)) : (wordBytes words).length = 4*words.length := by
  induction words with
  | nil => rfl
  | cons val words ih =>
    have hcons : wordBytes (val :: words) = toBytes 4 val.toNat ++ wordBytes words := by
      rw [wordBytes, List.flatMap_cons, wordBytes]
    rw [hcons, List.length_append, length_toBytes, ih, List.length_cons]
    omega

/-! ### What the loader does with the words of a model -/

/-- The two lists of a model. -/
inductive Phase where
  | weights
  | biases
deriving DecidableEq, Repr

namespace Phase

/-- The states in which the loader expects an address, a length and content of the list. -/
def start : Phase → CnnLoadState
  | weights => .weightsStart
  | biases => .biasesStart

def length : Phase → CnnLoadState
  | weights => .weightsLength
  | biases => .biasesLength

def content : Phase → CnnLoadState
  | weights => .weights
  | biases => .biases

/-- Where the zero behind the list leads. -/
def next : Phase → CnnLoadState
  | weights => .biasesStart
  | biases => .loadEnd

def entryWrites : Phase → CnnEntry → List CnnWrite
  | weights, e => e.marker :: e.wordWrites
  | biases, e => e.wordWrites

end Phase

theorem bufSaveOneCnn_zero {p : Phase} (h : l.state = p.start) :
    (bufSaveOneCnn l 0).2 = {l with addr := 0, state := p.next} := by
  unfold bufSaveOneCnn
  rw [h]
  cases p with
  | weights | biases => rfl

theorem bufSaveOneCnn_address {p : Phase} (h : l.state = p.start) {val : BitVec 32} (hval : val ≠ 0) :
    (bufSaveOneCnn l val).2 = {l with
      addr := val
      state := p.length
      writes := l.writes ++ if p = .weights then [.byte (val ||| 1) 1] else [] } := by
  unfold bufSaveOneCnn
  rw [h]
  cases p with
  | weights => simp only [Phase.start, Phase.length, if_neg hval, if_true]
  | biases =>
    simp only [Phase.start, Phase.length, if_neg hval, reduceCtorEq, if_false, List.append_nil]

theorem bufSaveOneCnn_length {p : Phase} (h : l.state = p.length) (val : BitVec 32) :
    (bufSaveOneCnn l val).2 = {l with maxSize := val, written := 0, state := p.content} := by
  unfold bufSaveOneCnn
  rw [h]
  cases p with
  | weights | biases => rfl

theorem bufSaveOneCnn_content {p : Phase} (h : l.state = p.content) (val : BitVec 32) :
    (bufSaveOneCnn l val).2 = l.append val p.start := by
  unfold bufSaveOneCnn
  rw [h]
  cases p with
  | weights | biases => rfl

/-- What comes behind the last word is another entry. -/
theorem CnnLoader.state_append_last {val : BitVec 32} {next : CnnLoadState}
    (h : l.written+1 = l.maxSize) : (l.append val next).state = next := by
  rw [append]
  simp only [h, if_true]

theorem CnnLoader.append_more {val : BitVec 32} {next : CnnLoadState}
    (h : l.written+1 ≠ l.maxSize) : l.append val next = {l with
      writes := l.writes ++ [.word (l.addr+4*l.written) val]
      written := l.written+1 } := by
  rw [append]
  simp only [h, if_false]

theorem CnnLoader.writes_append {val : BitVec 32} {next : CnnLoadState} :
    (l.append val next).writes = l.writes ++ [.word (l.addr+4*l.written) val] := by
  rw [append]
  simp only
  split <;> rfl

theorem saveWords_loadEnd (h : l.state = .loadEnd) (words : List (BitVec 32)) :
    saveWords l words = l := by
  induction words with
  | nil => rfl
  | cons val words ih =>
    have hone : (bufSaveOneCnn l val).2 = l := by
      unfold bufSaveOneCnn
      rw [h]
    rw [saveWords_cons, hone, ih]

/-- Content is written word by word, until all of it is there. -/
theorem saveWords_content {p : Phase} {k : ℕ} {content : List (BitVec 32)} (hne : content ≠ [])
    (hlt : k+content.length < 2^32) (hstate : l.state = p.content)
    (hwritten : l.written = BitVec.ofNat 32 k)
    (hmax : l.maxSize = BitVec.ofNat 32 (k+content.length)) :
    saveWords l content = {l with
      state := p.start
      written := l.maxSize
      writes := l.writes ++
        content.mapIdx fun i val => .word (l.addr+4*BitVec.ofNat 32 (k+i)) val } := by
  induction content generalizing l k with
  | nil => exact absurd rfl hne
  | cons val content ih =>
    have hnext : l.written+1 = BitVec.ofNat 32 (k+1) := by
      rw [hwritten, BitVec.ofNat_add]
      rfl
    rw [saveWords_cons, bufSaveOneCnn_content hstate]
    cases content with
    | nil =>
      -- The last word completes the entry.
      have hdone : l.written+1 = l.maxSize := by
        rw [hnext, hmax]
        rfl
      simp only [CnnLoader.append, hdone, if_true, saveWords_nil, List.mapIdx_cons,
        List.mapIdx_nil, Nat.add_zero, ← hwritten]
    | cons val' content =>
      -- The count meets `max_size` at the last word only, because the length has not wrapped.
      have hmore : l.written+1 ≠ l.maxSize := by
        intro h
        have hnat := congrArg BitVec.toNat (hnext.symm.trans (h.trans hmax))
        rw [BitVec.toNat_ofNat, BitVec.toNat_ofNat, Nat.mod_eq_of_lt hlt,
          Nat.mod_eq_of_lt (by simp only [List.length_cons] at hlt; omega)] at hnat
        simp only [List.length_cons] at hnat
        omega
      have hlen : k+(val :: val' :: content).length = k+1+(val' :: content).length := by
        simp only [List.length_cons]
        omega
      have hrest := ih (l := {l with
          writes := l.writes ++ [.word (l.addr+4*l.written) val]
          written := l.written+1 }) (List.cons_ne_nil _ _) (by rw [← hlen]; exact hlt) hstate hnext
        (by rw [← hlen, hmax])
      rw [CnnLoader.append_more hmore, hrest]
      simp only [List.mapIdx_cons, hwritten, List.append_assoc, List.singleton_append, Nat.add_zero,
        Nat.add_assoc, Nat.add_comm 1]

theorem saveWords_entry {p : Phase} (h : l.state = p.start) (e : CnnEntry) :
    (saveWords l e.encode).state = p.start ∧
      (saveWords l e.encode).writes = l.writes ++ p.entryWrites e := by
  have hlt : 0+e.content.length < 2^32 := by
    rw [Nat.zero_add]
    exact e.content_lt
  have hlength := bufSaveOneCnn_length (p := p) (l := (bufSaveOneCnn l e.address).2)
    (by rw [bufSaveOneCnn_address h e.address_ne]) (BitVec.ofNat 32 e.content.length)
  have hcontent := saveWords_content (p := p) (k := 0) e.content_ne hlt
    (l := (bufSaveOneCnn (bufSaveOneCnn l e.address).2 (BitVec.ofNat 32 e.content.length)).2)
    (by rw [hlength]) (by rw [hlength]; rfl) (by rw [hlength, Nat.zero_add])
  -- The address, the length, then the content.
  rw [CnnEntry.encode, saveWords_cons, saveWords_cons, hcontent, hlength,
    bufSaveOneCnn_address h e.address_ne]
  refine ⟨rfl, ?_⟩
  simp only [Nat.zero_add, List.append_assoc]
  cases p with
  | weights => rfl
  | biases => rfl

theorem saveWords_entries {p : Phase} (h : l.state = p.start) (es : List CnnEntry) :
    (saveWords l (es.flatMap CnnEntry.encode)).state = p.start ∧
      (saveWords l (es.flatMap CnnEntry.encode)).writes = l.writes ++ es.flatMap p.entryWrites := by
  induction es generalizing l with
  | nil => exact ⟨h, (List.append_nil _).symm⟩
  | cons e es ih =>
    obtain ⟨hstate, hwrites⟩ := saveWords_entry h e
    obtain ⟨hstates, hwritess⟩ := ih hstate
    rw [List.flatMap_cons, saveWords_append]
    refine ⟨hstates, ?_⟩
    rw [hwritess, hwrites, List.append_assoc, List.flatMap_cons]

/-- A list and the zero behind it. -/
theorem saveWords_list {p : Phase} (h : l.state = p.start) (es : List CnnEntry)
    (rest : List (BitVec 32)) : ∃ l', l'.state = p.next ∧
      l'.writes = l.writes ++ es.flatMap p.entryWrites ∧
      saveWords l (es.flatMap CnnEntry.encode ++ 0 :: rest) = saveWords l' rest := by
  obtain ⟨hstate, hwrites⟩ := saveWords_entries h es
  refine ⟨(bufSaveOneCnn (saveWords l (es.flatMap CnnEntry.encode)) 0).2, ?_, ?_, ?_⟩
  · rw [bufSaveOneCnn_zero hstate]
  · rw [bufSaveOneCnn_zero hstate]
    exact hwrites
  · rw [saveWords_append, saveWords_cons]

theorem saveWords_model (h : l.state = .weightsStart) (weights biases : List CnnEntry)
    (rest : List (BitVec 32)) :
    (saveWords l (encodeModel weights biases ++ rest)).state = .loadEnd ∧
      (saveWords l (encodeModel weights biases ++ rest)).writes =
        l.writes ++ modelWrites weights biases := by
  obtain ⟨l₁, hstate₁, hwrites₁, hsave₁⟩ := saveWords_list (p := .weights) h weights
    (biases.flatMap CnnEntry.encode ++ 0 :: rest)
  obtain ⟨l₂, hstate₂, hwrites₂, hsave₂⟩ := saveWords_list (p := .biases) hstate₁ biases rest
  have hmodel : encodeModel weights biases ++ rest =
      weights.flatMap CnnEntry.encode ++ 0 :: (biases.flatMap CnnEntry.encode ++ 0 :: rest) := by
    simp only [encodeModel, List.append_assoc, List.cons_append, List.nil_append]
  -- What comes behind both lists finds the loader at its end.
  rw [hmodel, hsave₁, hsave₂, saveWords_loadEnd hstate₂]
  refine ⟨hstate₂, ?_⟩
  rw [hwrites₂, hwrites₁, modelWrites, List.append_assoc]
  rfl

/-- However an encoded model, and what comes behind it, is cut into chunks of whole words: exactly the
writes of the model are made, and the loader is at its end. -/
theorem saveChunks_model (l : CnnLoader) (weights biases : List CnnEntry) (trailing : List UInt8)
    {chunks : List (List UInt8)} (hwords : ∀ src ∈ chunks, 4 ∣ src.length)
    (hflat : chunks.flatten = wordBytes (encodeModel weights biases) ++ trailing) :
    (saveChunks (bufResetCnn l).2 chunks).state = .loadEnd ∧
      (saveChunks (bufResetCnn l).2 chunks).writes = l.writes ++ modelWrites weights biases := by
  have hcount : chunks.flatten.length/4 =
      (encodeModel weights biases).length+trailing.length/4 := by
    rw [hflat, List.length_append, length_wordBytes]
    omega
  rw [saveChunks_eq hwords, hcount, hflat, chunkWords_wordBytes]
  exact saveWords_model rfl weights biases _

/-- Two weights and one bias. -/
def smallWeights : CnnEntry := ⟨0x50180000, [7, 8], by decide, by decide, by decide⟩
def smallBiases : CnnEntry := ⟨0x50108000, [9], by decide, by decide, by decide⟩

/-- The chunks end inside the weights and inside the biases, and there is a word too much. -/
theorem saveChunks_model_small :
    (saveChunks (bufResetCnn ⟨.loadEnd, 1, 2, 3, []⟩).2
      [wordBytes [0x50180000, 2, 7], wordBytes [8, 0, 0x50108000], wordBytes [1, 9, 0, 5]]).writes =
    [.byte 0x50180001 1, .word 0x50180000 7, .word 0x50180004 8, .word 0x50108000 9] :=
  (saveChunks_model ⟨.loadEnd, 1, 2, 3, []⟩ [smallWeights] [smallBiases] (wordBytes [5])
    (by decide) (by decide)).2

end Ai8x

end KenningRuntime
