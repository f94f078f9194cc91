import KenningRuntime.RuntimeLlext

/-! Which memory is allocated for an extension that is received in chunks, and what of it gets there. -/
namespace KenningRuntime
open LittleEndian Memory

namespace Llext

variable {E Z : Type}

/-- The answers of Zephyr, with a record of the sizes that were requested from `llext_heap`. -/
def recordingAllocs (A : LlextApi Z) : LlextApi (Z × List ℕ) where
  llextTeardown z := ((A.llextTeardown z.1).1, (A.llextTeardown z.1).2, z.2)
  llextUnload z := ((A.llextUnload z.1).1, (A.llextUnload z.1).2, z.2)
  llextLoad elf n z := ((A.llextLoad elf n z.1).1, (A.llextLoad elf n z.1).2, z.2)
  llextBringup z := ((A.llextBringup z.1).1, (A.llextBringup z.1).2, z.2)
  llextFindSym symbol z := A.llextFindSym symbol z.1
  kHeapFree z := (A.kHeapFree z.1, z.2)
  kHeapAlignedAlloc n z :=
    ((A.kHeapAlignedAlloc n z.1).1, (A.kHeapAlignedAlloc n z.1).2, z.2 ++ [n])

/-- The loader after one chunk after the other, with the status of each call. -/
def saveRuntimes (A : LlextApi Z) : Llext E Z → List (List UInt8) → List Status × Llext E Z
  | s, [] => ([], s)
  | s, src :: chunks =>
    match saveRuntime A s src with
    | (status, s') => (status :: (saveRuntimes A s' chunks).1, (saveRuntimes A s' chunks).2)

/-- The size that a payload declares. -/
def declaredSize (payload : List UInt8) : ℕ := word payload 0 runtimeSizeFieldSize

/-- What is to be expected of the calls with `statuses` for a payload that came after `s`: one
allocation of the declared size. If it succeeds and the rest of the payload fits, the block holds that
rest. Otherwise a call fails, and so do all that follow it. -/
def ReceivedInFull (A : LlextApi Z) (s : Llext E (Z × List ℕ)) (payload : List UInt8)
    (statuses : List Status) (t : Llext E (Z × List ℕ)) : Prop :=
  t.zephyr.2 = s.zephyr.2 ++ [declaredSize payload] ∧
    if (A.kHeapAlignedAlloc (declaredSize payload) s.zephyr.1).1.isSome = true ∧
        payload.length-runtimeSizeFieldSize ≤ declaredSize payload then
      (∀ status ∈ statuses, status = statusOk) ∧
        t.written = payload.length-runtimeSizeFieldSize ∧
        ∃ mem, t.addr = some mem ∧ mem.take t.written = payload.drop runtimeSizeFieldSize
    else (∃ status ∈ statuses, status ≠ statusOk) ∧
      statuses.Pairwise fun earlier later => earlier ≠ statusOk → later ≠ statusOk

/-- Behind the first piece that does not fit into a block, no piece fits. -/
def NothingFitsLater (size : ℕ) (pieces : List (List UInt8)) : Prop :=
  ∀ before piece after, pieces = before ++ piece :: after →
    before.flatten.length ≤ size → size < before.flatten.length+piece.length →
    ∀ later ∈ after, size < before.flatten.length+later.length

/-- Without a block, no later chunk is long enough for a size. With one, no chunk fits behind one that
does not. -/
def ChunksFailTogether (A : LlextApi Z) (s : Llext E (Z × List ℕ)) (first : List UInt8)
    (chunks : List (List UInt8)) : Prop :=
  match (A.kHeapAlignedAlloc (declaredSize first) s.zephyr.1).1 with
  | none => ∀ src ∈ chunks, src.length < runtimeSizeFieldSize
  | some _ => NothingFitsLater (declaredSize first) (first.drop runtimeSizeFieldSize :: chunks)

/-! ### Into a block -/

section
variable {A : LlextApi Z} {s : Llext E Z} {mem src : List UInt8} {chunks : List (List UInt8)}

theorem saveRuntime_block (h : s.addr = some mem) (src : List UInt8) :
    saveRuntime A s src = s.saveBlock mem src := by
  rw [saveRuntime, h]

theorem saveBlock_over (h : s.maxSize < s.written+src.length) :
    s.saveBlock mem src = (loadersStatusNotEnoughMemory, s) := if_pos h

/-- The loader with a chunk that fits into its block. -/
def appended (s : Llext E Z) (mem src : List UInt8) : Llext E Z :=
  {s with addr := some (splice mem s.written src), written := s.written+src.length}

theorem saveBlock_fit (h : s.written+src.length ≤ s.maxSize) :
    s.saveBlock mem src = (statusOk, s.appended mem src) := if_neg (Nat.not_lt.mpr h)

theorem saveRuntimes_cons (src : List UInt8) (chunks : List (List UInt8)) :
    saveRuntimes A s (src :: chunks) =
      ((saveRuntime A s src).1 :: (saveRuntimes A (saveRuntime A s src).2 chunks).1,
        (saveRuntimes A (saveRuntime A s src).2 chunks).2) := rfl

theorem saveRuntimes_append (chunks chunks' : List (List UInt8)) :
    saveRuntimes A s (chunks ++ chunks') =
      ((saveRuntimes A s chunks).1 ++ (saveRuntimes A (saveRuntimes A s chunks).2 chunks').1,
        (saveRuntimes A (saveRuntimes A s chunks).2 chunks').2) := by
  induction chunks generalizing s with
  | nil => rfl
  | cons src chunks ih =>
    rw [List.cons_append, saveRuntimes_cons, ih]
    rfl

/-- A loader with a block of its size, and the count inside it. -/
structure HoldsBlock (s : Llext E Z) (mem : List UInt8) : Prop where
  addr : s.addr = some mem
  size : mem.length = s.maxSize
  written : s.written ≤ s.maxSize

theorem HoldsBlock.appended (hs : HoldsBlock s mem) (h : s.written+src.length ≤ s.maxSize) :
    HoldsBlock (s.appended mem src) (splice mem s.written src) := by
  refine ⟨rfl, ?_, h⟩
  rw [length_splice (by rw [hs.size]; exact h)]
  exact hs.size

/-- Chunks that all fit are put one behind the other. -/
theorem saveRuntimes_fit (hs : HoldsBlock s mem) (h : s.written+chunks.flatten.length ≤ s.maxSize) :
    (∀ status ∈ (saveRuntimes A s chunks).1, status = statusOk) ∧
      ∃ mem', HoldsBlock (saveRuntimes A s chunks).2 mem' ∧
        mem'.take (s.written+chunks.flatten.length) = mem.take s.written ++ chunks.flatten ∧
        (saveRuntimes A s chunks).2 = {s with
          addr := some mem'
          written := s.written+chunks.flatten.length } := by
  -- The induction is on the chunks; the block is that of the first ones.
  induction chunks generalizing s mem with
  | nil =>
    refine ⟨fun _ hmem => absurd hmem List.not_mem_nil, mem, hs, ?_, ?_⟩
    · rw [List.flatten_nil, List.append_nil, List.length_nil, Nat.add_zero]
    · rw [← hs.addr]
      rfl
  | cons src chunks ih =>
    have hlen : (src :: chunks).flatten.length = src.length+chunks.flatten.length := by
      rw [List.flatten_cons, List.length_append]
    have hfit : s.written+src.length ≤ s.maxSize := by omega
    have hmem : s.written+src.length ≤ mem.length := by
      rw [hs.size]
      exact hfit
    have hsave : saveRuntime A s src = (statusOk, s.appended mem src) := by
      rw [saveRuntime_block hs.addr, saveBlock_fit hfit]
    have hrest : (s.appended mem src).written+chunks.flatten.length ≤ (s.appended mem src).maxSize := by
      simp only [Llext.appended]
      omega
    obtain ⟨hok, mem', hblock, htake, heq⟩ := ih (hs.appended hfit) hrest
    rw [saveRuntimes_cons, hsave]
    refine ⟨?_, mem', hblock, ?_, ?_⟩
    · intro status hstatus
      rcases List.mem_cons.mp hstatus with rfl | hstatus
      · rfl
      · exact hok status hstatus
    · simp only [Llext.appended, take_splice hmem] at htake
      rw [hlen, ← Nat.add_assoc, htake, List.flatten_cons, List.append_assoc]
    · rw [heq, hlen, ← Nat.add_assoc]
      rfl

/-- Chunks all fail exactly if none of them fits where the first one goes. -/
theorem saveRuntimes_fail_iff (hs : HoldsBlock s mem) (chunks : List (List UInt8)) :
    (∀ status ∈ (saveRuntimes A s chunks).1, status ≠ statusOk) ↔
      ∀ src ∈ chunks, s.maxSize < s.written+src.length := by
  induction chunks with
  | nil => exact iff_of_true (fun _ h => absurd h List.not_mem_nil) (fun _ h => absurd h List.not_mem_nil)
  | cons src chunks ih =>
    rw [saveRuntimes_cons, saveRuntime_block hs.addr]
    rcases Nat.lt_or_ge s.maxSize (s.written+src.length) with hover | hfit
    · -- The chunk changes nothing.
      rw [saveBlock_over hover, List.forall_mem_cons, List.forall_mem_cons, ih]
      exact and_congr_left' (iff_of_true notEnoughMemory_ne hover)
    · rw [saveBlock_fit hfit, List.forall_mem_cons, List.forall_mem_cons]
      exact iff_of_false (fun h => h.1 rfl) (fun h => absurd h.1 (Nat.not_lt.mpr hfit))

/-- The requests stay as they are as long as there is a block. -/
theorem saveRuntimes_zephyr (hs : HoldsBlock s mem) (chunks : List (List UInt8)) :
    (saveRuntimes A s chunks).2.zephyr = s.zephyr := by
  induction chunks generalizing s mem with
  | nil => rfl
  | cons src chunks ih =>
    rw [saveRuntimes_cons, saveRuntime_block hs.addr]
    rcases Nat.lt_or_ge s.maxSize (s.written+src.length) with hover | hfit
    · rw [saveBlock_over hover]
      exact ih hs
    · rw [saveBlock_fit hfit]
      exact ih (hs.appended hfit)

end

/-! ### Without a block -/

section
variable {A : LlextApi Z} {s : Llext E (Z × List ℕ)} {src : List UInt8} {chunks : List (List UInt8)}

/-- What a chunk of an image can do to the record of the requests. -/
theorem saveRuntime_requests (A : LlextApi Z) (s : Llext E (Z × List ℕ)) (src : List UInt8) :
    ∃ more, (saveRuntime (recordingAllocs A) s src).2.zephyr.2 = s.zephyr.2 ++ more ∧
      (s.addr = none → runtimeSizeFieldSize ≤ src.length → more ≠ []) := by
  cases haddr : s.addr with
  | some mem =>
    refine ⟨[], ?_, fun h => nomatch h⟩
    rw [saveRuntime_block haddr, List.append_nil, saveBlock]
    split <;> rfl
  | none =>
    rw [saveRuntime, haddr]
    simp only
    split
    · next hshort =>
      exact ⟨[], (List.append_nil _).symm, fun _ hlong => absurd hshort (Nat.not_lt.mpr hlong)⟩
    · refine ⟨[word src 0 runtimeSizeFieldSize], ?_, fun _ _ => List.cons_ne_nil _ _⟩
      simp only [recordingAllocs]
      cases (A.kHeapAlignedAlloc (word src 0 runtimeSizeFieldSize) s.zephyr.1).1 with
      | none => rfl
      | some mem =>
        simp only [saveBlock]
        split
        · split <;> rfl
        · rfl

theorem saveRuntimes_requests (A : LlextApi Z) (s : Llext E (Z × List ℕ))
    (chunks : List (List UInt8)) :
    s.zephyr.2 <+: (saveRuntimes (recordingAllocs A) s chunks).2.zephyr.2 := by
  induction chunks generalizing s with
  | nil => exact List.prefix_rfl
  | cons src chunks ih =>
    obtain ⟨more, hmore, -⟩ := saveRuntime_requests A s src
    rw [saveRuntimes_cons]
    exact (List.prefix_append _ more).trans (hmore ▸ ih _)

theorem saveRuntime_short (h : s.addr = none) (hshort : src.length < runtimeSizeFieldSize) :
    saveRuntime (recordingAllocs A) s src = (Module.loaders.statusError, s) := by
  rw [saveRuntime, h]
  exact if_pos hshort

/-- Without a block, no memory is requested exactly as long as all chunks are too short for a size. They
fail then. -/
theorem saveRuntimes_no_block (h : s.addr = none) (chunks : List (List UInt8)) :
    ((saveRuntimes (recordingAllocs A) s chunks).2.zephyr.2 = s.zephyr.2 ↔
      ∀ src ∈ chunks, src.length < runtimeSizeFieldSize) ∧
    ((∀ src ∈ chunks, src.length < runtimeSizeFieldSize) →
      ∀ status ∈ (saveRuntimes (recordingAllocs A) s chunks).1, status ≠ statusOk) := by
  induction chunks with
  | nil =>
    exact ⟨iff_of_true rfl (fun _ hmem => absurd hmem List.not_mem_nil),
      fun _ _ hmem => absurd hmem List.not_mem_nil⟩
  | cons src chunks ih =>
    rw [saveRuntimes_cons, List.forall_mem_cons]
    rcases Nat.lt_or_ge src.length runtimeSizeFieldSize with hshort | hlong
    · rw [saveRuntime_short h hshort]
      refine ⟨⟨fun heq => ⟨hshort, ih.1.mp heq⟩, fun hall => ih.1.mpr hall.2⟩, ?_⟩
      intro hall
      rw [List.forall_mem_cons]
      exact ⟨status_ne_ok _ (by decide), ih.2 hall.2⟩
    · refine ⟨iff_of_false ?_ (fun hall => absurd hall.1 (Nat.not_lt.mpr hlong)),
        fun hall => absurd hall.1 (Nat.not_lt.mpr hlong)⟩
      -- A longer chunk is taken for the start of another image.
      intro heq
      obtain ⟨more, hmore, hne⟩ := saveRuntime_requests A s src
      have hprefix := saveRuntimes_requests A (saveRuntime (recordingAllocs A) s src).2 chunks
      rw [heq, hmore] at hprefix
      have hlen := hprefix.length_le
      rw [List.length_append] at hlen
      have hpos := List.length_pos_of_ne_nil (hne h hlong)
      omega

end

/-! ### The whole of a payload -/

section
variable {A : LlextApi Z} {status : Status}

/-- Where some calls have succeeded and then one fails, all later ones fail with it. -/
theorem pairwise_fail_iff (before after : List Status) (hbefore : ∀ st ∈ before, st = statusOk)
    (hfail : status ≠ statusOk) :
    ((∃ st ∈ before ++ status :: after, st ≠ statusOk) ∧ (before ++ status :: after).Pairwise
        fun earlier later => earlier ≠ statusOk → later ≠ statusOk) ↔
      ∀ st ∈ after, st ≠ statusOk := by
  constructor
  · rintro ⟨-, hpairwise⟩ st hst
    have hcons := (List.pairwise_append.mp hpairwise).2.1
    exact (List.pairwise_cons.mp hcons).1 st hst hfail
  · intro hafter
    refine ⟨⟨status, List.mem_append_right _ List.mem_cons_self, hfail⟩, ?_⟩
    rw [List.pairwise_append, List.pairwise_cons]
    refine ⟨?_, ⟨fun st hst _ => hafter st hst, ?_⟩, ?_⟩
    · exact List.pairwise_of_forall_mem_list fun st hst _ _ hne => absurd (hbefore st hst) hne
    · exact List.pairwise_of_forall_mem_list fun _ _ st hst _ => hafter st hst
    · intro st hst _ _ hne
      exact absurd (hbefore st hst) hne

theorem exists_overflow {size : ℕ} (pieces : List (List UInt8)) (h : size < pieces.flatten.length) :
    ∃ before piece after, pieces = before ++ piece :: after ∧ before.flatten.length ≤ size ∧
      size < before.flatten.length+piece.length := by
  induction pieces using List.reverseRecOn with
  | nil => exact absurd h (Nat.not_lt_zero _)
  | append_singleton pieces piece ih =>
    rcases Nat.lt_or_ge size pieces.flatten.length with hlt | hge
    · obtain ⟨before, piece', after, rfl, hle, hover⟩ := ih hlt
      exact ⟨before, piece', after ++ [piece], by rw [List.append_assoc, List.cons_append], hle, hover⟩
    · refine ⟨pieces, piece, [], rfl, hge, ?_⟩
      rwa [List.flatten_append, List.flatten_singleton, List.length_append] at h

/-- Where all pieces fit, none is too long. -/
theorem nothingFitsLater_of_fit {size : ℕ} {pieces : List (List UInt8)}
    (h : pieces.flatten.length ≤ size) : NothingFitsLater size pieces := by
  intro before piece after hsplit _ hlt
  rw [hsplit, List.flatten_append, List.flatten_cons] at h
  simp only [List.length_append] at h
  omega

/-- Pieces of which one does not fit: the calls fail from there on exactly if no later piece fits. -/
theorem saveRuntimes_overflow_iff {s : Llext E Z} {mem : List UInt8} (hs : HoldsBlock s mem)
    (hzero : s.written = 0) {before : List (List UInt8)} {piece : List UInt8}
    (after : List (List UInt8)) (hle : before.flatten.length ≤ s.maxSize)
    (hover : s.maxSize < before.flatten.length+piece.length) :
    ((∃ st ∈ (saveRuntimes A s (before ++ piece :: after)).1, st ≠ statusOk) ∧
      (saveRuntimes A s (before ++ piece :: after)).1.Pairwise
        fun earlier later => earlier ≠ statusOk → later ≠ statusOk) ↔
      ∀ later ∈ after, s.maxSize < before.flatten.length+later.length := by
  have hbefore : s.written+before.flatten.length ≤ s.maxSize := by
    rwa [hzero, Nat.zero_add]
  obtain ⟨hok, mem', hblock, -, heq⟩ := saveRuntimes_fit (A := A) hs hbefore
  have hwritten : (saveRuntimes A s before).2.written = before.flatten.length := by
    rw [heq, hzero, Nat.zero_add]
  have hmax : (saveRuntimes A s before).2.maxSize = s.maxSize := by
    rw [heq]
  have hfail : saveRuntime A (saveRuntimes A s before).2 piece =
      (loadersStatusNotEnoughMemory, (saveRuntimes A s before).2) := by
    rw [saveRuntime_block hblock.addr, saveBlock_over]
    rwa [hwritten, hmax]
  have hafter := saveRuntimes_fail_iff (A := A) hblock after
  rw [hwritten, hmax] at hafter
  rw [saveRuntimes_append, saveRuntimes_cons, hfail, ← hafter]
  exact pairwise_fail_iff _ _ hok notEnoughMemory_ne

end

section
variable {A : LlextApi Z} {s : Llext E (Z × List ℕ)} {first : List UInt8}
  {chunks : List (List UInt8)}

theorem resetRuntime_addr (A : LlextApi Z) (s : Llext E Z) : (resetRuntime A s).2.addr = none := by
  rw [resetRuntime]
  generalize (if s.addr.isSome = true then A.kHeapFree s.zephyr else s.zephyr) = zephyr
  simp only
  split
  · rfl
  · split
    · rfl
    · split <;> rfl

theorem declaredSize_flatten (h : runtimeSizeFieldSize ≤ first.length) :
    declaredSize (first :: chunks).flatten = declaredSize first := by
  rw [declaredSize, declaredSize, List.flatten_cons, word_append]
  rwa [Nat.zero_add]

/-- The pieces of an image: what comes behind the size field. -/
theorem flatten_pieces (h : runtimeSizeFieldSize ≤ first.length) (chunks : List (List UInt8)) :
    (first.drop runtimeSizeFieldSize :: chunks).flatten =
      (first :: chunks).flatten.drop runtimeSizeFieldSize := by
  rw [List.flatten_cons, List.flatten_cons, List.drop_append_of_le_length h]

/-- The loader with the block that the first chunk has led to. -/
def allocated (A : LlextApi Z) (s : Llext E (Z × List ℕ)) (size : ℕ) (mem : List UInt8) :
    Llext E (Z × List ℕ) :=
  {s with
    zephyr := ((A.kHeapAlignedAlloc size s.zephyr.1).2, s.zephyr.2 ++ [size])
    addr := some mem
    written := 0
    maxSize := size }

theorem saveRuntimes_first (hnone : s.addr = none) (h : runtimeSizeFieldSize ≤ first.length)
    {mem : {mem : List UInt8 // mem.length = declaredSize first}}
    (halloc : (A.kHeapAlignedAlloc (declaredSize first) s.zephyr.1).1 = some mem) :
    saveRuntimes (recordingAllocs A) s (first :: chunks) =
      saveRuntimes (recordingAllocs A) (allocated A s (declaredSize first) mem.1)
        (first.drop runtimeSizeFieldSize :: chunks) := by
  have hsave : saveRuntime (recordingAllocs A) s first =
      (allocated A s (declaredSize first) mem.1).saveBlock mem.1 (first.drop runtimeSizeFieldSize) := by
    have hanswer : (recordingAllocs A).kHeapAlignedAlloc (word first 0 runtimeSizeFieldSize) s.zephyr =
        (some mem, (allocated A s (declaredSize first) mem.1).zephyr) := Prod.ext halloc rfl
    rw [saveRuntime, hnone]
    simp only
    rw [if_neg (Nat.not_lt.mpr h), hanswer]
    simp only
    split
    · rfl
    · -- There is nothing behind the size field.
      next hshort =>
      have hdrop : first.drop runtimeSizeFieldSize = [] :=
        List.drop_eq_nil_of_le (Nat.le_of_not_lt hshort)
      have hfit : (allocated A s (declaredSize first) mem.1).written+([] : List UInt8).length ≤
          (allocated A s (declaredSize first) mem.1).maxSize := Nat.zero_le _
      rw [hdrop, saveBlock_fit hfit, appended, splice_nil]
      rfl
  rw [saveRuntimes_cons, saveRuntimes_cons, hsave, saveRuntime_block rfl]

/-- A first chunk for whose image there is no memory. -/
theorem saveRuntime_no_memory (hnone : s.addr = none) (h : runtimeSizeFieldSize ≤ first.length)
    (halloc : (A.kHeapAlignedAlloc (declaredSize first) s.zephyr.1).1 = none) :
    ∃ s', saveRuntime (recordingAllocs A) s first = (loadersStatusNotEnoughMemory, s') ∧
      s'.addr = none ∧ s'.zephyr.2 = s.zephyr.2 ++ [declaredSize first] := by
  have hanswer : (recordingAllocs A).kHeapAlignedAlloc (word first 0 runtimeSizeFieldSize) s.zephyr =
      (none, (A.kHeapAlignedAlloc (declaredSize first) s.zephyr.1).2,
        s.zephyr.2 ++ [declaredSize first]) := Prod.ext halloc rfl
  rw [saveRuntime, hnone]
  simp only
  rw [if_neg (Nat.not_lt.mpr h), hanswer]
  exact ⟨_, rfl, rfl, rfl⟩

theorem receivedInFull_no_memory (hnone : s.addr = none) (h : runtimeSizeFieldSize ≤ first.length)
    (halloc : (A.kHeapAlignedAlloc (declaredSize first) s.zephyr.1).1 = none) :
    ReceivedInFull A s (first :: chunks).flatten
      (saveRuntimes (recordingAllocs A) s (first :: chunks)).1
      (saveRuntimes (recordingAllocs A) s (first :: chunks)).2 ↔
    ∀ src ∈ chunks, src.length < runtimeSizeFieldSize := by
  obtain ⟨s', hsave, hnone', hrequests⟩ := saveRuntime_no_memory hnone h halloc
  obtain ⟨hiff, hfail⟩ := saveRuntimes_no_block (A := A) hnone' chunks
  rw [ReceivedInFull, declaredSize_flatten h, halloc, if_neg (fun hand => nomatch hand.1),
    saveRuntimes_cons, hsave, ← hrequests, ← hiff]
  simp only
  constructor
  · exact fun hall => hall.1
  · intro heq
    refine ⟨heq, ?_⟩
    have hall := hfail (hiff.mp heq)
    exact (pairwise_fail_iff [] _ (fun _ hmem => absurd hmem List.not_mem_nil)
      notEnoughMemory_ne).mpr hall

theorem receivedInFull_memory (hnone : s.addr = none) (h : runtimeSizeFieldSize ≤ first.length)
    {mem : {mem : List UInt8 // mem.length = declaredSize first}}
    (halloc : (A.kHeapAlignedAlloc (declaredSize first) s.zephyr.1).1 = some mem) :
    ReceivedInFull A s (first :: chunks).flatten
      (saveRuntimes (recordingAllocs A) s (first :: chunks)).1
      (saveRuntimes (recordingAllocs A) s (first :: chunks)).2 ↔
    NothingFitsLater (declaredSize first) (first.drop runtimeSizeFieldSize :: chunks) := by
  have hpieces := flatten_pieces h chunks
  have hlen := congrArg List.length hpieces
  rw [List.length_drop] at hlen
  have hblock : HoldsBlock (allocated A s (declaredSize first) mem.1) mem.1 :=
    ⟨rfl, mem.2, Nat.zero_le _⟩
  have hrequests : (saveRuntimes (recordingAllocs A) (allocated A s (declaredSize first) mem.1)
      (first.drop runtimeSizeFieldSize :: chunks)).2.zephyr.2 =
        s.zephyr.2 ++ [declaredSize first] :=
    congrArg Prod.snd (saveRuntimes_zephyr hblock _)
  rw [ReceivedInFull, declaredSize_flatten h, halloc, saveRuntimes_first hnone h halloc,
    hrequests, ← hpieces, ← hlen]
  simp only [Option.isSome_some, true_and]
  rcases Nat.lt_or_ge (declaredSize first)
    (first.drop runtimeSizeFieldSize :: chunks).flatten.length with hover | hfit
  · -- The pieces are more than the block holds: some piece is the first that does not fit.
    rw [if_neg (Nat.not_le.mpr hover)]
    constructor
    · intro hfail before piece after heq hle hlt
      rw [heq] at hfail
      exact (saveRuntimes_overflow_iff hblock rfl after hle hlt).mp hfail
    · intro hlater
      obtain ⟨before, piece, after, heq, hle, hlt⟩ := exists_overflow _ hover
      rw [heq]
      exact (saveRuntimes_overflow_iff hblock rfl after hle hlt).mpr
        (hlater before piece after heq hle hlt)
  · -- All pieces fit, and none can come behind one that does not.
    rw [if_pos hfit]
    have hall : (allocated A s (declaredSize first) mem.1).written+
        (first.drop runtimeSizeFieldSize :: chunks).flatten.length ≤
        (allocated A s (declaredSize first) mem.1).maxSize := by
      simp only [allocated, Nat.zero_add]
      exact hfit
    obtain ⟨hok, mem', -, htake, heq⟩ := saveRuntimes_fit (A := recordingAllocs A) hblock hall
    refine iff_of_true ⟨hok, ?_, mem', ?_, ?_⟩ (nothingFitsLater_of_fit hfit)
    · rw [heq]
      exact Nat.zero_add _
    · rw [heq]
    · rw [heq]
      simp only [allocated, List.take_zero, List.nil_append] at htake ⊢
      exact htake

/-- After a reset: an image that comes in chunks is received in full, or not at all, exactly if the
chunks behind one that has failed fail too. -/
theorem receivedInFull_iff (A : LlextApi Z) (s : Llext E (Z × List ℕ)) (first : List UInt8)
    (chunks : List (List UInt8)) (h : runtimeSizeFieldSize ≤ first.length) :
    ReceivedInFull A (resetRuntime (recordingAllocs A) s).2 (first :: chunks).flatten
      (saveRuntimes (recordingAllocs A) (resetRuntime (recordingAllocs A) s).2 (first :: chunks)).1
      (saveRuntimes (recordingAllocs A) (resetRuntime (recordingAllocs A) s).2 (first :: chunks)).2 ↔
    ChunksFailTogether A (resetRuntime (recordingAllocs A) s).2 first chunks := by
  have hnone := resetRuntime_addr (recordingAllocs A) s
  rw [ChunksFailTogether]
  cases halloc : (A.kHeapAlignedAlloc (declaredSize first)
      (resetRuntime (recordingAllocs A) s).2.zephyr.1).1 with
  | none => exact receivedInFull_no_memory hnone h halloc
  | some mem => exact receivedInFull_memory hnone h halloc

end

/-! ### A heap that is too small -/

/-- A heap of 16 bytes, of which every block is cleared. No extension is ever loaded. -/
def smallHeap : LlextApi Unit where
  llextTeardown z := (statusOk, z)
  llextUnload z := (statusOk, z)
  llextLoad _ _ z := (Module.runtimeWrapper.statusError, z)
  llextBringup z := (statusOk, z)
  llextFindSym _ _ := false
  kHeapFree z := z
  kHeapAlignedAlloc n z :=
    (if n ≤ 16 then some ⟨List.replicate n 0, List.length_replicate⟩ else none, z)

/-- Before anything was received. -/
def nothingReceived : Llext Unit (Unit × List ℕ) where
  addr := none
  written := 0
  maxSize := 0
  runtimeInitialized := false
  gpLlextRuntime := none
  ldrTable := none
  loaded := none
  next := 0
  ext := ()
  zephyr := ((), [])
  record := []

/-- Ten bytes in three chunks, of which a block holds the six behind the size. -/
theorem receivedInFull_small :
    ReceivedInFull smallHeap (resetRuntime (recordingAllocs smallHeap) nothingReceived).2
      [[6, 0, 0, 0, 1], [2, 3], [4, 5, 6]].flatten
      (saveRuntimes (recordingAllocs smallHeap)
        (resetRuntime (recordingAllocs smallHeap) nothingReceived).2
        [[6, 0, 0, 0, 1], [2, 3], [4, 5, 6]]).1
      (saveRuntimes (recordingAllocs smallHeap)
        (resetRuntime (recordingAllocs smallHeap) nothingReceived).2
        [[6, 0, 0, 0, 1], [2, 3], [4, 5, 6]]).2 := by
  refine (receivedInFull_iff smallHeap nothingReceived [6, 0, 0, 0, 1] [[2, 3], [4, 5, 6]]
    (by decide)).mpr ?_
  -- All of the image fits.
  intro before piece after hsplit _ hlt
  have hlen : 6 = (before ++ piece :: after).flatten.length :=
    congrArg (fun pieces => pieces.flatten.length) hsplit
  have hsize : declaredSize [6, 0, 0, 0, 1] = 6 := by decide
  rw [List.flatten_append, List.flatten_cons, List.length_append, List.length_append] at hlen
  rw [hsize] at hlt
  omega

/-- An image of 256 bytes for which there is no memory: its second chunk is taken for the start of
another one of 4 bytes, and the last call succeeds. -/
theorem receivedInFull_size_in_image :
    (saveRuntimes (recordingAllocs smallHeap)
      (resetRuntime (recordingAllocs smallHeap) nothingReceived).2
      [[0, 1, 0, 0], [4, 0, 0, 0]]).1 = [loadersStatusNotEnoughMemory, statusOk] ∧
    (saveRuntimes (recordingAllocs smallHeap)
      (resetRuntime (recordingAllocs smallHeap) nothingReceived).2
      [[0, 1, 0, 0], [4, 0, 0, 0]]).2.zephyr.2 = [256, 4] ∧
    ¬ ReceivedInFull smallHeap (resetRuntime (recordingAllocs smallHeap) nothingReceived).2
      [[0, 1, 0, 0], [4, 0, 0, 0]].flatten
      (saveRuntimes (recordingAllocs smallHeap)
        (resetRuntime (recordingAllocs smallHeap) nothingReceived).2
        [[0, 1, 0, 0], [4, 0, 0, 0]]).1
      (saveRuntimes (recordingAllocs smallHeap)
        (resetRuntime (recordingAllocs smallHeap) nothingReceived).2
        [[0, 1, 0, 0], [4, 0, 0, 0]]).2 := by
  refine ⟨by decide, by decide, ?_⟩
  intro h
  exact absurd h.1 (by decide)

end Llext

end KenningRuntime
