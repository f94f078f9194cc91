import KenningRuntime.TvmHeap

/-! The accounts that the IREE runtime keeps of its heap (runtimes/iree/platform.c). -/
namespace KenningRuntime
open Ledger Transition

/-- `k_heap_realloc`: without an answer the old block stays. -/
def KHeap.kHeapRealloc (h : KHeap) (ptr bytes : ℕ) (answer : Option HeapAnswer) : Option ℕ × KHeap :=
  match answer with
  | none => (none, h)
  | some _ => (h.kHeapFree ptr).kHeapAlloc bytes answer

inductive IreeStatus where
  | ok
  | invalidArgument
  | resourceExhausted
  | unimplemented
deriving DecidableEq, Repr

/-- `iree_allocator_command_t`; the commands that are not supported are one. -/
inductive IreeAllocatorCommand where
  | malloc
  | calloc
  | realloc
  | free
  | other
deriving DecidableEq, Repr

/-- `iree_total_alloc_stats`. -/
structure IreeAllocStats where
  peakAllocated : BitVec 64
  totalAllocated : BitVec 64
  totalFreed : BitVec 64
deriving DecidableEq

namespace IreeAllocStats

/-- `report_allocation`. -/
def reportAllocation (size : BitVec 64) (stats : IreeAllocStats) : IreeAllocStats :=
  let allocated := stats.totalAllocated-stats.totalFreed
  let stats := {stats with
    peakAllocated := if stats.peakAllocated > allocated then stats.peakAllocated else allocated }
  {stats with totalAllocated := stats.totalAllocated+size}

/-- `report_deallocation`. -/
def reportDeallocation (size : BitVec 64) (stats : IreeAllocStats) : IreeAllocStats :=
  {stats with totalFreed := stats.totalFreed+size}

end IreeAllocStats

/-- The statistics and `iree_heap`, with a record of the blocks that were live after each command, and
of the statistics before and after each command that has failed. -/
structure IreePlatform where
  stats : IreeAllocStats
  ireeHeap : KHeap
  history : List (List HeapBlock)
  failures : List (IreeAllocStats × IreeAllocStats)
deriving DecidableEq

namespace IreePlatform

/-- `report_deallocation_ptr`. -/
def reportDeallocationPtr (ptr : ℕ) (s : IreePlatform) : IreePlatform :=
  {s with stats := s.stats.reportDeallocation (BitVec.ofNat 64 (s.ireeHeap.sysHeapUsableSize ptr))}

/-- `iree_allocator_system_alloc`, with what the heap answers. -/
def ireeAllocatorSystemAlloc (command : IreeAllocatorCommand) (byteLength : BitVec 64)
    (inoutPtr : Option ℕ) (answer : Option HeapAnswer) (s : IreePlatform) :
    IreeStatus × Option ℕ × IreePlatform :=
  if byteLength = 0 then (.invalidArgument, inoutPtr, s)
  else
    -- The size is counted before there is a block.
    let s := {s with stats := s.stats.reportAllocation byteLength}
    let done (result : Option ℕ × KHeap) (s : IreePlatform) : IreeStatus × Option ℕ × IreePlatform :=
      match result with
      | (none, ireeHeap) => (.resourceExhausted, inoutPtr, {s with ireeHeap})
      | (some newPtr, ireeHeap) => (.ok, some newPtr, {s with ireeHeap})
    match command with
    | .realloc =>
      match inoutPtr with
      | some ptr =>
        let s := reportDeallocationPtr ptr s
        done (s.ireeHeap.kHeapRealloc ptr byteLength.toNat answer) s
      | none => done (s.ireeHeap.kHeapAlloc byteLength.toNat answer) s
    | .calloc => done (s.ireeHeap.kHeapAlloc byteLength.toNat answer) s
    | .malloc => done (s.ireeHeap.kHeapAlloc byteLength.toNat answer) s
    | .free | .other => (.invalidArgument, inoutPtr, s)

/-- `iree_allocator_system_free`. -/
def ireeAllocatorSystemFree (inoutPtr : Option ℕ) (s : IreePlatform) :
    IreeStatus × Option ℕ × IreePlatform :=
  match inoutPtr with
  | none => (.ok, none, s)
  | some ptr =>
    let s := reportDeallocationPtr ptr s
    (.ok, none, {s with ireeHeap := s.ireeHeap.kHeapFree ptr})

/-- `iree_allocator_ctl`. -/
def ireeAllocatorCtl (command : IreeAllocatorCommand) (byteLength : BitVec 64)
    (inoutPtr : Option ℕ) (answer : Option HeapAnswer) (s : IreePlatform) :
    IreeStatus × Option ℕ × IreePlatform :=
  match command with
  | .malloc | .calloc | .realloc => ireeAllocatorSystemAlloc command byteLength inoutPtr answer s
  | .free => ireeAllocatorSystemFree inoutPtr s
  | .other => (.unimplemented, inoutPtr, s)

/-- A command with its arguments, and what the heap answers. -/
structure Call where
  command : IreeAllocatorCommand
  byteLength : BitVec 64
  ptr : Option ℕ
  answer : Option HeapAnswer

/-- `iree_allocator_ctl` for a command. -/
def ctl (s : IreePlatform) (call : Call) : IreeStatus × Option ℕ × IreePlatform :=
  ireeAllocatorCtl call.command call.byteLength call.ptr call.answer s

/-- The heap without the block that a command gives back: its place may be used again. -/
def rest (s : IreePlatform) (call : Call) : KHeap :=
  match call.command, call.ptr with
  | .realloc, some ptr => s.ireeHeap.kHeapFree ptr
  | _, _ => s.ireeHeap

/-- A command that can happen: a pointer that is used is live or null, the heap answers as it may. -/
def Possible (s : IreePlatform) (call : Call) : Prop :=
  (call.command = .realloc ∨ call.command = .free → ∀ ptr ∈ call.ptr, s.ireeHeap.Live ptr) ∧
    (s.rest call).MayAnswer call.byteLength.toNat call.answer

instance (s : IreePlatform) (call : Call) : Decidable (s.Possible call) :=
  inferInstanceAs (Decidable (_ ∧ _))

/-- What is recorded of a command that has led from `s` to `t`. -/
def recorded (s : IreePlatform) (status : IreeStatus) (t : IreePlatform) : IreePlatform :=
  {t with
    history := t.history ++ [t.ireeHeap.live]
    failures := if status = .ok then t.failures else t.failures ++ [(s.stats, t.stats)] }

def step (s : IreePlatform) (call : Call) : Option IreePlatform :=
  if s.Possible call then some (recorded s (s.ctl call).1 (s.ctl call).2.2) else none

/-- Nothing was allocated yet. -/
def initial : IreePlatform := ⟨⟨0, 0, 0⟩, ⟨[]⟩, [[]], []⟩

/-! ### What the statistics should say -/

/-- How large a block is taken to be. -/
inductive Measure where
  | requested
  | usable
deriving DecidableEq

def Measure.size : Measure → HeapBlock → ℕ
  | requested => HeapBlock.requested
  | usable => HeapBlock.usable

/-- The difference of the sums is what is live, the peak is the most that was live after any command,
and commands that fail change nothing. -/
structure Accounted (m : Measure) (s : IreePlatform) : Prop where
  freed_le : s.stats.totalFreed ≤ s.stats.totalAllocated
  live : (s.stats.totalAllocated-s.stats.totalFreed).toNat = held m.size s.ireeHeap.live
  peak : IsGreatest {n | ∃ live ∈ s.history, n = held m.size live} s.stats.peakAllocated.toNat
  failures : ∀ r ∈ s.failures, r.2 = r.1

/-- A command that asks for memory: for at least one byte. -/
def Call.Allocates (call : Call) : Prop :=
  (call.command = .malloc ∨ call.command = .calloc ∨ call.command = .realloc) ∧ call.byteLength ≠ 0

/-- A command that does not ask for memory, or cannot happen. -/
def Idle (s : IreePlatform) (call : Call) : Prop := s.Possible call → ¬ call.Allocates

/-! ### One command -/

/-- No memory was ever asked for. -/
structure Untouched (s : IreePlatform) : Prop where
  stats : s.stats = ⟨0, 0, 0⟩
  live : s.ireeHeap.live = []
  history : [] ∈ s.history ∧ ∀ live ∈ s.history, live = []
  failures : ∀ r ∈ s.failures, r.2 = r.1

variable {s s' : IreePlatform} {call : Call} {m : Measure}

theorem untouched_initial : initial.Untouched :=
  ⟨rfl, rfl, ⟨List.mem_singleton_self _, fun _ h => List.mem_singleton.mp h⟩,
    fun _ h => absurd h List.not_mem_nil⟩

theorem Untouched.accounted (h : s.Untouched) (m : Measure) : s.Accounted m := by
  have hzero : (0 : BitVec 64).toNat = 0 := BitVec.toNat_zero
  refine ⟨?_, ?_, ⟨?_, ?_⟩, h.failures⟩
  · rw [h.stats]
    exact BitVec.le_refl _
  · rw [h.stats, h.live, held_nil, BitVec.sub_self]
    exact hzero
  · refine ⟨[], h.history.1, ?_⟩
    rw [h.stats, held_nil]
    exact hzero
  · intro n hn
    obtain ⟨live, hlive, rfl⟩ := hn
    rw [h.history.2 live hlive]
    exact Nat.zero_le _

/-- Nothing is live that a command could give back. -/
theorem Untouched.ptr (h : s.Untouched) (hp : s.Possible call)
    (hc : call.command = .realloc ∨ call.command = .free) : call.ptr = none := by
  rw [Option.eq_none_iff_forall_not_mem]
  intro ptr hptr
  obtain ⟨b, hb, -⟩ := hp.1 hc ptr hptr
  rw [h.live] at hb
  exact absurd hb List.not_mem_nil

/-- A command that does not ask for memory changes nothing. -/
theorem Untouched.idle_ctl (h : s.Untouched) (hp : s.Possible call) (hidle : ¬ call.Allocates) :
    (s.ctl call).2.2 = s := by
  obtain ⟨command, byteLength, ptr, answer⟩ := call
  have hzero (hc : command = .malloc ∨ command = .calloc ∨ command = .realloc) : byteLength = 0 := by
    by_contra hne
    exact hidle ⟨hc, hne⟩
  cases command with
  | malloc => simp only [ctl, ireeAllocatorCtl, ireeAllocatorSystemAlloc, hzero (.inl rfl), if_true]
  | calloc =>
    simp only [ctl, ireeAllocatorCtl, ireeAllocatorSystemAlloc, hzero (.inr (.inl rfl)), if_true]
  | realloc =>
    simp only [ctl, ireeAllocatorCtl, ireeAllocatorSystemAlloc, hzero (.inr (.inr rfl)), if_true]
  | free =>
    obtain rfl : ptr = none := h.ptr hp (.inr rfl)
    rfl
  | other => rfl

theorem Untouched.step_idle (h : s.Untouched) (hidle : s.Idle call) (hs : step s call = some s') :
    s'.Untouched := by
  rw [step] at hs
  split at hs
  · next hp =>
    have hsame := h.idle_ctl hp (hidle hp)
    rw [hsame] at hs
    cases hs
    refine ⟨h.stats, h.live, ⟨List.mem_append_left _ h.history.1, ?_⟩, ?_⟩
    · intro live hlive
      rcases List.mem_append.mp hlive with hlive | hlive
      · exact h.history.2 live hlive
      · rw [List.mem_singleton.mp hlive, h.live]
    · intro r hr
      simp only [recorded] at hr
      split at hr
      · exact h.failures r hr
      · rcases List.mem_append.mp hr with hr | hr
        · exact h.failures r hr
        · rw [List.mem_singleton.mp hr]
  · cases hs

/-- What is counted for the first command that asks for memory, whether there is a block or not. -/
theorem Untouched.allocates_ctl (h : s.Untouched) (hp : s.Possible call) (ha : call.Allocates) :
    s.ctl call = match call.answer with
      | none => (.resourceExhausted, call.ptr, {s with stats := ⟨0, call.byteLength, 0⟩})
      | some a => (.ok, some a.ptr, {s with
        stats := ⟨0, call.byteLength, 0⟩
        ireeHeap := ⟨[⟨a.ptr, call.byteLength.toNat, a.usable⟩]⟩ }) := by
  obtain ⟨command, byteLength, ptr, answer⟩ := call
  obtain ⟨hcommand, hne⟩ := ha
  have hstats : s.stats.reportAllocation byteLength = ⟨0, byteLength, 0⟩ := by
    rw [h.stats, IreeAllocStats.reportAllocation]
    simp
  have hheap : s.ireeHeap = ⟨[]⟩ := congrArg KHeap.mk h.live
  have hptr : command = .realloc → ptr = none := fun hc => h.ptr hp (.inl hc)
  simp only at hne hcommand ⊢
  rcases hcommand with hc | hc | hc
  · subst hc
    simp only [ctl, ireeAllocatorCtl, ireeAllocatorSystemAlloc, if_neg hne, hstats, hheap]
    cases answer <;> rfl
  · subst hc
    simp only [ctl, ireeAllocatorCtl, ireeAllocatorSystemAlloc, if_neg hne, hstats, hheap]
    cases answer <;> rfl
  · obtain rfl := hptr hc
    subst hc
    simp only [ctl, ireeAllocatorCtl, ireeAllocatorSystemAlloc, if_neg hne, hstats, hheap]
    cases answer <;> rfl

/-- The first command that asks for memory is not accounted for. Where it fails, its size stays counted;
otherwise the peak was noted before the block was there. -/
theorem Untouched.not_accounted (h : s.Untouched) (hp : s.Possible call) (ha : call.Allocates)
    (m : Measure) : ¬ (s.recorded (s.ctl call).1 (s.ctl call).2.2).Accounted m := by
  intro hacc
  have hctl := h.allocates_ctl hp ha
  have hne : call.byteLength ≠ 0 := ha.2
  have hpos : 0 < call.byteLength.toNat := by
    rw [Nat.pos_iff_ne_zero]
    intro hzero
    exact hne (BitVec.eq_of_toNat_eq hzero)
  cases hans : call.answer with
  | none =>
    rw [hans] at hctl
    simp only at hctl
    rw [hctl] at hacc
    -- The command has failed, and its size is counted.
    have hsame : (⟨0, call.byteLength, 0⟩ : IreeAllocStats) = s.stats := by
      apply hacc.failures (s.stats, ⟨0, call.byteLength, 0⟩)
      exact List.mem_append_right _ (List.mem_singleton_self _)
    rw [h.stats] at hsame
    exact hne (congrArg IreeAllocStats.totalAllocated hsame)
  | some a =>
    rw [hans] at hctl
    simp only at hctl
    rw [hctl] at hacc
    have hfits : call.byteLength.toNat ≤ a.usable := (hp.2 a hans).1
    have hsize : 0 < m.size ⟨a.ptr, call.byteLength.toNat, a.usable⟩ := by
      cases m with
      | requested => exact hpos
      | usable => exact Nat.lt_of_lt_of_le hpos hfits
    -- The peak is still that of before, when nothing was live.
    have hle : held m.size [⟨a.ptr, call.byteLength.toNat, a.usable⟩] ≤ (0 : BitVec 64).toNat := by
      apply hacc.peak.2
      exact ⟨_, List.mem_append_right _ (List.mem_singleton_self _), rfl⟩
    have hpeak : (0 : BitVec 64).toNat = 0 := BitVec.toNat_zero
    rw [held_cons, held_nil, hpeak] at hle
    omega

/-! ### All commands -/

/-- The statistics are right after all commands, in one measure, exactly if no command ever asks for
memory. -/
theorem run_accounted_iff (calls : List Call) :
    (∃ m, ∀ p t, p <+: calls → Reaches step initial p t → t.Accounted m) ↔
      Guarded step Idle initial calls := by
  have hiff (m : Measure) : (∀ p t, p <+: calls → Reaches step initial p t → t.Accounted m) ↔
      Guarded step Idle initial calls := by
    refine always_iff_guarded_of (fun s h => Untouched.accounted h m)
      (fun s l s' h hidle hs => h.step_idle hidle hs) ?_ untouched_initial calls
    intro s call h hall hp ha
    refine h.not_accounted hp ha m (hall _ ?_)
    rw [step, if_pos hp]
  exact ⟨fun ⟨m, h⟩ => (hiff m).mp h, fun h => ⟨.usable, (hiff .usable).mpr h⟩⟩

/-- A block of 8 bytes, of which 12 can be used, is allocated and freed. -/
def roundedCalls : List Call :=
  [⟨.malloc, 8, none, some ⟨1, 12, Nat.one_ne_zero⟩⟩, ⟨.free, 0, some 1, none⟩]

/-- Nothing is live, more was freed than allocated, and no peak was noticed. -/
theorem run_unaccounted : ¬ ∃ m, ∀ p t, p <+: roundedCalls → Reaches step initial p t →
    t.Accounted m := by
  rintro ⟨m, hall⟩
  obtain ⟨t, ht, hstats⟩ := exists_reaches (p := fun t => t.stats = ⟨0, 8, 12⟩)
    (show (run step initial roundedCalls).any _ = true by decide)
  have hacc := hall roundedCalls t (List.prefix_refl _) ht
  have hle := hacc.freed_le
  rw [of_decide_eq_true hstats] at hle
  exact absurd hle (by decide)

end IreePlatform

end KenningRuntime
