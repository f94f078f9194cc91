import KenningRuntime.Library.Ledger
import KenningRuntime.Library.Transition
import KenningRuntime.Statistics

/-! The heaps of the runtimes, and the accounts that the TVM runtime keeps of its own
(runtimes/tvm/platform.c). -/
namespace KenningRuntime
open Ledger Transition

/-! ### A heap of Zephyr (`k_heap`) -/

/-- A block that was allocated: its address, the size that was asked for, and the size that can be used,
which does not change. -/
structure HeapBlock where
  ptr : ℕ
  requested : ℕ
  usable : ℕ
deriving DecidableEq, Repr

/-- A block that the heap finds for a request: not at the null pointer. -/
structure HeapAnswer where
  ptr : ℕ
  usable : ℕ
  ptr_ne : ptr ≠ 0
deriving DecidableEq

/-- The blocks that are live. -/
structure KHeap where
  live : List HeapBlock
deriving DecidableEq

namespace KHeap

/-- The pointer is the one of a live block. -/
def Live (h : KHeap) (ptr : ℕ) : Prop := ∃ b ∈ h.live, b.ptr = ptr

instance (h : KHeap) (ptr : ℕ) : Decidable (h.Live ptr) :=
  inferInstanceAs (Decidable (∃ b ∈ h.live, b.ptr = ptr))

/-- What the heap may answer to a request: nothing, or a block that is large enough and elsewhere than
the live ones. -/
def MayAnswer (h : KHeap) (bytes : ℕ) (answer : Option HeapAnswer) : Prop :=
  ∀ a ∈ answer, bytes ≤ a.usable ∧ ¬ h.Live a.ptr

instance (h : KHeap) (bytes : ℕ) (answer : Option HeapAnswer) : Decidable (h.MayAnswer bytes answer) :=
  inferInstanceAs (Decidable (∀ a ∈ answer, _))

def kHeapAlloc (h : KHeap) (bytes : ℕ) (answer : Option HeapAnswer) : Option ℕ × KHeap :=
  match answer with
  | none => (none, h)
  | some a => (some a.ptr, ⟨⟨a.ptr, bytes, a.usable⟩ :: h.live⟩)

def kHeapFree (h : KHeap) (ptr : ℕ) : KHeap := ⟨h.live.eraseP (·.ptr = ptr)⟩

def sysHeapUsableSize (h : KHeap) (ptr : ℕ) : ℕ := ((h.live.find? (·.ptr = ptr)).map (·.usable)).getD 0

theorem Live.find? {h : KHeap} {ptr : ℕ} (hl : h.Live ptr) :
    ∃ b, h.live.find? (·.ptr = ptr) = some b := by
  obtain ⟨b, hb, hptr⟩ := hl
  exact Option.isSome_iff_exists.mp (List.find?_isSome.mpr ⟨b, hb, decide_eq_true hptr⟩)

/-- What a block leaves when it is freed. -/
theorem held_kHeapFree {h : KHeap} {ptr : ℕ} (hl : h.Live ptr) :
    held HeapBlock.usable (h.kHeapFree ptr).live+h.sysHeapUsableSize ptr =
      held HeapBlock.usable h.live := by
  obtain ⟨b, hb⟩ := hl.find?
  rw [sysHeapUsableSize, hb]
  exact held_eraseP HeapBlock.usable hb

theorem sysHeapUsableSize_new (h : KHeap) (bytes : ℕ) (a : HeapAnswer) :
    (⟨⟨a.ptr, bytes, a.usable⟩ :: h.live⟩ : KHeap).sysHeapUsableSize a.ptr = a.usable := by
  have hfind : (⟨a.ptr, bytes, a.usable⟩ :: h.live).find? (·.ptr = a.ptr) =
      some ⟨a.ptr, bytes, a.usable⟩ := List.find?_cons_of_pos (decide_eq_true rfl)
  rw [sysHeapUsableSize, hfind]
  rfl

end KHeap

/-! ### The platform of TVM -/

inductive TvmCrtError where
  | noError
  | platformNoMemory
deriving DecidableEq, Repr

/-- The counters and `tvm_heap`; `history` is a record of the usable bytes that were live after each
call. -/
structure TvmPlatform where
  gTotalAllocated : BitVec 64
  gTotalFreed : BitVec 64
  gPeakAllocated : BitVec 64
  tvmHeap : KHeap
  history : List ℕ
deriving DecidableEq

namespace TvmPlatform

/-- The usable sizes of the live blocks. -/
def live (s : TvmPlatform) : ℕ := held HeapBlock.usable s.tvmHeap.live

/-- `TVMPlatformMemoryAllocate`, with what the heap answers if it is asked. -/
def tvmPlatformMemoryAllocate (numBytes : ℕ) (answer : Option HeapAnswer) (s : TvmPlatform) :
    TvmCrtError × Option ℕ × TvmPlatform :=
  if numBytes = 0 then (.noError, none, s)
  else
    match s.tvmHeap.kHeapAlloc numBytes answer with
    | (none, tvmHeap) => (.platformNoMemory, none, {s with tvmHeap})
    | (some ptr, tvmHeap) =>
      let s := {s with
        tvmHeap
        gTotalAllocated := s.gTotalAllocated+BitVec.ofNat 64 (tvmHeap.sysHeapUsableSize ptr) }
      (.noError, some ptr,
        if s.gTotalAllocated-s.gTotalFreed > s.gPeakAllocated then
          {s with gPeakAllocated := s.gTotalAllocated-s.gTotalFreed}
        else s)

/-- `TVMPlatformMemoryFree`. -/
def tvmPlatformMemoryFree (ptr : Option ℕ) (s : TvmPlatform) : TvmCrtError × TvmPlatform :=
  match ptr with
  | none => (.noError, s)
  | some ptr => (.noError, {s with
      gTotalFreed := s.gTotalFreed+BitVec.ofNat 64 (s.tvmHeap.sysHeapUsableSize ptr)
      tvmHeap := s.tvmHeap.kHeapFree ptr })

def tvmGetAllocationStats (s : TvmPlatform) : AllocationStats where
  totalAllocated := s.gTotalAllocated.toNat
  totalFreed := s.gTotalFreed.toNat
  peakAllocated := s.gPeakAllocated.toNat

/-- A call, with what the heap answers. -/
inductive Call where
  | allocate (numBytes : ℕ) (answer : Option HeapAnswer)
  | free (ptr : Option ℕ)

/-- The usable bytes that a call allocates. -/
def Call.bytes : Call → ℕ
  | allocate numBytes answer => if numBytes = 0 then 0 else (answer.map HeapAnswer.usable).getD 0
  | free _ => 0

def recorded (s : TvmPlatform) : TvmPlatform := {s with history := s.history ++ [s.live]}

/-- A call that can happen: the heap answers as it may, and no pointer is freed that is not live. -/
def step (s : TvmPlatform) : Call → Option TvmPlatform
  | .allocate numBytes answer =>
    if s.tvmHeap.MayAnswer numBytes answer then
      some (tvmPlatformMemoryAllocate numBytes answer s).2.2.recorded
    else none
  | .free ptr =>
    if ∀ p ∈ ptr, s.tvmHeap.Live p then some (tvmPlatformMemoryFree ptr s).2.recorded else none

/-- Nothing was allocated yet. -/
def initial : TvmPlatform := ⟨0, 0, 0, ⟨[]⟩, [0]⟩

/-- What the statistics say: their difference is what is live, and the peak the most that was live after
any call. -/
structure Accounted (s : TvmPlatform) : Prop where
  freed_le : (tvmGetAllocationStats s).totalFreed ≤ (tvmGetAllocationStats s).totalAllocated
  live : (s.gTotalAllocated-s.gTotalFreed).toNat = s.live
  peak : IsGreatest {n | n ∈ s.history} (tvmGetAllocationStats s).peakAllocated

/-! ### One call -/

/-- The counters are balanced accounts. -/
def Sound (s : TvmPlatform) : Prop :=
  Balanced s.gTotalAllocated.toNat s.gTotalFreed.toNat s.gPeakAllocated.toNat s.live s.history

variable {s s' : TvmPlatform}

theorem Sound.difference (h : s.Sound) : (s.gTotalAllocated-s.gTotalFreed).toNat = s.live := by
  have hnet : s.gTotalAllocated.toNat = s.gTotalFreed.toNat+s.live := h.net
  rw [BitVec.toNat_sub_of_le h.freed_le, hnet, Nat.add_sub_cancel_left]

theorem Sound.accounted (h : s.Sound) : s.Accounted where
  freed_le := h.freed_le
  live := h.difference
  peak := h.peak

/-- A counter that stays below 2^64 does not wrap. -/
theorem toNat_add_ofNat {x : BitVec 64} {n : ℕ} (h : x.toNat+n < 2^64) :
    (x+BitVec.ofNat 64 n).toNat = x.toNat+n := by
  rw [BitVec.toNat_add, BitVec.toNat_ofNat, Nat.mod_eq_of_lt (show n < 2^64 by omega),
    Nat.mod_eq_of_lt h]

theorem Sound.idle (h : s.Sound) : s.recorded.Sound := Balanced.idle h

/-- The platform after a block was found. -/
theorem tvmPlatformMemoryAllocate_some {numBytes : ℕ} (hn : numBytes ≠ 0) (a : HeapAnswer) :
    (tvmPlatformMemoryAllocate numBytes (some a) s).2.2 = {s with
      tvmHeap := ⟨⟨a.ptr, numBytes, a.usable⟩ :: s.tvmHeap.live⟩
      gTotalAllocated := s.gTotalAllocated+BitVec.ofNat 64 a.usable
      gPeakAllocated :=
        if s.gTotalAllocated+BitVec.ofNat 64 a.usable-s.gTotalFreed > s.gPeakAllocated then
          s.gTotalAllocated+BitVec.ofNat 64 a.usable-s.gTotalFreed
        else s.gPeakAllocated } := by
  have hsize := s.tvmHeap.sysHeapUsableSize_new numBytes a
  rw [tvmPlatformMemoryAllocate, if_neg hn, KHeap.kHeapAlloc]
  simp only [hsize]
  split
  · rfl
  · rfl

theorem toNat_max (x y : BitVec 64) : (if x > y then x else y).toNat = max y.toNat x.toNat := by
  split
  · next hgt =>
    have hlt : y.toNat < x.toNat := hgt
    exact (max_eq_right hlt.le).symm
  · next hle =>
    have hge : x.toNat ≤ y.toNat := BitVec.not_lt.mp hle
    exact (max_eq_left hge).symm

/-- A block was found: the counters go up before they are compared with the peak. -/
theorem Sound.allocate (h : s.Sound) {numBytes : ℕ} (hn : numBytes ≠ 0) (a : HeapAnswer)
    (hfit : s.gTotalAllocated.toNat+a.usable < 2^64) :
    (tvmPlatformMemoryAllocate numBytes (some a) s).2.2.recorded.Sound ∧
      (tvmPlatformMemoryAllocate numBytes (some a) s).2.2.recorded.gTotalAllocated.toNat =
        s.gTotalAllocated.toNat+a.usable := by
  have htotal := toNat_add_ofNat hfit
  have hbalanced := Balanced.allocate h a.usable
  have hfreed := hbalanced.freed_le
  have hout : (s.gTotalAllocated+BitVec.ofNat 64 a.usable-s.gTotalFreed).toNat =
      s.live+a.usable := by
    have hnet : s.gTotalAllocated.toNat = s.gTotalFreed.toNat+s.live := h.net
    rw [BitVec.toNat_sub_of_le (by rw [BitVec.le_def, htotal]; exact hfreed), htotal]
    omega
  have hheld : held HeapBlock.usable (⟨a.ptr, numBytes, a.usable⟩ :: s.tvmHeap.live) =
      s.live+a.usable := by
    rw [held_cons, Nat.add_comm]
    rfl
  rw [tvmPlatformMemoryAllocate_some hn]
  refine ⟨?_, htotal⟩
  rw [Sound, recorded]
  simp only [toNat_max, live, hheld, htotal, hout]
  exact hbalanced

theorem Sound.free (h : s.Sound) {ptr : ℕ} (hlive : s.tvmHeap.Live ptr) :
    (tvmPlatformMemoryFree (some ptr) s).2.recorded.Sound := by
  have hheld := KHeap.held_kHeapFree hlive
  have hbalanced := Balanced.release h hheld
  have hfreed := hbalanced.freed_le
  have hlt := s.gTotalAllocated.isLt
  have htotal : (s.gTotalFreed+BitVec.ofNat 64 (s.tvmHeap.sysHeapUsableSize ptr)).toNat =
      s.gTotalFreed.toNat+s.tvmHeap.sysHeapUsableSize ptr := toNat_add_ofNat (by omega)
  rw [Sound, recorded, live, tvmPlatformMemoryFree]
  simp only [htotal]
  exact hbalanced

/-- Each call keeps the accounts balanced, as long as the first counter does not wrap. -/
theorem step_sound (h : s.Sound) {call : Call} (hfit : s.gTotalAllocated.toNat+call.bytes < 2^64)
    (hs : step s call = some s') :
    s'.Sound ∧ s'.gTotalAllocated.toNat = s.gTotalAllocated.toNat+call.bytes := by
  cases call with
  | allocate numBytes answer =>
    rw [step] at hs
    split at hs
    · cases hs
      by_cases hn : numBytes = 0
      · subst hn
        exact ⟨h.idle, rfl⟩
      · rw [Call.bytes, if_neg hn] at hfit ⊢
        cases answer with
        | none =>
          rw [tvmPlatformMemoryAllocate, if_neg hn, KHeap.kHeapAlloc]
          exact ⟨h.idle, rfl⟩
        | some a => exact h.allocate hn a hfit
    · cases hs
  | free ptr =>
    rw [step] at hs
    split at hs
    · next hlive =>
      cases hs
      cases ptr with
      | none => exact ⟨h.idle, rfl⟩
      | some ptr => exact ⟨h.free (hlive ptr rfl), rfl⟩
    · cases hs

/-! ### All calls -/

theorem run_sound {calls : List Call} (hr : Reaches step s calls s') (h : s.Sound)
    (hfit : s.gTotalAllocated.toNat+(calls.map Call.bytes).sum < 2^64) : s'.Sound := by
  induction hr with
  | refl => exact h
  | next hs _ ih =>
    rw [List.map_cons, List.sum_cons, ← Nat.add_assoc] at hfit
    obtain ⟨hsound, htotal⟩ := step_sound h (Nat.lt_of_le_of_lt (Nat.le_add_right _ _) hfit) hs
    apply ih hsound
    rwa [htotal]

/-- After any calls that allocate less than 2^64 bytes in all, the statistics are right. -/
theorem run_accounted {calls : List Call} (hr : Reaches step initial calls s)
    (hfit : (calls.map Call.bytes).sum < 2^64) : s.Accounted := by
  have hsound : initial.Sound := Balanced.initial
  refine (run_sound hr hsound ?_).accounted
  rwa [show initial.gTotalAllocated.toNat = 0 from rfl, Nat.zero_add]

/-- Two blocks, of which one is freed before a request for nothing, a request that fails, and a free of
the null pointer. -/
def fewCalls : List Call :=
  [.allocate 10 (some ⟨8, 12, by decide⟩), .allocate 20 (some ⟨24, 20, by decide⟩), .free (some 8),
    .allocate 0 none, .allocate 100 none, .free none]

theorem run_accounted_few : ∃ s, Reaches step initial fewCalls s ∧
    tvmGetAllocationStats s = ⟨32, 12, 32⟩ ∧ s.Accounted := by
  obtain ⟨s, hs, hstats⟩ := exists_reaches (p := fun s => tvmGetAllocationStats s = ⟨32, 12, 32⟩)
    (show (run step initial fewCalls).any _ = true by decide)
  exact ⟨s, hs, of_decide_eq_true hstats, run_accounted hs (by decide)⟩

end TvmPlatform

end KenningRuntime
