import KenningRuntime.RuntimeEmlearn
import KenningRuntime.RuntimeTflite

/-! The statistics of the runtimes: which records `runtime_get_statistics` of each of them writes, and
the size that it reports. -/
namespace KenningRuntime

/-- `runtime_statistics_allocation_t`. -/
structure AllocationStats where
  totalAllocated : ℕ
  totalFreed : ℕ
  peakAllocated : ℕ
deriving DecidableEq, Repr

/-- The counters of `iree_hal_allocator_statistics_t`. -/
structure IreeHalAllocatorStatistics where
  deviceBytesAllocated : ℕ
  deviceBytesFreed : ℕ
  deviceBytesPeak : ℕ
  hostBytesAllocated : ℕ
  hostBytesFreed : ℕ
  hostBytesPeak : ℕ

def sizeofUint64 : ℕ := 8
def sizeofAllocationStats : ℕ := 3*sizeofUint64
def sizeofExecutionTime : ℕ := 2*sizeofUint64

/-- The arguments of one `LOAD_RUNTIME_STAT_FROM_VALUE`. -/
structure LoadedStat where
  idx : ℕ
  value : ℕ
  name : String
  type : ℕ
deriving DecidableEq

namespace LoadedStat

/-- The bytes that are written for it: from `offset` up to `stop`. -/
def offset (r : LoadedStat) : ℕ := sizeofRuntimeStatistic*r.idx
def stop (r : LoadedStat) : ℕ := r.offset+sizeofRuntimeStatistic

def load {n : ℕ} (stats : Buffer n) (r : LoadedStat) : Buffer n :=
  loadRuntimeStat stats r.idx r.value r.name r.type

end LoadedStat

/-- What `runtime_get_statistics` does: the records that it loads, and what it sets
`*statistics_size` to. -/
structure StatisticsCall where
  status : Status
  loaded : List LoadedStat
  statisticsSize : Option ℕ
deriving DecidableEq

/-- The check that all runtimes make, with the size that each of them computes and the records that it
loads behind it. -/
def getStatistics (statsSize : ℕ) (records : List LoadedStat) (statisticsBufferSize : ℕ) :
    StatisticsCall :=
  if statisticsBufferSize < statsSize then ⟨Module.runtimeWrapper.statusInvArg, [], none⟩
  else ⟨statusOk, records, some statsSize⟩

/-- The two records of the time of an inference, from record `idx` on. -/
def timeStats (idx : ℕ) (time : ExecutionTime) : List LoadedStat :=
  [⟨idx, time.targetInferenceStep, "target_inference_step", runtimeStatisticsInferenceTime⟩,
    ⟨idx+1, time.targetInferenceStepTimestamp, "target_inference_step_timestamp",
      runtimeStatisticsInferenceTime⟩]

def allocationStats (idx : ℕ) (alloc : AllocationStats) : List LoadedStat :=
  [⟨idx, alloc.totalAllocated, "total_allocated", runtimeStatisticsAllocation⟩,
    ⟨idx+1, alloc.totalFreed, "total_freed", runtimeStatisticsAllocation⟩,
    ⟨idx+2, alloc.peakAllocated, "peak_allocated", runtimeStatisticsAllocation⟩]

/-- A runtime, with the values that its statistics are made of. -/
inductive StatisticsBackend where
  | tvm (alloc : AllocationStats) (time : ExecutionTime)
  | iree (sizeofDeviceSize : ℕ+) (fromRuntime : IreeHalAllocatorStatistics)
      (fromHeap : AllocationStats) (time : ExecutionTime)
  | tflite (peakAllocation : ℕ) (time : ExecutionTime)
  | executorch (totalSize : ℕ) (time : ExecutionTime)
  | ai8x (time : ExecutionTime)
  | emlearn (time : ExecutionTime)

namespace StatisticsBackend

/-- `stats_size`. -/
def statsSize : StatisticsBackend → ℕ
  | tvm _ _ => sizeofRuntimeStatistic*(sizeofAllocationStats+sizeofExecutionTime)/sizeofUint64
  | iree w _ _ _ =>
    sizeofRuntimeStatistic*(6*w/w+(sizeofExecutionTime+sizeofAllocationStats)/sizeofUint64)
  | tflite _ _ => sizeofRuntimeStatistic*sizeofExecutionTime/sizeofUint64
  | executorch _ _ => sizeofRuntimeStatistic
  | ai8x _ => sizeofRuntimeStatistic*sizeofExecutionTime/sizeofUint64
  | emlearn _ => 2*sizeofRuntimeStatistic

/-- The records, in the order in which they are loaded. -/
def records : StatisticsBackend → List LoadedStat
  | tvm alloc time => allocationStats 0 alloc ++ timeStats 3 time
  | iree _ fromRuntime fromHeap time =>
    [⟨0, fromRuntime.deviceBytesAllocated, "device_bytes_allocated", runtimeStatisticsAllocation⟩,
      ⟨1, fromRuntime.deviceBytesFreed, "device_bytes_freed", runtimeStatisticsAllocation⟩,
      ⟨2, fromRuntime.deviceBytesPeak, "device_bytes_peak", runtimeStatisticsAllocation⟩,
      ⟨3, fromRuntime.hostBytesAllocated, "host_bytes_allocated", runtimeStatisticsAllocation⟩,
      ⟨4, fromRuntime.hostBytesFreed, "host_bytes_freed", runtimeStatisticsAllocation⟩,
      ⟨5, fromRuntime.hostBytesPeak, "host_bytes_peak", runtimeStatisticsAllocation⟩] ++
      allocationStats 6 fromHeap ++ timeStats 9 time ++
      -- One counter is loaded twice, and there is no room for the second.
      [⟨11, fromRuntime.hostBytesPeak, "host_bytes_peak", runtimeStatisticsAllocation⟩]
  | tflite peakAllocation time =>
    ⟨0, peakAllocation, "peak_allocated", runtimeStatisticsAllocation⟩ :: timeStats 1 time
  | executorch totalSize time =>
    ⟨0, totalSize, "planned_memory_size", runtimeStatisticsAllocation⟩ :: timeStats 1 time
  | ai8x time => timeStats 0 time
  | emlearn time => timeStats 0 time

/-- `runtime_get_statistics`. -/
def runtimeGetStatistics (b : StatisticsBackend) (statisticsBufferSize : ℕ) : StatisticsCall :=
  getStatistics b.statsSize b.records statisticsBufferSize

end StatisticsBackend

/-- A call of `runtime_get_statistics` is refused and has written nothing. Or it has succeeded: it has
written inside the buffer, it reports as many records as it has written, all of them are in the part
that it reports, and none of them was written twice. -/
def StatisticsCall.Complete (statisticsBufferSize : ℕ) (c : StatisticsCall) : Prop :=
  c.status = Module.runtimeWrapper.statusInvArg ∧ c.loaded = [] ∨
    c.status = statusOk ∧ (∀ r ∈ c.loaded, r.stop ≤ statisticsBufferSize) ∧
      ∃ size, c.statisticsSize = some size ∧ size = c.loaded.length*sizeofRuntimeStatistic ∧
        (∀ r ∈ c.loaded, r.stop ≤ size) ∧
        (c.loaded.map LoadedStat.idx).Nodup ∧ (c.loaded.map LoadedStat.name).Nodup

/-- The runtimes whose `stats_size` counts the records that they load. -/
def StatisticsBackend.Counted : StatisticsBackend → Prop
  | tvm _ _ | ai8x _ | emlearn _ => True
  | iree _ _ _ _ | tflite _ _ | executorch _ _ => False

/-! ### The check, for any size and any records -/

section
variable {statsSize bufferSize : ℕ} {records : List LoadedStat}

theorem invArg_ne_ok : Module.runtimeWrapper.statusInvArg ≠ statusOk := status_ne_ok _ (by decide)

theorem getStatistics_refused (h : bufferSize < statsSize) :
    (getStatistics statsSize records bufferSize).Complete bufferSize := by
  rw [getStatistics, if_pos h]
  exact .inl ⟨rfl, rfl⟩

/-- Records that come one behind the other, each with a name of its own. -/
structure InSequence (records : List LoadedStat) : Prop where
  idx : records.map LoadedStat.idx = List.range records.length
  name : (records.map LoadedStat.name).Nodup

theorem InSequence.stop_le (h : InSequence records) {r : LoadedStat} (hr : r ∈ records) :
    r.stop ≤ records.length*sizeofRuntimeStatistic := by
  have hidx : r.idx ∈ records.map LoadedStat.idx := List.mem_map_of_mem hr
  rw [h.idx, List.mem_range] at hidx
  calc r.stop = sizeofRuntimeStatistic*(r.idx+1) := by rw [LoadedStat.stop, LoadedStat.offset]; ring
    _ ≤ sizeofRuntimeStatistic*records.length := Nat.mul_le_mul_left _ hidx
    _ = records.length*sizeofRuntimeStatistic := Nat.mul_comm _ _

/-- A size that counts the records is large enough for them. -/
theorem getStatistics_counted (h : InSequence records)
    (hsize : statsSize = records.length*sizeofRuntimeStatistic) :
    (getStatistics statsSize records bufferSize).Complete bufferSize := by
  rcases Nat.lt_or_ge bufferSize statsSize with hlt | hle
  · exact getStatistics_refused hlt
  · rw [getStatistics, if_neg (Nat.not_lt.mpr hle)]
    refine .inr ⟨rfl, ?_, statsSize, rfl, hsize, ?_, ?_, h.name⟩
    · intro r hr
      exact (h.stop_le hr).trans (hsize ▸ hle)
    · intro r hr
      exact hsize ▸ h.stop_le hr
    · rw [h.idx]
      exact List.nodup_range

/-- A size that does not count them is reported all the same, if the buffer is as large. -/
theorem getStatistics_miscounted (hsize : statsSize ≠ records.length*sizeofRuntimeStatistic)
    (hle : statsSize ≤ bufferSize) :
    ¬ (getStatistics statsSize records bufferSize).Complete bufferSize := by
  rw [getStatistics, if_neg (Nat.not_lt.mpr hle)]
  rintro (⟨hstatus, -⟩ | ⟨-, -, size, hreported, hcount, -⟩)
  · exact invArg_ne_ok hstatus.symm
  · obtain rfl := Option.some.inj hreported
    exact hsize hcount

end

/-! ### The runtimes -/

namespace StatisticsBackend

theorem counted_inSequence {b : StatisticsBackend} (h : b.Counted) :
    InSequence b.records ∧ b.statsSize = b.records.length*sizeofRuntimeStatistic := by
  cases b with
  | tvm alloc time =>
    have hnames : (tvm alloc time).records.map LoadedStat.name = ["total_allocated", "total_freed",
        "peak_allocated", "target_inference_step", "target_inference_step_timestamp"] := rfl
    have hcount : (tvm alloc time).records.length = 5 := rfl
    refine ⟨⟨rfl, by rw [hnames]; decide⟩, ?_⟩
    rw [hcount]
    exact show 240 = 240 from rfl
  | ai8x time | emlearn time =>
    have hnames : (timeStats 0 time).map LoadedStat.name =
        ["target_inference_step", "target_inference_step_timestamp"] := rfl
    have hcount : (timeStats 0 time).length = 2 := rfl
    refine ⟨⟨rfl, hnames ▸ by decide⟩, ?_⟩
    rw [records, hcount]
    exact show 96 = 96 from rfl
  | iree | tflite | executorch => exact absurd h id

/-- IREE has a record more than it counts, TFLite has one and ExecuTorch has two more. -/
theorem miscounted {b : StatisticsBackend} (h : ¬ b.Counted) :
    b.statsSize ≠ b.records.length*sizeofRuntimeStatistic := by
  cases b with
  | tvm | ai8x | emlearn => exact absurd trivial h
  | tflite peakAllocation time => exact show 96 ≠ 144 by decide
  | executorch totalSize time => exact show 48 ≠ 144 by decide
  | iree w fromRuntime fromHeap time =>
    have hcounters : 6*(w : ℕ)/w = 6 := Nat.mul_div_cancel 6 w.pos
    have hsize : (iree w fromRuntime fromHeap time).statsSize = 528 := by
      rw [statsSize, hcounters]
      rfl
    have hcount : (iree w fromRuntime fromHeap time).records.length = 12 := rfl
    rw [hsize, hcount]
    decide

/-- The statistics are complete and inside the buffer exactly if they are refused, or if the runtime
counts its records. -/
theorem runtimeGetStatistics_complete_iff (b : StatisticsBackend) (statisticsBufferSize : ℕ) :
    (b.runtimeGetStatistics statisticsBufferSize).Complete statisticsBufferSize ↔
      statisticsBufferSize < b.statsSize ∨ b.Counted := by
  constructor
  · intro hcomplete
    by_contra hnot
    rw [not_or, Nat.not_lt] at hnot
    exact getStatistics_miscounted (miscounted hnot.2) hnot.1 hcomplete
  · rintro (hlt | hcounted)
    · exact getStatistics_refused hlt
    · obtain ⟨hsequence, hsize⟩ := counted_inSequence hcounted
      exact getStatistics_counted hsequence hsize

/-- A buffer with room for two records: the third one of TFLite is written behind it. -/
theorem runtimeGetStatistics_overrun :
    ((tflite 0 ⟨0, 0⟩).runtimeGetStatistics 96).status = statusOk ∧
      (∃ r ∈ ((tflite 0 ⟨0, 0⟩).runtimeGetStatistics 96).loaded, r.offset = 96 ∧ r.stop = 144) ∧
      ¬ ((tflite 0 ⟨0, 0⟩).runtimeGetStatistics 96).Complete 96 := by
  refine ⟨rfl, ⟨_, .tail _ (.tail _ (.head _)), rfl, rfl⟩, ?_⟩
  exact getStatistics_miscounted (show 96 ≠ 144 by decide) le_rfl

end StatisticsBackend

/-! ### The functions of the runtimes that have a model of their own -/

/-- What a call leaves in the buffer. The part of a record that lies behind the end is not kept. -/
def StatisticsCall.apply {n : ℕ} (c : StatisticsCall) (statisticsBuffer : Buffer n)
    (statisticsSize : ℕ) : Status × Buffer n × ℕ :=
  (c.status, c.loaded.foldl LoadedStat.load statisticsBuffer, c.statisticsSize.getD statisticsSize)

theorem getStatistics_apply {n : ℕ} (statsSize : ℕ) (records : List LoadedStat)
    (statisticsBufferSize : ℕ) (statisticsBuffer : Buffer n) (statisticsSize : ℕ) :
    (getStatistics statsSize records statisticsBufferSize).apply statisticsBuffer statisticsSize =
      if statisticsBufferSize < statsSize then
        (Module.runtimeWrapper.statusInvArg, statisticsBuffer, statisticsSize)
      else (statusOk, records.foldl LoadedStat.load statisticsBuffer, statsSize) := by
  rw [getStatistics]
  split <;> rfl

theorem tflite_runtimeGetStatistics {C n : ℕ} {E : Type} (statisticsBufferSize : ℕ)
    (statisticsBuffer : Buffer n) (statisticsSize : ℕ) (s : Tflite C E) :
    Tflite.runtimeGetStatistics statisticsBufferSize statisticsBuffer statisticsSize s =
      match ((StatisticsBackend.tflite s.peakAllocation
        ⟨s.targetInferenceStep, s.targetInferenceStepTimestamp⟩).runtimeGetStatistics
          statisticsBufferSize).apply statisticsBuffer statisticsSize with
      | (status, buffer, size) => (status, buffer, size, s) := by
  rw [StatisticsBackend.runtimeGetStatistics, getStatistics_apply, Tflite.runtimeGetStatistics]
  have hsize : (StatisticsBackend.tflite s.peakAllocation
      ⟨s.targetInferenceStep, s.targetInferenceStepTimestamp⟩).statsSize =
        sizeofRuntimeStatistic*2 := rfl
  rw [hsize]
  simp only
  split <;> rfl

theorem emlearn_runtimeGetStatistics {C D n : ℕ} {E : Type} (statisticsBufferSize : ℕ)
    (statisticsBuffer : Buffer n) (statisticsSize : ℕ) (s : Emlearn C D E) :
    Emlearn.runtimeGetStatistics statisticsBufferSize statisticsBuffer statisticsSize s =
      match ((StatisticsBackend.emlearn s.timeStats).runtimeGetStatistics
          statisticsBufferSize).apply statisticsBuffer statisticsSize with
      | (status, buffer, size) => (status, buffer, size, s) := by
  rw [StatisticsBackend.runtimeGetStatistics, getStatistics_apply, Emlearn.runtimeGetStatistics]
  have hsize : (StatisticsBackend.emlearn s.timeStats).statsSize = 2*sizeofRuntimeStatistic := rfl
  rw [hsize]
  simp only
  split <;> rfl

end KenningRuntime
