import KenningRuntime.Status
import KenningRuntime.Library.Memory

/-! Message loaders (core/loaders.c): where received payloads go. -/
namespace KenningRuntime
open Memory

/-- `struct msg_loader` as the receiver sees it: the operations behind its function pointers and its
`written` field, over the state `W` that holds the loader's data. -/
structure MsgLoader (W : Type) where
  save : W → List UInt8 → Status × W
  reset : W → Status × W
  written : W → ℕ

/-- A loader of a component, as a loader of the whole state. -/
def MsgLoader.lift {W S : Type} (L : Lens W S) (ldr : MsgLoader S) : MsgLoader W where
  save w src := ((ldr.save (L.get w) src).1, L.set w (ldr.save (L.get w) src).2)
  reset w := ((ldr.reset (L.get w)).1, L.set w (ldr.reset (L.get w)).2)
  written w := ldr.written (L.get w)

/-- The data of a buffer loader (`MSG_LOADER_BUF`): the `max_size = C` bytes at `addr` and the count
of those written. A loader's buffer is a static array or an allocation of a 32-bit size, so it is
smaller than 4 GiB. -/
@[ext] structure BufLoader (C : ℕ) where
  mem : List UInt8
  written : ℕ
  mem_length : mem.length = C
  written_le : written ≤ C
  capacity_lt : C < 2^32

namespace BufLoader

variable {C : ℕ}

/-- The bytes `[0, written)`. -/
def stored (l : BufLoader C) : List UInt8 := l.mem.take l.written

/-- `memcpy` to `addr + written`, then `written += n`. -/
def append (l : BufLoader C) (src : List UInt8) (h : l.written+src.length ≤ C) : BufLoader C where
  mem := splice l.mem l.written src
  written := l.written+src.length
  mem_length := by rw [length_splice (by rw [l.mem_length]; exact h), l.mem_length]
  written_le := h
  capacity_lt := l.capacity_lt

@[simp] theorem length_stored (l : BufLoader C) : l.stored.length = l.written := by
  rw [stored, List.length_take, l.mem_length, min_eq_left l.written_le]

theorem written_of_stored {l : BufLoader C} {xs : List UInt8} (h : l.stored = xs) :
    l.written = xs.length := by
  rw [← h, length_stored]

@[simp] theorem stored_append (l : BufLoader C) (src : List UInt8) (h : l.written+src.length ≤ C) :
    (l.append src h).stored = l.stored ++ src :=
  take_splice (by rw [l.mem_length]; exact h)

@[simp] theorem written_append (l : BufLoader C) (src : List UInt8) (h : l.written+src.length ≤ C) :
    (l.append src h).written = l.written+src.length := rfl

@[simp] theorem written_mod (l : BufLoader C) : l.written%2^32 = l.written :=
  Nat.mod_eq_of_lt (l.written_le.trans_lt l.capacity_lt)

theorem mem_of_full (l : BufLoader C) (h : l.written = C) : l.mem = l.stored :=
  (List.take_of_length_le (by rw [l.mem_length, h])).symm

end BufLoader

theorem length_zeros (n : ℕ) : (List.replicate n (0 : UInt8)).length = n := List.length_replicate

/-- A buffer as the linker lays it out. -/
def emptyBuffer (C : ℕ) (h : C < 2^32) : BufLoader C where
  mem := List.replicate C 0
  written := 0
  mem_length := length_zeros C
  written_le := Nat.zero_le C
  capacity_lt := h

section
variable {C : ℕ}

/-- `buf_save`. The sum does not wrap: both terms are sizes of objects in memory. -/
def bufSave (l : BufLoader C) (src : List UInt8) : Status × BufLoader C :=
  if h : l.written+src.length > C then (loadersStatusNotEnoughMemory, l)
  else (statusOk, l.append src (Nat.not_lt.mp h))

def bufReset (l : BufLoader C) : Status × BufLoader C :=
  (statusOk, {l with written := 0, written_le := Nat.zero_le C})

/-- `MSG_LOADER_BUF`. -/
def msgLoaderBuf (C : ℕ) : MsgLoader (BufLoader C) where
  save := bufSave
  reset := bufReset
  written := BufLoader.written

theorem bufSave_fit (l : BufLoader C) (src : List UInt8) (h : l.written+src.length ≤ C) :
    bufSave l src = (statusOk, l.append src h) := dif_neg (Nat.not_lt.mpr h)

theorem bufSave_full (l : BufLoader C) (src : List UInt8) (h : C < l.written+src.length) :
    bufSave l src = (loadersStatusNotEnoughMemory, l) := dif_pos h

@[simp] theorem bufReset_written (l : BufLoader C) : (bufReset l).2.written = 0 := rfl
@[simp] theorem bufReset_mem (l : BufLoader C) : (bufReset l).2.mem = l.mem := rfl
@[simp] theorem bufReset_stored (l : BufLoader C) : (bufReset l).2.stored = [] := rfl

end

end KenningRuntime
