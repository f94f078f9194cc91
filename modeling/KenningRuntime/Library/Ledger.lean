import Mathlib.Order.Bounds.Basic
import Mathlib.Tactic

/-! Accounts of what is handed out and given back: how much of it is out, and the most that ever was. -/
namespace Ledger

variable {β : Type*}

/-- How much the items in a list come to. -/
def held (measure : β → ℕ) (live : List β) : ℕ := (live.map measure).sum

@[simp] theorem held_nil (measure : β → ℕ) : held measure [] = 0 := rfl

@[simp] theorem held_cons (measure : β → ℕ) (b : β) (live : List β) :
    held measure (b :: live) = measure b+held measure live := by
  rw [held, List.map_cons, List.sum_cons, held]

/-- What is given back is what the first item that is found comes to. -/
theorem held_eraseP (measure : β → ℕ) {p : β → Bool} {live : List β} {b : β}
    (h : live.find? p = some b) : held measure (live.eraseP p)+measure b = held measure live := by
  induction live with
  | nil => cases h
  | cons c live ih =>
    cases hc : p c with
    | true =>
      rw [List.find?_cons_of_pos hc] at h
      obtain rfl := Option.some.inj h
      rw [List.eraseP_cons_of_pos hc, held_cons, Nat.add_comm]
    | false =>
      have hne : ¬ p c = true := by
        rw [hc]
        exact Bool.false_ne_true
      rw [List.find?_cons_of_neg hne] at h
      have hrest := ih h
      rw [List.eraseP_cons_of_neg hne, held_cons, held_cons]
      omega

/-- Accounts with `out` handed out now: the two sums differ by it, and `peak` is the most that was out at
any of the times of the history, of which now is one. -/
structure Balanced (allocated freed peak out : ℕ) (history : List ℕ) : Prop where
  net : allocated = freed+out
  now : out ∈ history
  peak : IsGreatest {n | n ∈ history} peak

namespace Balanced

variable {allocated freed peak out out' n : ℕ} {history : List ℕ}

theorem initial : Balanced 0 0 0 0 [0] where
  net := rfl
  now := List.mem_singleton_self 0
  peak := ⟨List.mem_singleton_self 0, fun _ hn => (List.mem_singleton.mp hn).le⟩

theorem freed_le (h : Balanced allocated freed peak out history) : freed ≤ allocated := by
  rw [h.net]
  exact Nat.le_add_right _ _

theorem out_le_peak (h : Balanced allocated freed peak out history) : out ≤ peak := h.peak.2 h.now

/-- One more time at which no more is out than at the peak. -/
theorem record (h : Balanced allocated freed peak out history) {allocated' freed' : ℕ}
    (hnet : allocated' = freed'+out') (hle : out' ≤ peak) :
    Balanced allocated' freed' peak out' (history ++ [out']) := by
  refine ⟨hnet, List.mem_append_right _ (List.mem_singleton_self _),
    List.mem_append_left _ h.peak.1, ?_⟩
  intro m hm
  rcases List.mem_append.mp hm with hm | hm
  · exact h.peak.2 hm
  · rw [List.mem_singleton.mp hm]
    exact hle

/-- What is handed out is counted before it is compared with the peak. -/
theorem allocate (h : Balanced allocated freed peak out history) (n : ℕ) :
    Balanced (allocated+n) freed (max peak (out+n)) (out+n) (history ++ [out+n]) := by
  refine ⟨by rw [h.net, Nat.add_assoc], List.mem_append_right _ (List.mem_singleton_self _), ?_, ?_⟩
  · rcases max_cases peak (out+n) with ⟨hmax, -⟩ | ⟨hmax, -⟩
    · rw [hmax]
      exact List.mem_append_left _ h.peak.1
    · rw [hmax]
      exact List.mem_append_right _ (List.mem_singleton_self _)
  · intro m hm
    rcases List.mem_append.mp hm with hm | hm
    · exact (h.peak.2 hm).trans (le_max_left _ _)
    · rw [List.mem_singleton.mp hm]
      exact le_max_right _ _

theorem release (h : Balanced allocated freed peak out history) (hout : out'+n = out) :
    Balanced allocated (freed+n) peak out' (history ++ [out']) := by
  have hpeak := h.out_le_peak
  have hnet := h.net
  exact h.record (by omega) (by omega)

/-- A time at which nothing has changed. -/
theorem idle (h : Balanced allocated freed peak out history) :
    Balanced allocated freed peak out (history ++ [out]) := h.record h.net h.out_le_peak

end Balanced

end Ledger
