import Mathlib.Tactic

/-! Counted loops whose body may fault, arrays of signed integers that such loops read and write, and
signed arithmetic that faults where C leaves the result undefined. -/
namespace CountedLoops

/-! ### Loops -/

section
variable {σ ι κ : Type}

/-- `for (i = 0; i < n; ++i) body`; `none` if a round faults. -/
def forRange : ℕ → σ → (ℕ → σ → Option σ) → Option σ
  | 0, s, _ => some s
  | n+1, s, body => (forRange n s body).bind (body n)

/-- The same for the elements of a list. -/
def forEach : List ι → σ → (ι → σ → Option σ) → Option σ
  | [], s, _ => some s
  | i :: l, s, body => (body i s).bind fun s => forEach l s body

theorem forEach_append (l l' : List ι) (s : σ) (body : ι → σ → Option σ) :
    forEach (l ++ l') s body = (forEach l s body).bind fun s => forEach l' s body := by
  induction l generalizing s with
  | nil => rfl
  | cons i l ih =>
    rw [List.cons_append, forEach, forEach, Option.bind_assoc]
    congr 1
    funext s
    exact ih s

theorem forRange_eq_forEach (n : ℕ) (s : σ) (body : ℕ → σ → Option σ) :
    forRange n s body = forEach (List.range n) s body := by
  induction n with
  | zero => rfl
  | succ n ih =>
    have hlast : (fun s => forEach [n] s body) = body n := by
      funext s
      rw [forEach]
      exact Option.bind_fun_some (body n s)
    rw [List.range_succ, forEach_append, forRange, ih, hlast]

/-- A nest of loops is a loop over pairs. -/
theorem forEach_forEach (l : List ι) (l' : List κ) (s : σ) (body : ι → κ → σ → Option σ) :
    forEach l s (fun i s => forEach l' s (body i)) =
      forEach (l ×ˢ l') s fun p => body p.1 p.2 := by
  have hmap (i : ι) (s : σ) :
      forEach l' s (body i) = forEach (l'.map (Prod.mk i)) s fun p => body p.1 p.2 := by
    induction l' generalizing s with
    | nil => rfl
    | cons j l' ih =>
      rw [List.map_cons, forEach, forEach]
      congr 1
      funext s
      exact ih s
  induction l generalizing s with
  | nil => rfl
  | cons i l ih =>
    rw [List.product_cons, forEach_append, forEach, hmap]
    congr 1
    funext s
    exact ih s

theorem forEach_congr {l : List ι} {s : σ} {body body' : ι → σ → Option σ}
    (h : ∀ i ∈ l, ∀ s, body i s = body' i s) : forEach l s body = forEach l s body' := by
  induction l generalizing s with
  | nil => rfl
  | cons i l ih =>
    rw [List.forall_mem_cons] at h
    rw [forEach, forEach, h.1]
    congr 1
    funext s
    exact ih h.2

theorem forRange_congr {n : ℕ} {s : σ} {body body' : ℕ → σ → Option σ}
    (h : ∀ i < n, ∀ s, body i s = body' i s) : forRange n s body = forRange n s body' := by
  rw [forRange_eq_forEach, forRange_eq_forEach]
  apply forEach_congr
  intro i hi
  exact h i (List.mem_range.mp hi)

/-- What holds before the loop and is kept by each round, with the rounds that are done, holds behind
the loop. -/
theorem forEach_invariant {l : List ι} {s : σ} {body : ι → σ → Option σ} (P : List ι → σ → Prop)
    (hstart : P [] s)
    (hround : ∀ before i after s, l = before ++ i :: after → P before s →
      ∃ s', body i s = some s' ∧ P (before ++ [i]) s') :
    ∃ s', forEach l s body = some s' ∧ P l s' := by
  -- The induction is on the rounds that are left.
  have hrest (before rest : List ι) (s : σ) (hl : l = before ++ rest) (hP : P before s) :
      ∃ s', forEach rest s body = some s' ∧ P l s' := by
    induction rest generalizing before s with
    | nil =>
      rw [List.append_nil] at hl
      exact ⟨s, rfl, hl ▸ hP⟩
    | cons i rest ih =>
      obtain ⟨s', hbody, hP'⟩ := hround before i rest s hl hP
      have hl' : l = (before ++ [i]) ++ rest := by
        rw [hl, List.append_assoc, List.singleton_append]
      obtain ⟨s'', hforEach, hend⟩ := ih (before ++ [i]) s' hl' hP'
      refine ⟨s'', ?_, hend⟩
      rw [forEach, hbody]
      exact hforEach
  exact hrest [] l s rfl hstart

end

/-! ### Arrays -/

/-- An array of signed integers of `w` bits. -/
structure IntArray (w : ℕ) where
  size : ℕ
  elem : ℕ → BitVec w

namespace IntArray

variable {w : ℕ} {ι : Type}

/-- The value of an element. -/
def val (a : IntArray w) (i : ℕ) : ℤ := (a.elem i).toInt

/-- A read of an element; `none` if it is outside of the array. -/
def get (a : IntArray w) (i : ℕ) : Option ℤ := if i < a.size then some (a.val i) else none

/-- The array with another element, converted to its width. -/
def put (a : IntArray w) (i : ℕ) (v : ℤ) : IntArray w :=
  {a with elem := Function.update a.elem i (BitVec.ofInt w v)}

/-- An assignment to an element; `none` if it is outside of the array. -/
def set (a : IntArray w) (i : ℕ) (v : ℤ) : Option (IntArray w) :=
  if i < a.size then some (a.put i v) else none

theorem get_eq {a : IntArray w} {i : ℕ} (h : i < a.size) : a.get i = some (a.val i) := if_pos h

theorem set_eq {a : IntArray w} {i : ℕ} (h : i < a.size) (v : ℤ) : a.set i v = some (a.put i v) :=
  if_pos h

theorem elem_put_self (a : IntArray w) (i : ℕ) (v : ℤ) : (a.put i v).elem i = BitVec.ofInt w v :=
  Function.update_self i _ _

theorem elem_put_ne (a : IntArray w) {i j : ℕ} (h : j ≠ i) (v : ℤ) : (a.put i v).elem j = a.elem j :=
  Function.update_of_ne h _ _

theorem put_put (a : IntArray w) (i : ℕ) (v v' : ℤ) : (a.put i v).put i v' = a.put i v' := by
  simp only [put, Function.update_idem]

/-- The values that an integer of `w` bits can have. -/
def Fits (w : ℕ) (v : ℤ) : Prop := -2^(w-1) ≤ v ∧ v < 2^(w-1)

instance (w : ℕ) (v : ℤ) : Decidable (Fits w v) := inferInstanceAs (Decidable (_ ∧ _))

theorem toInt_ofInt {v : ℤ} (hw : 0 < w) (h : Fits w v) : (BitVec.ofInt w v).toInt = v := by
  obtain ⟨hlow, hhigh⟩ := h
  have hpow : (2 : ℤ)^w = 2*2^(w-1) := by
    rw [← pow_succ', Nat.sub_add_cancel hw]
  rw [BitVec.toInt_ofInt]
  apply Int.bmod_eq_of_le_mul_two
  · push_cast
    omega
  · push_cast
    omega

theorem val_put_self (a : IntArray w) (i : ℕ) {v : ℤ} (hw : 0 < w) (h : Fits w v) :
    (a.put i v).val i = v := by
  rw [val, elem_put_self, toInt_ofInt hw h]

theorem val_fits (a : IntArray w) (i : ℕ) : Fits w (a.val i) :=
  ⟨BitVec.le_toInt (a.elem i), BitVec.toInt_lt⟩

/-- A loop of which each round assigns to an element of its own. -/
theorem forEach_set {l : List ι} {a : IntArray w} {body : ι → IntArray w → Option (IntArray w)}
    {f : ι → ℕ} {v : ι → ℤ} (hnodup : l.Nodup) (hbound : ∀ i ∈ l, f i < a.size)
    (hinj : ∀ i ∈ l, ∀ j ∈ l, f i = f j → i = j)
    (hbody : ∀ i ∈ l, ∀ a' : IntArray w, a'.size = a.size → a'.elem (f i) = a.elem (f i) →
      body i a' = a'.set (f i) (v i)) :
    ∃ a', forEach l a body = some a' ∧ a'.size = a.size ∧
      (∀ i ∈ l, a'.elem (f i) = BitVec.ofInt w (v i)) ∧
      ∀ k, (∀ i ∈ l, f i ≠ k) → a'.elem k = a.elem k := by
  let P (done : List ι) (a' : IntArray w) : Prop :=
    a'.size = a.size ∧ (∀ i ∈ done, a'.elem (f i) = BitVec.ofInt w (v i)) ∧
      ∀ k, (∀ i ∈ done, f i ≠ k) → a'.elem k = a.elem k
  have hstart : P [] a := ⟨rfl, fun _ h => absurd h List.not_mem_nil, fun _ _ => rfl⟩
  apply forEach_invariant P hstart
  intro before i after a' hl hP
  obtain ⟨hsize, hdone, hothers⟩ := hP
  have hi : i ∈ l := by
    rw [hl]
    exact List.mem_append_right before List.mem_cons_self
  have hbefore : ∀ j ∈ before, j ∈ l := by
    intro j hj
    rw [hl]
    exact List.mem_append_left _ hj
  -- The rounds before assigned to other elements.
  have hne : ∀ j ∈ before, f j ≠ f i := by
    intro j hj heq
    have hji : j = i := hinj j (hbefore j hj) i hi heq
    rw [hl, List.nodup_append] at hnodup
    exact hnodup.2.2 j hj i List.mem_cons_self hji
  refine ⟨a'.put (f i) (v i), ?_, hsize, ?_, ?_⟩
  · rw [hbody i hi a' hsize (hothers (f i) hne)]
    exact set_eq (hsize ▸ hbound i hi) (v i)
  · intro j hj
    rcases List.mem_append.mp hj with hj | hj
    · rw [elem_put_ne _ (hne j hj)]
      exact hdone j hj
    · rw [List.mem_singleton.mp hj]
      exact elem_put_self _ _ _
  · intro k hk
    have hki : f i ≠ k := hk i (List.mem_append_right before (List.mem_singleton_self i))
    rw [elem_put_ne _ (Ne.symm hki)]
    exact hothers k fun j hj => hk j (List.mem_append_left _ hj)

/-- The same with the values. -/
theorem forEach_set_val {l : List ι} {a : IntArray w} {body : ι → IntArray w → Option (IntArray w)}
    {f : ι → ℕ} {v : ι → ℤ} (hw : 0 < w) (hnodup : l.Nodup) (hbound : ∀ i ∈ l, f i < a.size)
    (hinj : ∀ i ∈ l, ∀ j ∈ l, f i = f j → i = j) (hfits : ∀ i ∈ l, Fits w (v i))
    (hbody : ∀ i ∈ l, ∀ a' : IntArray w, a'.size = a.size → body i a' = a'.set (f i) (v i)) :
    ∃ a', forEach l a body = some a' ∧ a'.size = a.size ∧ ∀ i ∈ l, a'.val (f i) = v i := by
  obtain ⟨a', hloop, hsize, hset, -⟩ := forEach_set hnodup hbound hinj fun i hi a' hsize _ =>
    hbody i hi a' hsize
  refine ⟨a', hloop, hsize, fun i hi => ?_⟩
  rw [val, hset i hi, toInt_ofInt hw (hfits i hi)]

/-- One loop, two and three. -/
theorem forRange_set {n : ℕ} {a : IntArray w} {body : ℕ → IntArray w → Option (IntArray w)}
    {f : ℕ → ℕ} {v : ℕ → ℤ} (hw : 0 < w) (hbound : ∀ i < n, f i < a.size)
    (hinj : ∀ i < n, ∀ i' < n, f i = f i' → i = i') (hfits : ∀ i < n, Fits w (v i))
    (hbody : ∀ i < n, ∀ a' : IntArray w, a'.size = a.size → a'.val (f i) = a.val (f i) →
      body i a' = a'.set (f i) (v i)) :
    ∃ a', forRange n a body = some a' ∧ a'.size = a.size ∧ (∀ i < n, a'.val (f i) = v i) ∧
      ∀ k, (∀ i < n, f i ≠ k) → a'.val k = a.val k := by
  obtain ⟨a', hloop, hsize, hset, hothers⟩ := @forEach_set w ℕ (List.range n) a body f v List.nodup_range
    (fun i hi => hbound i (List.mem_range.mp hi))
    (fun i hi i' hi' => hinj i (List.mem_range.mp hi) i' (List.mem_range.mp hi'))
    (fun i hi a' hsize helem => hbody i (List.mem_range.mp hi) a' hsize (congrArg BitVec.toInt helem))
  refine ⟨a', (forRange_eq_forEach n a body).trans hloop, hsize, fun i hi => ?_, fun k hk => ?_⟩
  · rw [val, hset i (List.mem_range.mpr hi), toInt_ofInt hw (hfits i hi)]
  · exact congrArg BitVec.toInt (hothers k fun i hi => hk i (List.mem_range.mp hi))

theorem forRange_set_pairs {m n : ℕ} {a : IntArray w}
    {body : ℕ → ℕ → IntArray w → Option (IntArray w)} {f : ℕ → ℕ → ℕ} {v : ℕ → ℕ → ℤ} (hw : 0 < w)
    (hbound : ∀ i < m, ∀ j < n, f i j < a.size)
    (hinj : ∀ i < m, ∀ j < n, ∀ i' < m, ∀ j' < n, f i j = f i' j' → i = i' ∧ j = j')
    (hfits : ∀ i < m, ∀ j < n, Fits w (v i j))
    (hbody : ∀ i < m, ∀ j < n, ∀ a' : IntArray w, a'.size = a.size → body i j a' = a'.set (f i j) (v i j)) :
    ∃ a', forRange m a (fun i a => forRange n a (body i)) = some a' ∧ a'.size = a.size ∧
      ∀ i < m, ∀ j < n, a'.val (f i j) = v i j := by
  simp only [forRange_eq_forEach, forEach_forEach]
  have hmem : ∀ p, p ∈ List.range m ×ˢ List.range n ↔ p.1 < m ∧ p.2 < n := by
    intro p
    rw [List.mem_product, List.mem_range, List.mem_range]
  obtain ⟨a', hloop, hsize, hset⟩ := @forEach_set_val w (ℕ × ℕ) (List.range m ×ˢ List.range n) a
    (fun p => body p.1 p.2) (fun p => f p.1 p.2) (fun p => v p.1 p.2) hw
    (List.nodup_range.product List.nodup_range)
    (by
      intro p hp
      rw [hmem] at hp
      exact hbound p.1 hp.1 p.2 hp.2)
    (by
      intro p hp p' hp' heq
      rw [hmem] at hp hp'
      obtain ⟨hi, hj⟩ := hinj p.1 hp.1 p.2 hp.2 p'.1 hp'.1 p'.2 hp'.2 heq
      exact Prod.ext hi hj)
    (by
      intro p hp
      rw [hmem] at hp
      exact hfits p.1 hp.1 p.2 hp.2)
    (by
      intro p hp
      rw [hmem] at hp
      exact hbody p.1 hp.1 p.2 hp.2)
  exact ⟨a', hloop, hsize, fun i hi j hj => hset (i, j) ((hmem (i, j)).mpr ⟨hi, hj⟩)⟩

/-- The elements in their order, as rows of `n`. -/
theorem forRange_set_rows {m n : ℕ} {a : IntArray w}
    {body : ℕ → ℕ → IntArray w → Option (IntArray w)} {v : ℕ → ℤ} (hw : 0 < w)
    (hsize : m*n ≤ a.size) (hfits : ∀ k < m*n, Fits w (v k))
    (hbody : ∀ i < m, ∀ j < n, ∀ a' : IntArray w, a'.size = a.size →
      body i j a' = a'.set (i*n+j) (v (i*n+j))) :
    ∃ a', forRange m a (fun i a => forRange n a (body i)) = some a' ∧ a'.size = a.size ∧
      ∀ k < m*n, a'.val k = v k := by
  have hlt : ∀ i < m, ∀ j < n, i*n+j < m*n := by
    intro i hi j hj
    calc i*n+j < i*n+n := Nat.add_lt_add_left hj _
      _ = (i+1)*n := (Nat.succ_mul i n).symm
      _ ≤ m*n := Nat.mul_le_mul_right n hi
  have hcoord : ∀ i, ∀ j < n, (i*n+j)/n = i ∧ (i*n+j)%n = j := by
    intro i j hj
    have hn : 0 < n := by omega
    constructor
    · rw [add_comm, Nat.add_mul_div_right j i hn, Nat.div_eq_of_lt hj, zero_add]
    · rw [add_comm, Nat.add_mul_mod_self_right, Nat.mod_eq_of_lt hj]
  have hbound : ∀ i < m, ∀ j < n, i*n+j < a.size := fun i hi j hj => (hlt i hi j hj).trans_le hsize
  have hinj : ∀ i < m, ∀ j < n, ∀ i' < m, ∀ j' < n, i*n+j = i'*n+j' → i = i' ∧ j = j' := by
    intro i _ j hj i' _ j' hj' heq
    obtain ⟨hdiv, hmod⟩ := hcoord i j hj
    rw [heq] at hdiv hmod
    exact ⟨hdiv.symm.trans (hcoord i' j' hj').1, hmod.symm.trans (hcoord i' j' hj').2⟩
  obtain ⟨a', hloop, hsize', hset⟩ := forRange_set_pairs hw hbound hinj
    (fun i hi j hj => hfits _ (hlt i hi j hj)) hbody
  refine ⟨a', hloop, hsize', fun k hk => ?_⟩
  have hn : 0 < n := Nat.pos_of_ne_zero fun h => by
    rw [h, mul_zero] at hk
    exact absurd hk (Nat.not_lt_zero k)
  have hrow : k/n < m := Nat.div_lt_of_lt_mul (by rwa [mul_comm])
  have hk' := hset (k/n) hrow (k%n) (Nat.mod_lt k hn)
  rwa [Nat.div_add_mod'] at hk'

theorem forRange_set_triples {l m n : ℕ} {a : IntArray w}
    {body : ℕ → ℕ → ℕ → IntArray w → Option (IntArray w)} {f : ℕ → ℕ → ℕ → ℕ} {v : ℕ → ℕ → ℕ → ℤ}
    (hw : 0 < w) (hbound : ∀ i < l, ∀ j < m, ∀ k < n, f i j k < a.size)
    (hinj : ∀ i < l, ∀ j < m, ∀ k < n, ∀ i' < l, ∀ j' < m, ∀ k' < n, f i j k = f i' j' k' →
      i = i' ∧ j = j' ∧ k = k')
    (hfits : ∀ i < l, ∀ j < m, ∀ k < n, Fits w (v i j k))
    (hbody : ∀ i < l, ∀ j < m, ∀ k < n, ∀ a' : IntArray w, a'.size = a.size →
      body i j k a' = a'.set (f i j k) (v i j k)) :
    ∃ a', forRange l a (fun i a => forRange m a fun j a => forRange n a (body i j)) = some a' ∧
      a'.size = a.size ∧ ∀ i < l, ∀ j < m, ∀ k < n, a'.val (f i j k) = v i j k := by
  simp only [forRange_eq_forEach, forEach_forEach]
  have hmem : ∀ p, p ∈ List.range l ×ˢ List.range m ×ˢ List.range n ↔
      p.1 < l ∧ p.2.1 < m ∧ p.2.2 < n := by
    intro p
    rw [List.mem_product, List.mem_product, List.mem_range, List.mem_range, List.mem_range]
  obtain ⟨a', hloop, hsize, hset⟩ := @forEach_set_val w (ℕ × ℕ × ℕ)
    (List.range l ×ˢ List.range m ×ˢ List.range n) a (fun p => body p.1 p.2.1 p.2.2)
    (fun p => f p.1 p.2.1 p.2.2) (fun p => v p.1 p.2.1 p.2.2) hw
    (List.nodup_range.product (List.nodup_range.product List.nodup_range))
    (by
      intro p hp
      rw [hmem] at hp
      exact hbound p.1 hp.1 p.2.1 hp.2.1 p.2.2 hp.2.2)
    (by
      intro p hp p' hp' heq
      rw [hmem] at hp hp'
      obtain ⟨hi, hj, hk⟩ := hinj p.1 hp.1 p.2.1 hp.2.1 p.2.2 hp.2.2 p'.1 hp'.1 p'.2.1 hp'.2.1 p'.2.2
        hp'.2.2 heq
      exact Prod.ext hi (Prod.ext hj hk))
    (by
      intro p hp
      rw [hmem] at hp
      exact hfits p.1 hp.1 p.2.1 hp.2.1 p.2.2 hp.2.2)
    (by
      intro p hp
      rw [hmem] at hp
      exact hbody p.1 hp.1 p.2.1 hp.2.1 p.2.2 hp.2.2)
  refine ⟨a', hloop, hsize, fun i hi j hj k hk => ?_⟩
  exact hset (i, j, k) ((hmem (i, j, k)).mpr ⟨hi, hj, hk⟩)

end IntArray

/-! ### Signed arithmetic -/

/-- The result of an operation on integers of `w` bits; `none` if it overflows. -/
def checked (w : ℕ) (v : ℤ) : Option ℤ := if IntArray.Fits w v then some v else none

theorem checked_eq {w : ℕ} {v : ℤ} (h : IntArray.Fits w v) : checked w v = some v := if_pos h

/-- A conversion to `w` bits. -/
def convert (w : ℕ) (v : ℤ) : ℤ := (BitVec.ofInt w v).toInt

theorem convert_eq {w : ℕ} {v : ℤ} (hw : 0 < w) (h : IntArray.Fits w v) : convert w v = v :=
  IntArray.toInt_ofInt hw h

/-- `1 << n` on 64 bits. -/
def oneShiftLeft (n : ℤ) : Option ℤ := if 0 ≤ n ∧ n < 64 then checked 64 (2^n.toNat) else none

/-- `v >> n` on 64 bits, which rounds towards minus infinity. -/
def shiftRight (v n : ℤ) : Option ℤ := if 0 ≤ n ∧ n < 64 then some (v/2^n.toNat) else none

theorem fits_of_abs_lt {w : ℕ} {v : ℤ} (h : |v| < 2^(w-1)) : IntArray.Fits w v := by
  rw [abs_lt] at h
  exact ⟨h.1.le, h.2⟩

/-! ### Sums in the elements of an array -/

section
variable {ι κ : Type}

theorem abs_sum_map_le {l : List ι} {f : ι → ℤ} {C : ℤ} (h : ∀ i ∈ l, |f i| ≤ C) :
    |(l.map f).sum| ≤ l.length*C := by
  induction l with
  | nil => simp only [List.map_nil, List.sum_nil, abs_zero, List.length_nil, Nat.cast_zero, zero_mul,
      le_refl]
  | cons i l ih =>
    rw [List.forall_mem_cons] at h
    have hrest := ih h.2
    have hsum := abs_add_le (f i) (l.map f).sum
    rw [List.map_cons, List.sum_cons, List.length_cons]
    push_cast
    linarith [h.1]

theorem sum_map_range (n : ℕ) (f : ℕ → ℤ) : ((List.range n).map f).sum = ∑ i ∈ Finset.range n, f i := rfl

theorem sum_map_product (l : List ι) (l' : List κ) (f : ι × κ → ℤ) :
    ((l ×ˢ l').map f).sum = (l.map fun i => (l'.map fun j => f (i, j)).sum).sum := by
  induction l with
  | nil => rfl
  | cons i l ih =>
    rw [List.product_cons, List.map_append, List.sum_append, ih, List.map_cons, List.sum_cons,
      List.map_map]
    rfl

/-- Each round adds a term to each of the first `R` elements, which are zero at first. With a bound for
the terms, no sum overflows. -/
theorem forEach_sum {l : List ι} {R : ℕ} {acc : IntArray 32}
    {body : ι → IntArray 32 → Option (IntArray 32)} {t : ι → ℕ → ℤ} {C : ℤ}
    (hzero : ∀ r < R, acc.val r = 0) (ht : ∀ i ∈ l, ∀ r < R, |t i r| ≤ C) (hC : l.length*C < 2^31)
    (hbody : ∀ i ∈ l, ∀ a : IntArray 32, a.size = acc.size →
      (∀ r < R, IntArray.Fits 32 (a.val r+t i r)) →
        ∃ a', body i a = some a' ∧ a'.size = acc.size ∧ ∀ r < R, a'.val r = a.val r+t i r) :
    ∃ acc', forEach l acc body = some acc' ∧ acc'.size = acc.size ∧
      ∀ r < R, acc'.val r = (l.map fun i => t i r).sum := by
  -- The invariant: the elements hold the sums over the rounds that are done.
  let P (done : List ι) (a : IntArray 32) : Prop :=
    a.size = acc.size ∧ ∀ r < R, a.val r = (done.map fun i => t i r).sum
  have hstart : P [] acc := ⟨rfl, hzero⟩
  apply forEach_invariant P hstart
  intro before i after a hl hP
  obtain ⟨hsize, hsum⟩ := hP
  have hi : i ∈ l := by
    rw [hl]
    exact List.mem_append_right before List.mem_cons_self
  have hnext (r : ℕ) : ((before ++ [i]).map fun i => t i r).sum =
      (before.map fun i => t i r).sum+t i r := by
    rw [List.map_append, List.sum_append, List.map_singleton, List.sum_singleton]
  -- The sum with the next term is one over at most as many terms as there are rounds.
  have hfits : ∀ r < R, IntArray.Fits 32 (a.val r+t i r) := by
    intro r hr
    have hterms : ∀ j ∈ before ++ [i], |t j r| ≤ C := by
      intro j hj
      refine ht j ?_ r hr
      rw [hl, List.append_cons]
      exact List.mem_append_left after hj
    have hle := abs_sum_map_le hterms
    have hC0 : 0 ≤ C := (abs_nonneg _).trans (ht i hi r hr)
    have hlen : ((before ++ [i]).length : ℤ)*C ≤ l.length*C := by
      apply mul_le_mul_of_nonneg_right _ hC0
      rw [hl]
      simp only [List.length_append, List.length_cons, List.length_nil]
      omega
    rw [hnext, ← hsum r hr] at hle
    exact fits_of_abs_lt (hle.trans_lt (hlen.trans_lt hC))
  obtain ⟨a', hbodyEq, hsize', hsum'⟩ := hbody i hi a hsize hfits
  refine ⟨a', hbodyEq, hsize', fun r hr => ?_⟩
  rw [hsum' r hr, hsum r hr, hnext]

end

end CountedLoops
