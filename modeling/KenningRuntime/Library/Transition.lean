import Mathlib.Tactic

/-! Runs of a machine that may get stuck, and invariants that hold of a run as
long as each of its steps meets a side condition. -/
namespace Transition

variable {S L : Type*}

/-- `Reaches step s ls t`: taking the steps `ls` one after the other leads from `s` to `t`. -/
inductive Reaches (step : S → L → Option S) : S → List L → S → Prop
  | refl (s : S) : Reaches step s [] s
  | next {s s' t : S} {l : L} {ls : List L} :
      step s l = some s' → Reaches step s' ls t → Reaches step s (l :: ls) t

/-- The state after the steps `ls`; `none` if one of them gets stuck. -/
def run (step : S → L → Option S) : S → List L → Option S
  | s, [] => some s
  | s, l :: ls =>
    match step s l with
    | none => none
    | some s' => run step s' ls

/-- Every step that the run gets to take meets the condition `G`. -/
def Guarded (step : S → L → Option S) (G : S → L → Prop) : S → List L → Prop
  | _, [] => True
  | s, l :: ls => G s l ∧ ∀ s', step s l = some s' → Guarded step G s' ls

/-- Every step that the run gets to take passes the test `p`. -/
def checks (step : S → L → Option S) (p : S → L → Bool) : S → List L → Bool
  | _, [] => true
  | s, l :: ls =>
    p s l &&
      match step s l with
      | none => true
      | some s' => checks step p s' ls

variable {step : S → L → Option S} {G : S → L → Prop} {Inv : S → Prop}

theorem guarded_of_checks {p : S → L → Bool} (hp : ∀ s l, p s l = true → G s l) {s : S}
    {ls : List L} (h : checks step p s ls = true) : Guarded step G s ls := by
  induction ls generalizing s with
  | nil => trivial
  | cons l ls ih =>
    rw [checks, Bool.and_eq_true] at h
    refine ⟨hp s l h.1, ?_⟩
    intro s' hs
    apply ih
    simpa only [hs] using h.2

theorem reaches_of_run {s t : S} {ls : List L} (h : run step s ls = some t) :
    Reaches step s ls t := by
  induction ls generalizing s with
  | nil =>
    cases h
    exact .refl _
  | cons l ls ih =>
    rw [run] at h
    split at h
    · cases h
    · next hs => exact .next hs (ih h)

theorem Reaches.run_eq {s t : S} {ls : List L} (h : Reaches step s ls t) : run step s ls = some t := by
  induction h with
  | refl => rfl
  | next hs _ ih => simpa only [run, hs] using ih

theorem Reaches.append {s t u : S} {ls ls' : List L} (h : Reaches step s ls t)
    (h' : Reaches step t ls' u) : Reaches step s (ls ++ ls') u := by
  induction h with
  | refl => exact h'
  | next hs _ ih => exact .next hs (ih h')

/-- A run that ends in a state with a property, as a test finds it. -/
theorem exists_reaches {p : S → Bool} {s : S} {ls : List L} (h : (run step s ls).any p = true) :
    ∃ t, Reaches step s ls t ∧ p t = true := by
  obtain ⟨t, ht, hp⟩ := Option.any_eq_true _ _ |>.mp h
  exact ⟨t, reaches_of_run ht, hp⟩

theorem Guarded.of_prefix {s : S} {p ls : List L} (h : Guarded step G s ls) (hp : p <+: ls) :
    Guarded step G s p := by
  induction p generalizing s ls with
  | nil => trivial
  | cons l p ih =>
    obtain ⟨rest, rfl⟩ := hp
    exact ⟨h.1, fun s' hs => ih (h.2 s' hs) ⟨rest, rfl⟩⟩

/-- An invariant that every step under the condition keeps holds at the end of a run
whose steps all meet the condition. -/
theorem Reaches.invariant (hstep : ∀ s l s', Inv s → G s l → step s l = some s' → Inv s')
    {s t : S} {ls : List L} (h : Reaches step s ls t) (h0 : Inv s) (hg : Guarded step G s ls) :
    Inv t := by
  induction h with
  | refl => exact h0
  | next hs _ ih => exact ih (hstep _ _ _ h0 hg.1 hs) (hg.2 _ hs)

theorem Reaches.invariant_always (hstep : ∀ s l s', Inv s → step s l = some s' → Inv s')
    {s t : S} {ls : List L} (h : Reaches step s ls t) (h0 : Inv s) : Inv t := by
  induction h with
  | refl => exact h0
  | next hs _ ih => exact ih (hstep _ _ _ h0 hs)

/-- A run stays inside a property exactly if all of its steps meet a condition: the steps that do keep
an invariant that implies the property, and the others break the property at once. -/
theorem always_iff_guarded_of {P : S → Prop} (hP : ∀ s, Inv s → P s)
    (hkeep : ∀ s l s', Inv s → G s l → step s l = some s' → Inv s')
    (hbreak : ∀ s l, Inv s → (∀ s', step s l = some s' → P s') → G s l)
    {s : S} (h0 : Inv s) (ls : List L) :
    (∀ p t, p <+: ls → Reaches step s p t → P t) ↔ Guarded step G s ls := by
  constructor
  · intro h
    induction ls generalizing s with
    | nil => trivial
    | cons l ls ih =>
      -- The runs of one step show the condition on the first step, the longer ones that on the rest.
      have hg : G s l := hbreak s l h0 fun s' hs => h [l] s' ⟨ls, rfl⟩ (.next hs (.refl s'))
      refine ⟨hg, fun s' hs => ih (hkeep s l s' h0 hg hs) ?_⟩
      intro p t hp hr
      exact h (l :: p) t ((List.prefix_cons_inj l).mpr hp) (.next hs hr)
  · intro hall p t hp hr
    exact hP t (hr.invariant hkeep h0 (hall.of_prefix hp))

/-- When a step keeps the invariant exactly if it meets the condition, a run stays inside
the invariant exactly if all of its steps meet the condition. -/
theorem always_iff_guarded
    (hstep : ∀ s l, Inv s → ((∀ s', step s l = some s' → Inv s') ↔ G s l))
    {s : S} (h0 : Inv s) (ls : List L) :
    (∀ p t, p <+: ls → Reaches step s p t → Inv t) ↔ Guarded step G s ls :=
  always_iff_guarded_of (fun _ h => h) (fun s l s' hi hg => (hstep s l hi).mpr hg s')
    (fun s l hi => (hstep s l hi).mp) h0 ls

/-- A machine that never gets stuck gets to take all steps of a run, so a condition on what is done is
met if it is met by every entry. -/
theorem guarded_iff_forall {C : L → Prop}
    (hstep : ∀ s l, Inv s → ∃ s', step s l = some s' ∧ Inv s') {s : S} (h0 : Inv s) (ls : List L) :
    Guarded step (fun _ l => C l) s ls ↔ ∀ l ∈ ls, C l := by
  induction ls generalizing s with
  | nil => exact ⟨fun _ _ hl => absurd hl List.not_mem_nil, fun _ => trivial⟩
  | cons l ls ih =>
    obtain ⟨s', hs, h'⟩ := hstep s l h0
    rw [List.forall_mem_cons]
    constructor
    · intro h
      exact ⟨h.1, (ih h').mp (h.2 s' hs)⟩
    · intro h
      refine ⟨h.1, ?_⟩
      intro t ht
      obtain rfl := Option.some.inj (hs.symm.trans ht)
      exact (ih h').mpr h.2

theorem exists_reaches_of_step (hstep : ∀ s l, Inv s → ∃ s', step s l = some s' ∧ Inv s') {s : S}
    (h0 : Inv s) (ls : List L) : ∃ t, Reaches step s ls t ∧ Inv t := by
  induction ls generalizing s with
  | nil => exact ⟨s, .refl s, h0⟩
  | cons l ls ih =>
    obtain ⟨s', hs, h'⟩ := hstep s l h0
    obtain ⟨t, ht, hinv⟩ := ih h'
    exact ⟨t, .next hs ht, hinv⟩

/-! ### Machines with outputs -/

variable {A O : Type*} {R : A → L → List O → A → Prop}

/-- The runs of a machine that may put something out with each step, and may have a choice. -/
inductive Emits (R : A → L → List O → A → Prop) : A → List L → List O → A → Prop
  | refl (a : A) : Emits R a [] [] a
  | next {a a' a'' : A} {l : L} {ls : List L} {os os' : List O} :
      R a l os a' → Emits R a' ls os' a'' → Emits R a (l :: ls) (os ++ os') a''

/-- Whatever is said of the outputs of every step is said of those of a run. -/
theorem Emits.forall_mem {P : O → Prop} {a a' : A} {ls : List L} {os : List O}
    (h : Emits R a ls os a') (hR : ∀ a l os a', l ∈ ls → R a l os a' → ∀ o ∈ os, P o) :
    ∀ o ∈ os, P o := by
  induction h with
  | refl => exact fun o ho => absurd ho List.not_mem_nil
  | next hs _ ih =>
    intro o ho
    rcases List.mem_append.mp ho with ho | ho
    · exact hR _ _ _ _ List.mem_cons_self hs o ho
    · exact ih (fun a l os a' hl => hR a l os a' (List.mem_cons_of_mem _ hl)) o ho

/-- If every step is one of an abstract machine, related by what was put out so far, so is every
run. -/
theorem exists_emits {Rel : List O → S → A → Prop}
    (hstep : ∀ os s a l, Rel os s a → ∃ s' a' os', step s l = some s' ∧ R a l os' a' ∧
      Rel (os ++ os') s' a') {os : List O} {s : S} {a : A} (h : Rel os s a) (ls : List L) :
    ∃ s' a' os', Reaches step s ls s' ∧ Emits R a ls os' a' ∧ Rel (os ++ os') s' a' := by
  induction ls generalizing os s a with
  | nil => exact ⟨s, a, [], .refl s, .refl a, by rwa [List.append_nil]⟩
  | cons l ls ih =>
    obtain ⟨s₁, a₁, os₁, hs, hR, h₁⟩ := hstep os s a l h
    obtain ⟨s', a', os', hr, he, h'⟩ := ih h₁
    rw [List.append_assoc] at h'
    exact ⟨s', a', os₁ ++ os', .next hs hr, .next hR he, h'⟩

end Transition
