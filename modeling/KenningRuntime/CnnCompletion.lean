import KenningRuntime.Library.Trace
import KenningRuntime.Library.Transition
import KenningRuntime.RuntimeAi8x

/-! When an inference on the accelerator counts as done: runs of inferences, with the interrupt of
the accelerator wherever it comes. -/
namespace KenningRuntime
open Transition Trace

namespace Ai8x

/-- What is recorded of a run: the calls of `cnn_start` and of `cnn_isr`, the time that was waited,
and what `runtime_run_model` has returned. -/
inductive CnnEvent where
  | start
  | isr
  | sleep (ms : ℕ)
  | returned (status : Status)
deriving DecidableEq

/-- `cnn_done`, and the schedule of the interrupt: for each of the calls of hardware or kernel that
follow, whether `cnn_isr` runs before the next of them. Behind the end of the list it does not. -/
structure Cnn where
  cnnDone : Bool
  schedule : List Bool
  events : List CnnEvent

namespace Cnn

def cnnIsr (e : Cnn) : Cnn := {e with cnnDone := true, events := e.events ++ [.isr]}

/-- The interrupt, if it is its time. There is none before the first `cnn_start`. -/
def tick (e : Cnn) : Cnn :=
  let rest := {e with schedule := e.schedule.tail}
  if e.schedule.head? = some true ∧ .start ∈ e.events then rest.cnnIsr else rest

/-- `cnn_start` writes registers only: `cnn_done` is left as it is. -/
def cnnStart (e : Cnn) : Cnn := tick {e with events := e.events ++ [.start]}

def kMsleep (ms : ℕ) (e : Cnn) : Cnn := tick {e with events := e.events ++ [.sleep ms]}

end Cnn

/-- The accelerator with this schedule, for a timeout of the configuration. Inferences are not
measured here. -/
def cnnHardware (timeoutMs : ℕ) : CnnHardware Cnn where
  cnnTimeoutMs := timeoutMs
  cnnSetClock _ _ := Cnn.tick
  cnnStart := Cnn.cnnStart
  cnnDone := Cnn.cnnDone
  kMsleep := Cnn.kMsleep
  cycles _ := 0
  cycToNs := id

/-- What can happen next: the interrupt, between two inferences, or an inference with its schedule. -/
inductive CnnLabel where
  | cnnIsr
  | runtimeRunModel (schedule : List Bool)

def cnnStep (timeoutMs : ℕ) (s : State Cnn) : CnnLabel → Option (State Cnn)
  | .cnnIsr =>
    if .start ∈ s.hardware.events then some {s with hardware := s.hardware.cnnIsr} else none
  | .runtimeRunModel schedule =>
    match runtimeRunModel (cnnHardware timeoutMs) {s with hardware := {s.hardware with schedule}} with
    | (status, s) => some {s with hardware := {s.hardware with
        schedule := []
        events := s.hardware.events ++ [.returned status] }}

/-- Nothing was started yet, and `cnn_done` is zero as every static variable. -/
def cnnInitial : State Cnn := ⟨⟨0, 0⟩, ⟨false, [], []⟩⟩

/-! ### What the record has to look like -/

/-- How many inferences were started, and whose output is in the accelerator: that of the inference
that ran when the interrupt came last. -/
def inferences (events : List CnnEvent) : ℕ × Option ℕ :=
  events.foldl (fun s e => match e with
    | .start => (s.1+1, s.2)
    | .isr => (s.1, some s.1)
    | .sleep _ | .returned _ => s) (0, none)

def waitedSinceStart (events : List CnnEvent) : ℕ :=
  events.foldl (fun waited e => match e with
    | .start => 0
    | .sleep ms => waited+ms
    | .isr | .returned _ => waited) 0

/-- The interrupt has come since the last start. -/
def Completed : List CnnEvent → Prop := Since (· = .isr) (· = .start)

/-- An inference succeeds only if it has completed, so that its own output is read, and fails only
behind the timeout. -/
def Justified (timeoutMs : ℕ) (before : List CnnEvent) : CnnEvent → Prop
  | .returned status =>
    status = statusOk ∧ Completed before ∧ (inferences before).2 = some (inferences before).1 ∨
      status = Module.runtimeWrapper.statusError ∧ timeoutMs < waitedSinceStart before
  | .start | .isr | .sleep _ => True

/-- The accelerator as an inference with this schedule finds it at its `cnn_start`. -/
def atStart (s : State Cnn) (schedule : List Bool) : Cnn := Cnn.tick {s.hardware with schedule}

/-- The flag is clear at the start of an inference, or the interrupt comes between the start and the
first look at the flag, or right behind that look. -/
def FlagIsItsOwn (s : State Cnn) : CnnLabel → Prop
  | .cnnIsr => True
  | .runtimeRunModel schedule =>
    (atStart s schedule).cnnDone = false ∨ schedule[1]? = some true ∨ schedule[2]? = some true

/-! ### The record -/

section
variable {timeoutMs : ℕ} {events : List CnnEvent} {e : Cnn}

theorem inferences_concat_ne {f : CnnEvent} (h : f ≠ .start) (h' : f ≠ .isr) (events : List CnnEvent) :
    inferences (events ++ [f]) = inferences events := by
  rw [inferences, List.foldl_concat]
  cases f with
  | start => exact absurd rfl h
  | isr => exact absurd rfl h'
  | sleep | returned => rfl

theorem waitedSinceStart_concat_sleep (events : List CnnEvent) (ms : ℕ) :
    waitedSinceStart (events ++ [.sleep ms]) = waitedSinceStart events+ms := by
  rw [waitedSinceStart, List.foldl_concat]
  rfl

theorem waitedSinceStart_concat_isr (events : List CnnEvent) :
    waitedSinceStart (events ++ [.isr]) = waitedSinceStart events := by
  rw [waitedSinceStart, List.foldl_concat]
  rfl

/-- An interrupt that came since the last start completes the inference that was started last. -/
theorem Completed.output (h : Completed events) : (inferences events).2 = some (inferences events).1 := by
  obtain ⟨before, e, after, hevents, he, hafter⟩ := h
  subst hevents he
  -- What comes behind the interrupt, without a start, leaves both numbers equal.
  induction after using List.reverseRecOn with
  | nil =>
    rw [inferences, List.foldl_concat]
  | append_singleton after f ih =>
    have hf : f ≠ .start := hafter f (List.mem_append_right _ (List.mem_singleton_self f))
    have hrest := ih fun f hf => hafter f (List.mem_append_left _ hf)
    have hsplit : before ++ .isr :: (after ++ [f]) = (before ++ .isr :: after) ++ [f] := by
      rw [List.append_assoc, List.cons_append]
    rw [hsplit]
    by_cases hisr : f = .isr
    · subst hisr
      rw [inferences, List.foldl_concat]
    · rw [inferences_concat_ne hf hisr]
      exact hrest

theorem Completed.not_start (events : List CnnEvent) : ¬ Completed (events ++ [.start]) := by
  rintro ⟨before, e, after, hevents, he, hafter⟩
  subst he
  rcases List.eq_nil_or_concat after with rfl | ⟨after, f, rfl⟩
  · obtain ⟨-, hlast⟩ := List.append_inj' hevents rfl
    exact absurd hlast (by decide)
  · have hevents' : events ++ [.start] = (before ++ .isr :: after) ++ [f] := by
      rw [hevents, List.concat_eq_append, List.append_assoc, List.cons_append]
    obtain ⟨-, hlast⟩ := List.append_inj' hevents' rfl
    refine hafter f ?_ (List.singleton_injective hlast).symm
    rw [List.concat_eq_append]
    exact List.mem_append_right _ (List.mem_singleton_self f)

/-! ### One call of the hardware -/

/-- The record is in order, and a flag that is set says that the inference has completed. -/
structure Cnn.Sound (timeoutMs : ℕ) (e : Cnn) : Prop where
  justified : Always (Justified timeoutMs) e.events
  flag : e.cnnDone = true → Completed e.events

namespace Cnn

/-- What an instant can change. -/
theorem tick_cases (e : Cnn) :
    e.tick = {e with schedule := e.schedule.tail} ∨
      e.schedule.head? = some true ∧ e.tick = {e.cnnIsr with schedule := e.schedule.tail} := by
  rw [tick]
  split
  · next h => exact .inr ⟨h.1, rfl⟩
  · exact .inl rfl

theorem completed_isr (e : Cnn) : Completed e.cnnIsr.events := Since.last e.events rfl

theorem justified_isr (h : Always (Justified timeoutMs) e.events) :
    Always (Justified timeoutMs) e.cnnIsr.events := h.concat trivial

theorem justified_tick (h : Always (Justified timeoutMs) e.events) :
    Always (Justified timeoutMs) e.tick.events := by
  rcases e.tick_cases with htick | ⟨-, htick⟩
  · rw [htick]
    exact h
  · rw [htick]
    exact justified_isr h

theorem completed_tick (h : Completed e.events) : Completed e.tick.events := by
  rcases e.tick_cases with htick | ⟨-, htick⟩
  · rw [htick]
    exact h
  · rw [htick]
    exact e.completed_isr

theorem waited_tick (e : Cnn) : waitedSinceStart e.tick.events = waitedSinceStart e.events := by
  rcases e.tick_cases with htick | ⟨-, htick⟩
  · rw [htick]
  · rw [htick]
    exact waitedSinceStart_concat_isr e.events

theorem Sound.tick (h : e.Sound timeoutMs) : e.tick.Sound timeoutMs := by
  refine ⟨justified_tick h.justified, ?_⟩
  intro hdone
  rcases e.tick_cases with htick | ⟨-, htick⟩
  · rw [htick] at hdone ⊢
    exact h.flag hdone
  · rw [htick]
    exact e.completed_isr

theorem Sound.kMsleep (h : e.Sound timeoutMs) (ms : ℕ) : (e.kMsleep ms).Sound timeoutMs := by
  have hsleep : Cnn.Sound timeoutMs {e with events := e.events ++ [.sleep ms]} := by
    refine ⟨h.justified.concat trivial, ?_⟩
    intro hdone
    exact (h.flag hdone).concat (CnnEvent.noConfusion ·)
  exact hsleep.tick

theorem waited_kMsleep (ms : ℕ) (e : Cnn) :
    waitedSinceStart (e.kMsleep ms).events = waitedSinceStart e.events+ms := by
  rw [Cnn.kMsleep, waited_tick, waitedSinceStart_concat_sleep]

end Cnn

/-! ### One inference -/

/-- The loop of `cnn_wait`: it ends with the flag set, or behind the timeout. -/
theorem cnnWaitLoop_spec (left : ℕ) {e : Cnn} (h : e.Sound timeoutMs) {done : Bool} {e' : Cnn}
    (hwait : cnnWaitLoop (cnnHardware timeoutMs) left e = (done, e')) :
    e'.Sound timeoutMs ∧ (done = true → Completed e'.events) ∧
      (done = false → waitedSinceStart e'.events = waitedSinceStart e.events+(left+1)) := by
  -- The induction is on the time that is left.
  induction left generalizing e with
  | zero =>
    rw [cnnWaitLoop] at hwait
    split at hwait
    · next hdone =>
      cases hwait
      exact ⟨h, fun _ => h.flag hdone, nofun⟩
    · cases hwait
      exact ⟨h.kMsleep 1, nofun, fun _ => e.waited_kMsleep 1⟩
  | succ left ih =>
    rw [cnnWaitLoop] at hwait
    split at hwait
    · next hdone =>
      cases hwait
      exact ⟨h, fun _ => h.flag hdone, nofun⟩
    · obtain ⟨hsound, hok, htimeout⟩ := ih (h.kMsleep 1) hwait
      refine ⟨hsound, hok, ?_⟩
      intro hdone
      have hslept : waitedSinceStart (e.kMsleep 1).events = waitedSinceStart e.events+1 :=
        e.waited_kMsleep 1
      have hrest : waitedSinceStart e'.events = waitedSinceStart (e.kMsleep 1).events+(left+1) :=
        htimeout hdone
      omega

/-- A flag that is set already ends the wait at once. -/
theorem cnnWait_done (timeoutMs : ℕ) (h : e.cnnDone = true) :
    cnnWait (cnnHardware timeoutMs) e = (true, e) := by
  rw [cnnWait]
  cases (cnnHardware timeoutMs).cnnTimeoutMs with
  | zero => exact if_pos h
  | succ left => exact if_pos h

namespace Cnn

theorem tick_isr (h : e.schedule.head? = some true) (hstart : .start ∈ e.events) :
    e.tick = {e.cnnIsr with schedule := e.schedule.tail} := if_pos ⟨h, hstart⟩

theorem tick_none (h : e.schedule.head? ≠ some true) :
    e.tick = {e with schedule := e.schedule.tail} := if_neg fun hand => h hand.1

theorem tick_schedule (e : Cnn) : e.tick.schedule = e.schedule.tail := by
  rcases e.tick_cases with htick | ⟨-, htick⟩
  · rw [htick]
  · rw [htick]

/-- A start is sound if the flag is clear, or the interrupt comes at once. -/
theorem Sound.cnnStart (h : Always (Justified timeoutMs) e.events)
    (hflag : e.cnnDone = false ∨ e.schedule.head? = some true) : e.cnnStart.Sound timeoutMs := by
  have hstart : Always (Justified timeoutMs) (e.events ++ [.start]) := h.concat trivial
  rw [Cnn.cnnStart]
  rcases hflag with hclear | hisr
  · have hsound : Cnn.Sound timeoutMs {e with events := e.events ++ [.start]} := by
      refine ⟨hstart, ?_⟩
      intro hdone
      rw [hclear] at hdone
      cases hdone
    exact hsound.tick
  · have hmem : .start ∈ e.events ++ [.start] := List.mem_append_right _ (List.mem_singleton_self _)
    rw [tick_isr (e := {e with events := e.events ++ [.start]}) hisr hmem]
    exact ⟨justified_isr hstart, fun _ => completed_isr _⟩

end Cnn

theorem runtimeRunModel_eq {E : Type} (H : CnnHardware E) {s : State E} {done : Bool} {e : E}
    (h : cnnWait H (H.cnnStart (H.cnnSetClock 4 3 s.hardware)) = (done, e)) :
    runtimeRunModel H s = (if done then statusOk else Module.runtimeWrapper.statusError,
      {s with hardware := H.cnnSetClock 1 3 e}) := by
  rw [runtimeRunModel, h]

/-- What is recorded of an inference. -/
theorem cnnStep_events (s : State Cnn) {schedule : List Bool} {done : Bool} {e : Cnn}
    (h : cnnWait (cnnHardware timeoutMs) (atStart s schedule).cnnStart = (done, e)) :
    ∃ s', cnnStep timeoutMs s (.runtimeRunModel schedule) = some s' ∧
      s'.hardware.events = e.tick.events ++
        [.returned (if done then statusOk else Module.runtimeWrapper.statusError)] := by
  have hrun := runtimeRunModel_eq (cnnHardware timeoutMs)
    (s := {s with hardware := {s.hardware with schedule}}) h
  refine ⟨_, by rw [cnnStep, hrun], rfl⟩

/-! ### Runs -/

/-- The record of a run is in order. -/
def RecordInOrder (timeoutMs : ℕ) (s : State Cnn) : Prop := Always (Justified timeoutMs) s.hardware.events

theorem schedule_tail (schedule : List Bool) :
    schedule.tail.head? = schedule[1]? ∧ schedule.tail.tail.head? = schedule[2]? := by
  refine ⟨?_, ?_⟩
  · rw [List.head?_eq_getElem?, List.getElem?_tail]
  · rw [List.head?_eq_getElem?, List.getElem?_tail, List.getElem?_tail]

theorem cnnStep_isr {s s' : State Cnn} (h : RecordInOrder timeoutMs s)
    (hs : cnnStep timeoutMs s .cnnIsr = some s') : RecordInOrder timeoutMs s' := by
  rw [cnnStep] at hs
  split at hs
  · cases hs
    exact Cnn.justified_isr h
  · cases hs

/-- An inference whose flag is set before its start, and without the interrupt before the first look:
it succeeds. -/
theorem cnnStep_stale (timeoutMs : ℕ) (s : State Cnn) {schedule : List Bool}
    (hdone : (atStart s schedule).cnnDone = true) (hnone : schedule[1]? ≠ some true) :
    ∃ (e : Cnn) (s' : State Cnn), e.schedule.head? = schedule[2]? ∧
      e.events = (atStart s schedule).events ++ [.start] ∧
      cnnStep timeoutMs s (.runtimeRunModel schedule) = some s' ∧
      s'.hardware.events = e.tick.events ++ [.returned statusOk] := by
  have hschedule : (atStart s schedule).schedule = schedule.tail := Cnn.tick_schedule _
  obtain ⟨htail, htail'⟩ := schedule_tail schedule
  have hstart : (atStart s schedule).cnnStart = {atStart s schedule with
      schedule := (atStart s schedule).schedule.tail
      events := (atStart s schedule).events ++ [.start] } := by
    rw [Cnn.cnnStart, Cnn.tick_none]
    rwa [hschedule, htail]
  have hwait := cnnWait_done timeoutMs (e := (atStart s schedule).cnnStart)
    (by rw [hstart]; exact hdone)
  obtain ⟨s', hs', hevents⟩ := cnnStep_events s hwait
  refine ⟨(atStart s schedule).cnnStart, s', ?_, ?_, hs', hevents⟩
  · rw [hstart, ← htail', hschedule]
  · rw [hstart]

theorem justified_atStart {s : State Cnn} (h : RecordInOrder timeoutMs s) (schedule : List Bool) :
    Always (Justified timeoutMs) (atStart s schedule).events :=
  Cnn.justified_tick (e := {s.hardware with schedule}) h

theorem cnnStep_own {s s' : State Cnn} {schedule : List Bool} (h : RecordInOrder timeoutMs s)
    (hown : (atStart s schedule).cnnDone = false ∨ schedule[1]? = some true)
    (hs : cnnStep timeoutMs s (.runtimeRunModel schedule) = some s') : RecordInOrder timeoutMs s' := by
  have hschedule : (atStart s schedule).schedule = schedule.tail := Cnn.tick_schedule _
  have hsound : (atStart s schedule).cnnStart.Sound timeoutMs := by
    apply Cnn.Sound.cnnStart (justified_atStart h schedule)
    rwa [hschedule, (schedule_tail schedule).1]
  rcases hwait : cnnWait (cnnHardware timeoutMs) (atStart s schedule).cnnStart with ⟨done, e⟩
  obtain ⟨hsound', hok, htimeout⟩ := cnnWaitLoop_spec timeoutMs hsound hwait
  obtain ⟨s₁, hs₁, hevents⟩ := cnnStep_events s hwait
  obtain rfl := Option.some.inj (hs₁.symm.trans hs)
  rw [RecordInOrder, hevents]
  refine (Cnn.justified_tick hsound'.justified).concat ?_
  cases done with
  | true =>
    have hdone : Completed e.tick.events := Cnn.completed_tick (hok rfl)
    exact .inl ⟨rfl, hdone, hdone.output⟩
  | false =>
    refine .inr ⟨rfl, ?_⟩
    have hwaited := htimeout rfl
    rw [Cnn.waited_tick]
    omega

/-- The interrupt right behind the first look saves an inference whose flag was set before. -/
theorem cnnStep_late {s s' : State Cnn} {schedule : List Bool} (h : RecordInOrder timeoutMs s)
    (hdone : (atStart s schedule).cnnDone = true) (hnone : schedule[1]? ≠ some true)
    (hlate : schedule[2]? = some true)
    (hs : cnnStep timeoutMs s (.runtimeRunModel schedule) = some s') : RecordInOrder timeoutMs s' := by
  obtain ⟨e, s₁, hhead, hevents, hs₁, hevents'⟩ := cnnStep_stale timeoutMs s hdone hnone
  obtain rfl := Option.some.inj (hs₁.symm.trans hs)
  have hmem : .start ∈ e.events := by
    rw [hevents]
    exact List.mem_append_right _ (List.mem_singleton_self _)
  have hcompleted : Completed e.tick.events := by
    rw [Cnn.tick_isr (hhead.trans hlate) hmem]
    exact e.completed_isr
  have hjustified : Always (Justified timeoutMs) e.events := by
    rw [hevents]
    exact (justified_atStart h schedule).concat trivial
  rw [RecordInOrder, hevents']
  exact (Cnn.justified_tick hjustified).concat (.inl ⟨rfl, hcompleted, hcompleted.output⟩)

/-- Otherwise the inference succeeds without an interrupt since its start. -/
theorem cnnStep_not_justified (timeoutMs : ℕ) {s : State Cnn} {schedule : List Bool}
    (hg : ¬ FlagIsItsOwn s (.runtimeRunModel schedule)) :
    ∃ s', cnnStep timeoutMs s (.runtimeRunModel schedule) = some s' ∧ ¬ RecordInOrder timeoutMs s' := by
  simp only [FlagIsItsOwn, not_or, Bool.not_eq_false] at hg
  obtain ⟨hdone, hnone, hnone'⟩ := hg
  obtain ⟨e, s', hhead, hevents, hs', hevents'⟩ := cnnStep_stale timeoutMs s hdone hnone
  refine ⟨s', hs', ?_⟩
  intro h
  have htick : e.tick.events = e.events := by
    rw [Cnn.tick_none]
    rwa [hhead]
  rw [RecordInOrder, hevents', htick, hevents] at h
  rcases h _ _ [] rfl with ⟨-, hcompleted, -⟩ | ⟨hstatus, -⟩
  · exact Completed.not_start _ hcompleted
  · exact absurd hstatus.symm (status_ne_ok _ (by decide))

/-- The record of a run is in order exactly if every inference of the run has a flag of its own. -/
theorem run_completion_iff (timeoutMs : ℕ) (ls : List CnnLabel) :
    (∀ p s, p <+: ls → Reaches (cnnStep timeoutMs) cnnInitial p s → RecordInOrder timeoutMs s) ↔
      Guarded (cnnStep timeoutMs) FlagIsItsOwn cnnInitial ls := by
  have hinit : RecordInOrder timeoutMs cnnInitial := always_nil
  refine always_iff_guarded ?_ hinit ls
  intro s l h
  cases l with
  | cnnIsr => exact ⟨fun _ => trivial, fun _ s' hs => cnnStep_isr h hs⟩
  | runtimeRunModel schedule =>
    constructor
    · intro hkeep
      by_contra hg
      obtain ⟨s', hs', hnot⟩ := cnnStep_not_justified timeoutMs hg
      exact hnot (hkeep s' hs')
    · intro hg s' hs
      by_cases hown : (atStart s schedule).cnnDone = false ∨ schedule[1]? = some true
      · exact cnnStep_own h hown hs
      · rw [not_or, Bool.not_eq_false] at hown
        obtain ⟨hdone, hnone⟩ := hown
        have hlate : schedule[2]? = some true :=
          (hg.resolve_left (ne_true_of_eq_false · |>.elim hdone)).resolve_left hnone
        exact cnnStep_late h hdone hnone hlate hs

end

/-- The first inference is completed while it is waited for, the second one never: it succeeds all
the same, with the output of the first. -/
theorem run_completion_stale :
    ∃ s, Reaches (cnnStep 1000) cnnInitial
        [.runtimeRunModel [false, false, true], .runtimeRunModel []] s ∧
      s.hardware.events = [.start, .sleep 1, .isr, .returned statusOk, .start, .returned statusOk] ∧
      inferences s.hardware.events = (2, some 1) ∧ ¬ RecordInOrder 1000 s := by
  obtain ⟨s, hs, hevents⟩ := exists_reaches
    (p := fun s => s.hardware.events =
      [.start, .sleep 1, .isr, .returned statusOk, .start, .returned statusOk])
    (show (run (cnnStep 1000) cnnInitial
      [.runtimeRunModel [false, false, true], .runtimeRunModel []]).any _ = true by decide)
  rw [decide_eq_true_eq] at hevents
  refine ⟨s, hs, hevents, by rw [hevents]; rfl, ?_⟩
  intro h
  rw [RecordInOrder, hevents] at h
  rcases h [.start, .sleep 1, .isr, .returned statusOk, .start] _ [] rfl with
    ⟨-, hcompleted, -⟩ | ⟨hstatus, -⟩
  · exact Completed.not_start [.start, .sleep 1, .isr, .returned statusOk] hcompleted
  · exact absurd hstatus.symm (status_ne_ok _ (by decide))

end Ai8x

end KenningRuntime
