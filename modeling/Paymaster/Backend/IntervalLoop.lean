import Paymaster.Lib.Pool
import Paymaster.Lib.Run

/-!
# Ticks at an interval

A loop ticks once when it is started, and again an interval after each tick has
settled. What its owner does comes in any order: it may start the loop again, or
stop it, while a tick is under way or a timer is armed. Only the last timer can
be cleared.
-/

namespace Paymaster.Interval

/-- What `setTimeout` makes of a delay. -/
def timeoutDelay (intervalMs : Nat) : Nat := if 1 ≤ intervalMs ∧ intervalMs < 2 ^ 31 then intervalMs else 1

structure Timer where
  handle : Nat
  due : Nat
deriving DecidableEq

/-- A `#runOnce`, and the `#schedule` that comes after it. -/
inductive Round
  | ticking
  | settled
deriving DecidableEq

inductive LoopEvent
  | began (time : Nat)
  | settled (time : Nat)
deriving DecidableEq

def LoopEvent.time : LoopEvent → Nat
  | began time => time
  | settled time => time

/-- The loop, with the timers and the promises that the process keeps for it. -/
structure IntervalLoop where
  intervalMs : Nat
  timer : Option Nat
  running : Bool
  stopped : Bool
  now : Nat
  timers : List Timer
  rounds : List Round
  handles : Nat
  starts : Nat
  /-- The last event first. -/
  history : List LoopEvent
deriving DecidableEq

inductive LoopLabel
  | start
  | fire (j : Nat)
  /-- The tick is fulfilled, or rejected with an error that is logged. -/
  | settle (i : Nat) (outcome : Except String Unit)
  | resume (i : Nat)
  | stop
  | wait (ms : Nat)

namespace IntervalLoop

def init (intervalMs : Nat) : IntervalLoop := ⟨intervalMs, none, false, false, 0, [], [], 0, 0, []⟩

variable (s : IntervalLoop)

def runOnce : IntervalLoop :=
  if s.running then { s with rounds := s.rounds ++ [.settled] }
  else { s with running := true, rounds := s.rounds ++ [.ticking], history := .began s.now :: s.history }

def schedule : IntervalLoop :=
  if s.stopped then s
  else
    { s with
      timer := some s.handles
      timers := s.timers ++ [⟨s.handles, s.now + timeoutDelay s.intervalMs⟩]
      handles := s.handles + 1 }

def start : IntervalLoop := { s with stopped := false, starts := s.starts + 1 }.runOnce

def stop : IntervalLoop :=
  match s.timer with
  | none => { s with stopped := true }
  | some handle =>
    { s with stopped := true, timer := none, timers := s.timers.filter fun timer => timer.handle ≠ handle }

def step : LoopLabel → Option IntervalLoop
  | .start => some s.start
  | .fire j =>
    match s.timers[j]? with
    | some timer => if timer.due ≤ s.now then some { s with timers := s.timers.eraseIdx j }.runOnce else none
    | none => none
  | .settle i _ =>
    if s.rounds[i]? = some .ticking then
      some { s with
        running := false
        rounds := s.rounds.set i .settled
        history := .settled s.now :: s.history }
    else none
  | .resume i =>
    if s.rounds[i]? = some .settled then some { s with rounds := s.rounds.eraseIdx i }.schedule else none
  | .stop => some s.stop
  | .wait ms => some { s with now := s.now + ms }

/-- What goes on of the loop: each is a timer that is armed, or a round that has not armed the next. -/
def live : Nat := s.timers.length + s.rounds.length

def ticksBegun : Nat := s.history.countP fun event => match event with
  | .began _ => true
  | .settled _ => false

end IntervalLoop

/-- Ticks one after the other, each at least `gap` after the one before has settled. -/
def Spaced (gap : Nat) : List LoopEvent → Prop
  | [] => True
  | [.began _] => True
  | .began t :: .settled u :: history => u + gap ≤ t ∧ Spaced gap (.settled u :: history)
  | .settled t :: .began u :: history => u ≤ t ∧ Spaced gap (.began u :: history)
  | .began _ :: .began _ :: _ => False
  | .settled _ :: .settled _ :: _ => False
  | [.settled _] => False

inductive LoopStep (s : IntervalLoop) : LoopLabel → IntervalLoop → Prop
  | start : LoopStep s .start s.start
  | fire {j : Nat} {timer : Timer} (htimer : s.timers[j]? = some timer) (hdue : timer.due ≤ s.now) :
      LoopStep s (.fire j) { s with timers := s.timers.eraseIdx j }.runOnce
  | settle {i : Nat} {outcome : Except String Unit} (hround : s.rounds[i]? = some .ticking) :
      LoopStep s (.settle i outcome)
        { s with running := false, rounds := s.rounds.set i .settled, history := .settled s.now :: s.history }
  | resume {i : Nat} (hround : s.rounds[i]? = some .settled) :
      LoopStep s (.resume i) { s with rounds := s.rounds.eraseIdx i }.schedule
  | stop : LoopStep s .stop s.stop
  | wait {ms : Nat} : LoopStep s (.wait ms) { s with now := s.now + ms }

section
variable {s s' t : IntervalLoop} {l : LoopLabel} {ls ls' : List LoopLabel} {gap intervalMs : Nat}

open IntervalLoop

theorem loopStep_cases (h : s.step l = some s') : LoopStep s l s' := by
  cases l with
  | start =>
    cases h
    exact .start
  | fire j =>
    simp only [step] at h
    split at h
    · rename_i timer htimer
      by_cases hdue : timer.due ≤ s.now
      · rw [if_pos hdue] at h
        cases h
        exact .fire htimer hdue
      · rw [if_neg hdue] at h
        cases h
    · cases h
  | settle i outcome =>
    simp only [step] at h
    by_cases hround : s.rounds[i]? = some .ticking
    · rw [if_pos hround] at h
      cases h
      exact .settle hround
    · rw [if_neg hround] at h
      cases h
  | resume i =>
    simp only [step] at h
    by_cases hround : s.rounds[i]? = some .settled
    · rw [if_pos hround] at h
      cases h
      exact .resume hround
    · rw [if_neg hround] at h
      cases h
  | stop =>
    cases h
    exact .stop
  | wait ms =>
    cases h
    exact .wait

end

/-! ## Ticks do not overlap -/

def LoopEvent.isBegan : LoopEvent → Bool
  | began _ => true
  | settled _ => false

/-- The loop is running while one tick is under way, the one that began last. -/
structure Exclusive (s : IntervalLoop) : Prop where
  ticking : s.rounds.count .ticking = if s.running then 1 else 0
  last : s.running = s.history.head?.any LoopEvent.isBegan
  past : ∀ event ∈ s.history.head?, event.time ≤ s.now
  spaced : Spaced 0 s.history

section
variable {s s' t : IntervalLoop} {l : LoopLabel} {ls ls' : List LoopLabel} {gap intervalMs i j : Nat}

open IntervalLoop

theorem spaced_began {time : Nat} {history : List LoopEvent} (h : Spaced gap history)
    (hidle : history.head?.any LoopEvent.isBegan = false)
    (hgap : ∀ event ∈ history.head?, event.time + gap ≤ time) : Spaced gap (.began time :: history) := by
  cases history with
  | nil => trivial
  | cons event history =>
    cases event with
    | began u => simp [LoopEvent.isBegan] at hidle
    | settled u => exact ⟨hgap (.settled u) rfl, h⟩

theorem spaced_settled {time : Nat} {history : List LoopEvent} (h : Spaced gap history)
    (hrunning : history.head?.any LoopEvent.isBegan = true) (hpast : ∀ event ∈ history.head?, event.time ≤ time) :
    Spaced gap (.settled time :: history) := by
  cases history with
  | nil => simp at hrunning
  | cons event history =>
    cases event with
    | began u => exact ⟨hpast (.began u) rfl, h⟩
    | settled u => simp [LoopEvent.isBegan] at hrunning

theorem exclusive_runOnce (hs : Exclusive s) : Exclusive s.runOnce := by
  unfold runOnce
  by_cases hrunning : s.running = true
  · rw [if_pos hrunning]
    refine ⟨?_, hs.last, hs.past, hs.spaced⟩
    simp [List.count_append, hs.ticking]
  · rw [if_neg hrunning]
    have hidle : s.running = false := by simpa using hrunning
    refine ⟨?_, rfl, ?_, ?_⟩
    · simp [List.count_append, hs.ticking, hidle]
    · simp [LoopEvent.time]
    · apply spaced_began hs.spaced
      · rw [← hs.last, hidle]
      · simpa using hs.past

theorem exclusive_schedule (hs : Exclusive s) : Exclusive s.schedule := by
  unfold schedule
  by_cases hstopped : s.stopped = true
  · rwa [if_pos hstopped]
  · rw [if_neg hstopped]
    exact ⟨hs.ticking, hs.last, hs.past, hs.spaced⟩

theorem exclusive_stop (hs : Exclusive s) : Exclusive s.stop := by
  unfold stop
  split <;> exact ⟨hs.ticking, hs.last, hs.past, hs.spaced⟩

/-- A round that is taken out of the loop was waiting for no tick. -/
theorem count_ticking_eraseIdx {rounds : List Round} (h : rounds[i]? = some .settled) :
    (rounds.eraseIdx i).count .ticking = rounds.count .ticking := by
  obtain ⟨hi, hround⟩ := List.getElem?_eq_some_iff.mp h
  rw [← (List.getElem_cons_eraseIdx_perm hi).count_eq, hround]
  simp

theorem running_of_ticking (hs : Exclusive s) (h : s.rounds[i]? = some .ticking) : s.running = true := by
  by_contra hidle
  have hnone := hs.ticking
  rw [if_neg hidle] at hnone
  exact List.count_eq_zero.mp hnone (List.mem_of_getElem? h)

theorem exclusive_step (hs : Exclusive s) (h : s.step l = some s') : Exclusive s' := by
  cases loopStep_cases h with
  | start =>
    apply exclusive_runOnce
    exact ⟨hs.ticking, hs.last, hs.past, hs.spaced⟩
  | fire htimer hdue =>
    apply exclusive_runOnce
    exact ⟨hs.ticking, hs.last, hs.past, hs.spaced⟩
  | settle hround =>
    obtain ⟨hi, hticking⟩ := List.getElem?_eq_some_iff.mp hround
    have hrunning := running_of_ticking hs hround
    refine ⟨?_, rfl, ?_, ?_⟩
    · show (s.rounds.set _ _).count _ = 0
      rw [List.count_set hi, hs.ticking, hticking, if_pos hrunning]
      simp
    · simp [LoopEvent.time]
    · apply spaced_settled hs.spaced
      · rw [← hs.last, hrunning]
      · exact hs.past
  | resume hround =>
    apply exclusive_schedule
    exact ⟨(count_ticking_eraseIdx hround).trans hs.ticking, hs.last, hs.past, hs.spaced⟩
  | stop => exact exclusive_stop hs
  | wait =>
    refine ⟨hs.ticking, hs.last, ?_, hs.spaced⟩
    intro event hevent
    exact Nat.le_add_right_of_le (hs.past event hevent)

theorem exclusive_init : Exclusive (init intervalMs) := by
  refine ⟨rfl, rfl, ?_, trivial⟩
  simp [init]

/-! ## What goes on after a stop -/

/-- What was not started goes on nowhere, and a stop ends one of what was started:
the timer it clears, or a round that will find the loop stopped. -/
structure Bounded (s : IntervalLoop) : Prop where
  live : s.live ≤ s.starts
  clearable : s.rounds ≠ [] ∨ s.live < s.starts ∨ s.timers = [] ∨ ∃ timer ∈ s.timers, s.timer = some timer.handle

theorem live_runOnce : s.runOnce.live = s.live + 1 := by
  unfold runOnce live
  by_cases hrunning : s.running = true
  · simp [hrunning]
    omega
  · simp [hrunning]
    omega

@[simp] theorem starts_runOnce : s.runOnce.starts = s.starts := by
  unfold runOnce
  split <;> rfl

theorem rounds_runOnce : s.runOnce.rounds ≠ [] := by
  unfold runOnce
  split <;> simp

theorem live_eraseIdx_timers {timer : Timer} (h : s.timers[j]? = some timer) :
    ({ s with timers := s.timers.eraseIdx j } : IntervalLoop).live + 1 = s.live := by
  have hj := Pool.lt_of_getElem? h
  unfold live
  simp only [List.length_eraseIdx_of_lt hj]
  omega

theorem live_eraseIdx_rounds {round : Round} (h : s.rounds[i]? = some round) :
    ({ s with rounds := s.rounds.eraseIdx i } : IntervalLoop).live + 1 = s.live := by
  have hi := Pool.lt_of_getElem? h
  unfold live
  simp only [List.length_eraseIdx_of_lt hi]
  omega

theorem length_timers_stop (hs : Bounded s) : s.stop.timers.length ≤ s.starts - 1 := by
  have hlive := hs.live
  unfold IntervalLoop.live at hlive
  have hle : s.stop.timers.length ≤ s.timers.length := by
    unfold stop
    split
    · exact Nat.le_refl _
    · exact List.length_filter_le _ _
  rcases hs.clearable with hround | hended | hnone | ⟨timer, hmem, hheld⟩
  · have hpos := List.length_pos_of_ne_nil hround
    omega
  · unfold IntervalLoop.live at hended
    omega
  · rw [hnone, List.length_nil] at hle
    omega
  · have hlt : s.stop.timers.length < s.timers.length := by
      unfold stop
      rw [hheld]
      apply List.length_filter_lt_length_iff_exists.mpr
      exact ⟨timer, hmem, by simp⟩
    omega

theorem bounded_stop (hs : Bounded s) : Bounded s.stop := by
  have hlive := hs.live
  have hlength := length_timers_stop hs
  have hkept : s.stop.rounds = s.rounds ∧ s.stop.starts = s.starts ∧ s.stop.timers.length ≤ s.timers.length := by
    unfold stop
    split
    · exact ⟨rfl, rfl, Nat.le_refl _⟩
    · exact ⟨rfl, rfl, List.length_filter_le _ _⟩
  obtain ⟨hrounds, hstarts, hle⟩ := hkept
  unfold IntervalLoop.live at hlive
  refine ⟨?_, ?_⟩
  · unfold IntervalLoop.live
    rw [hrounds, hstarts]
    omega
  · by_cases hnone : s.rounds = []
    · by_cases htimers : s.stop.timers = []
      · exact .inr (.inr (.inl htimers))
      · have hpos := List.length_pos_of_ne_nil htimers
        refine .inr (.inl ?_)
        unfold IntervalLoop.live
        rw [hrounds, hstarts, hnone]
        simp
        omega
    · exact .inl (hrounds ▸ hnone)

theorem bounded_schedule (hs : s.live < s.starts) : Bounded s.schedule := by
  unfold schedule
  by_cases hstopped : s.stopped = true
  · rw [if_pos hstopped]
    exact ⟨Nat.le_of_lt hs, .inr (.inl hs)⟩
  · rw [if_neg hstopped]
    unfold live at hs
    refine ⟨?_, .inr (.inr (.inr ⟨⟨s.handles, _⟩, List.mem_append_right _ List.mem_cons_self, rfl⟩))⟩
    unfold IntervalLoop.live
    simp
    omega

theorem bounded_step (hs : Bounded s) (h : s.step l = some s') : Bounded s' := by
  have hlive := hs.live
  cases loopStep_cases h with
  | start =>
    refine ⟨?_, .inl rounds_runOnce⟩
    unfold start
    rw [live_runOnce, starts_runOnce]
    exact Nat.succ_le_succ hlive
  | fire htimer hdue =>
    refine ⟨?_, .inl rounds_runOnce⟩
    rw [live_runOnce, starts_runOnce, live_eraseIdx_timers htimer]
    exact hlive
  | settle hround =>
    refine ⟨?_, .inl ?_⟩
    · unfold IntervalLoop.live at hlive ⊢
      simpa using hlive
    · have hi := Pool.lt_of_getElem? hround
      apply List.ne_nil_of_length_pos
      simp
      omega
  | resume hround =>
    have herased := live_eraseIdx_rounds hround
    apply bounded_schedule
    show IntervalLoop.live _ < s.starts
    omega
  | stop => exact bounded_stop hs
  | wait => exact ⟨hs.live, hs.clearable⟩

theorem bounded_init : Bounded (init intervalMs) := ⟨Nat.le_refl 0, .inr (.inr (.inl rfl))⟩

/-- A stopped loop that is not started again begins a tick only for a timer it still has. -/
structure Fading (n : Nat) (s : IntervalLoop) : Prop where
  stopped : s.stopped = true
  begun : s.ticksBegun + s.timers.length ≤ n

theorem ticksBegun_runOnce : s.runOnce.ticksBegun ≤ s.ticksBegun + 1 := by
  unfold runOnce ticksBegun
  split <;> simp

theorem timers_runOnce : s.runOnce.timers = s.timers := by
  unfold runOnce
  split <;> rfl

theorem stopped_runOnce : s.runOnce.stopped = s.stopped := by
  unfold runOnce
  split <;> rfl

theorem fading_stop {n : Nat} (h : s.ticksBegun + s.stop.timers.length ≤ n) : Fading n s.stop := by
  unfold stop at h ⊢
  split at h
  · exact ⟨rfl, h⟩
  · exact ⟨rfl, h⟩

theorem fading_step {n : Nat} (hs : Fading n s) (hl : l ≠ .start) (h : s.step l = some s') : Fading n s' := by
  have hbegun := hs.begun
  cases loopStep_cases h with
  | start => exact absurd rfl hl
  | @fire j timer htimer hdue =>
    have hj := Pool.lt_of_getElem? htimer
    have hone := ticksBegun_runOnce (s := { s with timers := s.timers.eraseIdx j })
    refine ⟨stopped_runOnce.trans hs.stopped, ?_⟩
    rw [timers_runOnce]
    show _ + (s.timers.eraseIdx j).length ≤ n
    rw [List.length_eraseIdx_of_lt hj]
    have hsame : ({ s with timers := s.timers.eraseIdx j } : IntervalLoop).ticksBegun = s.ticksBegun := rfl
    omega
  | settle hround => exact ⟨hs.stopped, hbegun⟩
  | resume hround =>
    unfold schedule
    rw [if_pos hs.stopped]
    exact ⟨hs.stopped, hbegun⟩
  | stop =>
    apply fading_stop
    have hle : s.stop.timers.length ≤ s.timers.length := by
      unfold stop
      split
      · exact Nat.le_refl _
      · exact List.length_filter_le _ _
    omega
  | wait => exact ⟨hs.stopped, hbegun⟩

/-- Whatever its owner did before: after a stop, fewer ticks begin than the loop was ever
started, until it is started again. None does if it was started once. -/
theorem ticks_after_stop (hrun : Runs.run step (init intervalMs) ls = some s)
    (hafter : Runs.run step s.stop ls' = some t) (hnot : ∀ l ∈ ls', l ≠ .start) :
    t.ticksBegun ≤ s.ticksBegun + (s.starts - 1) := by
  have hbounded : Bounded s := Runs.invariant (fun hs h => bounded_step hs h) bounded_init hrun
  have hlength := length_timers_stop hbounded
  have hfading : Fading (s.ticksBegun + (s.starts - 1)) s.stop := by
    apply fading_stop
    omega
  have hfinal := Runs.invariant_on (fun hs hl h => fading_step hs hl h) hfading hnot hafter
  exact (Nat.le_add_right _ _).trans hfinal.begun

def startedTwice : List LoopLabel :=
  [.start, .start, .settle 0 (.error "timeout"), .resume 0, .resume 0]

theorem ticks_after_stop_startedTwice : ∃ s t, Runs.run step (init 1000) startedTwice = some s ∧
    Runs.run step s.stop [.wait 1000, .fire 0] = some t ∧ (s.ticksBegun, s.starts, t.ticksBegun) = (1, 2, 2) ∧
      t.ticksBegun ≤ s.ticksBegun + (s.starts - 1) := by
  have hrun : ((Runs.run step (init 1000) startedTwice).bind fun s =>
      (Runs.run step s.stop [.wait 1000, .fire 0]).map fun t => (s.ticksBegun, s.starts, t.ticksBegun)) =
        some (1, 2, 2) := by
    decide +kernel
  obtain ⟨s, hs, hbind⟩ := Option.bind_eq_some_iff.mp hrun
  obtain ⟨t, ht, hcounts⟩ := Option.map_eq_some_iff.mp hbind
  exact ⟨s, t, hs, ht, hcounts, ticks_after_stop hs ht (by simp)⟩

/-! ## A loop that is started once -/

structure Single (s : IntervalLoop) : Prop where
  spaced : Spaced (timeoutDelay s.intervalMs) s.history
  due : ∀ timer ∈ s.timers, ∀ event ∈ s.history.head?, event.time + timeoutDelay s.intervalMs ≤ timer.due

structure StartedOnce (s : IntervalLoop) : Prop where
  before : s.starts = 0 → s.history = []
  single : s.starts ≤ 1 → Single s

/-- A round waits for nothing of another one where it is the only thing that goes on. -/
theorem idle_of_rounds_nil (hs : Exclusive s) (h : s.rounds = []) : s.running = false := by
  by_contra hrunning
  have hticking := hs.ticking
  rw [h, if_pos (by simpa using hrunning)] at hticking
  simp at hticking

theorem startedOnce_start (hexclusive : Exclusive s) (hbounded : Bounded s) (hs : StartedOnce s) : StartedOnce s.start := by
  have hlive := hbounded.live
  unfold live at hlive
  refine ⟨?_, ?_⟩
  · intro hzero
    unfold start at hzero
    rw [starts_runOnce] at hzero
    cases hzero
  · intro honce
    unfold start at honce ⊢
    rw [starts_runOnce] at honce
    have hzero : s.starts = 0 := Nat.le_zero.mp (Nat.le_of_succ_le_succ honce)
    have htimers : s.timers = [] := List.eq_nil_of_length_eq_zero (by omega)
    have hrounds : s.rounds = [] := List.eq_nil_of_length_eq_zero (by omega)
    have hidle := idle_of_rounds_nil hexclusive hrounds
    unfold runOnce
    rw [if_neg (by simp [hidle])]
    refine ⟨?_, ?_⟩
    · simp [hs.before hzero, Spaced]
    · simp [htimers]

theorem startedOnce_fire {timer : Timer} (hexclusive : Exclusive s) (hbounded : Bounded s) (hs : StartedOnce s)
    (htimer : s.timers[j]? = some timer) (hdue : timer.due ≤ s.now) :
    StartedOnce ({ s with timers := s.timers.eraseIdx j } : IntervalLoop).runOnce := by
  have hlive := hbounded.live
  have hj := Pool.lt_of_getElem? htimer
  unfold live at hlive
  refine ⟨?_, ?_⟩
  · intro hzero
    rw [starts_runOnce] at hzero
    have hnone : s.starts = 0 := hzero
    omega
  · intro honce
    rw [starts_runOnce] at honce
    have hle : s.starts ≤ 1 := honce
    have hrounds : s.rounds = [] := List.eq_nil_of_length_eq_zero (by omega)
    have herased : s.timers.eraseIdx j = [] := by
      apply List.eq_nil_of_length_eq_zero
      rw [List.length_eraseIdx_of_lt hj]
      omega
    have hidle := idle_of_rounds_nil hexclusive hrounds
    have hsingle := hs.single hle
    unfold runOnce
    rw [if_neg (by simp [hidle])]
    refine ⟨?_, ?_⟩
    · apply spaced_began hsingle.spaced
      · rw [← hexclusive.last, hidle]
      · intro event hevent
        exact (hsingle.due timer (List.mem_of_getElem? htimer) event hevent).trans hdue
    · simp [herased]

theorem startedOnce_schedule (hexclusive : Exclusive s) (hs : StartedOnce s) (htimers : s.starts ≤ 1 → s.timers = []) :
    StartedOnce s.schedule := by
  unfold schedule
  by_cases hstopped : s.stopped = true
  · rwa [if_pos hstopped]
  · rw [if_neg hstopped]
    refine ⟨hs.before, ?_⟩
    intro honce
    have hnone := htimers honce
    refine ⟨(hs.single honce).spaced, ?_⟩
    intro timer htimer event hevent
    rw [hnone, List.nil_append, List.mem_singleton] at htimer
    rw [htimer]
    exact Nat.add_le_add_right (hexclusive.past event hevent) _

theorem startedOnce_step (hexclusive : Exclusive s) (hbounded : Bounded s) (hs : StartedOnce s)
    (h : s.step l = some s') : StartedOnce s' := by
  have hlive := hbounded.live
  unfold live at hlive
  cases loopStep_cases h with
  | start => exact startedOnce_start hexclusive hbounded hs
  | fire htimer hdue => exact startedOnce_fire hexclusive hbounded hs htimer hdue
  | settle hround =>
    have hi := Pool.lt_of_getElem? hround
    have hrunning : s.running = true := running_of_ticking hexclusive hround
    refine ⟨?_, ?_⟩
    · intro hzero
      have hnone : s.starts = 0 := hzero
      omega
    · intro honce
      have hle : s.starts ≤ 1 := honce
      have htimers : s.timers = [] := List.eq_nil_of_length_eq_zero (by omega)
      refine ⟨?_, by simp [htimers]⟩
      apply spaced_settled (hs.single hle).spaced
      · rw [← hexclusive.last, hrunning]
      · exact hexclusive.past
  | resume hround =>
    have hi := Pool.lt_of_getElem? hround
    apply startedOnce_schedule
    · exact ⟨(count_ticking_eraseIdx hround).trans hexclusive.ticking, hexclusive.last, hexclusive.past, hexclusive.spaced⟩
    · exact ⟨hs.before, fun honce => ⟨(hs.single honce).spaced, (hs.single honce).due⟩⟩
    · intro honce
      have hle : s.starts ≤ 1 := honce
      show s.timers = []
      apply List.eq_nil_of_length_eq_zero
      omega
  | stop =>
    unfold stop
    split
    · exact ⟨hs.before, fun honce => ⟨(hs.single honce).spaced, (hs.single honce).due⟩⟩
    · refine ⟨hs.before, fun honce => ⟨(hs.single honce).spaced, ?_⟩⟩
      intro timer htimer
      exact (hs.single honce).due timer (List.mem_of_mem_filter htimer)
  | wait => exact ⟨hs.before, fun honce => ⟨(hs.single honce).spaced, (hs.single honce).due⟩⟩

theorem startedOnce_init : StartedOnce (init intervalMs) := by
  refine ⟨fun _ => rfl, fun _ => ⟨trivial, ?_⟩⟩
  simp [init]

theorem intervalMs_step (h : s.step l = some s') : s'.intervalMs = s.intervalMs := by
  cases loopStep_cases h with
  | start =>
    unfold start runOnce
    split <;> rfl
  | fire htimer hdue =>
    unfold runOnce
    split <;> rfl
  | resume hround =>
    unfold schedule
    split <;> rfl
  | stop =>
    unfold stop
    split <;> rfl
  | _ => rfl

/-- Ticks come one after the other, however the loop is started and stopped, and at most as much
goes on as it was started. Started once, it leaves between two ticks what `setTimeout` makes of the
interval, which is the interval itself below `2 ^ 31` milliseconds. -/
theorem ticks_spaced (hrun : Runs.run step (init intervalMs) ls = some s) :
    Spaced 0 s.history ∧ s.rounds.count .ticking ≤ 1 ∧ s.timers.length + s.rounds.length ≤ s.starts ∧
      (s.starts ≤ 1 → Spaced (timeoutDelay intervalMs) s.history) := by
  have hinv : ((Exclusive s ∧ Bounded s) ∧ StartedOnce s) ∧ s.intervalMs = intervalMs :=
    Runs.invariant (P := fun s => ((Exclusive s ∧ Bounded s) ∧ StartedOnce s) ∧ s.intervalMs = intervalMs)
      (fun hs h => ⟨⟨⟨exclusive_step hs.1.1.1 h, bounded_step hs.1.1.2 h⟩,
        startedOnce_step hs.1.1.1 hs.1.1.2 hs.1.2 h⟩, (intervalMs_step h).trans hs.2⟩)
      ⟨⟨⟨exclusive_init, bounded_init⟩, startedOnce_init⟩, rfl⟩ hrun
  obtain ⟨⟨⟨hexclusive, hbounded⟩, honce⟩, hinterval⟩ := hinv
  refine ⟨hexclusive.spaced, ?_, hbounded.live, ?_⟩
  · rw [hexclusive.ticking]
    split <;> omega
  · intro hle
    have hspaced := (honce.single hle).spaced
    rwa [hinterval] at hspaced

theorem ticks_spaced_once : Spaced 1000 [.began 1600, .settled 600, .began 0] := by
  have hrun : (Runs.run step (init 1000)
      [.start, .wait 600, .settle 0 (.ok ()), .resume 0, .wait 1000, .fire 0]).map (fun s => (s.history, s.starts)) =
        some ([.began 1600, .settled 600, .began 0], 1) := by
    decide +kernel
  obtain ⟨s, hs, hlast⟩ := Option.map_eq_some_iff.mp hrun
  simp only [Prod.mk.injEq] at hlast
  obtain ⟨hhistory, hstarts⟩ := hlast
  have hspaced := (ticks_spaced hs).2.2.2 (Nat.le_of_eq hstarts)
  rwa [hhistory] at hspaced

end

end Paymaster.Interval
