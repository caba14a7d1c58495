import Paymaster.Backend.KeyStores

/-!
# When a key was used last

Every request that a key authenticates is a use of it. A use is written to the
store unless one was written within the interval before; a write that fails lets
the next use be written, whichever write it was.
-/

namespace Paymaster.LastUsed

open Function Keys

structure Touch where
  id : String
  time : Nat
deriving DecidableEq

inductive WriteEvent
  | wrote (time : Nat)
  | failed
deriving DecidableEq

/-- The tracker of a process and the column that it writes. `history` and `uses` are, for each
key, what became of its writes, the last first, and its uses since a write of it failed. -/
structure ThrottledLastUsedTracker where
  lastWritten : String → Option Nat
  writes : List Touch
  stored : String → Option Nat
  history : String → List WriteEvent
  uses : String → List Nat

inductive TrackerLabel
  | record (id : String) (now : Nat)
  | finish (i : Nat)
  /-- The write may have been executed nevertheless. -/
  | fail (i : Nat) (executed : Bool)
  /-- Another process writes to the column. -/
  | elsewhere (id : String) (time : Nat)

namespace ThrottledLastUsedTracker

def init (stored : String → Option Nat) : ThrottledLastUsedTracker := ⟨fun _ => none, [], stored, fun _ => [], fun _ => []⟩

variable (interval : Nat) (s : ThrottledLastUsedTracker)

def used (id : String) (now : Nat) : ThrottledLastUsedTracker := { s with uses := update s.uses id (now :: s.uses id) }

def write (id : String) (now : Nat) : ThrottledLastUsedTracker :=
  { s with
    lastWritten := update s.lastWritten id (some now)
    writes := s.writes ++ [⟨id, now⟩]
    history := update s.history id (.wrote now :: s.history id) }

def record (id : String) (now : Nat) : ThrottledLastUsedTracker :=
  match s.lastWritten id with
  | some last => if now < last + interval then s.used id now else (s.write id now).used id now
  | none => (s.write id now).used id now

def execute (touch : Touch) : String → Option Nat := update s.stored touch.id (greatest (s.stored touch.id) touch.time)

def step : TrackerLabel → Option ThrottledLastUsedTracker
  | .record id now => some (s.record interval id now)
  | .finish i => s.writes[i]?.map fun touch => { s with writes := s.writes.eraseIdx i, stored := s.execute touch }
  | .fail i executed => s.writes[i]?.map fun touch =>
    { s with
      lastWritten := update s.lastWritten touch.id none
      writes := s.writes.eraseIdx i
      stored := if executed then s.execute touch else s.stored
      history := update s.history touch.id (.failed :: s.history touch.id)
      uses := update s.uses touch.id [] }
  | .elsewhere id time => some { s with stored := s.execute ⟨id, time⟩ }

/-- A time is in the column, or a later one, or is on its way there. -/
def Covered (id : String) (time : Nat) : Prop := ⟨id, time⟩ ∈ s.writes ∨ ∃ last ∈ s.stored id, time ≤ last

end ThrottledLastUsedTracker

/-- Two writes in a row are an interval apart, unless one has failed between them. -/
def Throttled (interval : Nat) : List WriteEvent → Prop
  | [] => True
  | .failed :: history => Throttled interval history
  | .wrote time :: history => (∀ last, history.head? = some (.wrote last) → last + interval ≤ time) ∧ Throttled interval history

def lastWrite : List WriteEvent → Option Nat
  | .wrote time :: _ => some time
  | _ => none

structure Tracked (interval : Nat) (id : String) (s : ThrottledLastUsedTracker) : Prop where
  throttled : Throttled interval (s.history id)
  last : s.lastWritten id = lastWrite (s.history id)
  written : ∀ time ∈ s.lastWritten id, s.Covered id time
  uses : ∀ use ∈ s.uses id, ∃ time, use < time + interval ∧ s.Covered id time

section
variable {interval now time i : Nat} {id : String} {s s' : ThrottledLastUsedTracker} {l : TrackerLabel} {ls : List TrackerLabel}
  {touch : Touch} {stored : String → Option Nat}

open ThrottledLastUsedTracker

theorem mem_eraseIdx_of_ne {touch' : Touch} (h : touch ∈ s.writes) (hi : s.writes[i]? = some touch') (hne : touch ≠ touch') :
    touch ∈ s.writes.eraseIdx i := by
  obtain ⟨hlt, heq⟩ := List.getElem?_eq_some_iff.mp hi
  have hperm := List.getElem_cons_eraseIdx_perm hlt
  rcases List.mem_cons.mp (hperm.mem_iff.mpr h) with hsame | hrest
  · exact absurd (hsame.trans heq) hne
  · exact hrest

/-- The column never goes back. -/
theorem execute_ge (h : ∃ last ∈ s.stored id, time ≤ last) (touch : Touch) : ∃ last ∈ s.execute touch id, time ≤ last := by
  obtain ⟨last, hlast, hle⟩ := h
  unfold execute
  by_cases hid : id = touch.id
  · subst hid
    refine ⟨max last touch.time, ?_, hle.trans (Nat.le_max_left _ _)⟩
    rw [update_self, Option.mem_def, greatest, Option.mem_def.mp hlast]
    rfl
  · refine ⟨last, ?_, hle⟩
    rwa [update_of_ne hid]

theorem execute_self (touch : Touch) : ∃ last ∈ s.execute touch touch.id, touch.time ≤ last := by
  unfold execute
  rw [update_self]
  cases hstored : s.stored touch.id with
  | none => exact ⟨touch.time, rfl, Nat.le_refl _⟩
  | some last => exact ⟨max last touch.time, rfl, Nat.le_max_right _ _⟩

/-- A write that has been executed is in the column, and the others are where they were. -/
theorem covered_finish (hi : s.writes[i]? = some touch) (h : s.Covered id time) :
    ({ s with writes := s.writes.eraseIdx i, stored := s.execute touch } : ThrottledLastUsedTracker).Covered id time := by
  rcases h with hmem | hstored
  · by_cases hsame : (⟨id, time⟩ : Touch) = touch
    · subst hsame
      exact .inr (execute_self ⟨id, time⟩)
    · exact .inl (mem_eraseIdx_of_ne hmem hi hsame)
  · exact .inr (execute_ge hstored touch)

theorem tracked_used (h : Tracked interval id s) {id' : String}
    (hcovered : id = id' → ∃ time, now < time + interval ∧ s.Covered id time) : Tracked interval id (s.used id' now) := by
  refine ⟨h.throttled, h.last, h.written, ?_⟩
  intro use huse
  change use ∈ update s.uses id' (now :: s.uses id') id at huse
  by_cases hid : id = id'
  · subst hid
    rw [update_self] at huse
    rcases List.mem_cons.mp huse with rfl | hold
    · exact hcovered rfl
    · exact h.uses use hold
  · rw [update_of_ne hid] at huse
    exact h.uses use huse

theorem covered_write (h : s.Covered id time) {id' : String} : (s.write id' now).Covered id time := by
  rcases h with hmem | hstored
  · exact .inl (List.mem_append_left _ hmem)
  · exact .inr hstored

theorem head_eq_of_lastWrite {history : List WriteEvent} {last : Nat} (h : history.head? = some (.wrote last)) :
    lastWrite history = some last := by
  cases history with
  | nil => cases h
  | cons event history =>
    cases h
    rfl

theorem tracked_write (h : Tracked interval id s) {id' : String}
    (hlast : ∀ last ∈ s.lastWritten id', last + interval ≤ now) : Tracked interval id (s.write id' now) := by
  have huses : ∀ use ∈ s.uses id, ∃ time, use < time + interval ∧ (s.write id' now).Covered id time := by
    intro use huse
    obtain ⟨time, hlt, hcovered⟩ := h.uses use huse
    exact ⟨time, hlt, covered_write hcovered⟩
  by_cases hid : id = id'
  · subst hid
    refine ⟨?_, ?_, ?_, huses⟩
    · show Throttled interval (update s.history id _ id)
      rw [update_self]
      refine ⟨?_, h.throttled⟩
      intro last hhead
      exact hlast last (h.last.trans (head_eq_of_lastWrite hhead))
    · show update s.lastWritten id _ id = lastWrite (update s.history id _ id)
      rw [update_self, update_self]
      rfl
    · intro time htime
      change update s.lastWritten id _ id = some time at htime
      rw [update_self, Option.some.injEq] at htime
      subst htime
      exact .inl (List.mem_append_right _ List.mem_cons_self)
  · refine ⟨?_, ?_, ?_, huses⟩
    · show Throttled interval (update s.history id' _ id)
      rw [update_of_ne hid]
      exact h.throttled
    · show update s.lastWritten id' _ id = lastWrite (update s.history id' _ id)
      rw [update_of_ne hid, update_of_ne hid]
      exact h.last
    · intro time htime
      change update s.lastWritten id' _ id = some time at htime
      rw [update_of_ne hid] at htime
      exact covered_write (h.written time htime)

theorem tracked_record (hinterval : 0 < interval) (h : Tracked interval id s) (id' : String) (now : Nat) :
    Tracked interval id (s.record interval id' now) := by
  have hwrite : (∀ last ∈ s.lastWritten id', last + interval ≤ now) →
      Tracked interval id ((s.write id' now).used id' now) := by
    intro hlast
    apply tracked_used (tracked_write h hlast)
    intro hid
    subst hid
    exact ⟨now, Nat.lt_add_of_pos_right hinterval, .inl (List.mem_append_right _ List.mem_cons_self)⟩
  unfold record
  cases hlast : s.lastWritten id' with
  | none =>
    apply hwrite
    simp [hlast]
  | some last =>
    by_cases hwithin : now < last + interval
    · simp only [hwithin, if_true]
      apply tracked_used h
      intro hid
      subst hid
      exact ⟨last, hwithin, h.written last hlast⟩
    · simp only [hwithin, if_false]
      apply hwrite
      simpa [hlast] using hwithin

theorem tracked_step (hinterval : 0 < interval) (h : Tracked interval id s) (hstep : s.step interval l = some s') :
    Tracked interval id s' := by
  cases l with
  | record id' now =>
    cases hstep
    exact tracked_record hinterval h id' now
  | finish i =>
    obtain ⟨touch, htouch, rfl⟩ := Option.map_eq_some_iff.mp hstep
    refine ⟨h.throttled, h.last, ?_, ?_⟩
    · intro time htime
      exact covered_finish htouch (h.written time htime)
    · intro use huse
      obtain ⟨time, hlt, hcovered⟩ := h.uses use huse
      exact ⟨time, hlt, covered_finish htouch hcovered⟩
  | fail i executed =>
    obtain ⟨touch, htouch, rfl⟩ := Option.map_eq_some_iff.mp hstep
    by_cases hid : id = touch.id
    · subst hid
      refine ⟨?_, ?_, ?_, ?_⟩
      · show Throttled interval (update s.history touch.id _ touch.id)
        rw [update_self]
        exact h.throttled
      · show update s.lastWritten touch.id none touch.id = lastWrite (update s.history touch.id _ touch.id)
        rw [update_self, update_self]
        rfl
      · intro time htime
        change update s.lastWritten touch.id none touch.id = some time at htime
        rw [update_self] at htime
        cases htime
      · intro use huse
        change use ∈ update s.uses touch.id [] touch.id at huse
        rw [update_self] at huse
        cases huse
    · have hkept : ∀ time, s.Covered id time → (⟨id, time⟩ ∈ s.writes.eraseIdx i ∨
          ∃ last ∈ (if executed then s.execute touch else s.stored) id, time ≤ last) := by
        intro time hcovered
        rcases hcovered with hmem | hstored
        · exact .inl (mem_eraseIdx_of_ne hmem htouch fun heq => hid (congrArg Touch.id heq))
        · cases executed with
          | true => exact .inr (execute_ge hstored touch)
          | false => exact .inr hstored
      refine ⟨?_, ?_, ?_, ?_⟩
      · show Throttled interval (update s.history touch.id _ id)
        rw [update_of_ne hid]
        exact h.throttled
      · show update s.lastWritten touch.id none id = lastWrite (update s.history touch.id _ id)
        rw [update_of_ne hid, update_of_ne hid]
        exact h.last
      · intro time htime
        change update s.lastWritten touch.id none id = some time at htime
        rw [update_of_ne hid] at htime
        exact hkept time (h.written time htime)
      · intro use huse
        change use ∈ update s.uses touch.id [] id at huse
        rw [update_of_ne hid] at huse
        obtain ⟨time, hlt, hcovered⟩ := h.uses use huse
        exact ⟨time, hlt, hkept time hcovered⟩
  | elsewhere id' time' =>
    cases hstep
    have hkept : ∀ time, s.Covered id time → (⟨id, time⟩ ∈ s.writes ∨ ∃ last ∈ s.execute ⟨id', time'⟩ id, time ≤ last) := by
      intro time hcovered
      exact hcovered.imp_right fun hstored => execute_ge hstored _
    refine ⟨h.throttled, h.last, ?_, ?_⟩
    · intro time htime
      exact hkept time (h.written time htime)
    · intro use huse
      obtain ⟨time, hlt, hcovered⟩ := h.uses use huse
      exact ⟨time, hlt, hkept time hcovered⟩

theorem tracked_init : Tracked interval id (.init stored) := by
  refine ⟨trivial, rfl, ?_, ?_⟩
  · intro time htime
    cases htime
  · intro use huse
    cases huse

/-- A key is written at most once in an interval, unless a write of it fails; and no use of it since
then is more than an interval ahead of the column and of what is on its way there. -/
theorem last_used_kept (hinterval : 0 < interval) (hrun : Runs.run (ThrottledLastUsedTracker.step interval) (.init stored) ls = some s) (id : String) :
    Throttled interval (s.history id) ∧ ∀ use ∈ s.uses id, ∃ time, use < time + interval ∧ s.Covered id time := by
  have hinv : Tracked interval id s := Runs.invariant (fun hs h => tracked_step hinterval hs h) tracked_init hrun
  exact ⟨hinv.throttled, hinv.uses⟩

def lateFailure : List TrackerLabel :=
  [.record "key" 0, .record "key" 60, .fail 0 false, .record "key" 62, .finish 1]

theorem last_used_kept_lateFailure : ∃ s, Runs.run (ThrottledLastUsedTracker.step 60) (.init fun _ => none) lateFailure = some s ∧
    s.history "key" = [.wrote 62, .failed, .wrote 60, .wrote 0] ∧ s.stored "key" = some 62 ∧
      ∀ use ∈ s.uses "key", ∃ time, use < time + 60 ∧ s.Covered "key" time := by
  have hkept : ∀ s, Runs.run (ThrottledLastUsedTracker.step 60) (.init fun _ => none) lateFailure = some s →
      ∀ use ∈ s.uses "key", ∃ time, use < time + 60 ∧ s.Covered "key" time :=
    fun s hs => (last_used_kept (by decide) hs "key").2
  exact ⟨_, rfl, rfl, rfl, hkept _ rfl⟩

end

end Paymaster.LastUsed
