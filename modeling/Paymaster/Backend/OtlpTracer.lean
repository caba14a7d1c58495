import Paymaster.Lib.Pool
import Paymaster.Lib.Run

/-!
# The trace exporter

Spans that end are queued, up to a bound, and a flush hands them to the exporter
batch by batch, waiting for each attempt. Only one flush is under way: another one
returns at once, also the one of `stop`. Between two steps of a flush spans end,
and the timer and `stop` call `flush` again.
-/

namespace Paymaster

structure OtlpTracerOptions where
  maxQueueSize : Nat
  maxBatchSize : Nat

inductive FlushPhase
  | exporting (batch : List Nat)
  | attempted
  | returned
deriving DecidableEq

structure StopCall where
  flush : Nat
  enqueuedBefore : List Nat
deriving DecidableEq

/-- Sampled spans are numbered as they start. `exported` is what the exporter was
given, `completed` what its attempts are over for, `lost` the spans that found the
queue full, and `reported` how many of them were logged. -/
structure OtlpTracer where
  ended : List Bool
  queue : List Nat
  dropped : Nat
  flushing : Bool
  flushes : List FlushPhase
  stops : List StopCall
  exported : List Nat
  completed : List Nat
  lost : List Nat
  reported : Nat
deriving DecidableEq

inductive OtlpLabel
  | startSpan
  | endSpan (span : Nat)
  | flush
  /-- The attempt succeeds, is rejected, or fails; none is made again. -/
  | settle (i : Nat) (ok : Bool)
  | resume (i : Nat)
  | stop
deriving DecidableEq

namespace OtlpTracer

variable (options : OtlpTracerOptions) (s : OtlpTracer)

def start : OtlpTracer := ⟨[], [], 0, false, [], [], [], [], [], 0⟩

def enqueued : List Nat := s.exported ++ s.queue

def enqueue (span : Nat) : OtlpTracer :=
  if options.maxQueueSize ≤ s.queue.length then { s with dropped := s.dropped + 1, lost := s.lost ++ [span] }
  else { s with queue := s.queue ++ [span] }

def endSpan (span : Nat) : OtlpTracer :=
  match s.ended[span]? with
  | some false => { s with ended := s.ended.set span true }.enqueue options span
  | _ => s

def loop (i : Nat) : OtlpTracer :=
  if s.queue = [] then
    { s with
      flushes := s.flushes.set i .returned
      reported := s.reported + s.dropped
      dropped := 0
      flushing := false }
  else
    { s with
      flushes := s.flushes.set i (.exporting (s.queue.take options.maxBatchSize))
      exported := s.exported ++ s.queue.take options.maxBatchSize
      queue := s.queue.drop options.maxBatchSize }

def flush : OtlpTracer :=
  if s.flushing then { s with flushes := s.flushes ++ [.returned] }
  else { s with flushing := true, flushes := s.flushes ++ [FlushPhase.attempted] }.loop options s.flushes.length

def settle (i : Nat) (batch : List Nat) : OtlpTracer :=
  { s with flushes := s.flushes.set i .attempted, completed := s.completed ++ batch }

def stop : OtlpTracer :=
  let flushed := s.flush options
  { flushed with stops := s.stops ++ [⟨s.flushes.length, s.enqueued⟩] }

def step : OtlpLabel → Option OtlpTracer
  | .startSpan => some { s with ended := s.ended ++ [false] }
  | .endSpan span => some (s.endSpan options span)
  | .flush => some (s.flush options)
  | .settle i _ =>
    match s.flushes[i]? with
    | some (.exporting batch) => some (s.settle i batch)
    | _ => none
  | .resume i =>
    match s.flushes[i]? with
    | some .attempted => some (s.loop options i)
    | _ => none
  | .stop => some (s.stop options)

end OtlpTracer

def FlushPhase.batch : FlushPhase → List Nat
  | .exporting batch => batch
  | _ => []

namespace OtlpTracer

def inFlight (s : OtlpTracer) : List Nat := s.flushes.flatMap FlushPhase.batch

/-- A `stop` in this state waits for all that was enqueued: no flush is under way, or
there is nothing left for it. -/
def Drainable (s : OtlpTracer) : Prop := s.flushing = true → s.queue = [] ∧ s.inFlight = []

def DrainableStop (s : OtlpTracer) (l : OtlpLabel) : Prop := l = .stop → s.Drainable

instance (s : OtlpTracer) (l : OtlpLabel) : Decidable (s.DrainableStop l) :=
  inferInstanceAs (Decidable (l = .stop → s.flushing = true → s.queue = [] ∧ s.inFlight = []))

/-- The invariant: one flush at most is under way, and each span that ended is exported, queued or lost. -/
structure Sound (options : OtlpTracerOptions) (s : OtlpTracer) : Prop where
  alone : ∀ (i j : Nat) (p q : FlushPhase), s.flushes[i]? = some p → s.flushes[j]? = some q → p ≠ .returned → q ≠ .returned → i = j
  flag : ∀ p ∈ s.flushes, p ≠ FlushPhase.returned → s.flushing = true
  passed : s.exported = s.completed ++ s.inFlight
  bounded : s.queue.length ≤ options.maxQueueSize
  once : (s.exported ++ s.queue ++ s.lost).Nodup
  kept : ∀ span, span ∈ s.exported ++ s.queue ++ s.lost ↔ s.ended[span]? = some true
  counted : s.reported + s.dropped = s.lost.length

def Drained (s : OtlpTracer) : Prop :=
  ∀ stop ∈ s.stops, stop.flush < s.flushes.length ∧ (∀ span ∈ stop.enqueuedBefore, span ∈ s.enqueued) ∧
    (s.flushes[stop.flush]? = some .returned → ∀ span ∈ stop.enqueuedBefore, span ∈ s.completed)

variable {options : OtlpTracerOptions} {s s' : OtlpTracer} {i : Nat}

theorem flatMap_of_alone {α β : Type} {f : α → List β} : ∀ {ps : List α} {i : Nat} {p : α}, ps[i]? = some p →
    (∀ j q, j ≠ i → ps[j]? = some q → f q = []) → ps.flatMap f = f p
  | [], _, _, hi, _ => nomatch hi
  | a :: ps, 0, p, hi, hothers => by
    obtain rfl : a = p := Option.some.inj hi
    have hnone : ps.flatMap f = [] := by
      refine List.flatMap_eq_nil_iff.mpr fun q hq => ?_
      obtain ⟨j, hj, rfl⟩ := List.getElem_of_mem hq
      exact hothers (j + 1) _ (Nat.succ_ne_zero j) (List.getElem?_eq_getElem hj)
    rw [List.flatMap_cons, hnone, List.append_nil]
  | a :: ps, i + 1, p, hi, hothers => by
    have hfirst : f a = [] := hothers 0 a (Nat.succ_ne_zero i).symm rfl
    have hrest : ps.flatMap f = f p :=
      flatMap_of_alone (i := i) hi fun j q hne hj => hothers (j + 1) q (fun h => hne (Nat.succ.inj h)) hj
    rw [List.flatMap_cons, hfirst, List.nil_append, hrest]

theorem inFlight_eq {p : FlushPhase} (halone : ∀ j q, j ≠ i → s.flushes[j]? = some q → q = .returned)
    (hi : s.flushes[i]? = some p) : s.inFlight = p.batch := by
  refine flatMap_of_alone hi fun j q hne hj => ?_
  rw [halone j q hne hj]
  rfl

theorem others_returned (hs : s.Sound options) {p : FlushPhase} (hi : s.flushes[i]? = some p) (hp : p ≠ .returned) :
    ∀ j q, j ≠ i → s.flushes[j]? = some q → q = .returned := by
  intro j q hne hj
  by_contra hq
  exact hne (hs.alone j i q p hj hi hq hp)

theorem all_returned (hs : s.Sound options) (hidle : s.flushing = false) : ∀ p ∈ s.flushes, p = .returned := by
  intro p hp
  by_contra hne
  have hflag := hs.flag p hp hne
  rw [hidle] at hflag
  cases hflag

/-! ## Flushes -/

theorem alone_set {p q : FlushPhase} (hs : s.Sound options) (hi : s.flushes[i]? = some p) (hp : p ≠ .returned) :
    ∀ (j k : Nat) (p' q' : FlushPhase), (s.flushes.set i q)[j]? = some p' → (s.flushes.set i q)[k]? = some q' →
      p' ≠ .returned → q' ≠ .returned → j = k := by
  intro j k p' q' hj hk hp' hq'
  have hothers := others_returned hs hi hp
  have hat : ∀ (l : Nat) (r : FlushPhase), (s.flushes.set i q)[l]? = some r → r ≠ .returned → l = i := by
    intro l r hl hr
    rcases Pool.getElem?_set_cases hl with ⟨hli, -⟩ | ⟨hne, hold⟩
    · exact hli
    · exact absurd (hothers l r hne hold) hr
  rw [hat j p' hj hp', hat k q' hk hq']

theorem inFlight_set {p q : FlushPhase} (hs : s.Sound options) (hi : s.flushes[i]? = some p) (hp : p ≠ .returned) :
    (s.flushes.set i q).flatMap FlushPhase.batch = q.batch := by
  refine flatMap_of_alone (Pool.getElem?_set_self_of_some hi) fun j r hne hj => ?_
  rcases Pool.getElem?_set_cases hj with ⟨hji, -⟩ | ⟨-, hold⟩
  · exact absurd hji hne
  · rw [others_returned hs hi hp j r hne hold]
    rfl

theorem exported_eq_completed (hs : s.Sound options) (hi : s.flushes[i]? = some .attempted) : s.exported = s.completed := by
  have hnone : s.inFlight = [] := inFlight_eq (others_returned hs hi nofun) hi
  rw [hs.passed, hnone, List.append_nil]

theorem sound_loop (hs : s.Sound options) (hi : s.flushes[i]? = some .attempted) : (s.loop options i).Sound options := by
  have hexported := exported_eq_completed hs hi
  have hothers := others_returned hs hi nofun
  unfold loop
  split
  · have hall : ∀ p ∈ s.flushes.set i .returned, p = .returned := by
      intro p hp
      obtain ⟨j, hj⟩ := List.getElem?_of_mem hp
      rcases Pool.getElem?_set_cases hj with ⟨-, hreturned⟩ | ⟨hne, hold⟩
      · exact hreturned
      · exact hothers j p hne hold
    refine ⟨?_, ?_, ?_, hs.bounded, hs.once, hs.kept, ?_⟩
    · intro j k p q hj hk hp
      exact absurd (hall p (List.mem_of_getElem? hj)) hp
    · intro p hp hne
      exact absurd (hall p hp) hne
    · show s.exported = s.completed ++ (s.flushes.set i .returned).flatMap FlushPhase.batch
      rw [inFlight_set hs hi nofun, hexported]
      exact (List.append_nil _).symm
    · exact hs.counted
  · have hsplit : s.exported ++ s.queue.take options.maxBatchSize ++ s.queue.drop options.maxBatchSize =
        s.exported ++ s.queue := by
      rw [List.append_assoc, List.take_append_drop]
    refine ⟨alone_set hs hi nofun, ?_, ?_, ?_, ?_, ?_, hs.counted⟩
    · intro _ _ _
      exact hs.flag _ (List.mem_of_getElem? hi) nofun
    · show s.exported ++ _ = s.completed ++ (s.flushes.set i _).flatMap FlushPhase.batch
      rw [inFlight_set hs hi nofun, hexported]
      rfl
    · show (s.queue.drop options.maxBatchSize).length ≤ options.maxQueueSize
      rw [List.length_drop]
      exact (Nat.sub_le _ _).trans hs.bounded
    · show (s.exported ++ s.queue.take _ ++ s.queue.drop _ ++ s.lost).Nodup
      rw [hsplit]
      exact hs.once
    · intro span
      show span ∈ s.exported ++ s.queue.take _ ++ s.queue.drop _ ++ s.lost ↔ _
      rw [hsplit]
      exact hs.kept span

theorem sound_begin (hs : s.Sound options) (hidle : s.flushing = false) :
    Sound options { s with flushing := true, flushes := s.flushes ++ [FlushPhase.attempted] } := by
  have hall := all_returned hs hidle
  have hlast : ∀ (j : Nat) (p : FlushPhase), (s.flushes ++ [FlushPhase.attempted])[j]? = some p → p ≠ .returned →
      j = s.flushes.length := by
    intro j p hj hp
    rcases Pool.getElem?_append_cases hj with ⟨hji, -⟩ | hold
    · exact hji
    · exact absurd (hall p (List.mem_of_getElem? hold)) hp
  refine ⟨?_, fun _ _ _ => rfl, ?_, hs.bounded, hs.once, hs.kept, hs.counted⟩
  · intro j k p q hj hk hp hq
    rw [hlast j p hj hp, hlast k q hk hq]
  · show s.exported = s.completed ++ (s.flushes ++ [FlushPhase.attempted]).flatMap FlushPhase.batch
    rw [List.flatMap_append, hs.passed]
    exact congrArg _ (List.append_nil _).symm

theorem sound_skip (hs : s.Sound options) : Sound options { s with flushes := s.flushes ++ [.returned] } := by
  have hold : ∀ (j : Nat) (p : FlushPhase), (s.flushes ++ [FlushPhase.returned])[j]? = some p → p ≠ .returned →
      s.flushes[j]? = some p := by
    intro j p hj hp
    rcases Pool.getElem?_append_cases hj with ⟨-, hreturned⟩ | hold
    · exact absurd hreturned hp
    · exact hold
  refine ⟨?_, ?_, ?_, hs.bounded, hs.once, hs.kept, hs.counted⟩
  · intro j k p q hj hk hp hq
    exact hs.alone j k p q (hold j p hj hp) (hold k q hk hq) hp hq
  · intro p hmem hp
    rcases List.mem_append.mp hmem with hmem | hlast
    · exact hs.flag p hmem hp
    · exact absurd (List.mem_singleton.mp hlast) hp
  · show s.exported = s.completed ++ (s.flushes ++ [FlushPhase.returned]).flatMap FlushPhase.batch
    rw [List.flatMap_append, hs.passed]
    exact congrArg _ (List.append_nil _).symm

theorem sound_flush (hs : s.Sound options) : (s.flush options).Sound options := by
  unfold flush
  split
  · exact sound_skip hs
  · rename_i hidle
    exact sound_loop (sound_begin hs (Bool.eq_false_of_not_eq_true hidle)) List.getElem?_concat_length

theorem sound_settle {batch : List Nat} (hs : s.Sound options) (hi : s.flushes[i]? = some (.exporting batch)) :
    (s.settle i batch).Sound options := by
  have hbatch : s.inFlight = batch := inFlight_eq (others_returned hs hi nofun) hi
  refine ⟨alone_set hs hi nofun, ?_, ?_, hs.bounded, hs.once, hs.kept, hs.counted⟩
  · intro _ _ _
    exact hs.flag _ (List.mem_of_getElem? hi) nofun
  · show s.exported = s.completed ++ batch ++ (s.flushes.set i .attempted).flatMap FlushPhase.batch
    rw [inFlight_set hs hi nofun, hs.passed, hbatch]
    exact (List.append_nil _).symm

/-! ## Spans -/

theorem sound_startSpan (hs : s.Sound options) : Sound options { s with ended := s.ended ++ [false] } := by
  refine ⟨hs.alone, hs.flag, hs.passed, hs.bounded, hs.once, ?_, hs.counted⟩
  intro span
  rw [show span ∈ s.exported ++ s.queue ++ s.lost ↔ s.ended[span]? = some true from hs.kept span]
  constructor
  · exact Pool.getElem?_append_of_some
  · intro hspan
    rcases Pool.getElem?_append_cases hspan with ⟨-, htrue⟩ | hold
    · cases htrue
    · exact hold

theorem sound_endSpan (hs : s.Sound options) (span : Nat) : (s.endSpan options span).Sound options := by
  unfold endSpan
  split
  · rename_i hopen
    have hnew : span ∉ s.exported ++ s.queue ++ s.lost := by
      rw [hs.kept, hopen]
      exact nofun
    have honce : (s.exported ++ s.queue ++ s.lost ++ [span]).Nodup := by
      refine List.nodup_append.mpr ⟨hs.once, List.nodup_singleton _, ?_⟩
      intro other hother _ hlast heq
      exact hnew (List.mem_singleton.mp hlast ▸ heq ▸ hother)
    have hended : ∀ other, (s.ended.set span true)[other]? = some true ↔ other = span ∨ s.ended[other]? = some true := by
      intro other
      by_cases hother : other = span
      · subst hother
        exact iff_of_true (Pool.getElem?_set_self_of_some hopen) (.inl rfl)
      · rw [List.getElem?_set_ne (Ne.symm hother), or_iff_right hother]
    unfold enqueue
    dsimp only
    split
    · refine ⟨hs.alone, hs.flag, hs.passed, hs.bounded, ?_, ?_, ?_⟩
      · show (s.exported ++ s.queue ++ (s.lost ++ [span])).Nodup
        rw [← List.append_assoc]
        exact honce
      · intro other
        show other ∈ s.exported ++ s.queue ++ (s.lost ++ [span]) ↔ _
        rw [← List.append_assoc, List.mem_append, hs.kept, List.mem_singleton, hended, or_comm]
      · show s.reported + (s.dropped + 1) = (s.lost ++ [span]).length
        rw [List.length_append, List.length_singleton, ← hs.counted, Nat.add_assoc]
    · rename_i hroom
      have hperm : (s.exported ++ (s.queue ++ [span]) ++ s.lost).Perm (s.exported ++ s.queue ++ s.lost ++ [span]) := by
        rw [← List.append_assoc, List.append_assoc _ [span], List.append_assoc _ s.lost]
        exact List.Perm.append_left _ List.perm_append_comm
      refine ⟨hs.alone, hs.flag, hs.passed, ?_, ?_, ?_, hs.counted⟩
      · show (s.queue ++ [span]).length ≤ options.maxQueueSize
        rw [List.length_append, List.length_singleton]
        omega
      · show (s.exported ++ (s.queue ++ [span]) ++ s.lost).Nodup
        exact hperm.nodup_iff.mpr honce
      · intro other
        show other ∈ s.exported ++ (s.queue ++ [span]) ++ s.lost ↔ _
        rw [hperm.mem_iff, List.mem_append, hs.kept, List.mem_singleton, hended, or_comm]
  · exact hs

/-! ## Stops -/

/-- What was enqueued and completed stays so, and where a flush returns all that was enqueued is completed. -/
theorem drained_of (hd : s.Drained) (hstops : s'.stops = s.stops) (hlength : s.flushes.length ≤ s'.flushes.length)
    (henqueued : ∀ span ∈ s.enqueued, span ∈ s'.enqueued) (hcompleted : ∀ span ∈ s.completed, span ∈ s'.completed)
    (hreturned : ∀ j < s.flushes.length, s'.flushes[j]? = some .returned →
      s.flushes[j]? = some .returned ∨ ∀ span ∈ s'.enqueued, span ∈ s'.completed) : s'.Drained := by
  intro stop hstop
  rw [hstops] at hstop
  obtain ⟨hlt, hbefore, hdone⟩ := hd stop hstop
  refine ⟨hlt.trans_le hlength, fun span hspan => henqueued span (hbefore span hspan), fun hnow span hspan => ?_⟩
  rcases hreturned stop.flush hlt hnow with hthen | hall
  · exact hcompleted span (hdone hthen span hspan)
  · exact hall span (henqueued span (hbefore span hspan))

theorem enqueued_loop (s : OtlpTracer) (i : Nat) : (s.loop options i).enqueued = s.enqueued := by
  unfold loop
  split
  · rfl
  · show s.exported ++ s.queue.take _ ++ s.queue.drop _ = s.exported ++ s.queue
    rw [List.append_assoc, List.take_append_drop]

theorem loop_frame (options : OtlpTracerOptions) (s : OtlpTracer) (i : Nat) : (s.loop options i).completed = s.completed ∧
    (s.loop options i).stops = s.stops ∧ (s.loop options i).flushes.length = s.flushes.length := by
  unfold loop
  split
  · exact ⟨rfl, rfl, List.length_set⟩
  · exact ⟨rfl, rfl, List.length_set⟩

/-- A flush returns when nothing is queued and no batch is out. -/
theorem completed_of_loop (hs : s.Sound options) (hi : s.flushes[i]? = some .attempted)
    (hreturned : (s.loop options i).flushes[i]? = some .returned) : ∀ span ∈ s.enqueued, span ∈ s.completed := by
  unfold loop at hreturned
  split at hreturned
  · rename_i hempty
    unfold enqueued
    rw [hempty, List.append_nil, exported_eq_completed hs hi]
    exact fun span hspan => hspan
  · rw [Pool.getElem?_set_self_of_some hi] at hreturned
    cases hreturned

theorem loop_others {j : Nat} (hne : j ≠ i) : (s.loop options i).flushes[j]? = s.flushes[j]? := by
  unfold loop
  split
  · exact List.getElem?_set_ne hne.symm
  · exact List.getElem?_set_ne hne.symm

theorem drained_loop (hs : s.Sound options) (hd : s.Drained) (hi : s.flushes[i]? = some .attempted) :
    (s.loop options i).Drained := by
  obtain ⟨hcompleted, hstops, hlength⟩ := loop_frame options s i
  refine drained_of hd hstops hlength.ge ?_ ?_ ?_
  · intro span hspan
    rw [enqueued_loop]
    exact hspan
  · intro span hspan
    rw [hcompleted]
    exact hspan
  · intro j _ hreturned
    by_cases hji : j = i
    · subst hji
      rw [enqueued_loop, hcompleted]
      exact .inr (completed_of_loop hs hi hreturned)
    · rw [loop_others hji] at hreturned
      exact .inl hreturned

/-- A call of `flush` that has come so far leaves the stops before it as they were. -/
theorem drained_call (hd : s.Drained) (flushing : Bool) (p : FlushPhase) :
    Drained { s with flushing, flushes := s.flushes ++ [p] } := by
  refine drained_of hd rfl ?_ (fun _ hspan => hspan) (fun _ hspan => hspan) ?_
  · show s.flushes.length ≤ (s.flushes ++ [p]).length
    rw [List.length_append]
    exact Nat.le_add_right _ _
  · intro j hj hreturned
    exact .inl ((List.getElem?_append_left hj).symm.trans hreturned)

theorem drained_flush (hs : s.Sound options) (hd : s.Drained) : (s.flush options).Drained := by
  unfold flush
  split
  · exact drained_call hd _ _
  · rename_i hidle
    exact drained_loop (sound_begin hs (Bool.eq_false_of_not_eq_true hidle)) (drained_call hd _ _)
      List.getElem?_concat_length

theorem drained_settle {batch : List Nat} (hd : s.Drained) : (s.settle i batch).Drained := by
  refine drained_of hd rfl List.length_set.ge (fun _ hspan => hspan) ?_ ?_
  · intro span hspan
    exact List.mem_append_left _ hspan
  · intro j _ hreturned
    rcases Pool.getElem?_set_cases hreturned with ⟨-, hattempted⟩ | ⟨-, hold⟩
    · cases hattempted
    · exact .inl hold

theorem drained_endSpan (hd : s.Drained) (span : Nat) : (s.endSpan options span).Drained := by
  unfold endSpan
  split
  · unfold enqueue
    dsimp only
    split
    · exact hd
    · refine drained_of hd rfl (Nat.le_refl _) ?_ (fun _ hspan => hspan) fun j _ hreturned => .inl hreturned
      intro other hother
      show other ∈ s.exported ++ (s.queue ++ [span])
      rw [← List.append_assoc]
      exact List.mem_append_left _ hother
  · exact hd

theorem flush_frame (options : OtlpTracerOptions) (s : OtlpTracer) : (s.flush options).stops = s.stops ∧ (s.flush options).enqueued = s.enqueued ∧
    (s.flush options).completed = s.completed ∧ (s.flush options).flushes.length = s.flushes.length + 1 := by
  unfold flush
  split
  · exact ⟨rfl, rfl, rfl, List.length_append⟩
  · obtain ⟨hcompleted, hstops, hlength⟩ := loop_frame options
      { s with flushing := true, flushes := s.flushes ++ [FlushPhase.attempted] } s.flushes.length
    exact ⟨hstops, enqueued_loop _ _, hcompleted, hlength.trans List.length_append⟩

/-- Where the flush of a `stop` has returned at once, all was completed before. -/
theorem completed_of_flush (hs : s.Sound options) (hquiet : s.Drainable)
    (hreturned : (s.flush options).flushes[s.flushes.length]? = some .returned) :
    ∀ span ∈ s.enqueued, span ∈ s.completed := by
  unfold flush at hreturned
  split at hreturned
  · rename_i hflushing
    obtain ⟨hqueue, hflight⟩ := hquiet hflushing
    unfold enqueued
    rw [hqueue, List.append_nil, hs.passed, hflight, List.append_nil]
    exact fun span hspan => hspan
  · rename_i hidle
    have hbegun := sound_begin hs (Bool.eq_false_of_not_eq_true hidle)
    have hall := completed_of_loop hbegun List.getElem?_concat_length hreturned
    exact hall

theorem drained_stop (hs : s.Sound options) (hd : s.Drained) (hquiet : s.Drainable) : (s.stop options).Drained := by
  obtain ⟨hstops, henqueued, hcompleted, hlength⟩ := flush_frame options s
  have hflush : (s.flush options).Drained := drained_flush hs hd
  intro stop hstop
  have hstop' : stop ∈ (s.flush options).stops ++ [⟨s.flushes.length, s.enqueued⟩] := by
    rw [hstops]
    exact hstop
  rcases List.mem_append.mp hstop' with hold | hnew
  · exact hflush stop hold
  · rw [List.mem_singleton.mp hnew]
    refine ⟨?_, ?_, ?_⟩
    · show s.flushes.length < (s.flush options).flushes.length
      omega
    · intro span hspan
      show span ∈ (s.flush options).enqueued
      rw [henqueued]
      exact hspan
    · intro hreturned span hspan
      show span ∈ (s.flush options).completed
      rw [hcompleted]
      exact completed_of_flush hs hquiet hreturned span hspan

/-- A `stop` at another moment has returned before what is left was exported. -/
theorem not_drained_stop (hs : s.Sound options) (hbusy : ¬ s.Drainable) : ∃ stop ∈ (s.stop options).stops,
    (s.stop options).flushes[stop.flush]? = some .returned ∧ ∃ span ∈ stop.enqueuedBefore, span ∉ (s.stop options).completed := by
  obtain ⟨hflushing, hleft⟩ := Classical.not_imp.mp hbusy
  have hflush : s.flush options = { s with flushes := s.flushes ++ [.returned] } := if_pos hflushing
  have hspan : ∃ span, span ∈ s.inFlight ++ s.queue := by
    by_contra hnone
    refine hleft (and_comm.mp (List.append_eq_nil_iff.mp ?_))
    exact List.eq_nil_iff_forall_not_mem.mpr fun span hmem => hnone ⟨span, hmem⟩
  obtain ⟨span, hmem⟩ := hspan
  have henqueued : s.enqueued = s.completed ++ (s.inFlight ++ s.queue) := by
    unfold enqueued
    rw [hs.passed, List.append_assoc]
  have hnodup : s.enqueued.Nodup := (List.nodup_append.mp hs.once).1
  rw [henqueued] at hnodup
  refine ⟨⟨s.flushes.length, s.enqueued⟩, List.mem_append_right _ (List.mem_singleton_self _), ?_, span, ?_, ?_⟩
  · show (s.flush options).flushes[s.flushes.length]? = some .returned
    rw [hflush]
    exact List.getElem?_concat_length
  · show span ∈ s.enqueued
    rw [henqueued]
    exact List.mem_append_right _ hmem
  · show span ∉ (s.flush options).completed
    rw [hflush]
    exact fun hcompleted => (List.nodup_append.mp hnodup).2.2 span hcompleted span hmem rfl

/-! ## Every run -/

theorem sound_start : start.Sound options where
  alone _ _ _ _ hi := nomatch hi
  flag _ hp := nomatch hp
  passed := rfl
  bounded := Nat.zero_le _
  once := List.nodup_nil
  kept _ := iff_of_false List.not_mem_nil nofun
  counted := rfl

inductive OtlpStep (options : OtlpTracerOptions) (s : OtlpTracer) : OtlpLabel → OtlpTracer → Prop
  | startSpan : OtlpStep options s .startSpan { s with ended := s.ended ++ [false] }
  | endSpan (span : Nat) : OtlpStep options s (.endSpan span) (s.endSpan options span)
  | flush : OtlpStep options s .flush (s.flush options)
  | settle {i : Nat} {batch : List Nat} {ok : Bool} : s.flushes[i]? = some (.exporting batch) →
    OtlpStep options s (.settle i ok) (s.settle i batch)
  | resume {i : Nat} : s.flushes[i]? = some .attempted → OtlpStep options s (.resume i) (s.loop options i)
  | stop : OtlpStep options s .stop (s.stop options)

theorem otlpStep_cases {l : OtlpLabel} (h : step options s l = some s') : OtlpStep options s l s' := by
  cases l with
  | startSpan =>
    cases h
    exact .startSpan
  | endSpan span =>
    cases h
    exact .endSpan span
  | flush =>
    cases h
    exact .flush
  | settle i ok =>
    simp only [step] at h
    split at h
    · rename_i batch hi
      cases h
      exact .settle hi
    · cases h
  | resume i =>
    simp only [step] at h
    split at h
    · rename_i hi
      cases h
      exact .resume hi
    · cases h
  | stop =>
    cases h
    exact .stop

theorem sound_step {l : OtlpLabel} (hs : s.Sound options) (h : step options s l = some s') : s'.Sound options := by
  cases otlpStep_cases h with
  | startSpan => exact sound_startSpan hs
  | endSpan span => exact sound_endSpan hs span
  | flush => exact sound_flush hs
  | settle hi => exact sound_settle hs hi
  | resume hi => exact sound_loop hs hi
  | stop =>
    have hflush : (s.flush options).Sound options := sound_flush hs
    exact ⟨hflush.alone, hflush.flag, hflush.passed, hflush.bounded, hflush.once, hflush.kept, hflush.counted⟩

theorem drained_step {l : OtlpLabel} (hs : s.Sound options) (hd : s.Drained) (hquiet : s.DrainableStop l)
    (h : step options s l = some s') : s'.Drained := by
  cases otlpStep_cases h with
  | startSpan => exact hd
  | endSpan span => exact drained_endSpan hd span
  | flush => exact drained_flush hs hd
  | settle hi => exact drained_settle hd
  | resume hi => exact drained_loop hs hd hi
  | stop => exact drained_stop hs hd (hquiet rfl)

/-- In every run the queue is bounded, no span is exported twice, and each span that
ended is exported, queued or counted as dropped, and only one of these. If each `stop`
of the run waits, what was enqueued before one has been exported when it resolves. -/
theorem shutdown_drains (options : OtlpTracerOptions) {ls : List OtlpLabel} {s : OtlpTracer}
    (h : Runs.run (step options) start ls = some s) :
    s.queue.length ≤ options.maxQueueSize ∧ s.exported.Nodup ∧
      ((s.exported ++ s.queue ++ s.lost).Nodup ∧
        (∀ span, span ∈ s.exported ++ s.queue ++ s.lost ↔ s.ended[span]? = some true) ∧
        s.reported + s.dropped = s.lost.length) ∧
      (Runs.Meets (step options) DrainableStop start ls → ∀ stop ∈ s.stops,
        s.flushes[stop.flush]? = some .returned → ∀ span ∈ stop.enqueuedBefore, span ∈ s.completed) := by
  have hs : s.Sound options := Runs.invariant sound_step sound_start h
  have hexported : s.exported.Nodup := (List.nodup_append.mp (List.nodup_append.mp hs.once).1).1
  refine ⟨hs.bounded, hexported, ⟨hs.once, hs.kept, hs.counted⟩, fun hquiet stop hstop => ?_⟩
  have hboth : s.Sound options ∧ s.Drained :=
    Runs.invariant_of_meets (P := fun s => s.Sound options ∧ s.Drained) (C := DrainableStop)
      (fun hs hquiet h => ⟨sound_step hs.1 h, drained_step hs.1 hs.2 hquiet h⟩)
      ⟨sound_start, fun _ hstop => nomatch hstop⟩ hquiet h
  exact (hboth.2 stop hstop).2.2

def stoppedQuietly : List OtlpLabel := [.startSpan, .endSpan 0, .stop, .settle 0 true, .resume 0]

theorem shutdown_drains_quietly : ∃ s, Runs.run (step ⟨2048, 256⟩) start stoppedQuietly = some s ∧
    ∀ stop ∈ s.stops, s.flushes[stop.flush]? = some .returned → ∀ span ∈ stop.enqueuedBefore, span ∈ s.completed := by
  have hrun : (Runs.run (step ⟨2048, 256⟩) start stoppedQuietly).isSome = true ∧
      Runs.Meets (step ⟨2048, 256⟩) DrainableStop start stoppedQuietly := by decide +kernel
  obtain ⟨s, hs⟩ := Option.isSome_iff_exists.mp hrun.1
  exact ⟨s, hs, (shutdown_drains ⟨2048, 256⟩ hs).2.2.2 hrun.2⟩

def stoppedEarly : List OtlpLabel := [.startSpan, .endSpan 0, .flush, .stop]

theorem shutdown_loses : ¬ ∀ (options : OtlpTracerOptions) (ls : List OtlpLabel) (s : OtlpTracer),
    Runs.run (step options) start ls = some s → ∀ stop ∈ s.stops,
      s.flushes[stop.flush]? = some .returned → ∀ span ∈ stop.enqueuedBefore, span ∈ s.completed := by
  intro hall
  have hrun : Runs.run (step ⟨2048, 256⟩) start stoppedEarly =
      some ⟨[true], [], 0, true, [.exporting [0], .returned], [⟨1, [0]⟩], [0], [], [], 0⟩ := by decide +kernel
  have hlost := hall _ _ _ hrun ⟨1, [0]⟩ (List.mem_singleton_self _) rfl 0 (List.mem_singleton_self _)
  cases hlost

end OtlpTracer

end Paymaster
