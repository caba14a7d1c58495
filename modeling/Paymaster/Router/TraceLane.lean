import Paymaster.Lib.Pool
import Paymaster.Lib.Run
import Paymaster.Lib.TokenBucket
import Paymaster.Router.RpcRouter

/-!
# The trace lane

Requests to the upstream of the tracing calls take a token each before they are
sent, and queue up where there is none; a timer refills the bucket and lets the
queue go on. An attempt that fails is made again after a pause, without a token.
Each event happens at one moment of a clock that never goes back. To send is to
call `postJson`, whose agent may still hold the request back for a socket.
-/

namespace Paymaster

open TokenBucket

inductive TracePhase
  | waiting
  | posted (attempt : Nat)
  | backingOff (attempt resumesAt : Nat)
  | ended
deriving DecidableEq

structure TraceSend where
  time : Nat
  request : Nat
  attempt : Nat
deriving DecidableEq

/-- The calls of `forward` are numbered as they arrive, in milliseconds of `Date.now()`. -/
structure TraceLane where
  tokens : ℚ
  lastRefill : Nat
  waiters : List Nat
  requests : List TracePhase
  sends : List TraceSend
  now : Nat

inductive TraceLabel
  | request (time : Nat)
  | tick (time : Nat)
  /-- What comes of the attempt that is out. -/
  | result (time i : Nat) (result : PostResult)
  /-- The pause after an attempt is over. -/
  | resume (time i : Nat)

def TraceLabel.time : TraceLabel → Nat
  | .request time => time
  | .tick time => time
  | .result time _ _ => time
  | .resume time _ => time

namespace TraceLane

variable (rps : NNRat) (s : TraceLane)

def start (now : Nat) : TraceLane := ⟨rps, now, [], [], [], now⟩

def setRequest (i : Nat) (phase : TracePhase) : TraceLane := { s with requests := s.requests.set i phase }

def send (i attempt : Nat) : TraceLane :=
  { s.setRequest i (.posted attempt) with sends := s.sends ++ [⟨s.now, i, attempt⟩] }

def request : TraceLane :=
  if 1 ≤ s.tokens then
    { s with
      tokens := s.tokens - 1
      requests := s.requests ++ [.posted 0]
      sends := s.sends ++ [⟨s.now, s.requests.length, 0⟩] }
  else { s with waiters := s.waiters ++ [s.requests.length], requests := s.requests ++ [.waiting] }

def serve (s : TraceLane) : List Nat → TraceLane
  | [] => s
  | i :: waiters =>
    if 1 ≤ s.tokens then serve ({ s with tokens := s.tokens - 1, waiters }.send i 0) waiters else s

def refill : TraceLane :=
  { s with tokens := min rps (s.tokens + (s.now - s.lastRefill) / 1000 * rps), lastRefill := s.now }

def tick : TraceLane := (s.refill rps).serve s.waiters

/-- A pause after each attempt, also after the last one that was refused. -/
def pause (i attempt : Nat) : TraceLane := s.setRequest i (.backingOff attempt (s.now + 300 * (attempt + 1)))

def result (i attempt : Nat) : PostResult → TraceLane
  | .response status _ => if status = 429 ∨ status = 503 then s.pause i attempt else s.setRequest i .ended
  | .failed _ => if attempt = 4 then s.setRequest i .ended else s.pause i attempt

def resume (i attempt : Nat) : TraceLane :=
  if attempt + 1 < 5 then s.send i (attempt + 1) else s.setRequest i .ended

def act (s : TraceLane) : TraceLabel → Option TraceLane
  | .request _ => some s.request
  | .tick _ => some (s.tick rps)
  | .result _ i result =>
    match s.requests[i]? with
    | some (.posted attempt) => some (s.result i attempt result)
    | _ => none
  | .resume _ i =>
    match s.requests[i]? with
    | some (.backingOff attempt resumesAt) => if resumesAt ≤ s.now then some (s.resume i attempt) else none
    | _ => none

def step (l : TraceLabel) : Option TraceLane :=
  if s.now ≤ l.time then act rps { s with now := l.time } l else none

/-! ## What was sent -/

def firstSends : List TraceSend := s.sends.filter fun sent => sent.attempt = 0

def sentWithin (a T : Nat) : Nat := (Window.within a T (s.sends.map TraceSend.time)).length

def firstSentWithin (a T : Nat) : Nat := (Window.within a T (s.firstSends.map TraceSend.time)).length

def timesSent (i : Nat) : Nat := s.sends.countP fun sent => sent.request = i

def history : History := ⟨⟨s.tokens, s.lastRefill⟩, s.now, s.firstSends.map TraceSend.time⟩

end TraceLane

def TracePhase.Sent (n : Nat) : TracePhase → Prop
  | .waiting => n = 0
  | .posted attempt => attempt < 5 ∧ n = attempt + 1
  | .backingOff attempt _ => attempt < 5 ∧ n = attempt + 1
  | .ended => n ≤ 5

namespace TraceLane

/-- The invariant: tokens are given within the rate, and in the order of arrival. -/
structure Sound (rps : NNRat) (s : TraceLane) : Prop where
  bounded : ∀ a T, Bounded rps (rps / 1000) a T s.history
  ordered : s.firstSends.map TraceSend.request ++ s.waiters = List.range s.requests.length
  waiting : ∀ i ∈ s.waiters, s.requests[i]? = some .waiting
  sent : ∀ i phase, s.requests[i]? = some phase → TracePhase.Sent (s.timesSent i) phase
  unsent : ∀ i, s.requests[i]? = none → s.timesSent i = 0

def Settled (s : TraceLane) : Prop := s.waiters ≠ [] → s.tokens < 1

variable {rps : NNRat} {s s' : TraceLane} {i attempt : Nat}

theorem rate_nonneg (rps : NNRat) : 0 ≤ (rps : ℚ) / 1000 := div_nonneg rps.coe_nonneg (by norm_num)

theorem history_refill (s : TraceLane) : (s.refill rps).history = s.history.refill rps (rps / 1000) := by
  have hadded : s.tokens + (s.now - s.lastRefill) / 1000 * rps = s.tokens + (s.now - s.lastRefill) * (rps / 1000) := by ring
  unfold history refill History.refill Bucket.refill
  dsimp only
  rw [hadded]
  rfl

theorem history_first {s' : TraceLane} (hsends : s'.sends = s.sends ++ [⟨s.now, i, 0⟩]) (htokens : s'.tokens = s.tokens - 1)
    (hrefill : s'.lastRefill = s.lastRefill) (hnow : s'.now = s.now) :
    s'.firstSends = s.firstSends ++ [⟨s.now, i, 0⟩] ∧ s'.history = s.history.take := by
  have hfirst : s'.firstSends = s.firstSends ++ [⟨s.now, i, 0⟩] := by
    unfold firstSends
    rw [hsends, List.filter_append]
    rfl
  refine ⟨hfirst, ?_⟩
  unfold history
  rw [hfirst, htokens, hrefill, hnow, List.map_append]
  rfl

theorem timesSent_snoc {s' : TraceLane} {t : Nat} (hsends : s'.sends = s.sends ++ [⟨t, i, attempt⟩]) (j : Nat) :
    s'.timesSent j = s.timesSent j + if j = i then 1 else 0 := by
  unfold timesSent
  rw [hsends, List.countP_append, List.countP_singleton]
  congr 1
  exact if_congr (decide_eq_true_iff.trans eq_comm) rfl rfl

theorem getElem?_snoc_of_ne {phases : List TracePhase} {phase : TracePhase} {j : Nat} (hne : j ≠ phases.length) :
    (phases ++ [phase])[j]? = phases[j]? := by
  rcases Nat.lt_or_ge j phases.length with hlt | hge
  · exact List.getElem?_append_left hlt
  · rw [List.getElem?_eq_none (by rw [List.length_append, List.length_singleton]; omega), List.getElem?_eq_none hge]

/-- A token for the request that is next. -/
theorem sound_first (hs : s.Sound rps) (hone : 1 ≤ s.tokens) (hsends : s'.sends = s.sends ++ [⟨s.now, i, 0⟩])
    (htokens : s'.tokens = s.tokens - 1) (hrefill : s'.lastRefill = s.lastRefill) (hnow : s'.now = s.now)
    (hordered : s.firstSends.map TraceSend.request ++ i :: s'.waiters = List.range s'.requests.length)
    (hwaiting : ∀ j ∈ s'.waiters, s'.requests[j]? = some .waiting) (hi : s'.requests[i]? = some (.posted 0))
    (hothers : ∀ j ≠ i, s'.requests[j]? = s.requests[j]?) (hunsent : s.timesSent i = 0) : s'.Sound rps := by
  obtain ⟨hfirst, hhistory⟩ := history_first hsends htokens hrefill hnow
  have htimes := timesSent_snoc hsends
  refine ⟨?_, ?_, hwaiting, ?_, ?_⟩
  · intro a T
    rw [hhistory]
    exact bounded_take (rate_nonneg rps) (hs.bounded a T) hone
  · rw [hfirst, List.map_append, List.append_assoc]
    exact hordered
  · intro j phase hj
    rw [htimes]
    by_cases hji : j = i
    · subst hji
      rw [hi, Option.some.injEq] at hj
      subst hj
      rw [if_pos rfl, hunsent]
      exact ⟨by decide, rfl⟩
    · rw [if_neg hji]
      rw [hothers j hji] at hj
      exact hs.sent j phase hj
  · intro j hj
    have hji : j ≠ i := by
      rintro rfl
      rw [hi] at hj
      cases hj
    rw [htimes, if_neg hji]
    rw [hothers j hji] at hj
    exact hs.unsent j hj

theorem range_snoc {requests waiters : List Nat} {n : Nat} (h : requests ++ waiters = List.range n) :
    requests ++ waiters ++ [n] = List.range (n + 1) := by
  rw [h, List.range_succ]

theorem sound_request (hs : s.Sound rps) (hsettled : s.Settled) : s.request.Sound rps ∧ s.request.Settled := by
  have hnew : s.requests[s.requests.length]? = none := List.getElem?_eq_none (Nat.le_refl _)
  have hunsent := hs.unsent _ hnew
  unfold request
  split
  · rename_i hone
    have hnone : s.waiters = [] := by
      by_contra hwaits
      exact absurd hone (not_le.mpr (hsettled hwaits))
    refine ⟨sound_first hs hone rfl rfl rfl rfl ?_ ?_ ?_ ?_ hunsent, fun hwaits => absurd hnone hwaits⟩
    · have hordered := range_snoc hs.ordered
      rw [hnone, List.append_nil] at hordered
      show s.firstSends.map TraceSend.request ++ s.requests.length :: s.waiters = List.range (s.requests ++ [_]).length
      rw [hnone, List.length_append, List.length_singleton]
      exact hordered
    · intro j hj
      have hj' : j ∈ s.waiters := hj
      rw [hnone] at hj'
      cases hj'
    · exact List.getElem?_concat_length
    · exact fun j hne => getElem?_snoc_of_ne hne
  · rename_i hone
    refine ⟨⟨hs.bounded, ?_, ?_, ?_, ?_⟩, fun _ => not_le.mp hone⟩
    · show s.firstSends.map TraceSend.request ++ (s.waiters ++ [s.requests.length]) = List.range (s.requests ++ [_]).length
      rw [List.length_append, List.length_singleton, ← List.append_assoc]
      exact range_snoc hs.ordered
    · intro j hj
      rcases List.mem_append.mp hj with hold | hlast
      · have hwaits := hs.waiting j hold
        exact (List.getElem?_append_left (List.getElem?_eq_some_iff.mp hwaits).1).trans hwaits
      · rw [List.mem_singleton.mp hlast]
        exact List.getElem?_concat_length
    · intro j phase hj
      have hj' : (s.requests ++ [TracePhase.waiting])[j]? = some phase := hj
      by_cases hlast : j = s.requests.length
      · rw [hlast, List.getElem?_concat_length, Option.some.injEq] at hj'
        subst hj'
        rw [hlast]
        exact hunsent
      · rw [getElem?_snoc_of_ne hlast] at hj'
        exact hs.sent j phase hj'
    · intro j hj
      have hj' : (s.requests ++ [TracePhase.waiting])[j]? = none := hj
      have hlast : j ≠ s.requests.length := by
        rintro rfl
        rw [List.getElem?_concat_length] at hj'
        cases hj'
      rw [getElem?_snoc_of_ne hlast] at hj'
      exact hs.unsent j hj'

theorem sound_serve_one {waiters : List Nat} (hs : s.Sound rps) (hwaiters : s.waiters = i :: waiters) (hone : 1 ≤ s.tokens) :
    Sound rps ({ s with tokens := s.tokens - 1, waiters }.send i 0) := by
  have hi : s.requests[i]? = some .waiting := hs.waiting i (hwaiters ▸ List.mem_cons_self)
  have hordered := hs.ordered
  rw [hwaiters] at hordered
  have hnodup : (i :: waiters).Nodup := by
    have hall := List.nodup_range (n := s.requests.length)
    rw [← hordered] at hall
    exact (List.nodup_append.mp hall).2.1
  refine sound_first hs hone rfl rfl rfl rfl ?_ ?_ ?_ ?_ (hs.sent i .waiting hi)
  · show s.firstSends.map TraceSend.request ++ i :: waiters = List.range (s.requests.set i (.posted 0)).length
    rw [List.length_set]
    exact hordered
  · intro j hj
    have hne : i ≠ j := by
      rintro rfl
      exact (List.nodup_cons.mp hnodup).1 hj
    exact (List.getElem?_set_ne hne).trans (hs.waiting j (hwaiters ▸ List.mem_cons_of_mem _ hj))
  · exact Pool.getElem?_set_self_of_some hi
  · exact fun j hne => List.getElem?_set_ne hne.symm

/-- By induction on those that wait: either no one is left, or no token. -/
theorem sound_serve : ∀ {waiters : List Nat} {s : TraceLane}, s.Sound rps → s.waiters = waiters →
    (s.serve waiters).Sound rps ∧ (s.serve waiters).Settled
  | [], s, hs, hwaiters => ⟨hs, fun hwaits => absurd hwaiters hwaits⟩
  | i :: waiters, s, hs, hwaiters => by
    unfold serve
    split
    · rename_i hone
      exact sound_serve (sound_serve_one hs hwaiters hone) rfl
    · rename_i hone
      exact ⟨hs, fun _ => not_le.mp hone⟩

theorem sound_tick (hs : s.Sound rps) : (s.tick rps).Sound rps ∧ (s.tick rps).Settled := by
  have hrefill : (s.refill rps).Sound rps := by
    refine ⟨?_, hs.ordered, hs.waiting, hs.sent, hs.unsent⟩
    intro a T
    rw [history_refill]
    exact bounded_refill (rate_nonneg rps) (hs.bounded a T)
  exact sound_serve hrefill rfl

theorem waiting_set {phase phase' : TracePhase} (hs : s.Sound rps) (hi : s.requests[i]? = some phase)
    (hphase : phase ≠ .waiting) : ∀ j ∈ s.waiters, (s.requests.set i phase')[j]? = some .waiting := by
  intro j hj
  have hwaits := hs.waiting j hj
  have hne : i ≠ j := by
    rintro rfl
    rw [hi, Option.some.injEq] at hwaits
    exact hphase hwaits
  exact (List.getElem?_set_ne hne).trans hwaits

/-- A request that was sent goes to a phase that it may be in after as many attempts. -/
theorem sound_setRequest {phase phase' : TracePhase} (hs : s.Sound rps) (hi : s.requests[i]? = some phase)
    (hphase : phase ≠ .waiting) (hsent : TracePhase.Sent (s.timesSent i) phase') : (s.setRequest i phase').Sound rps := by
  refine ⟨hs.bounded, ?_, ?_, ?_, ?_⟩
  · show s.firstSends.map TraceSend.request ++ s.waiters = List.range (s.requests.set i phase').length
    rw [List.length_set]
    exact hs.ordered
  · exact waiting_set hs hi hphase
  · intro j phase'' hj
    rcases Pool.getElem?_set_cases hj with ⟨rfl, rfl⟩ | ⟨-, hold⟩
    · exact hsent
    · exact hs.sent j phase'' hold
  · intro j hj
    have hj' : (s.requests.set i phase')[j]? = none := hj
    rw [List.getElem?_eq_none_iff, List.length_set, ← List.getElem?_eq_none_iff] at hj'
    exact hs.unsent j hj'

theorem sound_again {phase : TracePhase} (hs : s.Sound rps) (hi : s.requests[i]? = some phase) (hphase : phase ≠ .waiting)
    (hsent : s.timesSent i = attempt + 1) (hlast : attempt + 1 < 5) : (s.send i (attempt + 1)).Sound rps := by
  have htimes : ∀ j, (s.send i (attempt + 1)).timesSent j = s.timesSent j + if j = i then 1 else 0 := timesSent_snoc rfl
  have hfirst : (s.send i (attempt + 1)).firstSends = s.firstSends := by
    unfold firstSends send
    rw [List.filter_append]
    exact List.append_nil _
  have hhistory : (s.send i (attempt + 1)).history = s.history := by
    unfold history
    rw [hfirst]
    rfl
  refine ⟨?_, ?_, ?_, ?_, ?_⟩
  · intro a T
    rw [hhistory]
    exact hs.bounded a T
  · rw [hfirst]
    show s.firstSends.map TraceSend.request ++ s.waiters = List.range (s.requests.set i _).length
    rw [List.length_set]
    exact hs.ordered
  · exact waiting_set hs hi hphase
  · intro j phase' hj
    rw [htimes]
    rcases Pool.getElem?_set_cases hj with ⟨rfl, rfl⟩ | ⟨hne, hold⟩
    · rw [if_pos rfl, hsent]
      exact ⟨hlast, rfl⟩
    · rw [if_neg hne]
      exact hs.sent j phase' hold
  · intro j hj
    have hj' : (s.requests.set i (.posted (attempt + 1)))[j]? = none := hj
    rw [List.getElem?_eq_none_iff, List.length_set, ← List.getElem?_eq_none_iff] at hj'
    have hne : j ≠ i := by
      rintro rfl
      rw [hi] at hj'
      cases hj'
    rw [htimes, if_neg hne]
    exact hs.unsent j hj'

theorem sound_result (hs : s.Sound rps) (hi : s.requests[i]? = some (.posted attempt)) (result : PostResult) :
    (s.result i attempt result).Sound rps := by
  obtain ⟨hlast, hsent⟩ := hs.sent i _ hi
  have hended : (s.setRequest i .ended).Sound rps := sound_setRequest hs hi nofun (by rw [hsent]; exact hlast)
  have hpaused : (s.pause i attempt).Sound rps := sound_setRequest hs hi nofun ⟨hlast, hsent⟩
  unfold TraceLane.result
  split
  · split
    · exact hpaused
    · exact hended
  · split
    · exact hended
    · exact hpaused

theorem sound_resume {resumesAt : Nat} (hs : s.Sound rps) (hi : s.requests[i]? = some (.backingOff attempt resumesAt)) :
    (s.resume i attempt).Sound rps := by
  obtain ⟨hlast, hsent⟩ := hs.sent i _ hi
  unfold resume
  split
  · rename_i hmore
    exact sound_again hs hi nofun hsent hmore
  · exact sound_setRequest hs hi nofun (by rw [hsent]; exact hlast)

theorem sound_at {t : Nat} (hs : s.Sound rps) (ht : s.now ≤ t) : Sound rps { s with now := t } :=
  ⟨fun a T => bounded_at (hs.bounded a T) ht, hs.ordered, hs.waiting, hs.sent, hs.unsent⟩

theorem settled_congr {s' : TraceLane} (hs : s.Settled) (hwaiters : s'.waiters = s.waiters) (htokens : s'.tokens = s.tokens) :
    s'.Settled := by
  unfold Settled
  rw [hwaiters, htokens]
  exact hs

theorem result_frame (i attempt : Nat) (result : PostResult) :
    (s.result i attempt result).waiters = s.waiters ∧ (s.result i attempt result).tokens = s.tokens := by
  unfold TraceLane.result
  split
  · split <;> exact ⟨rfl, rfl⟩
  · split <;> exact ⟨rfl, rfl⟩

theorem resume_frame (i attempt : Nat) :
    (s.resume i attempt).waiters = s.waiters ∧ (s.resume i attempt).tokens = s.tokens := by
  unfold resume
  split <;> exact ⟨rfl, rfl⟩

theorem sound_act {l : TraceLabel} (hs : s.Sound rps) (hsettled : s.Settled) (h : act rps s l = some s') :
    s'.Sound rps ∧ s'.Settled := by
  cases l with
  | request t =>
    cases h
    exact sound_request hs hsettled
  | tick t =>
    cases h
    exact sound_tick hs
  | result t i result =>
    simp only [act] at h
    split at h
    · rename_i attempt hi
      cases h
      obtain ⟨hwaiters, htokens⟩ := result_frame (s := s) i attempt result
      exact ⟨sound_result hs hi result, settled_congr hsettled hwaiters htokens⟩
    · cases h
  | resume t i =>
    simp only [act] at h
    split at h
    · rename_i attempt resumesAt hi
      split at h
      · cases h
        obtain ⟨hwaiters, htokens⟩ := resume_frame (s := s) i attempt
        exact ⟨sound_resume hs hi, settled_congr hsettled hwaiters htokens⟩
      · cases h
    · cases h

theorem sound_step {l : TraceLabel} (hs : s.Sound rps ∧ s.Settled) (h : step rps s l = some s') :
    s'.Sound rps ∧ s'.Settled := by
  unfold step at h
  split at h
  · rename_i hclock
    exact sound_act (sound_at hs.1 hclock) hs.2 h
  · cases h

theorem sound_start (rps : NNRat) (t : Nat) : (start rps t).Sound rps ∧ (start rps t).Settled := by
  refine ⟨⟨?_, rfl, nofun, nofun, fun _ _ => rfl⟩, fun hwaits => absurd rfl hwaits⟩
  intro a T
  exact bounded_start rps.coe_nonneg (rate_nonneg rps) t

/-! ## Every run -/

/-- First attempts in a window of time, their order, and how often a request is sent. -/
theorem trace_lane_rate (rps : NNRat) {t : Nat} {ls : List TraceLabel} {s : TraceLane}
    (h : Runs.run (step rps) (start rps t) ls = some s) :
    (∀ a T : Nat, (s.firstSentWithin a T : ℚ) ≤ rps * (T / 1000) + 2 * rps) ∧
      s.firstSends.map TraceSend.request ++ s.waiters = List.range s.requests.length ∧
      ∀ i, s.timesSent i ≤ 5 := by
  obtain ⟨hs, -⟩ := Runs.invariant (P := fun s => s.Sound rps ∧ s.Settled) sound_step (sound_start rps t) h
  refine ⟨?_, hs.ordered, ?_⟩
  · intro a T
    have hbound := (hs.bounded a T).bound
    calc (s.firstSentWithin a T : ℚ) ≤ 2 * rps + T * (rps / 1000) := hbound
      _ = rps * (T / 1000) + 2 * rps := by ring
  · intro i
    cases hi : s.requests[i]? with
    | none =>
      rw [hs.unsent i hi]
      exact Nat.zero_le 5
    | some phase =>
      have hsent := hs.sent i phase hi
      cases phase with
      | waiting =>
        rw [show s.timesSent i = 0 from hsent]
        exact Nat.zero_le 5
      | posted attempt =>
        rw [hsent.2]
        exact hsent.1
      | backingOff attempt resumesAt =>
        rw [hsent.2]
        exact hsent.1
      | ended => exact hsent

def refusedFiveTimes : List TraceLabel :=
  [.request 0, .result 0 0 (.response 429 .null), .resume 300 0, .result 300 0 (.response 429 .null), .resume 900 0,
    .result 900 0 (.response 429 .null), .resume 1800 0, .result 1800 0 (.response 429 .null), .resume 3000 0]

theorem trace_lane_rate_refused :
    ∃ s, Runs.run (step 1) (start 1 0) refusedFiveTimes = some s ∧ s.timesSent 0 ≤ 5 := by
  have hrun : (Runs.run (step 1) (start 1 0) refusedFiveTimes).isSome = true := by decide +kernel
  obtain ⟨s, hs⟩ := Option.isSome_iff_exists.mp hrun
  exact ⟨s, hs, (trace_lane_rate 1 hs).2.2 0⟩

def refilledLate : List TraceLabel := [.request 1000, .tick 1000, .request 1000]

/-- Attempts that are made again come on top of the rate, and so does what came in before the window. -/
theorem trace_lane_over_rate :
    (¬ ∀ (rps : NNRat) (t : Nat) (ls : List TraceLabel) (s : TraceLane), Runs.run (step rps) (start rps t) ls = some s →
      ∀ a T : Nat, (s.sentWithin a T : ℚ) ≤ rps * (T / 1000) + rps) ∧
    ¬ ∀ (rps : NNRat) (t : Nat) (ls : List TraceLabel) (s : TraceLane), Runs.run (step rps) (start rps t) ls = some s →
      ∀ a T : Nat, (s.firstSentWithin a T : ℚ) ≤ rps * (T / 1000) + rps := by
  constructor
  · intro hall
    have hsent : (Runs.run (step 1) (start 1 0) refusedFiveTimes).map (fun s => s.sentWithin 0 3000) = some 5 := by
      decide +kernel
    obtain ⟨s, hs, hfive⟩ := Option.map_eq_some_iff.mp hsent
    have hbound := hall 1 0 refusedFiveTimes s hs 0 3000
    rw [hfive] at hbound
    norm_num at hbound
  · intro hall
    have hsent : (Runs.run (step 1) (start 1 0) refilledLate).map (fun s => s.firstSentWithin 1000 0) = some 2 := by
      decide +kernel
    obtain ⟨s, hs, htwo⟩ := Option.map_eq_some_iff.mp hsent
    have hbound := hall 1 0 refilledLate s hs 1000 0
    rw [htwo] at hbound
    norm_num at hbound

end TraceLane

end Paymaster
