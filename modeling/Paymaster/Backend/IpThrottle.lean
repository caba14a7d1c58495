import Paymaster.Backend.QuotaStore
import Paymaster.Lib.Pool
import Paymaster.Lib.Run

/-!
# Throttling by IP

Before authentication every request takes a token of its IP, and every failed
authentication counts against it: at the threshold the IP is blocked until its
window ends. Both counters are in the quota store, which the replicas share. A
check reads one and then consumes of the other; in between, other calls go on.
-/

namespace Paymaster

structure IpThrottleOptions where
  requestsPerWindow : Nat
  windowSeconds : Nat
  authFailureThreshold : Nat
  blockWindowSeconds : Nat
  windowSeconds_pos : 0 < windowSeconds
  blockWindowSeconds_pos : 0 < blockWindowSeconds

inductive IpRejection
  | throttled
  | blocked
deriving DecidableEq

inductive IpDecision
  | allowed
  | refused (reason : IpRejection) (retryAfterSeconds : Nat)
deriving DecidableEq

def rateKey (ip : String) : String := "sec:iprate:" ++ ip

def failKey (ip : String) : String := "sec:ipfail:" ++ ip

def failureCounterCeiling : Nat := 1000000

def retryAfter (now windowSeconds : Nat) : Nat := max 1 (windowEnd now windowSeconds - now)

namespace IpThrottleOptions

variable (options : IpThrottleOptions)

def isBlocked (counters : Counters) (ip : String) (now : Nat) : Bool :=
  options.authFailureThreshold ≤ usage counters (failKey ip) options.blockWindowSeconds now

def blockedDecision (now : Nat) : IpDecision := .refused .blocked (retryAfter now options.blockWindowSeconds)

def consumeRate (counters : Counters) (ip : String) (now : Nat) : QuotaOutcome × Counters :=
  tryConsume counters (rateKey ip) 1 options.requestsPerWindow options.windowSeconds now

def countFailure (counters : Counters) (ip : String) (now : Nat) : QuotaOutcome × Counters :=
  tryConsume counters (failKey ip) 1 failureCounterCeiling options.blockWindowSeconds now

end IpThrottleOptions

def rateDecision (outcome : QuotaOutcome) (now : Nat) : IpDecision :=
  if outcome.consumed then .allowed else .refused .throttled (max 1 (outcome.resetsAt - now))

/-! ## Calls -/

inductive CheckPhase
  | reading
  | consuming
  | answered (decision : IpDecision)
deriving DecidableEq

/-- A call of `check`, and how many failures of its IP were recorded in its block
window before it read. -/
structure IpCheck where
  ip : String
  now : Nat
  phase : CheckPhase
  failuresBefore : Nat

inductive FailurePhase
  | counting
  | alerting (usage : Nat)
  | ended
deriving DecidableEq

structure AuthFailure where
  ip : String
  now : Nat
  phase : FailurePhase

structure IpAlert where
  ip : String
  now : Nat

structure IpThrottles where
  counters : Counters
  checks : List IpCheck
  failures : List AuthFailure
  alerts : List IpAlert

inductive IpLabel
  | check (ip : String) (now : Nat)
  | read (i : Nat)
  | consume (i : Nat)
  | recordAuthFailure (ip : String) (now : Nat)
  | count (i : Nat)
  | alert (i : Nat)

namespace IpThrottles

variable (options : IpThrottleOptions)

def recordedOf (ip : String) (window : Nat) (failure : AuthFailure) : Nat :=
  if failure.phase ≠ .counting ∧ failure.ip = ip ∧ windowStart failure.now options.blockWindowSeconds = window then 1 else 0

def recorded (s : IpThrottles) (ip : String) (now : Nat) : Nat :=
  Pool.total (recordedOf options ip (windowStart now options.blockWindowSeconds)) s.failures

def allowedOf (ip : String) (window : Nat) (check : IpCheck) : Nat :=
  if check.phase = .answered .allowed ∧ check.ip = ip ∧ windowStart check.now options.windowSeconds = window then 1 else 0

def allowed (s : IpThrottles) (ip : String) (now : Nat) : Nat :=
  Pool.total (allowedOf options ip (windowStart now options.windowSeconds)) s.checks

def firedOf (ip : String) (window : Nat) (alert : IpAlert) : Nat :=
  if alert.ip = ip ∧ windowStart alert.now options.blockWindowSeconds = window then 1 else 0

def firingOf (ip : String) (window : Nat) (failure : AuthFailure) : Nat :=
  if failure.phase = .alerting options.authFailureThreshold ∧ failure.ip = ip ∧
    windowStart failure.now options.blockWindowSeconds = window then 1 else 0

def fired (s : IpThrottles) (ip : String) (now : Nat) : Nat :=
  Pool.total (firedOf options ip (windowStart now options.blockWindowSeconds)) s.alerts

def firing (s : IpThrottles) (ip : String) (now : Nat) : Nat :=
  Pool.total (firingOf options ip (windowStart now options.blockWindowSeconds)) s.failures

def start : IpThrottles := ⟨fun _ => none, [], [], []⟩

variable (s : IpThrottles)

def read (i : Nat) (check : IpCheck) : IpThrottles :=
  { s with
    checks := s.checks.set i
      { check with
        phase := if options.isBlocked s.counters check.ip check.now then .answered (options.blockedDecision check.now)
          else .consuming
        failuresBefore := s.recorded options check.ip check.now } }

def consume (i : Nat) (check : IpCheck) : IpThrottles :=
  let (outcome, counters) := options.consumeRate s.counters check.ip check.now
  { s with counters, checks := s.checks.set i { check with phase := .answered (rateDecision outcome check.now) } }

def count (i : Nat) (failure : AuthFailure) : IpThrottles :=
  let (outcome, counters) := options.countFailure s.counters failure.ip failure.now
  { s with counters, failures := s.failures.set i { failure with phase := .alerting outcome.usage } }

def alert (i : Nat) (failure : AuthFailure) (usage : Nat) : IpThrottles :=
  { s with
    failures := s.failures.set i { failure with phase := .ended }
    alerts := if usage = options.authFailureThreshold then s.alerts ++ [⟨failure.ip, failure.now⟩] else s.alerts }

def step : IpLabel → Option IpThrottles
  | .check ip now => some { s with checks := s.checks ++ [⟨ip, now, .reading, 0⟩] }
  | .read i =>
    match s.checks[i]? with
    | some ⟨ip, now, .reading, n⟩ => some (s.read options i ⟨ip, now, .reading, n⟩)
    | _ => none
  | .consume i =>
    match s.checks[i]? with
    | some ⟨ip, now, .consuming, n⟩ => some (s.consume options i ⟨ip, now, .consuming, n⟩)
    | _ => none
  | .recordAuthFailure ip now => some { s with failures := s.failures ++ [⟨ip, now, .counting⟩] }
  | .count i =>
    match s.failures[i]? with
    | some ⟨ip, now, .counting⟩ => some (s.count options i ⟨ip, now, .counting⟩)
    | _ => none
  | .alert i =>
    match s.failures[i]? with
    | some ⟨ip, now, .alerting usage⟩ => some (s.alert options i ⟨ip, now, .alerting usage⟩ usage)
    | _ => none

/-! ## What a step can do -/

inductive IpStep : IpThrottles → Prop
  | check (ip : String) (now : Nat) : IpStep { s with checks := s.checks ++ [⟨ip, now, .reading, 0⟩] }
  | read {i : Nat} {check : IpCheck} :
    s.checks[i]? = some check → check.phase = .reading → IpStep (s.read options i check)
  | consume {i : Nat} {check : IpCheck} :
    s.checks[i]? = some check → check.phase = .consuming → IpStep (s.consume options i check)
  | recordAuthFailure (ip : String) (now : Nat) : IpStep { s with failures := s.failures ++ [⟨ip, now, .counting⟩] }
  | count {i : Nat} {failure : AuthFailure} :
    s.failures[i]? = some failure → failure.phase = .counting → IpStep (s.count options i failure)
  | alert {i : Nat} {failure : AuthFailure} {usage : Nat} :
    s.failures[i]? = some failure → failure.phase = .alerting usage → IpStep (s.alert options i failure usage)

variable {options s} {s' : IpThrottles}

theorem ipStep_cases {l : IpLabel} (h : step options s l = some s') : IpStep options s s' := by
  cases l with
  | check ip now =>
    cases h
    exact .check ip now
  | read i =>
    simp only [step] at h
    split at h
    · rename_i hi
      cases h
      exact .read hi rfl
    · cases h
  | consume i =>
    simp only [step] at h
    split at h
    · rename_i hi
      cases h
      exact .consume hi rfl
    · cases h
  | recordAuthFailure ip now =>
    cases h
    exact .recordAuthFailure ip now
  | count i =>
    simp only [step] at h
    split at h
    · rename_i hi
      cases h
      exact .count hi rfl
    · cases h
  | alert i =>
    simp only [step] at h
    split at h
    · rename_i hi
      cases h
      exact .alert hi rfl
    · cases h

end IpThrottles

/-! ## Counters -/

section

variable {counters : Counters} {key key' : String} {limit windowSeconds windowSeconds' now now' : Nat}

theorem tryConsume_one (h : usage counters key windowSeconds now ≤ limit) :
    (tryConsume counters key 1 limit windowSeconds now).1.consumed = decide (usage counters key windowSeconds now < limit) ∧
      (tryConsume counters key 1 limit windowSeconds now).1.usage = min (usage counters key windowSeconds now + 1) limit ∧
      usage (tryConsume counters key 1 limit windowSeconds now).2 key windowSeconds now =
        min (usage counters key windowSeconds now + 1) limit := by
  unfold usage at h ⊢
  unfold tryConsume
  dsimp only
  split
  · rename_i hfull
    have hmin : min (counters.at (windowedKey key windowSeconds now) + 1) limit =
        counters.at (windowedKey key windowSeconds now) := by omega
    exact ⟨(decide_eq_false (by omega)).symm, hmin.symm, hmin.symm⟩
  · rename_i hfits
    have hmin : min (counters.at (windowedKey key windowSeconds now) + 1) limit =
        counters.at (windowedKey key windowSeconds now) + 1 := by omega
    refine ⟨(decide_eq_true (by omega)).symm, hmin.symm, ?_⟩
    rw [hmin]
    exact Counters.at_update_self _

theorem usage_tryConsume_of_ne
    (h : ¬ (key' = key ∧ windowSeconds' = windowSeconds ∧ windowStart now' windowSeconds' = windowStart now windowSeconds)) :
    usage (tryConsume counters key 1 limit windowSeconds now).2 key' windowSeconds' now' =
      usage counters key' windowSeconds' now' := by
  unfold tryConsume
  dsimp only
  split
  · rfl
  · exact Counters.at_update_of_ne (fun hslot => h (windowedKey_inj hslot)) _

theorem usage_congr (h : windowStart now' windowSeconds = windowStart now windowSeconds) :
    usage counters key windowSeconds now' = usage counters key windowSeconds now := by
  unfold usage windowedKey
  rw [h]

theorem lt_windowEnd (hpos : 0 < windowSeconds) : now < windowEnd now windowSeconds :=
  Nat.lt_div_mul_add hpos

theorem retryAfter_bounds (hpos : 0 < windowSeconds) :
    0 < retryAfter now windowSeconds ∧ now + retryAfter now windowSeconds ≤ windowEnd now windowSeconds := by
  have hlt : now < windowEnd now windowSeconds := lt_windowEnd hpos
  unfold retryAfter
  omega

theorem rateKey_inj {ip ip' : String} (h : rateKey ip = rateKey ip') : ip = ip' := (String.append_right_inj _).mp h

theorem failKey_inj {ip ip' : String} (h : failKey ip = failKey ip') : ip = ip' := (String.append_right_inj _).mp h

theorem rateKey_ne_failKey (ip ip' : String) : rateKey ip ≠ failKey ip' := by
  intro h
  have hlists := congrArg (fun key => key.toList[6]?) h
  simp [rateKey, failKey] at hlists

end

theorem resetsAt_tryConsume (counters : Counters) (key : String) (amount limit windowSeconds now : Nat) :
    (tryConsume counters key amount limit windowSeconds now).1.resetsAt = windowEnd now windowSeconds := by
  unfold tryConsume
  dsimp only
  split <;> rfl

/-! ## The invariant -/

def IpThrottleOptions.windowOf (options : IpThrottleOptions) : IpRejection → Nat
  | .throttled => options.windowSeconds
  | .blocked => options.blockWindowSeconds

structure IpCheck.Right (options : IpThrottleOptions) (check : IpCheck) : Prop where
  passed : check.phase = .consuming → check.failuresBefore < options.authFailureThreshold
  blocked : ∀ decision, check.phase = .answered decision →
    ((∃ seconds, decision = .refused .blocked seconds) ↔ options.authFailureThreshold ≤ check.failuresBefore)
  retry : ∀ reason seconds, check.phase = .answered (.refused reason seconds) →
    0 < seconds ∧ check.now + seconds ≤ windowEnd check.now (options.windowOf reason)

namespace IpThrottles

/-- The counters count what was recorded and allowed, and alerts are fired or due at the threshold. -/
structure Sound (options : IpThrottleOptions) (s : IpThrottles) : Prop where
  failures : ∀ ip now, usage s.counters (failKey ip) options.blockWindowSeconds now =
    min (s.recorded options ip now) failureCounterCeiling
  rates : ∀ ip now, usage s.counters (rateKey ip) options.windowSeconds now = s.allowed options ip now
  allowed_le : ∀ ip now, s.allowed options ip now ≤ options.requestsPerWindow
  checks : ∀ check ∈ s.checks, check.Right options
  alerts : ∀ ip now, s.fired options ip now + s.firing options ip now =
    if options.authFailureThreshold ≤ s.recorded options ip now then 1 else 0

variable {options : IpThrottleOptions} {s s' : IpThrottles}

theorem right_reading (ip : String) (now n : Nat) : (⟨ip, now, .reading, n⟩ : IpCheck).Right options where
  passed := nofun
  blocked := nofun
  retry := nofun

theorem right_read {check : IpCheck} (hs : s.Sound options) (hceiling : options.authFailureThreshold < failureCounterCeiling) :
    ({ check with
        phase := if options.isBlocked s.counters check.ip check.now then .answered (options.blockedDecision check.now)
          else .consuming
        failuresBefore := s.recorded options check.ip check.now } : IpCheck).Right options := by
  have hblocked : options.isBlocked s.counters check.ip check.now =
      decide (options.authFailureThreshold ≤ s.recorded options check.ip check.now) := by
    unfold IpThrottleOptions.isBlocked
    rw [hs.failures]
    exact decide_eq_decide.mpr (by omega)
  by_cases hreached : options.authFailureThreshold ≤ s.recorded options check.ip check.now
  · rw [hblocked, decide_eq_true hreached, if_pos rfl]
    refine ⟨nofun, ?_, ?_⟩
    · rintro decision ⟨⟩
      exact iff_of_true ⟨_, rfl⟩ hreached
    · rintro reason seconds ⟨⟩
      exact retryAfter_bounds options.blockWindowSeconds_pos
  · rw [hblocked, decide_eq_false hreached, if_neg Bool.false_ne_true]
    exact ⟨fun _ => Nat.lt_of_not_le hreached, nofun, nofun⟩

theorem right_consumed {check : IpCheck} {outcome : QuotaOutcome} (hright : check.Right options)
    (hphase : check.phase = .consuming) (hresets : outcome.resetsAt = windowEnd check.now options.windowSeconds) :
    ({ check with phase := .answered (rateDecision outcome check.now) } : IpCheck).Right options := by
  have hbefore := hright.passed hphase
  have hend : check.now < windowEnd check.now options.windowSeconds := lt_windowEnd options.windowSeconds_pos
  unfold rateDecision
  split
  · refine ⟨nofun, ?_, nofun⟩
    rintro decision ⟨⟩
    exact iff_of_false nofun (Nat.not_le_of_lt hbefore)
  · refine ⟨nofun, ?_, ?_⟩
    · rintro decision ⟨⟩
      exact iff_of_false nofun (Nat.not_le_of_lt hbefore)
    · rintro reason seconds ⟨⟩
      rw [hresets]
      show 0 < max 1 _ ∧ check.now + max 1 _ ≤ windowEnd check.now options.windowSeconds
      omega

theorem sound_start (hpos : 0 < options.authFailureThreshold) : start.Sound options where
  failures _ _ := rfl
  rates _ _ := rfl
  allowed_le _ _ := Nat.zero_le _
  checks _ hmem := nomatch hmem
  alerts _ _ := (if_neg (Nat.not_le_of_lt hpos)).symm

theorem allowedOf_eq_zero {check : IpCheck} (h : check.phase ≠ .answered .allowed) (ip : String) (window : Nat) :
    allowedOf options ip window check = 0 := if_neg fun hall => h hall.1

/-- What is done to a check that is not allowed afterwards. -/
theorem sound_set_check {i : Nat} {check check' : IpCheck} (hs : s.Sound options) (hi : s.checks[i]? = some check)
    (hphase : check.phase ≠ .answered .allowed) (hphase' : check'.phase ≠ .answered .allowed)
    (hright : check'.Right options) : Sound options { s with checks := s.checks.set i check' } := by
  have hallowed : ∀ ip now, allowed options { s with checks := s.checks.set i check' } ip now = s.allowed options ip now :=
    fun ip now => Pool.total_set_eq hi
      ((allowedOf_eq_zero hphase' ip _).trans (allowedOf_eq_zero hphase ip _).symm)
  exact {
    failures := hs.failures
    rates := fun ip now => (hs.rates ip now).trans (hallowed ip now).symm
    allowed_le := fun ip now => (hallowed ip now).trans_le (hs.allowed_le ip now)
    checks := Pool.forall_set hs.checks hright
    alerts := hs.alerts }

theorem sound_check (hs : s.Sound options) (ip : String) (now : Nat) :
    Sound options { s with checks := s.checks ++ [⟨ip, now, .reading, 0⟩] } := by
  have hallowed : ∀ ip' now', allowed options { s with checks := s.checks ++ [⟨ip, now, .reading, 0⟩] } ip' now' =
      s.allowed options ip' now' := by
    intro ip' now'
    have hnew : allowedOf options ip' (windowStart now' options.windowSeconds) ⟨ip, now, .reading, 0⟩ = 0 :=
      if_neg fun h => nomatch h.1
    exact Pool.total_concat_of_zero hnew
  refine ⟨hs.failures, fun ip' now' => (hs.rates ip' now').trans (hallowed ip' now').symm,
    fun ip' now' => (hallowed ip' now').trans_le (hs.allowed_le ip' now'), ?_, hs.alerts⟩
  intro check hmem
  rcases List.mem_append.mp hmem with hold | hnew
  · exact hs.checks check hold
  · rw [List.mem_singleton.mp hnew]
    exact right_reading ip now 0

theorem sound_read {i : Nat} {check : IpCheck} (hs : s.Sound options)
    (hceiling : options.authFailureThreshold < failureCounterCeiling) (hi : s.checks[i]? = some check)
    (hphase : check.phase = .reading) : (s.read options i check).Sound options := by
  have hnotYet : check.phase ≠ .answered .allowed := by
    rw [hphase]
    exact nofun
  refine sound_set_check hs hi hnotYet ?_ (right_read hs hceiling)
  dsimp only
  split <;> exact nofun

theorem rateDecision_allowed {outcome : QuotaOutcome} {now : Nat} :
    rateDecision outcome now = .allowed ↔ outcome.consumed = true := by
  unfold rateDecision
  split
  · rename_i h
    exact iff_of_true rfl h
  · rename_i h
    exact iff_of_false nofun h

theorem allowedOf_consumed (check : IpCheck) (outcome : QuotaOutcome) (ip : String) (window : Nat) :
    allowedOf options ip window { check with phase := .answered (rateDecision outcome check.now) } =
      if outcome.consumed = true ∧ check.ip = ip ∧ windowStart check.now options.windowSeconds = window then 1 else 0 := by
  unfold allowedOf
  simp only [CheckPhase.answered.injEq, rateDecision_allowed]

/-- Of an IP and its window there is one check more that is allowed, or none is left. -/
theorem allowed_consume {i : Nat} {check : IpCheck} (hs : s.Sound options) (hi : s.checks[i]? = some check)
    (hphase : check.phase = .consuming) (ip : String) (now : Nat) :
    (s.consume options i check).allowed options ip now =
      if ip = check.ip ∧ windowStart now options.windowSeconds = windowStart check.now options.windowSeconds then
        min (s.allowed options ip now + 1) options.requestsPerWindow
      else s.allowed options ip now := by
  have hle := hs.allowed_le ip now
  have hnotYet : allowedOf options ip (windowStart now options.windowSeconds) check = 0 :=
    allowedOf_eq_zero (by rw [hphase]; exact nofun) _ _
  have htotal : (s.consume options i check).allowed options ip now +
      allowedOf options ip (windowStart now options.windowSeconds) check = s.allowed options ip now +
        allowedOf options ip (windowStart now options.windowSeconds) { check with
          phase := .answered (rateDecision (options.consumeRate s.counters check.ip check.now).1 check.now) } :=
    Pool.total_set hi
  rw [hnotYet, Nat.add_zero, allowedOf_consumed] at htotal
  rw [htotal]
  by_cases hsame : ip = check.ip ∧ windowStart now options.windowSeconds = windowStart check.now options.windowSeconds
  · rw [if_pos hsame]
    obtain ⟨rfl, hwindow⟩ := hsame
    have hcount : usage s.counters (rateKey check.ip) options.windowSeconds check.now =
        s.allowed options check.ip now := by
      rw [← hs.rates, usage_congr hwindow]
    have hconsumed := (tryConsume_one (hcount.trans_le hle)).1
    rw [hcount] at hconsumed
    unfold IpThrottleOptions.consumeRate
    rw [hconsumed]
    by_cases hleft : s.allowed options check.ip now < options.requestsPerWindow
    · rw [if_pos ⟨decide_eq_true hleft, rfl, hwindow.symm⟩]
      omega
    · rw [if_neg fun h => hleft (of_decide_eq_true h.1)]
      omega
  · rw [if_neg hsame, if_neg fun h => hsame ⟨h.2.1.symm, h.2.2.symm⟩, Nat.add_zero]

theorem sound_consume {i : Nat} {check : IpCheck} (hs : s.Sound options) (hi : s.checks[i]? = some check)
    (hphase : check.phase = .consuming) : (s.consume options i check).Sound options := by
  have hright := hs.checks check (List.mem_of_getElem? hi)
  have hle : usage s.counters (rateKey check.ip) options.windowSeconds check.now ≤ options.requestsPerWindow := by
    rw [hs.rates]
    exact hs.allowed_le _ _
  refine ⟨?_, ?_, ?_, ?_, hs.alerts⟩
  · intro ip now
    have hkey : failKey ip ≠ rateKey check.ip := (rateKey_ne_failKey _ _).symm
    exact (usage_tryConsume_of_ne fun h => hkey h.1).trans (hs.failures ip now)
  · intro ip now
    rw [allowed_consume hs hi hphase]
    show usage (options.consumeRate s.counters check.ip check.now).2 (rateKey ip) options.windowSeconds now = _
    unfold IpThrottleOptions.consumeRate
    split
    · rename_i hsame
      obtain ⟨rfl, hwindow⟩ := hsame
      rw [usage_congr hwindow, (tryConsume_one hle).2.2, ← hs.rates, usage_congr hwindow]
    · rename_i hother
      rw [usage_tryConsume_of_ne fun h => hother ⟨rateKey_inj h.1, h.2.2⟩, hs.rates]
  · intro ip now
    have hbefore := hs.allowed_le ip now
    rw [allowed_consume hs hi hphase]
    split <;> omega
  · exact Pool.forall_set hs.checks (right_consumed hright hphase (resetsAt_tryConsume _ _ _ _ _ _))

theorem sound_recordAuthFailure (hs : s.Sound options) (ip : String) (now : Nat) :
    Sound options { s with failures := s.failures ++ [⟨ip, now, .counting⟩] } := by
  have hrecorded : ∀ ip' now', recorded options { s with failures := s.failures ++ [⟨ip, now, .counting⟩] } ip' now' =
      s.recorded options ip' now' := by
    intro ip' now'
    have hnew : recordedOf options ip' (windowStart now' options.blockWindowSeconds) ⟨ip, now, .counting⟩ = 0 :=
      if_neg fun h => h.1 rfl
    exact Pool.total_concat_of_zero hnew
  have hfiring : ∀ ip' now', firing options { s with failures := s.failures ++ [⟨ip, now, .counting⟩] } ip' now' =
      s.firing options ip' now' := by
    intro ip' now'
    have hnew : firingOf options ip' (windowStart now' options.blockWindowSeconds) ⟨ip, now, .counting⟩ = 0 :=
      if_neg fun h => nomatch h.1
    exact Pool.total_concat_of_zero hnew
  refine ⟨?_, hs.rates, hs.allowed_le, hs.checks, ?_⟩
  · intro ip' now'
    rw [hrecorded]
    exact hs.failures ip' now'
  · intro ip' now'
    rw [hrecorded, hfiring]
    exact hs.alerts ip' now'

/-- The failures of the IP in its window are one more, also when the counter is at its ceiling. -/
theorem recorded_count {i : Nat} {failure : AuthFailure} (hi : s.failures[i]? = some failure)
    (hphase : failure.phase = .counting) (ip : String) (now : Nat) :
    (s.count options i failure).recorded options ip now = s.recorded options ip now +
      if failure.ip = ip ∧ windowStart failure.now options.blockWindowSeconds = windowStart now options.blockWindowSeconds
      then 1 else 0 := by
  have hnotYet : recordedOf options ip (windowStart now options.blockWindowSeconds) failure = 0 :=
    if_neg fun h => h.1 hphase
  have htotal : (s.count options i failure).recorded options ip now +
      recordedOf options ip (windowStart now options.blockWindowSeconds) failure = s.recorded options ip now +
        recordedOf options ip (windowStart now options.blockWindowSeconds) { failure with
          phase := .alerting (options.countFailure s.counters failure.ip failure.now).1.usage } :=
    Pool.total_set hi
  rw [hnotYet, Nat.add_zero] at htotal
  rw [htotal]
  unfold recordedOf
  simp only [ne_eq, reduceCtorEq, not_false_eq_true, true_and]

theorem saturated_succ (n ceiling : Nat) : min (min n ceiling + 1) ceiling = min (n + 1) ceiling := by omega

/-- Below the ceiling, a count that is cut off at the ceiling is exact. -/
theorem saturated_eq {n ceiling threshold : Nat} (h : threshold < ceiling) :
    min (n + 1) ceiling = threshold ↔ n + 1 = threshold := by omega

theorem firing_count {i : Nat} {failure : AuthFailure} (hi : s.failures[i]? = some failure)
    (hphase : failure.phase = .counting) (ip : String) (now : Nat) :
    (s.count options i failure).firing options ip now = s.firing options ip now +
      if (options.countFailure s.counters failure.ip failure.now).1.usage = options.authFailureThreshold ∧
        failure.ip = ip ∧
        windowStart failure.now options.blockWindowSeconds = windowStart now options.blockWindowSeconds
      then 1 else 0 := by
  have hnotYet : firingOf options ip (windowStart now options.blockWindowSeconds) failure = 0 :=
    if_neg fun h => by
      rw [hphase] at h
      cases h.1
  have htotal : (s.count options i failure).firing options ip now +
      firingOf options ip (windowStart now options.blockWindowSeconds) failure = s.firing options ip now +
        firingOf options ip (windowStart now options.blockWindowSeconds) { failure with
          phase := .alerting (options.countFailure s.counters failure.ip failure.now).1.usage } :=
    Pool.total_set hi
  rw [hnotYet, Nat.add_zero] at htotal
  rw [htotal]
  unfold firingOf
  simp only [FailurePhase.alerting.injEq]

/-- The alert becomes due with the failure that reaches the threshold. -/
theorem sound_count {i : Nat} {failure : AuthFailure} (hs : s.Sound options)
    (hceiling : options.authFailureThreshold < failureCounterCeiling) (hi : s.failures[i]? = some failure)
    (hphase : failure.phase = .counting) : (s.count options i failure).Sound options := by
  have hle : usage s.counters (failKey failure.ip) options.blockWindowSeconds failure.now ≤ failureCounterCeiling := by
    rw [hs.failures]
    exact Nat.min_le_right _ _
  obtain ⟨-, houtcome, husage⟩ := tryConsume_one hle
  rw [hs.failures] at houtcome husage
  refine ⟨?_, ?_, hs.allowed_le, hs.checks, ?_⟩
  · intro ip now
    rw [recorded_count hi hphase]
    show usage (options.countFailure s.counters failure.ip failure.now).2 (failKey ip) options.blockWindowSeconds now = _
    unfold IpThrottleOptions.countFailure
    split
    · rename_i hsame
      obtain ⟨rfl, hwindow⟩ := hsame
      have hcount : s.recorded options failure.ip failure.now = s.recorded options failure.ip now := by
        unfold recorded
        rw [hwindow]
      rw [usage_congr hwindow.symm, husage, hcount, saturated_succ]
    · rename_i hother
      rw [usage_tryConsume_of_ne fun h => hother ⟨(failKey_inj h.1).symm, h.2.2.symm⟩, hs.failures, Nat.add_zero]
  · intro ip now
    have hkey : rateKey ip ≠ failKey failure.ip := rateKey_ne_failKey _ _
    exact (usage_tryConsume_of_ne fun h => hkey h.1).trans (hs.rates ip now)
  · intro ip now
    have hbefore := hs.alerts ip now
    rw [recorded_count hi hphase, firing_count hi hphase]
    show s.fired options ip now + _ = _
    unfold IpThrottleOptions.countFailure
    rw [houtcome, saturated_succ]
    by_cases hsame : failure.ip = ip ∧
        windowStart failure.now options.blockWindowSeconds = windowStart now options.blockWindowSeconds
    · have hcount : s.recorded options failure.ip failure.now = s.recorded options ip now := by
        unfold recorded
        rw [hsame.1, hsame.2]
      rw [hcount, if_pos hsame]
      by_cases hreached : s.recorded options ip now + 1 = options.authFailureThreshold
      · rw [if_neg (by omega)] at hbefore
        rw [if_pos ⟨(saturated_eq hceiling).mpr hreached, hsame⟩, if_pos hreached.ge]
        omega
      · rw [if_neg fun h => hreached ((saturated_eq hceiling).mp h.1), Nat.add_zero, hbefore]
        exact if_congr (by omega) rfl rfl
    · rw [if_neg hsame, if_neg fun h => hsame h.2]
      exact hbefore

theorem sound_alert {i : Nat} {failure : AuthFailure} {n : Nat} (hs : s.Sound options)
    (hi : s.failures[i]? = some failure) (hphase : failure.phase = .alerting n) :
    (s.alert options i failure n).Sound options := by
  have hrecorded : ∀ ip now, (s.alert options i failure n).recorded options ip now = s.recorded options ip now := by
    intro ip now
    refine Pool.total_set_eq hi ?_
    unfold recordedOf
    simp only [hphase, ne_eq, reduceCtorEq, not_false_eq_true]
  refine ⟨?_, hs.rates, hs.allowed_le, hs.checks, ?_⟩
  · intro ip now
    rw [hrecorded]
    exact hs.failures ip now
  · intro ip now
    have hbefore := hs.alerts ip now
    have hended : firingOf options ip (windowStart now options.blockWindowSeconds) { failure with phase := .ended } = 0 :=
      if_neg fun h => nomatch h.1
    have hfiring : (s.alert options i failure n).firing options ip now +
        firingOf options ip (windowStart now options.blockWindowSeconds) failure = s.firing options ip now +
          firingOf options ip (windowStart now options.blockWindowSeconds) { failure with phase := .ended } :=
      Pool.total_set hi
    have hfired : (s.alert options i failure n).fired options ip now = s.fired options ip now +
        firingOf options ip (windowStart now options.blockWindowSeconds) failure := by
      unfold fired alert firingOf
      dsimp only
      rw [hphase]
      split
      · rename_i hn
        rw [Pool.total_append, Pool.total_cons, Pool.total_nil, Nat.add_zero]
        unfold firedOf
        simp only [hn, true_and]
      · rename_i hn
        rw [if_neg fun h => hn (FailurePhase.alerting.inj h.1), Nat.add_zero]
    rw [hrecorded, hfired]
    omega

theorem sound_step (hceiling : options.authFailureThreshold < failureCounterCeiling) {l : IpLabel} (hs : s.Sound options)
    (h : step options s l = some s') : s'.Sound options := by
  cases ipStep_cases h with
  | check ip now => exact sound_check hs ip now
  | read hi hphase => exact sound_read hs hceiling hi hphase
  | consume hi hphase => exact sound_consume hs hi hphase
  | recordAuthFailure ip now => exact sound_recordAuthFailure hs ip now
  | count hi hphase => exact sound_count hs hceiling hi hphase
  | alert hi hphase => exact sound_alert hs hi hphase

/-! ## Every run -/

/-- In every run: who is blocked, how many are allowed, which alerts are fired, and for how long one is told to wait. -/
theorem abuse_blocking_exact (options : IpThrottleOptions) (hpos : 1 ≤ options.authFailureThreshold)
    (hceiling : options.authFailureThreshold ≤ failureCounterCeiling - 1) {ls : List IpLabel} {s : IpThrottles}
    (h : Runs.run (step options) start ls = some s) :
    (∀ check ∈ s.checks, ∀ decision, check.phase = .answered decision →
      ((∃ seconds, decision = .refused .blocked seconds) ↔ options.authFailureThreshold ≤ check.failuresBefore)) ∧
    (∀ ip now, s.allowed options ip now ≤ options.requestsPerWindow) ∧
    (∀ ip now, s.fired options ip now + s.firing options ip now =
      if options.authFailureThreshold ≤ s.recorded options ip now then 1 else 0) ∧
    (∀ i failure n, s.failures[i]? = some failure → failure.phase = .alerting n →
      step options s (.alert i) = some (s.alert options i failure n)) ∧
    ∀ check ∈ s.checks, ∀ reason seconds, check.phase = .answered (.refused reason seconds) →
      0 < seconds ∧ check.now + seconds ≤ windowEnd check.now (options.windowOf reason) := by
  have hlt : options.authFailureThreshold < failureCounterCeiling := Nat.lt_of_le_sub_one (by decide) hceiling
  have hs : s.Sound options := Runs.invariant (fun hs h => sound_step hlt hs h) (sound_start hpos) h
  refine ⟨fun check hmem => (hs.checks check hmem).blocked, hs.allowed_le, hs.alerts, ?_,
    fun check hmem => (hs.checks check hmem).retry⟩
  rintro i ⟨ip, now, phase⟩ n hi rfl
  simp only [step, hi]

def sampleOptions : IpThrottleOptions := ⟨5, 60, 2, 900, Nat.succ_pos _, Nat.succ_pos _⟩

def sampleCalls : List IpLabel :=
  [.recordAuthFailure "::1" 100, .count 0, .recordAuthFailure "::1" 200, .alert 0, .count 1, .check "::1" 250, .read 0,
    .alert 1]

theorem abuse_blocking_exact_sample :
    ∃ s, Runs.run (step sampleOptions) start sampleCalls = some s ∧ s.fired sampleOptions "::1" 250 = 1 := by
  have hcounts : (Runs.run (step sampleOptions) start sampleCalls).map
      (fun s => (s.recorded sampleOptions "::1" 250, s.firing sampleOptions "::1" 250)) = some (2, 0) := by
    decide +kernel
  obtain ⟨s, hs, hcounts⟩ := Option.map_eq_some_iff.mp hcounts
  obtain ⟨hrecorded, hfiring⟩ := Prod.mk.inj hcounts
  obtain ⟨-, -, halerts, -, -⟩ := abuse_blocking_exact sampleOptions (by decide) (by decide) hs
  have hfired := halerts "::1" 250
  rw [hrecorded, hfiring] at hfired
  exact ⟨s, hs, hfired⟩

end IpThrottles

end Paymaster
