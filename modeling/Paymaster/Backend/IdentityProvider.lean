import Paymaster.Backend.SessionTokens
import Paymaster.Lib.Run
import Paymaster.Lib.Window

/-!
# The identity provider

A token names the key that signed it. A key that is not known, or is known for
too long, has the set of keys fetched again, not more often than every two
seconds. The interval is counted from the last fetch that brought keys: after
one that failed, or brought none, the next token fetches at once.
-/

namespace Paymaster

structure Jwk where
  kid : Option String
  kty : Option String
  crv : Option String
  x : Option String
  y : Option String
deriving DecidableEq

def minRefreshIntervalMs : Nat := 2000

def refreshAttempts : Nat := 2

structure IdentityOptions where
  cacheTtlMs : Nat

inductive FetchOutcome
  | keys (jwks : List Jwk)
  /-- A body whose `keys` are no list. -/
  | malformed
  | clientError
  /-- A server error, or a timeout. -/
  | failed
deriving DecidableEq

/-- A refresh in flight: when it called the provider, and whether it waits to call again. -/
structure Refresh where
  attempts : List Nat
  pausing : Bool
deriving DecidableEq

/-- What a provider holds in memory; and when it has called for keys, refresh by
refresh, and when the last refresh ended. -/
structure IdentityProvider (Key : Type) where
  keys : List (String × Key)
  fetchedAt : Nat
  inFlight : Option Refresh
  waiting : List String
  answers : List (String × Option Key)
  clock : Nat
  refreshes : List (List Nat)
  endedAt : Option Nat
deriving DecidableEq

inductive IdentityLabel
  | verify (token : String) (now : Nat)
  /-- The attempt in flight ends. -/
  | settle (outcome : FetchOutcome) (now : Nat)
  /-- The pause is over. -/
  | wake (now : Nat)
deriving DecidableEq

def IdentityLabel.now : IdentityLabel → Nat
  | .verify _ now | .settle _ now | .wake now => now

def headerKid (token : String) : Option String :=
  match token.toList.splitOn '.' with
  | [headerB64, _, _] =>
    match decodeSegment headerB64 with
    | none => none
    | some header =>
      if (header.property "alg").bind Json.string? ≠ some "ES256" then none
      else (header.property "kid").bind Json.string?
  | _ => none

namespace IdentityProvider

variable {Key : Type} (createPublicKey : Jwk → Option Key) (options : IdentityOptions) (s : IdentityProvider Key)

def start : IdentityProvider Key := ⟨[], 0, none, [], [], 0, [], none⟩

/-- Of two keys of one name, the map has the last. -/
def key (kid : String) : Option Key := s.keys.reverse.lookup kid

def usable (jwks : List Jwk) : List (String × Key) :=
  jwks.filterMap fun jwk =>
    match jwk.kid with
    | none => none
    | some kid =>
      if jwk.kty ≠ some "EC" ∨ jwk.crv ≠ some "P-256" then none else (createPublicKey jwk).map fun key => (kid, key)

def refreshes? (kid : String) (now : Nat) : Bool :=
  let age := now - s.fetchedAt
  let stale : Bool := options.cacheTtlMs < age
  let known := (s.key kid).isSome
  (!known || stale) && if known then stale else minRefreshIntervalMs < age || s.fetchedAt = 0

def keyFor (kid : String) (now : Nat) : IdentityProvider Key :=
  if s.refreshes? options kid now then
    { s with inFlight := some (s.inFlight.getD ⟨[now], false⟩), waiting := s.waiting ++ [kid] }
  else { s with answers := s.answers ++ [(kid, s.key kid)] }

def finish (attempts : List Nat) (now : Nat) : IdentityProvider Key :=
  { s with
    inFlight := none
    waiting := []
    answers := s.answers ++ s.waiting.map fun kid => (kid, s.key kid)
    refreshes := s.refreshes ++ [attempts]
    endedAt := some now }

def settle (attempts : List Nat) (now : Nat) : FetchOutcome → IdentityProvider Key
  | .keys jwks =>
    match usable createPublicKey jwks with
    | [] => s.finish attempts now
    | keys => { s with keys := keys, fetchedAt := now }.finish attempts now
  | .malformed | .clientError => s.finish attempts now
  | .failed =>
    if attempts.length = refreshAttempts then s.finish attempts now else { s with inFlight := some ⟨attempts, true⟩ }

def enabled : IdentityLabel → IdentityProvider Key → Option (IdentityProvider Key)
  | .verify token now, s =>
    match headerKid token with
    | none => some s
    | some kid => some (s.keyFor options kid now)
  | .settle outcome now, s =>
    match s.inFlight with
    | some ⟨attempts, false⟩ => some (s.settle createPublicKey attempts now outcome)
    | _ => none
  | .wake now, s =>
    match s.inFlight with
    | some ⟨attempts, true⟩ => some { s with inFlight := some ⟨attempts ++ [now], false⟩ }
    | _ => none

def step (l : IdentityLabel) : Option (IdentityProvider Key) :=
  if s.clock ≤ l.now then enabled createPublicKey options l { s with clock := l.now } else none

def attempts : List (List Nat) := s.refreshes ++ s.inFlight.toList.map Refresh.attempts

/-- Whatever the tokens are, the provider is not called more often than it should be. -/
def Bounded : Prop :=
  ∀ a T, (Window.within a T s.attempts.flatten).length * minRefreshIntervalMs ≤
    refreshAttempts * (T + minRefreshIntervalMs)

/-- A token that starts a refresh comes after one that brought keys, whose age is
then what the interval is counted from, or long after the last one. -/
def afterKeys : IdentityLabel → Bool
  | .verify token now =>
    match headerKid token with
    | none => true
    | some kid =>
      s.inFlight.isSome || !s.refreshes? options kid now ||
        s.endedAt.all fun endedAt =>
          (endedAt = s.fetchedAt && 0 < endedAt && minRefreshIntervalMs ≤ options.cacheTtlMs) ||
            endedAt + minRefreshIntervalMs < now
  | _ => true

/-! ## What a step can do -/

inductive Traffic (s : IdentityProvider Key) : IdentityLabel → Option Refresh → List (List Nat) → Option Nat → Prop
  | stay {l : IdentityLabel} : Traffic s l s.inFlight s.refreshes s.endedAt
  | begin {token kid : String} {now : Nat} : s.inFlight = none → headerKid token = some kid →
    s.refreshes? options kid now = true → Traffic s (.verify token now) (some ⟨[now], false⟩) s.refreshes s.endedAt
  | finish {l : IdentityLabel} {attempts : List Nat} : s.inFlight = some ⟨attempts, false⟩ →
    Traffic s l none (s.refreshes ++ [attempts]) (some l.now)
  | pause {l : IdentityLabel} {attempts : List Nat} : s.inFlight = some ⟨attempts, false⟩ →
    attempts.length ≠ refreshAttempts → Traffic s l (some ⟨attempts, true⟩) s.refreshes s.endedAt
  | again {l : IdentityLabel} {attempts : List Nat} : s.inFlight = some ⟨attempts, true⟩ →
    Traffic s l (some ⟨attempts ++ [l.now], false⟩) s.refreshes s.endedAt

variable {createPublicKey options} {s s' : IdentityProvider Key} {l : IdentityLabel}

theorem traffic_keyFor {token kid : String} {now : Nat} (hkid : headerKid token = some kid) :
    (s.keyFor options kid now).clock = s.clock ∧ Traffic options s (.verify token now) (s.keyFor options kid now).inFlight
      (s.keyFor options kid now).refreshes (s.keyFor options kid now).endedAt := by
  unfold keyFor
  split
  · rename_i hrefresh
    cases hi : s.inFlight with
    | none => exact ⟨rfl, .begin hi hkid hrefresh⟩
    | some refresh =>
      have hstay : some ((some refresh).getD ⟨[now], false⟩) = s.inFlight := hi.symm
      dsimp only
      rw [hstay]
      exact ⟨rfl, .stay⟩
  · exact ⟨rfl, .stay⟩

theorem traffic_settle {attempts : List Nat} {outcome : FetchOutcome} (hi : s.inFlight = some ⟨attempts, false⟩) :
    (s.settle createPublicKey attempts l.now outcome).clock = s.clock ∧
      Traffic options s l (s.settle createPublicKey attempts l.now outcome).inFlight
        (s.settle createPublicKey attempts l.now outcome).refreshes
        (s.settle createPublicKey attempts l.now outcome).endedAt := by
  cases outcome with
  | keys jwks =>
    unfold settle
    dsimp only
    cases usable createPublicKey jwks with
    | nil => exact ⟨rfl, .finish hi⟩
    | cons => exact ⟨rfl, .finish hi⟩
  | malformed => exact ⟨rfl, .finish hi⟩
  | clientError => exact ⟨rfl, .finish hi⟩
  | failed =>
    unfold settle
    dsimp only
    split
    · exact ⟨rfl, .finish hi⟩
    · rename_i hattempts
      exact ⟨rfl, .pause hi hattempts⟩

theorem traffic_enabled (h : enabled createPublicKey options l s = some s') :
    s'.clock = s.clock ∧ Traffic options s l s'.inFlight s'.refreshes s'.endedAt := by
  cases l with
  | verify token now =>
    simp only [enabled] at h
    split at h
    · cases h
      exact ⟨rfl, .stay⟩
    · rename_i kid hkid
      cases h
      exact traffic_keyFor hkid
  | settle outcome now =>
    simp only [enabled] at h
    split at h
    · rename_i attempts hi
      cases h
      have hnow : (IdentityLabel.settle outcome now).now = now := rfl
      rw [← hnow]
      exact traffic_settle hi
    · cases h
  | wake now =>
    simp only [enabled] at h
    split at h
    · rename_i attempts hi
      cases h
      exact ⟨rfl, .again hi⟩
    · cases h

theorem traffic_clock {clock : Nat} {inFlight : Option Refresh} {refreshes : List (List Nat)} {endedAt : Option Nat}
    (h : Traffic options { s with clock := clock } l inFlight refreshes endedAt) :
    Traffic options s l inFlight refreshes endedAt := by
  cases h with
  | stay => exact .stay
  | begin hi hkid hrefresh => exact .begin hi hkid hrefresh
  | finish hi => exact .finish hi
  | pause hi hattempts => exact .pause hi hattempts
  | again hi => exact .again hi

theorem traffic_step (h : s.step createPublicKey options l = some s') :
    s.clock ≤ l.now ∧ s'.clock = l.now ∧ Traffic options s l s'.inFlight s'.refreshes s'.endedAt := by
  unfold step at h
  split at h
  · rename_i hclock
    obtain ⟨hsame, htraffic⟩ := traffic_enabled h
    exact ⟨hclock, hsame, traffic_clock htraffic⟩
  · cases h

/-! ## The bound -/

/-- The invariant: refreshes come one after the other, with the interval between them. -/
structure Paced (s : IdentityProvider Key) : Prop where
  spaced : Window.Spaced minRefreshIntervalMs s.attempts
  lengths : ∀ attempts ∈ s.attempts, attempts.length ≤ refreshAttempts
  pausing : ∀ refresh ∈ s.inFlight, refresh.pausing = true → refresh.attempts.length < refreshAttempts
  ended : ∀ attempts ∈ s.refreshes, ∀ t ∈ attempts, ∃ endedAt, s.endedAt = some endedAt ∧ t ≤ endedAt
  current : ∀ refresh ∈ s.inFlight, ∀ t ∈ refresh.attempts, t ≤ s.clock
  /-- Since the refresh in flight began, the interval is over. -/
  elapsed : s.inFlight ≠ none → ∀ attempts ∈ s.refreshes, ∀ t ∈ attempts, t + minRefreshIntervalMs ≤ s.clock

theorem paced_start : (start : IdentityProvider Key).Paced := by
  constructor
  · exact .nil
  · intro attempts h
    cases h
  · intro refresh h
    cases h
  · intro attempts h
    cases h
  · intro refresh h
    cases h
  · intro h
    exact absurd rfl h

/-- The limit holds where it is counted from the end of the last refresh. -/
theorem later_of_afterKeys {token kid : String} {now endedAt : Nat} (hidle : s.inFlight = none)
    (hkid : headerKid token = some kid) (hrefresh : s.refreshes? options kid now = true)
    (hended : s.endedAt = some endedAt) (h : s.afterKeys options (.verify token now) = true) :
    endedAt + minRefreshIntervalMs < now := by
  unfold afterKeys at h
  simp only [hkid, hidle, hrefresh, hended, Option.isSome_none, Bool.not_true, Bool.or_false, Bool.false_or,
    Option.all_some, Bool.or_eq_true, Bool.and_eq_true, decide_eq_true_eq] at h
  rcases h with ⟨⟨hfetched, hpos⟩, httl⟩ | hlate
  · unfold refreshes? at hrefresh
    simp only [Bool.and_eq_true] at hrefresh
    have hage := hrefresh.2
    rw [← hfetched] at hage
    split at hage
    · have hstale := of_decide_eq_true hage
      omega
    · simp only [Bool.or_eq_true, decide_eq_true_eq] at hage
      omega
  · exact hlate

theorem attempts_of_idle (hi : s.inFlight = none) : s.attempts = s.refreshes := by
  unfold attempts
  rw [hi, Option.toList_none, List.map_nil, List.append_nil]

theorem attempts_of_refresh {refresh : Refresh} (hi : s.inFlight = some refresh) :
    s.attempts = s.refreshes ++ [refresh.attempts] := by
  unfold attempts
  rw [hi, Option.toList_some, List.map_singleton]

theorem paced_stay (hs : s.Paced) (hclock : s.clock ≤ s'.clock) (hinFlight : s'.inFlight = s.inFlight)
    (hrefreshes : s'.refreshes = s.refreshes) (hendedAt : s'.endedAt = s.endedAt) : s'.Paced := by
  have hattempts : s'.attempts = s.attempts := by
    unfold attempts
    rw [hinFlight, hrefreshes]
  refine ⟨?_, ?_, ?_, ?_, ?_, ?_⟩
  · rw [hattempts]
    exact hs.spaced
  · rw [hattempts]
    exact hs.lengths
  · rw [hinFlight]
    exact hs.pausing
  · rw [hrefreshes, hendedAt]
    exact hs.ended
  · rw [hinFlight]
    exact fun refresh hr t ht => (hs.current refresh hr t ht).trans hclock
  · rw [hinFlight, hrefreshes]
    exact fun hne old hold t ht => (hs.elapsed hne old hold t ht).trans hclock

/-- A refresh begins when the interval is over. -/
theorem paced_begin (hs : s.Paced) (hi : s.inFlight = none)
    (hinFlight : s'.inFlight = some ⟨[s'.clock], false⟩) (hrefreshes : s'.refreshes = s.refreshes) (hendedAt : s'.endedAt = s.endedAt)
    (hlate : ∀ old ∈ s.refreshes, ∀ t ∈ old, t + minRefreshIntervalMs < s'.clock) : s'.Paced := by
  have hattempts : s'.attempts = s.attempts ++ [[s'.clock]] := by
    rw [attempts_of_refresh hinFlight, attempts_of_idle hi, hrefreshes]
  have hbefore : s.attempts = s.refreshes := attempts_of_idle hi
  refine ⟨?_, ?_, ?_, ?_, ?_, ?_⟩
  · rw [hattempts]
    refine List.pairwise_append.mpr ⟨hs.spaced, List.pairwise_singleton _ _, ?_⟩
    intro old hold new hnew t ht t' ht'
    obtain rfl := List.mem_singleton.mp hnew
    obtain rfl := List.mem_singleton.mp ht'
    exact (hlate old (hbefore ▸ hold) t ht).le
  · rw [hattempts]
    intro attempts hmem
    rcases List.mem_append.mp hmem with hold | hnew
    · exact hs.lengths attempts hold
    · rw [List.mem_singleton.mp hnew, List.length_singleton]
      decide
  · rw [hinFlight]
    intro refresh hr hpause
    obtain rfl := Option.some.inj hr
    cases hpause
  · rw [hrefreshes, hendedAt]
    exact hs.ended
  · rw [hinFlight]
    intro refresh hr t ht
    obtain rfl := Option.some.inj hr
    exact (List.mem_singleton.mp ht).le
  · rw [hrefreshes]
    exact fun _ old hold t ht => (hlate old hold t ht).le

theorem paced_finish {attempts : List Nat} (hs : s.Paced) (hclock : s.clock ≤ s'.clock)
    (hi : s.inFlight = some ⟨attempts, false⟩) (hinFlight : s'.inFlight = none)
    (hrefreshes : s'.refreshes = s.refreshes ++ [attempts]) (hendedAt : s'.endedAt = some s'.clock) : s'.Paced := by
  have hattempts : s'.attempts = s.attempts := by
    rw [attempts_of_idle hinFlight, attempts_of_refresh hi, hrefreshes]
  have hbusy : s.inFlight ≠ none := by
    rw [hi]
    exact Option.some_ne_none _
  refine ⟨?_, ?_, ?_, ?_, ?_, ?_⟩
  · rw [hattempts]
    exact hs.spaced
  · rw [hattempts]
    exact hs.lengths
  · rw [hinFlight]
    intro refresh hr
    cases hr
  · rw [hrefreshes, hendedAt]
    intro old hold t ht
    refine ⟨s'.clock, rfl, ?_⟩
    rcases List.mem_append.mp hold with hbefore | hlast
    · have := hs.elapsed hbusy old hbefore t ht
      omega
    · rw [List.mem_singleton.mp hlast] at ht
      exact (hs.current _ hi t ht).trans hclock
  · rw [hinFlight]
    intro refresh hr
    cases hr
  · intro hne
    exact absurd hinFlight hne

theorem paced_pause {attempts : List Nat} (hs : s.Paced) (hclock : s.clock ≤ s'.clock)
    (hi : s.inFlight = some ⟨attempts, false⟩)
    (hlength : attempts.length ≠ refreshAttempts) (hinFlight : s'.inFlight = some ⟨attempts, true⟩)
    (hrefreshes : s'.refreshes = s.refreshes) (hendedAt : s'.endedAt = s.endedAt) : s'.Paced := by
  have hbefore : s.attempts = s.refreshes ++ [attempts] := attempts_of_refresh hi
  have hattempts : s'.attempts = s.attempts := by
    rw [attempts_of_refresh hinFlight, hbefore, hrefreshes]
  have hbusy : s.inFlight ≠ none := by
    rw [hi]
    exact Option.some_ne_none _
  refine ⟨?_, ?_, ?_, ?_, ?_, ?_⟩
  · rw [hattempts]
    exact hs.spaced
  · rw [hattempts]
    exact hs.lengths
  · rw [hinFlight]
    intro refresh hr _
    obtain rfl := Option.some.inj hr
    have hmem : attempts ∈ s.attempts := by
      rw [hbefore]
      exact List.mem_append_right _ (List.mem_singleton_self _)
    exact lt_of_le_of_ne (hs.lengths attempts hmem) hlength
  · rw [hrefreshes, hendedAt]
    exact hs.ended
  · rw [hinFlight]
    intro refresh hr t ht
    obtain rfl := Option.some.inj hr
    exact (hs.current _ hi t ht).trans hclock
  · rw [hrefreshes]
    exact fun _ old hold t ht => (hs.elapsed hbusy old hold t ht).trans hclock

/-- The second attempt of a refresh comes no sooner than its first. -/
theorem paced_again {attempts : List Nat} (hs : s.Paced) (hclock : s.clock ≤ s'.clock)
    (hi : s.inFlight = some ⟨attempts, true⟩)
    (hinFlight : s'.inFlight = some ⟨attempts ++ [s'.clock], false⟩) (hrefreshes : s'.refreshes = s.refreshes)
    (hendedAt : s'.endedAt = s.endedAt) : s'.Paced := by
  have hbefore : s.attempts = s.refreshes ++ [attempts] := attempts_of_refresh hi
  have hattempts : s'.attempts = s.refreshes ++ [attempts ++ [s'.clock]] := by
    rw [attempts_of_refresh hinFlight, hrefreshes]
  have hbusy : s.inFlight ≠ none := by
    rw [hi]
    exact Option.some_ne_none _
  have hlate : ∀ old ∈ s.refreshes, ∀ t ∈ old, t + minRefreshIntervalMs ≤ s'.clock := by
    intro old hold t ht
    exact (hs.elapsed hbusy old hold t ht).trans hclock
  obtain ⟨hspaced, -, hcross⟩ := List.pairwise_append.mp (hbefore ▸ hs.spaced)
  refine ⟨?_, ?_, ?_, ?_, ?_, ?_⟩
  · rw [hattempts]
    refine List.pairwise_append.mpr ⟨hspaced, List.pairwise_singleton _ _, ?_⟩
    intro old hold new hnew t ht t' ht'
    obtain rfl := List.mem_singleton.mp hnew
    rcases List.mem_append.mp ht' with hfirst | hsecond
    · exact hcross old hold attempts (List.mem_singleton_self _) t ht t' hfirst
    · rw [List.mem_singleton.mp hsecond]
      exact hlate old hold t ht
  · rw [hattempts]
    intro attempts' hmem
    rcases List.mem_append.mp hmem with hold | hnew
    · refine hs.lengths attempts' ?_
      rw [hbefore]
      exact List.mem_append_left _ hold
    · rw [List.mem_singleton.mp hnew, List.length_append, List.length_singleton]
      exact hs.pausing _ hi rfl
  · rw [hinFlight]
    intro refresh hr hpause
    obtain rfl := Option.some.inj hr
    cases hpause
  · rw [hrefreshes, hendedAt]
    exact hs.ended
  · rw [hinFlight]
    intro refresh hr t ht
    obtain rfl := Option.some.inj hr
    rcases List.mem_append.mp ht with hfirst | hsecond
    · exact (hs.current _ hi t hfirst).trans hclock
    · exact (List.mem_singleton.mp hsecond).le
  · rw [hrefreshes]
    exact fun _ => hlate

theorem paced_step (hs : s.Paced) (hC : s.afterKeys options l = true) (h : s.step createPublicKey options l = some s') :
    s'.Paced := by
  obtain ⟨hle, hnow, htraffic⟩ := traffic_step h
  have hclock : s.clock ≤ s'.clock := hle.trans_eq hnow.symm
  generalize hinFlight : s'.inFlight = inFlight at htraffic
  generalize hrefreshes : s'.refreshes = refreshes at htraffic
  generalize hendedAt : s'.endedAt = endedAt at htraffic
  cases htraffic with
  | stay => exact paced_stay hs hclock hinFlight hrefreshes hendedAt
  | @begin token kid now hi hkid hrefresh =>
    obtain rfl : s'.clock = now := hnow
    refine paced_begin hs hi hinFlight hrefreshes hendedAt ?_
    intro old hold t ht
    obtain ⟨endedAt, hlast, hbefore⟩ := hs.ended old hold t ht
    have := later_of_afterKeys hi hkid hrefresh hlast hC
    omega
  | finish hi =>
    rw [← hnow] at hendedAt
    exact paced_finish hs hclock hi hinFlight hrefreshes hendedAt
  | pause hi hlength => exact paced_pause hs hclock hi hlength hinFlight hrefreshes hendedAt
  | again hi =>
    rw [← hnow] at hinFlight
    exact paced_again hs hclock hi hinFlight hrefreshes hendedAt

theorem bounded_of_paced (hs : s.Paced) : s.Bounded := fun _ _ => Window.length_within_le hs.lengths hs.spaced

/-- Where no refresh is started right after one that brought no keys, the provider
is called twice in two seconds at most. -/
theorem key_fetches_bounded {Key : Type} (createPublicKey : Jwk → Option Key) (options : IdentityOptions)
    {ls : List IdentityLabel} {s : IdentityProvider Key}
    (hC : Runs.Meets (step createPublicKey options) (fun s l => s.afterKeys options l = true) start ls)
    (h : Runs.run (step createPublicKey options) start ls = some s) : s.Bounded :=
  bounded_of_paced (Runs.invariant_of_meets (fun hs hC h => paced_step hs hC h) paced_start hC h)

def tokenOf (kid : String) : String :=
  String.ofList (encodeSegment (Json.writeObject [("alg", Json.quote "ES256"), ("kid", Json.quote kid)]) ++ ['.', '.'])

/-- Anyone can write a token for any name of a key. -/
theorem headerKid_tokenOf (kid : String) : headerKid (tokenOf kid) = some kid := by
  have hdecode : decodeSegment (encodeSegment (Json.writeObject [("alg", Json.quote "ES256"), ("kid", Json.quote kid)])) =
      some (.obj [("alg", .str "ES256"), ("kid", .str kid)]) :=
    decodeSegment_encodeSegment
      (Json.reads_writeObject (.cons (readsProperty_quote _ _) (.cons (readsProperty_quote _ _) .nil))) rfl
  have hsplit := splitOn_segments (dot_not_mem_encode (Utf8.encode
    (Json.writeObject [("alg", Json.quote "ES256"), ("kid", Json.quote kid)]))) (List.not_mem_nil (a := '.'))
    (List.not_mem_nil (a := '.'))
  rw [List.append_assoc] at hsplit
  unfold headerKid tokenOf
  rw [String.toList_ofList]
  unfold encodeSegment at *
  rw [show ['.', '.'] = '.' :: [] ++ '.' :: [] from rfl, hsplit]
  dsimp only
  rw [hdecode]
  simp [Json.property, Json.string?, List.lookup]

def spacedRun : List IdentityLabel :=
  [.verify (tokenOf "a") 5000, .settle (.keys [⟨some "a", some "EC", some "P-256", none, none⟩]) 5100,
    .verify (tokenOf "b") 7200, .settle .failed 7300, .wake 7500, .settle .failed 7600, .verify (tokenOf "c") 9700]

theorem key_fetches_bounded_spaced :
    ∃ s, Runs.run (step (fun _ => some ()) ⟨600000⟩) start spacedRun = some s ∧
      s.attempts = [[5000], [7200, 7500], [9700]] ∧ s.Bounded := by
  have hC : Runs.Meets (step (fun _ => some ()) ⟨600000⟩) (fun s l => s.afterKeys ⟨600000⟩ l = true) start spacedRun := by
    simp [Runs.Meets, spacedRun, step, enabled, IdentityLabel.now, headerKid_tokenOf, keyFor, refreshes?, key, start, settle,
      finish, usable, afterKeys, minRefreshIntervalMs, refreshAttempts]
  have hrun : (Runs.run (step (fun _ => some ()) ⟨600000⟩) start spacedRun).map attempts =
      some [[5000], [7200, 7500], [9700]] := by
    simp [Runs.run, spacedRun, step, enabled, IdentityLabel.now, headerKid_tokenOf, keyFor, refreshes?, key, start, settle,
      finish, usable, attempts, minRefreshIntervalMs, refreshAttempts]
  obtain ⟨s, hs, hattempts⟩ := Option.map_eq_some_iff.mp hrun
  exact ⟨s, hs, hattempts, key_fetches_bounded _ _ hC hs⟩

def refusedRun : List IdentityLabel :=
  [.verify (tokenOf "a") 5000, .settle .clientError 5001, .verify (tokenOf "b") 5002, .settle .clientError 5003,
    .verify (tokenOf "c") 5004]

theorem refusedRun_attempts : (Runs.run (step (fun _ => some ()) ⟨600000⟩) start refusedRun).map attempts =
    some [[5000], [5002], [5004]] := by
  simp [Runs.run, refusedRun, step, enabled, IdentityLabel.now, headerKid_tokenOf, keyFor, refreshes?, key, start, settle,
    finish, attempts]

theorem key_fetches_unbounded : ¬ ∀ (ls : List IdentityLabel) (s : IdentityProvider Unit),
    Runs.run (step (fun _ => some ()) ⟨600000⟩) start ls = some s → s.Bounded := by
  intro hall
  obtain ⟨s, hs, hattempts⟩ := Option.map_eq_some_iff.mp refusedRun_attempts
  have hbounded := hall _ _ hs 5000 4
  rw [hattempts] at hbounded
  exact absurd hbounded (by decide)

end IdentityProvider

end Paymaster
