import Paymaster.Backend.RedisQuotaStore
import Paymaster.Lib.Run

/-!
# A window's limit under clock skew

Replicas share one Redis and consume from one key, each by its own clock, which
is off by half of the expiry's buffer at most. A counter that may still be
written to has not expired: an expiry is set from the clock of the replica that
creates the counter, but outlives the window by the other half of the buffer.
So what was consumed in a window and not given back is in its counter.
-/

namespace Paymaster

open Function Lua Runs

inductive SkewedCall
  | tryConsume (amount : Nat)
  /-- A release names the time of the request it undoes. -/
  | release (amount now : Nat)
deriving DecidableEq

/-- A script of some replica: Redis' time when it runs and the replica's clock, both in milliseconds. -/
structure ReplicaCall where
  time : Nat
  clock : Nat
  call : SkewedCall
deriving DecidableEq

namespace ReplicaCall

def maxSkew : Nat := 1000 * RedisQuotaStore.ttlBufferSeconds / 2

def InSync (l : ReplicaCall) : Prop := l.clock ≤ l.time + maxSkew ∧ l.time ≤ l.clock + maxSkew

instance (l : ReplicaCall) : Decidable l.InSync := inferInstanceAs (Decidable (_ ∧ _))

def now (l : ReplicaCall) : Nat := l.clock / 1000

end ReplicaCall

/-- Redis, its time, and by window start what its calls have consumed and what they gave back. -/
structure SharedQuota where
  redis : Redis
  time : Nat
  consumed : Nat → Nat
  released : Nat → Nat

def granted : Except StoreError QuotaOutcome → Bool
  | .ok outcome => outcome.consumed
  | .error _ => false

namespace SharedQuota

variable (key : String) (windowSeconds limit : Nat)

def start (time : Nat) : SharedQuota := ⟨fun _ => none, time, fun _ => 0, fun _ => 0⟩

def tryConsume (s : SharedQuota) (time now amount : Nat) : SharedQuota :=
  let (result, redis) := RedisQuotaStore.tryConsume s.redis time key amount limit windowSeconds now
  let window := windowStart now windowSeconds
  let consumed := if granted result then amount else 0
  { s with redis := redis, time := time, consumed := update s.consumed window (s.consumed window + consumed) }

def release (s : SharedQuota) (time now amount : Nat) : SharedQuota :=
  let (result, redis) := RedisQuotaStore.release s.redis time key amount windowSeconds now
  let window := windowStart now windowSeconds
  let given := if result = .ok () then min amount (s.redis.count time (windowedKey key windowSeconds now)) else 0
  { s with redis := redis, time := time, released := update s.released window (s.released window + given) }

def step (s : SharedQuota) (l : ReplicaCall) : Option SharedQuota :=
  if s.time ≤ l.time ∧ l.InSync then
    some (match l.call with
      | .tryConsume amount => s.tryConsume key windowSeconds limit l.time l.now amount
      | .release amount now => s.release key windowSeconds l.time now amount)
  else none

def slotAt (window : Nat) : String := key ++ ":" ++ toString windowSeconds ++ ":" ++ toString window

/-- The last moment at which some clock may still be in a window. -/
def closes (window : Nat) : Nat := 1000 * (window + windowSeconds) + ReplicaCall.maxSkew

def held (s : SharedQuota) (window : Nat) : Nat :=
  ((s.redis (slotAt key windowSeconds window)).map RedisEntry.count).getD 0

/-- A counter outlives its window on every clock; until then it holds what was
consumed and not given back. A call may throw after it has counted, but only
from `10 ^ 14` on. -/
structure Kept (s : SharedQuota) : Prop where
  armed : ∀ window entry, s.redis (slotAt key windowSeconds window) = some entry →
    ∃ t, entry.expiresAt = some t ∧ closes windowSeconds window ≤ t
  counted : ∀ window, s.time < closes windowSeconds window →
    s.consumed window ≤ s.released window + min (s.held key windowSeconds window) (10 ^ 14)
  within : ∀ window, s.consumed window ≤ limit + s.released window

end SharedQuota

open SharedQuota

section
variable {key : String} {windowSeconds limit : Nat} {s s' : SharedQuota} {time now amount window : Nat}

theorem slotAt_inj {window' : Nat} (h : slotAt key windowSeconds window = slotAt key windowSeconds window') :
    window = window' := by
  unfold slotAt at h
  have htext : Nat.toDigits 10 window = Nat.toDigits 10 window' := by
    simpa using congrArg String.toList h
  have hread := congrArg (Numeral.read 10) htext
  rw [Numeral.read_toDigits (by decide) (by decide), Numeral.read_toDigits (by decide) (by decide)] at hread
  exact Option.some.inj hread

theorem live_of_kept (hk : s.Kept key windowSeconds limit) (ht : time < closes windowSeconds window) :
    s.redis.live time (slotAt key windowSeconds window) = s.redis (slotAt key windowSeconds window) := by
  unfold Redis.live
  cases hslot : s.redis (slotAt key windowSeconds window) with
  | none => rfl
  | some entry =>
    obtain ⟨t, hexpires, hle⟩ := hk.armed window entry hslot
    have hlive : entry.expiresAt.all (time < ·) = true := by
      rw [hexpires, Option.all_some, decide_eq_true_eq]
      omega
    rw [Option.filter_some, if_pos hlive]

theorem count_of_kept (hk : s.Kept key windowSeconds limit) (ht : time < closes windowSeconds window) :
    s.redis.count time (slotAt key windowSeconds window) = s.held key windowSeconds window := by
  rw [Redis.count, live_of_kept hk ht, held]

theorem lt_closes {l : ReplicaCall} (hsync : l.InSync) (hw : 0 < windowSeconds) :
    l.time < closes windowSeconds (windowStart l.now windowSeconds) := by
  obtain ⟨-, hlate⟩ := hsync
  have hin : l.now < windowStart l.now windowSeconds + windowSeconds := by
    unfold windowStart
    have hmod := Nat.mod_lt l.now hw
    have hdiv := Nat.div_add_mod' l.now windowSeconds
    omega
  have hnow : l.clock < 1000 * (l.now + 1) := by
    unfold ReplicaCall.now
    omega
  unfold closes
  omega

theorem armedAt_late {l : ReplicaCall} (hk : s.Kept key windowSeconds limit) (hsync : l.InSync) :
    closes windowSeconds (windowStart l.now windowSeconds) ≤
      s.redis.armedAt l.time (slotAt key windowSeconds (windowStart l.now windowSeconds))
        (RedisQuotaStore.ttl windowSeconds l.now) := by
  have hnew : closes windowSeconds (windowStart l.now windowSeconds) ≤
      l.time + 1000 * RedisQuotaStore.ttl windowSeconds l.now := by
    obtain ⟨hearly, -⟩ := hsync
    have hclock : 1000 * l.now ≤ l.clock := by
      unfold ReplicaCall.now
      omega
    have hskew : ReplicaCall.maxSkew = 30000 := by decide
    have hbuffer : RedisQuotaStore.ttlBufferSeconds = 60 := rfl
    unfold closes RedisQuotaStore.ttl windowEnd
    omega
  unfold Redis.armedAt
  cases hlive : s.redis.live l.time (slotAt key windowSeconds (windowStart l.now windowSeconds)) with
  | none => exact hnew
  | some entry =>
    obtain ⟨t, hexpires, hle⟩ := hk.armed _ entry (Redis.live_some hlive).1
    rw [Option.bind_some, hexpires, Option.getD_some]
    exact hle

/-- Time alone changes nothing. -/
theorem SharedQuota.Kept.later (hk : s.Kept key windowSeconds limit) (ht : s.time ≤ time) :
    Kept key windowSeconds limit { s with time := time } :=
  ⟨hk.armed, fun window hlt => hk.counted window (Nat.lt_of_le_of_lt ht hlt), hk.within⟩

theorem held_update_self (entry : Option RedisEntry) (consumed released : Nat → Nat) :
    held key windowSeconds ⟨update s.redis (slotAt key windowSeconds window) entry, time, consumed, released⟩ window =
      (entry.map RedisEntry.count).getD 0 := by
  simp only [held, update_self]

theorem held_update_of_ne {window' : Nat} (hne : window' ≠ window) (entry : Option RedisEntry)
    (consumed released : Nat → Nat) :
    held key windowSeconds ⟨update s.redis (slotAt key windowSeconds window) entry, time, consumed, released⟩ window' =
      s.held key windowSeconds window' := by
  have hslot : slotAt key windowSeconds window' ≠ slotAt key windowSeconds window := fun h => hne (slotAt_inj h)
  simp only [held, update_of_ne hslot]

/-- Writing one counter with a late expiry keeps the others, and the window's own sums if they fit. -/
theorem kept_write (hk : s.Kept key windowSeconds limit) (ht : s.time ≤ time) (window : Nat) (entry : Option RedisEntry)
    (consumed released : Nat) (hentry : ∀ e, entry = some e → ∃ t, e.expiresAt = some t ∧ closes windowSeconds window ≤ t)
    (hcounted : time < closes windowSeconds window →
      consumed ≤ released + min ((entry.map RedisEntry.count).getD 0) (10 ^ 14))
    (hwithin : consumed ≤ limit + released) :
    Kept key windowSeconds limit ⟨update s.redis (slotAt key windowSeconds window) entry, time,
      update s.consumed window consumed, update s.released window released⟩ := by
  constructor
  · intro window' e he
    by_cases hw : window' = window
    · subst hw
      simp only [update_self] at he
      exact hentry e he
    · have hslot : slotAt key windowSeconds window' ≠ slotAt key windowSeconds window := fun h => hw (slotAt_inj h)
      simp only [update_of_ne hslot] at he
      exact hk.armed window' e he
  · intro window' hlt
    by_cases hw : window' = window
    · subst hw
      simp only [update_self, held_update_self]
      exact hcounted hlt
    · simp only [update_of_ne hw, held_update_of_ne hw]
      exact hk.counted window' (Nat.lt_of_le_of_lt ht hlt)
  · intro window'
    by_cases hw : window' = window
    · subst hw
      simp only [update_self]
      exact hwithin
    · simp only [update_of_ne hw]
      exact hk.within window'

/-- What Lua lets through is within the limit, and is the amount itself if it can be answered. -/
theorem sum_le_limit {n count : Nat} (hsmall : count + n < 10 ^ 14)
    (hgt : ((Number.ofNat count).add (.finite n)).gt (.ofNat limit) = false) : count + n ≤ limit := by
  by_contra hover
  have hlimit : limit < 2 ^ 53 := by omega
  rw [ofNat_of_lt (by omega : count < 2 ^ 53)] at hgt
  have htrue : ((Number.finite count).add (.finite n)).gt (.ofNat limit) = true :=
    (gt_ofNat hlimit (count + n)).mpr (by omega)
  rw [htrue] at hgt
  cases hgt

theorem amount_of_finite {n : Nat} (hsmall : n < 10 ^ 14) (h : Number.ofNat amount = .finite n) : amount = n := by
  have hround := ofNat_finite h
  have hle := le_of_round_le (by decide : 10 ^ 14 < 2 ^ 53) (by omega : Lua.round amount ≤ 10 ^ 14)
  omega

/-- What a call can do: nothing, or add to its counter; if that is granted, of a count that can be answered. -/
theorem store_tryConsume_cases {redis redis' : Redis} {slot : String} {result : Except StoreError QuotaOutcome}
    (hslot : windowedKey key windowSeconds now = slot)
    (h : RedisQuotaStore.tryConsume redis time key amount limit windowSeconds now = (result, redis')) :
    (redis' = redis ∧ granted result = false) ∨
    ∃ n, Number.ofNat amount = .finite n ∧
      ((Number.ofNat (redis.count time slot)).add (.finite n)).gt (.ofNat limit) = false ∧
      redis' = update redis slot (some ⟨redis.count time slot + n,
        some (redis.armedAt time slot (RedisQuotaStore.ttl windowSeconds now))⟩) ∧
      (granted result = true → redis.count time slot + n < 10 ^ 14) := by
  unfold RedisQuotaStore.tryConsume at h
  rw [hslot] at h
  cases hscript : redis.consumeScript time slot (Nat.toDigits 10 amount) (Nat.toDigits 10 limit)
      (RedisQuotaStore.ttl windowSeconds now) with
  | mk reply after =>
    rw [hscript] at h
    rcases Redis.consumeScript_cases hscript with ⟨rfl, hrefused⟩ | ⟨n, hn, hgt, rfl, rfl⟩
    · left
      rcases reply with e | ⟨consumed, text⟩
      · cases h
        exact ⟨rfl, rfl⟩
      · cases hread : Api.bigInt text with
        | none =>
          simp only [hread] at h
          cases h
          exact ⟨rfl, rfl⟩
        | some usage =>
          simp only [hread] at h
          cases h
          have hconsumed : consumed ≠ 1 := by
            rintro rfl
            exact hrefused text rfl
          exact ⟨rfl, decide_eq_false hconsumed⟩
    · right
      refine ⟨n, hn, hgt, ?_⟩
      cases hread : Api.bigInt (Number.ofNat (redis.count time slot + n)).tostring with
      | none =>
        simp only [hread] at h
        cases h
        exact ⟨rfl, fun hgranted => nomatch hgranted⟩
      | some usage =>
        simp only [hread] at h
        cases h
        exact ⟨rfl, fun _ => (bigInt_tostring.mp hread).1⟩

theorem tryConsume_kept {l : ReplicaCall} (hk : s.Kept key windowSeconds limit) (hw : 0 < windowSeconds)
    (ht : s.time ≤ l.time) (hsync : l.InSync) :
    Kept key windowSeconds limit (s.tryConsume key windowSeconds limit l.time l.now amount) := by
  have hlt := lt_closes hsync hw
  have hcount := count_of_kept hk hlt
  have hlate := armedAt_late hk hsync
  have hcounted := hk.counted _ (Nat.lt_of_le_of_lt ht hlt)
  have hwithin := hk.within (windowStart l.now windowSeconds)
  unfold SharedQuota.tryConsume
  have hslot : windowedKey key windowSeconds l.now = slotAt key windowSeconds (windowStart l.now windowSeconds) := rfl
  generalize windowStart l.now windowSeconds = window at *
  cases hcall : RedisQuotaStore.tryConsume s.redis l.time key amount limit windowSeconds l.now with
  | mk result redis =>
    rcases store_tryConsume_cases hslot hcall with ⟨rfl, hrefused⟩ | ⟨n, hn, hgt, rfl, hgranted⟩
    · simp only [hrefused, Bool.false_eq_true, if_false, Nat.add_zero, update_eq_self]
      exact hk.later ht
    · rw [hcount] at hgt hgranted ⊢
      have hsum : s.consumed window + (if granted result then amount else 0) ≤
          s.released window + min (s.held key windowSeconds window + n) (10 ^ 14) ∧
          s.consumed window + (if granted result then amount else 0) ≤ limit + s.released window := by
        by_cases hg : granted result = true
        · have hsmall := hgranted hg
          have hamount := amount_of_finite (by omega) hn
          have hle := sum_le_limit hsmall hgt
          rw [if_pos hg]
          omega
        · rw [if_neg hg]
          omega
      have hwrite := kept_write hk ht window (some ⟨s.held key windowSeconds window + n, some _⟩) _ (s.released window)
        (fun e he => ⟨_, by rw [← Option.some.inj he], hlate⟩) (fun _ => hsum.1) hsum.2
      rw [update_eq_self] at hwrite
      exact hwrite

/-- What a release can do: nothing, or empty its counter, or lower it by the amount as Lua has it. -/
theorem store_release_cases {redis redis' : Redis} {slot : String} {result : Except StoreError Unit}
    (hslot : windowedKey key windowSeconds now = slot)
    (h : RedisQuotaStore.release redis time key amount windowSeconds now = (result, redis')) :
    (redis' = redis ∧ result ≠ .ok ()) ∨
    (result = .ok () ∧ redis' = update redis slot none ∧
      (Number.ofNat (redis.count time slot)).gt (.ofNat amount) = false) ∨
    ∃ n, result = .ok () ∧ Number.ofNat amount = .finite n ∧
      (Number.ofNat (redis.count time slot)).gt (.finite n) = true ∧
      redis' = update redis slot
        (some ⟨redis.count time slot - n, (redis.live time slot).bind RedisEntry.expiresAt⟩) := by
  unfold RedisQuotaStore.release at h
  rw [hslot] at h
  cases hscript : redis.releaseScript time slot (Nat.toDigits 10 amount) with
  | mk reply after =>
    rw [hscript] at h
    rcases Redis.releaseScript_cases hscript with ⟨⟨e, rfl⟩, rfl⟩ | ⟨hgt, ⟨text, rfl⟩, rfl⟩ | ⟨n, hn, hgt, ⟨text, rfl⟩, rfl⟩
    · cases h
      exact .inl ⟨rfl, fun hok => nomatch hok⟩
    · cases h
      exact .inr (.inl ⟨rfl, rfl, hgt⟩)
    · cases h
      exact .inr (.inr ⟨n, rfl, hn, hgt, rfl⟩)

/-- What a count still covers when all of an amount is given back: rounding only matters beyond `10 ^ 14`. -/
theorem release_covers {count : Nat} (hgt : (Number.ofNat count).gt (.ofNat amount) = false) :
    min count (10 ^ 14) ≤ min amount count := by
  by_cases hamount : amount < 2 ^ 53
  · have hle : ¬ amount < count := by
      intro hlt
      rw [(gt_ofNat hamount count).mpr hlt] at hgt
      cases hgt
    omega
  · omega

theorem lower_covers {count n : Nat} (hn : Number.ofNat amount = .finite n)
    (hgt : (Number.ofNat count).gt (.finite n) = true) :
    min count (10 ^ 14) ≤ min amount count + min (count - n) (10 ^ 14) ∧ count ≠ 0 := by
  constructor
  · by_cases hamount : amount < 2 ^ 53
    · rw [ofNat_of_lt hamount, Number.finite.injEq] at hn
      omega
    · omega
  · rintro rfl
    rw [ofNat_of_lt (by decide)] at hgt
    simp [Number.gt] at hgt

theorem release_kept (hk : s.Kept key windowSeconds limit) (ht : s.time ≤ time) :
    Kept key windowSeconds limit (s.release key windowSeconds time now amount) := by
  have hslot : windowedKey key windowSeconds now = slotAt key windowSeconds (windowStart now windowSeconds) := rfl
  unfold SharedQuota.release
  rw [hslot]
  generalize windowStart now windowSeconds = window at *
  have hwithin := hk.within window
  have hcounted : time < closes windowSeconds window → s.consumed window ≤
      s.released window + min (s.redis.count time (slotAt key windowSeconds window)) (10 ^ 14) := by
    intro hlt
    rw [count_of_kept hk hlt]
    exact hk.counted window (Nat.lt_of_le_of_lt ht hlt)
  have harmed : ∀ entry, s.redis.live time (slotAt key windowSeconds window) = some entry →
      ∃ t, entry.expiresAt = some t ∧ closes windowSeconds window ≤ t :=
    fun entry hlive => hk.armed window entry (Redis.live_some hlive).1
  generalize hcount : s.redis.count time (slotAt key windowSeconds window) = count at *
  cases hcall : RedisQuotaStore.release s.redis time key amount windowSeconds now with
  | mk result redis =>
    rcases store_release_cases hslot hcall with ⟨rfl, hfailed⟩ | ⟨rfl, rfl, hgt⟩ | ⟨n, rfl, hn, hgt, rfl⟩
    · simp only [if_neg hfailed, Nat.add_zero, update_eq_self]
      exact hk.later ht
    · rw [hcount] at hgt
      have hcovers := release_covers hgt
      have hwrite := kept_write hk ht window none (s.consumed window) (s.released window + min amount count)
        (fun e he => nomatch he)
        (fun hlt => by have := hcounted hlt; simp; omega) (by omega)
      rw [update_eq_self] at hwrite
      simp only [if_true]
      exact hwrite
    · rw [hcount] at hgt
      obtain ⟨hcovers, hne⟩ := lower_covers hn hgt
      have hentry : ∃ entry, s.redis.live time (slotAt key windowSeconds window) = some entry := by
        cases hlive : s.redis.live time (slotAt key windowSeconds window) with
        | none =>
          rw [Redis.count, hlive, Option.map_none, Option.getD_none] at hcount
          exact absurd hcount.symm hne
        | some entry => exact ⟨entry, rfl⟩
      obtain ⟨entry, hlive⟩ := hentry
      have hwrite := kept_write hk ht window
        (some ⟨count - n, (s.redis.live time (slotAt key windowSeconds window)).bind RedisEntry.expiresAt⟩)
        (s.consumed window) (s.released window + min amount count)
        (fun e he => by
          rw [hlive, Option.bind_some] at he
          rw [← Option.some.inj he]
          exact harmed entry hlive)
        (fun hlt => by
          have hlt' := hcounted hlt
          simp only [Option.map_some, Option.getD_some]
          omega)
        (by omega)
      rw [update_eq_self] at hwrite
      simp only [hcount, if_true]
      exact hwrite

theorem step_kept {l : ReplicaCall} (hw : 0 < windowSeconds) (hk : s.Kept key windowSeconds limit)
    (h : s.step key windowSeconds limit l = some s') : s'.Kept key windowSeconds limit := by
  unfold SharedQuota.step at h
  split at h
  · rename_i hguard
    obtain ⟨ht, hsync⟩ := hguard
    rw [Option.some.injEq] at h
    subst h
    cases l.call with
    | tryConsume amount => exact tryConsume_kept hk hw ht hsync
    | release amount now => exact release_kept hk ht
  · cases h

theorem kept_start (time : Nat) : Kept key windowSeconds limit (.start time) := by
  constructor
  · intro window entry h
    cases h
  · intro window _
    exact Nat.zero_le _
  · intro window
    exact Nat.zero_le _

end

/-- In every window the replicas together consume no more than the limit and
what was given back in it, and a call never meets a counter that has expired. -/
theorem limit_across_replicas {key : String} {windowSeconds limit time : Nat} {s : SharedQuota}
    {ls : List ReplicaCall} (hw : 0 < windowSeconds)
    (h : run (SharedQuota.step key windowSeconds limit) (.start time) ls = some s) :
    (∀ window, s.consumed window ≤ limit + s.released window) ∧
      ∀ l : ReplicaCall, s.time ≤ l.time → l.InSync →
        s.redis.live l.time (windowedKey key windowSeconds l.now) = s.redis (windowedKey key windowSeconds l.now) := by
  have hk : s.Kept key windowSeconds limit :=
    invariant (fun hk hs => step_kept hw hk hs) (kept_start time) h
  exact ⟨hk.within, fun l _ hsync => live_of_kept hk (lt_closes hsync hw)⟩

def skewedReplicas : List ReplicaCall :=
  [⟨1700006370000, 1700006340000, .tryConsume 5⟩, ⟨1700006370001, 1700006400001, .tryConsume 4⟩,
    ⟨1700006371000, 1700006341000, .release 5 1700006340⟩, ⟨1700006372000, 1700006342000, .tryConsume 3⟩]

theorem limit_across_skewedReplicas : ∃ s,
    run (SharedQuota.step "quota:daily" 86400 5) (.start 1700006370000) skewedReplicas = some s ∧
      s.consumed 1699920000 = 8 ∧ s.consumed 1699920000 ≤ 5 + s.released 1699920000 := by
  have hrun : (run (SharedQuota.step "quota:daily" 86400 5) (.start 1700006370000) skewedReplicas).isSome = true := by
    decide +kernel
  obtain ⟨s, hs⟩ := Option.isSome_iff_exists.mp hrun
  have hconsumed : (run (SharedQuota.step "quota:daily" 86400 5) (.start 1700006370000) skewedReplicas).map
      (fun s => s.consumed 1699920000) = some 8 := by
    decide +kernel
  rw [hs] at hconsumed
  exact ⟨s, hs, Option.some.inj hconsumed, (limit_across_replicas (by decide) hs).1 1699920000⟩

end Paymaster
