import Paymaster.Backend.RedisQuotaStore
import Paymaster.Lib.Run

/-!
# The two quota stores

The in-memory store and the Redis store over one sequence of calls. Their
counters stay the same. Their answers do too until a count has fifteen digits:
Lua writes it in scientific notation, which `BigInt` refuses, and the call
throws after its script has run.
-/

namespace Paymaster

open Function Lua Runs

inductive StoreCall
  | tryConsume (key : String) (amount limit windowSeconds now : Nat)
  | release (key : String) (amount windowSeconds now : Nat)
  | usage (key : String) (windowSeconds now : Nat)
deriving DecidableEq

inductive StoreResult
  | outcome (outcome : QuotaOutcome)
  | released
  | usage (n : Nat)
deriving DecidableEq

namespace StoreCall

def slot : StoreCall → String
  | tryConsume key _ _ windowSeconds now => windowedKey key windowSeconds now
  | release key _ windowSeconds now => windowedKey key windowSeconds now
  | usage key windowSeconds now => windowedKey key windowSeconds now

def inMemory (counters : Counters) : StoreCall → StoreResult × Counters
  | tryConsume key amount limit windowSeconds now =>
    let (outcome, counters) := Paymaster.tryConsume counters key amount limit windowSeconds now
    (.outcome outcome, counters)
  | release key amount windowSeconds now => (.released, Paymaster.release counters key amount windowSeconds now)
  | usage key windowSeconds now => (.usage (Paymaster.usage counters key windowSeconds now), counters)

def inRedis (redis : Redis) (time : Nat) : StoreCall → Except StoreError StoreResult × Redis
  | tryConsume key amount limit windowSeconds now =>
    let (result, redis) := RedisQuotaStore.tryConsume redis time key amount limit windowSeconds now
    (result.map StoreResult.outcome, redis)
  | release key amount windowSeconds now =>
    let (result, redis) := RedisQuotaStore.release redis time key amount windowSeconds now
    (result.map fun _ => StoreResult.released, redis)
  | usage key windowSeconds now =>
    ((RedisQuotaStore.usage redis time key windowSeconds now).map StoreResult.usage, redis)

end StoreCall

structure Stores where
  memory : Counters
  redis : Redis

structure TimedCall where
  time : Nat
  call : StoreCall
deriving DecidableEq

namespace Stores

def step (s : Stores) (l : TimedCall) : Option Stores :=
  some ⟨(l.call.inMemory s.memory).2, (l.call.inRedis s.redis l.time).2⟩

def empty : Stores := ⟨fun _ => none, fun _ => none⟩

def Unexpired (s : Stores) (l : TimedCall) : Prop :=
  ((s.redis l.call.slot).bind RedisEntry.expiresAt).all (l.time < ·) = true

def LimitFits (l : TimedCall) : Prop :=
  match l.call with
  | .tryConsume _ _ limit _ _ => limit < 2 ^ 53
  | _ => True

/-- The stores answer alike, and a call that throws leaves Redis as it was. -/
def Agrees (s : Stores) (l : TimedCall) : Prop :=
  (l.call.inRedis s.redis l.time).1 = .ok (l.call.inMemory s.memory).1 ∧
    ∀ e, (l.call.inRedis s.redis l.time).1 = .error e → (l.call.inRedis s.redis l.time).2 = s.redis

/-- The count that a consumption answers with has at most fourteen digits: the
count it leads to, or the present one if it is refused. -/
def ShortAnswer (s : Stores) (l : TimedCall) : Prop :=
  match l.call with
  | .tryConsume key amount limit windowSeconds now =>
    let current := s.memory.at (windowedKey key windowSeconds now)
    (if current + amount ≤ limit then current + amount else current) < 10 ^ 14
  | _ => True

instance (s : Stores) (l : TimedCall) : Decidable (s.Unexpired l) := inferInstanceAs (Decidable (_ = _))

structure Related (s : Stores) : Prop where
  counts : ∀ slot, (s.redis slot).map RedisEntry.count = s.memory slot
  small : ∀ slot, s.memory.at slot < 2 ^ 53

end Stores

/-! ## One call -/

section
variable {s : Stores} {time amount limit windowSeconds now : Nat} {key slot : String}

open Stores

theorem live_of_unexpired (h : ((s.redis slot).bind RedisEntry.expiresAt).all (time < ·) = true) :
    s.redis.live time slot = s.redis slot := by
  unfold Redis.live
  cases hslot : s.redis slot with
  | none => rfl
  | some entry =>
    rw [hslot, Option.bind_some] at h
    rw [Option.filter_some, if_pos h]

theorem count_of_unexpired (hr : s.Related)
    (h : ((s.redis slot).bind RedisEntry.expiresAt).all (time < ·) = true) :
    s.redis.count time slot = s.memory.at slot := by
  rw [Redis.count, live_of_unexpired h, hr.counts slot]
  rfl

theorem related_update (hr : s.Related) (slot : String) (entry : Option RedisEntry)
    (hsmall : ∀ e, entry = some e → e.count < 2 ^ 53) :
    Related ⟨update s.memory slot (entry.map RedisEntry.count), update s.redis slot entry⟩ := by
  constructor
  · intro slot'
    by_cases hslot : slot' = slot
    · subst hslot
      simp only [update_self]
    · simp only [update_of_ne hslot]
      exact hr.counts slot'
  · intro slot'
    by_cases hslot : slot' = slot
    · subst hslot
      simp only [Counters.at_update_self]
      cases entry with
      | none => decide
      | some e => exact hsmall e rfl
    · rw [Counters.at_update_of_ne hslot]
      exact hr.small slot'

theorem tryConsume_related (hr : s.Related) (hlimit : limit < 2 ^ 53)
    (h : s.Unexpired ⟨time, .tryConsume key amount limit windowSeconds now⟩) :
    Related ⟨(tryConsume s.memory key amount limit windowSeconds now).2,
      (RedisQuotaStore.tryConsume s.redis time key amount limit windowSeconds now).2⟩ := by
  have hcount := count_of_unexpired hr h
  simp only [StoreCall.slot] at hcount
  have hsmall := hr.small (windowedKey key windowSeconds now)
  rw [← hcount] at hsmall
  rw [RedisQuotaStore.tryConsume_exact rfl hsmall hlimit]
  unfold tryConsume
  simp only [hcount]
  by_cases hover : limit < s.memory.at (windowedKey key windowSeconds now) + amount
  · simp only [if_pos hover]
    exact hr
  · simp only [if_neg hover]
    refine related_update hr _ (some ⟨_, _⟩) fun e he => ?_
    obtain rfl := Option.some.inj he
    show s.memory.at (windowedKey key windowSeconds now) + amount < 2 ^ 53
    omega

/-- It answers alike exactly when the answer is short. -/
theorem tryConsume_agrees (hr : s.Related) (hlimit : limit < 2 ^ 53)
    (h : s.Unexpired ⟨time, .tryConsume key amount limit windowSeconds now⟩) :
    s.Agrees ⟨time, .tryConsume key amount limit windowSeconds now⟩ ↔
      s.ShortAnswer ⟨time, .tryConsume key amount limit windowSeconds now⟩ := by
  have hcount := count_of_unexpired hr h
  simp only [StoreCall.slot] at hcount
  have hsmall := hr.small (windowedKey key windowSeconds now)
  rw [← hcount] at hsmall
  unfold Agrees ShortAnswer
  simp only [StoreCall.inRedis, StoreCall.inMemory]
  rw [RedisQuotaStore.tryConsume_exact rfl hsmall hlimit, hcount]
  unfold tryConsume
  simp only
  by_cases hover : limit < s.memory.at (windowedKey key windowSeconds now) + amount
  · simp only [if_pos hover, if_neg (Nat.not_le.mpr hover), RedisQuotaStore.answer]
    by_cases hshort : s.memory.at (windowedKey key windowSeconds now) < 10 ^ 14
    · simp only [hshort, if_true, iff_true]
      refine ⟨rfl, ?_⟩
      intro e he
      cases he
    · simp only [hshort, if_false, iff_false]
      rintro ⟨hsame, -⟩
      cases hsame
  · simp only [if_neg hover, if_pos (Nat.not_lt.mp hover), RedisQuotaStore.answer]
    by_cases hshort : s.memory.at (windowedKey key windowSeconds now) + amount < 10 ^ 14
    · simp only [hshort, if_true, iff_true]
      refine ⟨rfl, ?_⟩
      intro e he
      cases he
    · simp only [hshort, if_false, iff_false]
      rintro ⟨hsame, -⟩
      cases hsame

theorem release_related (hr : s.Related) (h : s.Unexpired ⟨time, .release key amount windowSeconds now⟩) :
    (RedisQuotaStore.release s.redis time key amount windowSeconds now).1 = .ok () ∧
      Related ⟨release s.memory key amount windowSeconds now,
        (RedisQuotaStore.release s.redis time key amount windowSeconds now).2⟩ := by
  have hcount := count_of_unexpired hr h
  have hlive := live_of_unexpired h
  simp only [StoreCall.slot] at hcount hlive
  have hsmall := hr.small (windowedKey key windowSeconds now)
  have hentry := hr.counts (windowedKey key windowSeconds now)
  rw [RedisQuotaStore.release_exact rfl (hcount ▸ hsmall), hcount, hlive]
  unfold release releaseSlot
  generalize windowedKey key windowSeconds now = slot at hsmall hentry ⊢
  cases hmemory : s.memory slot with
  | none =>
    have hzero : s.memory.at slot ≤ amount := by
      rw [Counters.at, hmemory]
      exact Nat.zero_le _
    have hnone : update s.memory slot none = s.memory := by
      rw [← hmemory, update_eq_self]
    refine ⟨by rw [if_pos hzero], ?_⟩
    have hrel := related_update hr slot none fun e he => by cases he
    rw [Option.map_none, hnone] at hrel
    rw [if_pos hzero]
    exact hrel
  | some current =>
    have hat : s.memory.at slot = current := by
      rw [Counters.at, hmemory, Option.getD_some]
    rw [hat] at hsmall ⊢
    by_cases hle : current ≤ amount
    · simp only [if_pos hle, true_and]
      exact related_update hr _ none fun e he => by cases he
    · simp only [if_neg hle, true_and]
      refine related_update hr _ (some ⟨_, _⟩) fun e he => ?_
      obtain rfl := Option.some.inj he
      exact Nat.lt_of_le_of_lt (Nat.sub_le _ _) hsmall

theorem step_related (l : TimedCall) (hr : s.Related) (hfits : LimitFits l) (h : s.Unexpired l) :
    (∀ s', s.step l = some s' → s'.Related) ∧ (s.Agrees l ↔ s.ShortAnswer l) := by
  obtain ⟨time, call⟩ := l
  cases call with
  | tryConsume key amount limit windowSeconds now =>
    refine ⟨fun s' hs => ?_, tryConsume_agrees hr hfits h⟩
    obtain rfl := Option.some.inj hs
    exact tryConsume_related hr hfits h
  | release key amount windowSeconds now =>
    obtain ⟨hanswer, hrel⟩ := release_related hr h
    refine ⟨fun s' hs => ?_, ?_⟩
    · obtain rfl := Option.some.inj hs
      exact hrel
    · have hsame : (StoreCall.release key amount windowSeconds now).inRedis s.redis time =
          (.ok .released, (RedisQuotaStore.release s.redis time key amount windowSeconds now).2) := by
        simp only [StoreCall.inRedis, hanswer, Except.map]
      simp only [Agrees, ShortAnswer, hsame, StoreCall.inMemory, true_and, iff_true]
      intro e he
      cases he
  | usage key windowSeconds now =>
    refine ⟨fun s' hs => ?_, ?_⟩
    · obtain rfl := Option.some.inj hs
      exact hr
    · have hcount : s.redis.count time (windowedKey key windowSeconds now) =
          s.memory.at (windowedKey key windowSeconds now) := count_of_unexpired hr h
      have hanswer := RedisQuotaStore.usage_exact s.redis time (rfl : windowedKey key windowSeconds now = _)
      simp only [Agrees, ShortAnswer, StoreCall.inRedis, StoreCall.inMemory, hanswer, hcount, iff_true]
      refine ⟨rfl, ?_⟩
      intro e he
      cases he

end

/-! ## Every sequence of calls -/

theorem related_empty : Stores.empty.Related := by
  constructor
  · intro slot
    rfl
  · intro slot
    show 0 < 2 ^ 53
    decide

/-- The two stores agree on a sequence of calls exactly when no consumption in
it is to be answered with a count of fifteen digits. -/
theorem stores_agree {ls : List TimedCall} (hlimits : ∀ l ∈ ls, Stores.LimitFits l)
    (hlive : Meets Stores.step Stores.Unexpired .empty ls) :
    Meets Stores.step Stores.Agrees .empty ls ↔ Meets Stores.step Stores.ShortAnswer .empty ls := by
  have hfits : Meets Stores.step (fun _ l => Stores.LimitFits l) .empty ls := meets_of_forall hlimits
  have hall := meets_and hfits hlive
  refine meets_iff (I := Stores.Related) (fun {s l s'} hr hl hs => ?_) (fun {s l} hr hl => ?_) related_empty hall
  · exact (step_related l hr hl.1 hl.2).1 s' hs
  · exact (step_related l hr hl.1 hl.2).2

def longAnswer : List TimedCall :=
  [⟨1700000000000, .tryConsume "quota:daily" (10 ^ 14) (10 ^ 14) 86400 1700000000⟩]

/-- The in-memory store grants it; the Redis store counts it, and throws. -/
theorem stores_differ_longAnswer : ¬ ∀ ls, (∀ l ∈ ls, Stores.LimitFits l) →
    Meets Stores.step Stores.Unexpired .empty ls → Meets Stores.step Stores.Agrees .empty ls := by
  intro hall
  have hlimits : ∀ l ∈ longAnswer, Stores.LimitFits l := by
    intro l hl
    obtain rfl := List.mem_singleton.mp hl
    show 10 ^ 14 < 2 ^ 53
    decide
  have hagrees := (hall longAnswer hlimits (by decide +kernel)).1.1
  exact absurd hagrees (by decide +kernel)

/-- On a consumption of less they agree. -/
theorem stores_agree_shortAnswer :
    Meets Stores.step Stores.Agrees .empty [⟨1700000000000, .tryConsume "quota:daily" 5 10 86400 1700000000⟩] := by
  refine (stores_agree (fun l hl => ?_) (by decide +kernel)).mpr ⟨?_, fun _ _ => trivial⟩
  · obtain rfl := List.mem_singleton.mp hl
    show 10 < 2 ^ 53
    decide
  · show 0 + 5 < 10 ^ 14
    decide

end Paymaster
