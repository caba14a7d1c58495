import Paymaster.Backend.QuotaStore
import Paymaster.Backend.SponsorRequest
import Paymaster.Lib.LuaNumber

/-!
# The quota store in Redis

The port's operations as two Lua scripts, with what passes through them: amounts
as text, counters as doubles and their text, the reply as a `BigInt`. Each
script runs at one moment of the server's clock, in milliseconds.
-/

namespace Paymaster

open Function Lua

/-! ## Redis -/

structure RedisEntry where
  count : Nat
  expiresAt : Option Nat
deriving DecidableEq

abbrev Redis := String → Option RedisEntry

/-- A command or a script that raised, or a reply that `BigInt` refuses. -/
inductive StoreError
  | redis
  | syntaxError
deriving DecidableEq

namespace Redis

variable (redis : Redis) (time : Nat) (key : String)

/-- The entry as commands see it: gone once its time has come. -/
def live : Option RedisEntry := (redis key).filter fun entry => entry.expiresAt.all (time < ·)

def count : Nat := ((redis.live time key).map RedisEntry.count).getD 0

def get : Option (List Char) := (redis.live time key).map fun entry => Nat.toDigits 10 entry.count

def int64Max : Nat := 2 ^ 63 - 1

/-- `INCRBY`, which keeps the expiry. -/
def incrby (amount : List Char) : Except StoreError Nat × Redis :=
  let entry := (redis.live time key).getD ⟨0, none⟩
  match Numeral.read 10 amount with
  | none => (.error .redis, redis)
  | some n =>
    if int64Max < entry.count + n then (.error .redis, redis)
    else (.ok (entry.count + n), update redis key (some { entry with count := entry.count + n }))

/-- `DECRBY`. The script never takes more than there is. -/
def decrby (amount : List Char) : Except StoreError Nat × Redis :=
  let entry := (redis.live time key).getD ⟨0, none⟩
  match Numeral.read 10 amount with
  | none => (.error .redis, redis)
  | some n =>
    if int64Max < n then (.error .redis, redis)
    else (.ok (entry.count - n), update redis key (some { entry with count := entry.count - n }))

/-- `EXPIRE … NX`, in seconds: an expiry that is set stays. -/
def expireNX (ttl : Nat) : Redis :=
  match redis.live time key with
  | some ⟨count, none⟩ => update redis key (some ⟨count, some (time + 1000 * ttl)⟩)
  | _ => redis

def del : Redis := update redis key none

/-! ## The scripts -/

/-- `tonumber(redis.call('GET', KEYS[1])) or 0`. -/
def current : Number := ((redis.get time key).bind tonumber).getD (.finite 0)

/-- `CONSUME_SCRIPT`: whether it consumed, and the text of the usage. -/
def consumeScript (amount limit : List Char) (ttl : Nat) : Except StoreError (Nat × List Char) × Redis :=
  match tonumber amount, tonumber limit with
  | some amount, some limit =>
    if ((redis.current time key).add amount).gt limit then (.ok (0, (redis.current time key).tostring), redis)
    else
      match redis.incrby time key amount.argument with
      | (.ok updated, redis) => (.ok (1, (Number.ofNat updated).tostring), redis.expireNX time key ttl)
      | (.error e, redis) => (.error e, redis)
  | _, _ => (.error .redis, redis)

def releaseScript (amount : List Char) : Except StoreError (List Char) × Redis :=
  match tonumber amount with
  | none => (.error .redis, redis)
  | some amount =>
    if (redis.current time key).gt amount then
      match redis.decrby time key amount.argument with
      | (.ok updated, redis) => (.ok (Number.ofNat updated).tostring, redis)
      | (.error e, redis) => (.error e, redis)
    else (.ok ['0'], redis.del key)

end Redis

/-! ## The store -/

namespace RedisQuotaStore

def ttlBufferSeconds : Nat := 60

def ttl (windowSeconds now : Nat) : Nat := max 1 (windowEnd now windowSeconds - now + ttlBufferSeconds)

variable (redis : Redis) (time : Nat) (key : String)

def tryConsume (amount limit windowSeconds now : Nat) : Except StoreError QuotaOutcome × Redis :=
  match redis.consumeScript time (windowedKey key windowSeconds now) (Nat.toDigits 10 amount) (Nat.toDigits 10 limit)
      (ttl windowSeconds now) with
  | (.error e, redis) => (.error e, redis)
  | (.ok (consumed, text), redis) =>
    match Api.bigInt text with
    | none => (.error .syntaxError, redis)
    | some usage => (.ok ⟨consumed = 1, usage, limit, windowEnd now windowSeconds⟩, redis)

def release (amount windowSeconds now : Nat) : Except StoreError Unit × Redis :=
  match redis.releaseScript time (windowedKey key windowSeconds now) (Nat.toDigits 10 amount) with
  | (.error e, redis) => (.error e, redis)
  | (.ok _, redis) => (.ok (), redis)

def usage (windowSeconds now : Nat) : Except StoreError Nat :=
  match redis.get time (windowedKey key windowSeconds now) with
  | none => .ok 0
  | some text =>
    match Api.bigInt text with
    | none => .error .syntaxError
    | some usage => .ok usage

end RedisQuotaStore

/-! ## Numbers on the way -/

section
variable {x : Number} {m n limit : Nat}

/-- The sum is compared as it is, while the limit is below the doubles' precision. -/
theorem round_le_iff {k : Nat} (hk : k < 2 ^ 53) : Lua.round n ≤ k ↔ n ≤ k := by
  constructor
  · intro h
    exact (le_of_round_le hk h).2
  · intro h
    rw [round_of_lt (Nat.lt_of_le_of_lt h hk)]
    exact h

theorem gt_ofNat (hlimit : limit < 2 ^ 53) (n : Nat) :
    (Number.ofNat n).gt (.ofNat limit) = true ↔ limit < n := by
  rw [ofNat_of_lt hlimit]
  unfold Number.ofNat
  split
  · simp only [Number.gt, decide_eq_true_eq]
    rw [← Nat.not_le, round_le_iff hlimit, Nat.not_le]
  · rename_i hbig
    have hn : limit < n := by
      by_contra hle
      have hsmall := (round_le_iff hlimit).mpr (Nat.not_lt.mp hle)
      exact hbig (Nat.lt_of_le_of_lt hsmall (lt_infinity hlimit))
    simp only [Number.gt, hn]

theorem read_argument (h : Numeral.read 10 x.argument = some n) : x = .finite n := by
  cases x with
  | infinite =>
    have htext : Numeral.read 10 Number.infinite.argument = none := by decide
    rw [htext] at h
    cases h
  | finite m =>
    have hformat : Numeral.read 10 (formatG 17 m) = some n := h
    by_cases hm : m < 10 ^ 17
    · rw [formatG_short hm, Numeral.read_toDigits (by decide) (by decide)] at hformat
      rw [Option.some.inj hformat]
    · obtain ⟨first, second, rest, htext, hsecond⟩ := formatG_long (by decide) (Nat.not_lt.mp hm)
      rw [htext, read_letter hsecond] at hformat
      cases hformat

theorem ofNat_finite (h : Number.ofNat n = .finite m) : m = Lua.round n := by
  unfold Number.ofNat at h
  split at h
  · exact (Number.finite.inj h).symm
  · cases h

theorem add_gt_ofNat (hn : n < 2 ^ 53) (hlimit : limit < 2 ^ 53) :
    ((Number.ofNat n).add (.ofNat m)).gt (.ofNat limit) = true ↔ limit < n + m := by
  by_cases hm : m < 2 ^ 53
  · rw [ofNat_of_lt hn, ofNat_of_lt hm]
    exact gt_ofNat hlimit (n + m)
  · have hlarge : limit < n + m := by omega
    simp only [hlarge, iff_true]
    rw [ofNat_of_lt hn]
    cases hnumber : Number.ofNat m with
    | infinite => rw [ofNat_of_lt hlimit]; rfl
    | finite r =>
      have hr := ofNat_finite hnumber
      have hround : Lua.round (2 ^ 53) ≤ Lua.round m := round_mono (Nat.not_lt.mp hm)
      have hexact : Lua.round (2 ^ 53) = 2 ^ 53 := by decide
      exact (gt_ofNat hlimit (n + r)).mpr (by omega)

/-- `BigInt` reads the text of a number of at most fourteen digits, and throws on any longer one. -/
theorem bigInt_tostring {u : Nat} : Api.bigInt (Number.ofNat n).tostring = some u ↔ n < 10 ^ 14 ∧ u = n := by
  constructor
  · intro h
    unfold Number.ofNat at h
    split at h
    · by_cases hr : Lua.round n < 10 ^ 14
      · have hn := le_of_round_le (by decide : 10 ^ 14 - 1 < 2 ^ 53) (Nat.le_sub_one_of_lt hr)
        have htext : (Number.finite (Lua.round n)).tostring = Nat.toDigits 10 n := by
          rw [← hn.1]
          exact formatG_short (Nat.lt_of_le_of_lt hn.2 (by decide))
        rw [htext, Api.bigInt_decimal] at h
        exact ⟨Nat.lt_of_le_of_lt hn.2 (by decide), (Option.some.inj h).symm⟩
      · obtain ⟨first, second, rest, htext, hsecond⟩ := formatG_long (by decide) (Nat.not_lt.mp hr)
        have hnone : Api.bigInt (Number.finite (Lua.round n)).tostring = none := by
          show Api.bigInt (formatG 14 (Lua.round n)) = none
          rw [htext]
          exact Api.bigInt_of_second (read_letter hsecond) (by rcases hsecond with rfl | rfl <;> decide)
        rw [hnone] at h
        cases h
    · have hnone : Api.bigInt Number.infinite.tostring = none := by decide
      rw [hnone] at h
      cases h
  · rintro ⟨hn, rfl⟩
    have htext : (Number.ofNat u).tostring = Nat.toDigits 10 u := by
      rw [ofNat_of_lt (Nat.lt_trans hn (by decide))]
      exact formatG_short hn
    rw [htext, Api.bigInt_decimal]

end

/-! ## What the scripts do -/

namespace Redis

variable {redis : Redis} {time : Nat} {key : String} {amount limit ttl n : Nat}

def armedAt (redis : Redis) (time : Nat) (key : String) (ttl : Nat) : Nat :=
  ((redis.live time key).bind RedisEntry.expiresAt).getD (time + 1000 * ttl)

theorem current_eq : redis.current time key = Number.ofNat (redis.count time key) := by
  unfold current get count
  cases redis.live time key with
  | none => rw [ofNat_of_lt (by decide)]; rfl
  | some entry => simp only [Option.map_some, Option.bind_some, tonumber_toDigits, Option.getD_some]

theorem live_getD_count : ((redis.live time key).getD ⟨0, none⟩).count = redis.count time key := by
  unfold count
  cases redis.live time key <;> rfl

theorem live_some {entry : RedisEntry} (h : redis.live time key = some entry) :
    redis key = some entry ∧ ∀ t, entry.expiresAt = some t → time < t := by
  obtain ⟨hkey, hall⟩ := Option.filter_eq_some_iff.mp h
  refine ⟨hkey, fun t ht => ?_⟩
  rw [ht] at hall
  simpa using hall

theorem incrby_ok {text : List Char} {updated : Nat} {redis' : Redis}
    (h : redis.incrby time key text = (.ok updated, redis')) :
    ∃ n, Numeral.read 10 text = some n ∧ updated = redis.count time key + n ∧
      ∀ ttl, redis'.expireNX time key ttl =
        update redis key (some ⟨redis.count time key + n, some (redis.armedAt time key ttl)⟩) := by
  unfold incrby at h
  simp only [live_getD_count] at h
  split at h
  · cases h
  rename_i n hn
  split at h
  · cases h
  cases h
  refine ⟨n, hn, rfl, fun ttl => ?_⟩
  unfold expireNX armedAt
  cases hlive : redis.live time key with
  | none =>
    have hnew : live (update redis key (some ⟨redis.count time key + n, none⟩)) time key =
        some ⟨redis.count time key + n, none⟩ := by
      simp [live]
    simp only [Option.getD_none, hnew, update_idem, Option.bind_none]
  | some entry =>
    obtain ⟨count, expiresAt⟩ := entry
    obtain ⟨-, hexpires⟩ := live_some hlive
    cases expiresAt with
    | none =>
      have hnew : live (update redis key (some ⟨redis.count time key + n, none⟩)) time key =
          some ⟨redis.count time key + n, none⟩ := by
        simp [live]
      simp only [Option.getD_some, hnew, update_idem, Option.bind_some, Option.getD_none]
    | some t =>
      have hnew : live (update redis key (some ⟨redis.count time key + n, some t⟩)) time key =
          some ⟨redis.count time key + n, some t⟩ := by
        simp [live, hexpires t rfl]
      simp only [Option.getD_some, hnew, Option.bind_some]

theorem incrby_error {text : List Char} {e : StoreError} {redis' : Redis}
    (h : redis.incrby time key text = (.error e, redis')) : redis' = redis := by
  unfold incrby at h
  simp only at h
  split at h
  · cases h
    rfl
  · split at h
    · cases h
      rfl
    · cases h

/-- What a run of the script can do: nothing, or add the amount as Lua has it and arm the expiry. -/
theorem consumeScript_cases {result : Except StoreError (Nat × List Char)} {redis' : Redis}
    (h : redis.consumeScript time key (Nat.toDigits 10 amount) (Nat.toDigits 10 limit) ttl = (result, redis')) :
    (redis' = redis ∧ ∀ text, result ≠ .ok (1, text)) ∨
    ∃ n, Number.ofNat amount = .finite n ∧
      ((Number.ofNat (redis.count time key)).add (.finite n)).gt (.ofNat limit) = false ∧
      result = .ok (1, (Number.ofNat (redis.count time key + n)).tostring) ∧
      redis' = update redis key (some ⟨redis.count time key + n, some (redis.armedAt time key ttl)⟩) := by
  unfold consumeScript at h
  simp only [tonumber_toDigits, current_eq] at h
  split at h
  · cases h
    exact .inl ⟨rfl, by simp⟩
  rename_i hgt
  cases hincr : redis.incrby time key (Number.ofNat amount).argument with
  | mk reply after =>
    rw [hincr] at h
    cases reply with
    | error e =>
      cases h
      exact .inl ⟨incrby_error hincr, by simp⟩
    | ok updated =>
      cases h
      obtain ⟨n, hn, rfl, hafter⟩ := incrby_ok hincr
      have hnumber := read_argument hn
      refine .inr ⟨n, hnumber, ?_, rfl, hafter ttl⟩
      rw [hnumber] at hgt
      simpa using hgt

theorem incrby_exact (h : redis.count time key + amount < 2 ^ 53) :
    ∃ redis', redis.incrby time key (Number.ofNat amount).argument = (.ok (redis.count time key + amount), redis') := by
  have htext : (Number.ofNat amount).argument = Nat.toDigits 10 amount := by
    rw [ofNat_of_lt (by omega)]
    exact formatG_short (Nat.lt_trans (by omega : amount < 2 ^ 53) (by decide))
  have hfits : ¬ int64Max < redis.count time key + amount := by
    unfold int64Max
    omega
  unfold incrby
  rw [htext, Numeral.read_toDigits (by decide) (by decide)]
  simp only [live_getD_count, if_neg hfits]
  exact ⟨_, rfl⟩

theorem consumeScript_exact (hcount : redis.count time key < 2 ^ 53) (hlimit : limit < 2 ^ 53) :
    redis.consumeScript time key (Nat.toDigits 10 amount) (Nat.toDigits 10 limit) ttl =
      if limit < redis.count time key + amount then (.ok (0, (Number.ofNat (redis.count time key)).tostring), redis)
      else (.ok (1, (Number.ofNat (redis.count time key + amount)).tostring),
        update redis key (some ⟨redis.count time key + amount, some (redis.armedAt time key ttl)⟩)) := by
  unfold consumeScript
  simp only [tonumber_toDigits, current_eq, add_gt_ofNat hcount hlimit]
  by_cases h : limit < redis.count time key + amount
  · rw [if_pos h, if_pos h]
  · obtain ⟨redis', hincr⟩ := incrby_exact (by omega : redis.count time key + amount < 2 ^ 53)
    obtain ⟨n, -, hn, hafter⟩ := incrby_ok hincr
    obtain rfl : n = amount := by omega
    rw [if_neg h, if_neg h, hincr]
    simp only [hafter]

theorem decrby_cases {text : List Char} {reply : Except StoreError Nat} {redis' : Redis}
    (h : redis.decrby time key text = (reply, redis')) :
    (∃ e, reply = .error e ∧ redis' = redis) ∨
    ∃ n, Numeral.read 10 text = some n ∧ reply = .ok (redis.count time key - n) ∧
      redis' = update redis key (some ⟨redis.count time key - n, (redis.live time key).bind RedisEntry.expiresAt⟩) := by
  unfold decrby at h
  simp only [live_getD_count] at h
  split at h
  · cases h
    exact .inl ⟨_, rfl, rfl⟩
  rename_i n hn
  split at h
  · cases h
    exact .inl ⟨_, rfl, rfl⟩
  cases h
  refine .inr ⟨n, hn, rfl, ?_⟩
  cases redis.live time key <;> rfl

/-- What a release can do: nothing, delete what it covers, or take the amount as Lua has it. -/
theorem releaseScript_cases {result : Except StoreError (List Char)} {redis' : Redis}
    (h : redis.releaseScript time key (Nat.toDigits 10 amount) = (result, redis')) :
    ((∃ e, result = .error e) ∧ redis' = redis) ∨
    ((Number.ofNat (redis.count time key)).gt (.ofNat amount) = false ∧ (∃ text, result = .ok text) ∧
      redis' = update redis key none) ∨
    ∃ n, Number.ofNat amount = .finite n ∧ (Number.ofNat (redis.count time key)).gt (.finite n) = true ∧
      (∃ text, result = .ok text) ∧
      redis' = update redis key (some ⟨redis.count time key - n, (redis.live time key).bind RedisEntry.expiresAt⟩) := by
  unfold releaseScript at h
  simp only [tonumber_toDigits, current_eq] at h
  by_cases hgt : (Number.ofNat (redis.count time key)).gt (.ofNat amount) = true
  · rw [if_pos hgt] at h
    cases hdecr : redis.decrby time key (Number.ofNat amount).argument with
    | mk reply after =>
      rw [hdecr] at h
      rcases decrby_cases hdecr with ⟨e, rfl, rfl⟩ | ⟨n, hn, rfl, rfl⟩
      · cases h
        exact .inl ⟨⟨_, rfl⟩, rfl⟩
      · cases h
        have hnumber := read_argument hn
        rw [hnumber] at hgt
        exact .inr (.inr ⟨n, hnumber, hgt, ⟨_, rfl⟩, rfl⟩)
  · rw [if_neg hgt] at h
    cases h
    exact .inr (.inl ⟨by simpa using hgt, ⟨_, rfl⟩, rfl⟩)

theorem releaseScript_exact (amount : Nat) (hcount : redis.count time key < 2 ^ 53) :
    ∃ text, redis.releaseScript time key (Nat.toDigits 10 amount) =
      if redis.count time key ≤ amount then (.ok text, update redis key none)
      else (.ok text, update redis key
        (some ⟨redis.count time key - amount, (redis.live time key).bind RedisEntry.expiresAt⟩)) := by
  unfold releaseScript
  simp only [tonumber_toDigits, current_eq]
  by_cases hle : redis.count time key ≤ amount
  · have hgt : ¬ (Number.ofNat (redis.count time key)).gt (.ofNat amount) = true := by
      by_cases hamount : amount < 2 ^ 53
      · rw [gt_ofNat hamount]
        omega
      · rw [ofNat_of_lt hcount]
        cases hnumber : Number.ofNat amount with
        | infinite => simp [Number.gt]
        | finite r =>
          have hr := ofNat_finite hnumber
          have hround : Lua.round (2 ^ 53) ≤ Lua.round amount := round_mono (Nat.not_lt.mp hamount)
          have hexact : Lua.round (2 ^ 53) = 2 ^ 53 := by decide
          simp only [Number.gt, decide_eq_true_eq]
          omega
    simp only [if_pos hle, if_neg hgt]
    exact ⟨_, rfl⟩
  · have hamount : amount < 2 ^ 53 := by omega
    have hgt : (Number.ofNat (redis.count time key)).gt (.ofNat amount) = true := by
      rw [gt_ofNat hamount]
      omega
    have htext : (Number.ofNat amount).argument = Nat.toDigits 10 amount := by
      rw [ofNat_of_lt hamount]
      exact formatG_short (Nat.lt_trans hamount (by decide))
    have hfits : ¬ int64Max < amount := by
      unfold int64Max
      omega
    have hread : Numeral.read 10 (Nat.toDigits 10 amount) = some amount :=
      Numeral.read_toDigits (by decide) (by decide) amount
    simp only [if_neg hle, if_pos hgt, htext, decrby, hread, live_getD_count, if_neg hfits]
    refine ⟨(Number.ofNat (redis.count time key - amount)).tostring, ?_⟩
    cases redis.live time key <;> rfl

end Redis

namespace RedisQuotaStore

variable {redis : Redis} {time amount limit windowSeconds now : Nat} {key : String}

def answer (consumed : Bool) (count limit resetsAt : Nat) : Except StoreError QuotaOutcome :=
  if count < 10 ^ 14 then .ok ⟨consumed, count, limit, resetsAt⟩ else .error .syntaxError

theorem bigInt_text (count : Nat) :
    Api.bigInt (Number.ofNat count).tostring = if count < 10 ^ 14 then some count else none := by
  by_cases h : count < 10 ^ 14
  · rw [bigInt_tostring.mpr ⟨h, rfl⟩, if_pos h]
  · rw [if_neg h]
    cases hread : Api.bigInt (Number.ofNat count).tostring with
    | none => rfl
    | some u => exact absurd (bigInt_tostring.mp hread).1 h

/-- Below the doubles' precision the store consumes as it should, whatever it answers. -/
theorem tryConsume_exact {slot : String} (hslot : windowedKey key windowSeconds now = slot)
    (hcount : redis.count time slot < 2 ^ 53) (hlimit : limit < 2 ^ 53) :
    tryConsume redis time key amount limit windowSeconds now =
      if limit < redis.count time slot + amount then
        (answer false (redis.count time slot) limit (windowEnd now windowSeconds), redis)
      else
        (answer true (redis.count time slot + amount) limit (windowEnd now windowSeconds),
          update redis slot (some ⟨redis.count time slot + amount,
            some (redis.armedAt time slot (ttl windowSeconds now))⟩)) := by
  unfold tryConsume
  rw [hslot, Redis.consumeScript_exact hcount hlimit]
  generalize redis.count time slot = current
  by_cases h : limit < current + amount
  · simp only [if_pos h, bigInt_text, answer]
    by_cases hshort : current < 10 ^ 14
    · simp only [if_pos hshort]
      rfl
    · simp only [if_neg hshort]
  · simp only [if_neg h, bigInt_text, answer]
    by_cases hshort : current + amount < 10 ^ 14
    · simp only [if_pos hshort]
      rfl
    · simp only [if_neg hshort]

theorem release_exact {slot : String} (hslot : windowedKey key windowSeconds now = slot)
    (hcount : redis.count time slot < 2 ^ 53) :
    release redis time key amount windowSeconds now =
      if redis.count time slot ≤ amount then (.ok (), update redis slot none)
      else (.ok (), update redis slot
        (some ⟨redis.count time slot - amount, (redis.live time slot).bind RedisEntry.expiresAt⟩)) := by
  obtain ⟨text, hscript⟩ := Redis.releaseScript_exact amount hcount
  unfold release
  rw [hslot, hscript]
  by_cases hle : redis.count time slot ≤ amount
  · simp only [if_pos hle]
  · simp only [if_neg hle]

theorem usage_exact (redis : Redis) (time : Nat) {slot : String} (hslot : windowedKey key windowSeconds now = slot) :
    usage redis time key windowSeconds now = .ok (redis.count time slot) := by
  unfold usage Redis.get Redis.count
  rw [hslot]
  cases redis.live time slot with
  | none => rfl
  | some entry => simp only [Option.map_some, Api.bigInt_decimal, Option.getD_some]

end RedisQuotaStore

end Paymaster
