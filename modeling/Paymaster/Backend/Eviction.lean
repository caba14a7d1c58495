import Paymaster.Backend.QuotaStore
import Paymaster.Lib.Numeral

/-!
# Eviction of ended windows

A map forgets nothing by itself. `evictExpired` reads the window of each counter
back from its slot, whose key may hold anything, and drops those that have ended.
No later call looks at what was dropped.
-/

namespace Paymaster

open Function

/-- `Number` of what `windowedKey` wrote. -/
def slotNumber (part : List Char) : Option Nat := Numeral.read 10 part

def slotExpired (slot : String) (now : Nat) : Bool :=
  match (slot.toList.splitOn ':').reverse with
  | start :: windowSeconds :: _ =>
    match slotNumber start, slotNumber windowSeconds with
    | some start, some windowSeconds => start + windowSeconds ≤ now
    | _, _ => false
  | _ => false

def evictExpired (counters : Counters) (now : Nat) : Counters :=
  fun slot => if slotExpired slot now then none else counters slot

/-! ## Calls -/

inductive QuotaCall
  | tryConsume (key : String) (amount limit windowSeconds now : Nat)
  | release (key : String) (amount windowSeconds now : Nat)
  | usage (key : String) (windowSeconds now : Nat)

inductive QuotaAnswer
  | consumed (outcome : QuotaOutcome)
  | released
  | usage (count : Nat)

namespace QuotaCall

def perform (counters : Counters) : QuotaCall → QuotaAnswer × Counters
  | .tryConsume key amount limit windowSeconds now =>
    let (outcome, counters) := Paymaster.tryConsume counters key amount limit windowSeconds now
    (.consumed outcome, counters)
  | .release key amount windowSeconds now => (.released, Paymaster.release counters key amount windowSeconds now)
  | .usage key windowSeconds now => (.usage (Paymaster.usage counters key windowSeconds now), counters)

def windowSeconds : QuotaCall → Nat
  | .tryConsume _ _ _ windowSeconds _ => windowSeconds
  | .release _ _ windowSeconds _ => windowSeconds
  | .usage _ windowSeconds _ => windowSeconds

def now : QuotaCall → Nat
  | .tryConsume _ _ _ _ now => now
  | .release _ _ _ now => now
  | .usage _ _ now => now

def key : QuotaCall → String
  | .tryConsume key _ _ _ _ => key
  | .release key _ _ _ => key
  | .usage key _ _ => key

def slot (call : QuotaCall) : String := windowedKey call.key call.windowSeconds call.now

def answers : Counters → List QuotaCall → List QuotaAnswer
  | _, [] => []
  | counters, call :: calls => (call.perform counters).1 :: answers (call.perform counters).2 calls

end QuotaCall

inductive StoreStep
  | call (quotaCall : QuotaCall)
  | evictExpired (now : Nat)

def StoreStep.apply (counters : Counters) : StoreStep → Counters
  | .call quotaCall => (quotaCall.perform counters).2
  | .evictExpired now => Paymaster.evictExpired counters now

def storeAfter (steps : List StoreStep) : Counters := steps.foldl StoreStep.apply fun _ => none

/-! ## The window of a slot -/

variable {counters : Counters} {slot : String} {count now : Nat}

/-- Whatever the key is, the last two parts are the window's. -/
theorem splitOn_windowedKey (key : String) (windowSeconds now : Nat) :
    (windowedKey key windowSeconds now).toList.splitOn ':' = key.toList.splitOn ':' ++
      [(toString windowSeconds).toList] ++ [(toString (windowStart now windowSeconds)).toList] := by
  have hlist : (windowedKey key windowSeconds now).toList = key.toList ++ ':' ::
      ((toString windowSeconds).toList ++ ':' :: (toString (windowStart now windowSeconds)).toList) := by
    simp [windowedKey]
  rw [hlist, List.splitOn_append_cons_self, List.splitOn_append_cons_self,
    List.splitOn_eq_singleton (colon_notMem_toString _), List.splitOn_eq_singleton (colon_notMem_toString _),
    List.append_assoc]

theorem slotNumber_toString (n : Nat) : slotNumber (toString n).toList = some n := by
  have hdigits : (toString n).toList = Nat.toDigits 10 n := by simp
  rw [hdigits]
  exact Numeral.read_toDigits (by decide) (by decide) n

theorem slotExpired_windowedKey (key : String) (windowSeconds t now : Nat) :
    slotExpired (windowedKey key windowSeconds t) now = decide (windowEnd t windowSeconds ≤ now) := by
  unfold slotExpired
  rw [splitOn_windowedKey, List.reverse_append, List.reverse_append, List.reverse_singleton, List.reverse_singleton]
  simp only [List.cons_append, List.nil_append, slotNumber_toString]
  rfl

/-! ## Later calls -/

namespace QuotaCall

variable {call : QuotaCall}

/-- A call at or after an eviction is in a window that has not ended. -/
theorem slotExpired_slot (hpos : 0 < call.windowSeconds) (hnow : now ≤ call.now) :
    slotExpired call.slot now = false := by
  have hend : call.now < windowEnd call.now call.windowSeconds := Nat.lt_div_mul_add hpos
  unfold slot
  rw [slotExpired_windowedKey]
  exact decide_eq_false (by omega)

/-- What is returned comes from the call's slot, and only that slot is written. -/
theorem perform_slot (call : QuotaCall) :
    ∃ (answer : Option Nat → QuotaAnswer) (write : Option Nat → Option Nat), ∀ counters,
      call.perform counters = (answer (counters call.slot), update counters call.slot (write (counters call.slot))) := by
  cases call with
  | tryConsume key amount limit windowSeconds now =>
    refine ⟨fun count => .consumed (if count.getD 0 + amount > limit then
        ⟨false, count.getD 0, limit, windowEnd now windowSeconds⟩
      else ⟨true, count.getD 0 + amount, limit, windowEnd now windowSeconds⟩),
      fun count => if count.getD 0 + amount > limit then count else some (count.getD 0 + amount), ?_⟩
    intro counters
    unfold perform Paymaster.tryConsume Counters.at
    by_cases hover : (counters (windowedKey key windowSeconds now)).getD 0 + amount > limit
    · simp only [slot, QuotaCall.key, QuotaCall.windowSeconds, QuotaCall.now, hover, if_true, update_eq_self]
    · simp only [slot, QuotaCall.key, QuotaCall.windowSeconds, QuotaCall.now, hover, if_false]
  | release key amount windowSeconds now =>
    refine ⟨fun _ => .released, fun count => count.bind fun current =>
      if current ≤ amount then none else some (current - amount), ?_⟩
    intro counters
    unfold perform Paymaster.release releaseSlot
    cases hcount : counters (windowedKey key windowSeconds now) with
    | none =>
      simp only [slot, QuotaCall.key, QuotaCall.windowSeconds, QuotaCall.now, hcount, Option.bind_none]
      rw [← hcount, update_eq_self]
    | some current =>
      simp only [slot, QuotaCall.key, QuotaCall.windowSeconds, QuotaCall.now, hcount, Option.bind_some]
      split <;> rfl
  | usage key windowSeconds now =>
    refine ⟨fun count => .usage (count.getD 0), id, ?_⟩
    intro counters
    simp only [perform, slot, QuotaCall.key, QuotaCall.windowSeconds, QuotaCall.now, id, update_eq_self]
    rfl

/-- An eviction before a call is one after it. -/
theorem perform_evictExpired (counters : Counters) (hpos : 0 < call.windowSeconds) (hnow : now ≤ call.now) :
    (call.perform (evictExpired counters now)).1 = (call.perform counters).1 ∧
      (call.perform (evictExpired counters now)).2 = evictExpired (call.perform counters).2 now := by
  have hlive := slotExpired_slot hpos hnow
  have hsame : evictExpired counters now call.slot = counters call.slot := by
    unfold evictExpired
    rw [hlive, if_neg Bool.false_ne_true]
  obtain ⟨answer, write, hperform⟩ := call.perform_slot
  rw [hperform, hperform, hsame]
  refine ⟨rfl, funext fun slot => ?_⟩
  show update (evictExpired counters now) call.slot (write (counters call.slot)) slot =
    if slotExpired slot now then none else update counters call.slot (write (counters call.slot)) slot
  by_cases hslot : slot = call.slot
  · rw [hslot, hlive, update_self, update_self, if_neg Bool.false_ne_true]
  · rw [update_of_ne hslot, update_of_ne hslot]
    rfl

theorem answers_evictExpired : ∀ {calls : List QuotaCall} {counters : Counters},
    (∀ call ∈ calls, 0 < call.windowSeconds ∧ now ≤ call.now) →
    answers (evictExpired counters now) calls = answers counters calls
  | [], _, _ => rfl
  | call :: calls, counters, hcalls => by
    obtain ⟨hpos, hnow⟩ := hcalls call List.mem_cons_self
    obtain ⟨hanswer, hstore⟩ := perform_evictExpired counters hpos hnow
    unfold answers
    rw [hanswer, hstore, answers_evictExpired fun call hmem => hcalls call (List.mem_cons_of_mem _ hmem)]

end QuotaCall

/-! ## Reachable stores -/

def Counters.Windowed (counters : Counters) : Prop :=
  ∀ slot count, counters slot = some count →
    ∃ key windowSeconds now, 0 < windowSeconds ∧ slot = windowedKey key windowSeconds now

def StoreStep.Positive : StoreStep → Prop
  | .call quotaCall => 0 < quotaCall.windowSeconds
  | .evictExpired _ => True

theorem windowed_apply {step : StoreStep} (hstep : step.Positive) (h : counters.Windowed) :
    (step.apply counters).Windowed := by
  intro slot count hslot
  cases step with
  | call quotaCall =>
    obtain ⟨answer, write, hperform⟩ := quotaCall.perform_slot
    rw [StoreStep.apply, hperform] at hslot
    by_cases hcall : slot = quotaCall.slot
    · exact ⟨quotaCall.key, quotaCall.windowSeconds, quotaCall.now, hstep, hcall⟩
    · dsimp only at hslot
      rw [update_of_ne hcall] at hslot
      exact h slot count hslot
  | evictExpired now =>
    have hkept : (if slotExpired slot now then none else counters slot) = some count := hslot
    rw [Option.ite_none_left_eq_some] at hkept
    exact h slot count hkept.2

theorem windowed_storeAfter : ∀ {steps : List StoreStep}, (∀ step ∈ steps, step.Positive) → (storeAfter steps).Windowed := by
  intro steps hsteps
  induction steps using List.reverseRecOn with
  | nil => exact fun _ _ hslot => nomatch hslot
  | append_singleton steps step ih =>
    unfold storeAfter
    rw [List.foldl_append]
    exact windowed_apply (hsteps step (by simp)) (ih fun step hmem => hsteps step (List.mem_append_left _ hmem))

/-- No two windows share a slot, no later call notices an eviction, and exactly the windows that have ended are gone. -/
theorem eviction_unobservable {steps : List StoreStep} (hsteps : ∀ step ∈ steps, step.Positive) (now : Nat) :
    (∀ key key' windowSeconds windowSeconds' t t',
      windowedKey key windowSeconds t = windowedKey key' windowSeconds' t' ↔
        key = key' ∧ windowSeconds = windowSeconds' ∧ windowStart t windowSeconds = windowStart t' windowSeconds') ∧
    (∀ calls : List QuotaCall, (∀ call ∈ calls, 0 < call.windowSeconds ∧ now ≤ call.now) →
      QuotaCall.answers (evictExpired (storeAfter steps) now) calls = QuotaCall.answers (storeAfter steps) calls) ∧
    ∀ slot count, storeAfter steps slot = some count →
      ∃ key windowSeconds t, 0 < windowSeconds ∧ slot = windowedKey key windowSeconds t ∧
        evictExpired (storeAfter steps) now slot = if windowEnd t windowSeconds ≤ now then none else some count := by
  refine ⟨?_, fun calls hcalls => QuotaCall.answers_evictExpired hcalls, ?_⟩
  · intro key key' windowSeconds windowSeconds' t t'
    constructor
    · exact windowedKey_inj
    · rintro ⟨rfl, rfl, hstart⟩
      unfold windowedKey
      rw [hstart]
  · intro slot count hslot
    obtain ⟨key, windowSeconds, t, hpos, rfl⟩ := windowed_storeAfter hsteps slot count hslot
    refine ⟨key, windowSeconds, t, hpos, rfl, ?_⟩
    unfold evictExpired
    rw [slotExpired_windowedKey, hslot]
    exact if_congr decide_eq_true_iff rfl rfl

/-- A key that looks like a slot, of which two are counted before its window ends, and two after. -/
theorem eviction_unobservable_sample :
    QuotaCall.answers (evictExpired (storeAfter [.call (.tryConsume "a:60:0" 2 5 60 30)]) 60)
        [.tryConsume "a:60:0" 2 5 60 60, .usage "a:60:0" 60 61] =
      QuotaCall.answers (storeAfter [.call (.tryConsume "a:60:0" 2 5 60 30)])
        [.tryConsume "a:60:0" 2 5 60 60, .usage "a:60:0" 60 61] := by
  have hsteps : ∀ step ∈ [StoreStep.call (.tryConsume "a:60:0" 2 5 60 30)], step.Positive := by
    intro step hmem
    rw [List.mem_singleton.mp hmem]
    exact Nat.succ_pos _
  refine (eviction_unobservable hsteps 60).2.1 _ ?_
  intro call hmem
  rcases List.mem_cons.mp hmem with rfl | hrest
  · exact ⟨Nat.succ_pos _, Nat.le_refl _⟩
  · rw [List.mem_singleton.mp hrest]
    exact ⟨Nat.succ_pos _, Nat.le_succ _⟩

end Paymaster
