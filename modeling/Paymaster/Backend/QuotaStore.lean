import Paymaster.Lib.Separator

/-!
# The quota store

Counters in fixed windows, as the in-memory store keeps them: a map from slots
to counts, in which an absent slot counts as zero. `tryConsume` and `release`
are the two atomic operations of the port.
-/

namespace Paymaster

open Function

def windowStart (now windowSeconds : Nat) : Nat := now / windowSeconds * windowSeconds

def windowEnd (now windowSeconds : Nat) : Nat := windowStart now windowSeconds + windowSeconds

def windowedKey (key : String) (windowSeconds now : Nat) : String :=
  key ++ ":" ++ toString windowSeconds ++ ":" ++ toString (windowStart now windowSeconds)

abbrev Counters := String → Option Nat

structure QuotaOutcome where
  consumed : Bool
  usage : Nat
  limit : Nat
  resetsAt : Nat
deriving DecidableEq

def Counters.at (counters : Counters) (slot : String) : Nat := (counters slot).getD 0

/-- `tryConsume`: all of the amount, or nothing. -/
def tryConsume (counters : Counters) (key : String) (amount limit windowSeconds now : Nat) :
    QuotaOutcome × Counters :=
  let slot := windowedKey key windowSeconds now
  let current := counters.at slot
  let resetsAt := windowEnd now windowSeconds
  if current + amount > limit then (⟨false, current, limit, resetsAt⟩, counters)
  else (⟨true, current + amount, limit, resetsAt⟩, update counters slot (some (current + amount)))

/-- `release`, on the slot it addresses: clamped at zero, and nothing to do for an absent one. -/
def releaseSlot (counters : Counters) (slot : String) (amount : Nat) : Counters :=
  match counters slot with
  | none => counters
  | some current => if current ≤ amount then update counters slot none else update counters slot (some (current - amount))

def release (counters : Counters) (key : String) (amount windowSeconds now : Nat) : Counters :=
  releaseSlot counters (windowedKey key windowSeconds now) amount

def usage (counters : Counters) (key : String) (windowSeconds now : Nat) : Nat :=
  counters.at (windowedKey key windowSeconds now)

theorem colon_notMem_toString (n : Nat) : ':' ∉ (toString n).toList := by
  intro hmem
  have hdigit : Char.isDigit ':' = true :=
    Nat.isDigit_of_mem_toDigits (b := 10) (n := n) (by decide) (by decide) (by simpa using hmem)
  revert hdigit
  decide

theorem windowedKey_inj {key key' : String} {windowSeconds windowSeconds' now now' : Nat}
    (h : windowedKey key windowSeconds now = windowedKey key' windowSeconds' now') :
    key = key' ∧ windowSeconds = windowSeconds' ∧
      windowStart now windowSeconds = windowStart now' windowSeconds' := by
  have hinj : ∀ {m n : Nat}, toString m = toString n → m = n := fun hmn => Nat.repr_inj.mp hmn
  obtain ⟨hrest, hstart⟩ := Separator.strings_last (colon_notMem_toString _) (colon_notMem_toString _) h
  obtain ⟨hkey, hwindow⟩ := Separator.strings_last (colon_notMem_toString _) (colon_notMem_toString _) hrest
  exact ⟨hkey, hinj hwindow, hinj hstart⟩

variable {counters : Counters} {key slot : String} {amount limit windowSeconds now : Nat}

@[simp] theorem Counters.at_update_self (v : Option Nat) : Counters.at (update counters slot v) slot = v.getD 0 := by
  simp only [Counters.at, update_self]

theorem Counters.at_update_of_ne {slot' : String} (h : slot' ≠ slot) (v : Option Nat) :
    Counters.at (update counters slot v) slot' = counters.at slot' := by
  simp only [Counters.at, update_of_ne h]

/-- A refusal changes nothing; a success adds the amount to one slot, within the limit. -/
theorem tryConsume_cases {outcome : QuotaOutcome} {counters' : Counters}
    (h : tryConsume counters key amount limit windowSeconds now = (outcome, counters')) :
    (outcome.consumed = false ∧ counters' = counters) ∨
    (outcome.consumed = true ∧ counters.at (windowedKey key windowSeconds now) + amount ≤ limit ∧
      counters' = update counters (windowedKey key windowSeconds now)
        (some (counters.at (windowedKey key windowSeconds now) + amount))) := by
  unfold tryConsume at h
  simp only at h
  split at h
  · cases h
    exact .inl ⟨rfl, rfl⟩
  · rename_i hle
    cases h
    exact .inr ⟨rfl, Nat.le_of_not_lt hle, rfl⟩

theorem at_releaseSlot_self : Counters.at (releaseSlot counters slot amount) slot = counters.at slot - amount := by
  unfold releaseSlot
  cases h : counters slot with
  | none => simp [Counters.at, h]
  | some current =>
    simp only
    split
    · simp [Counters.at, h]
      omega
    · simp [Counters.at, h]

theorem at_releaseSlot_of_ne {slot' : String} (h : slot' ≠ slot) :
    Counters.at (releaseSlot counters slot amount) slot' = counters.at slot' := by
  unfold releaseSlot
  split
  · rfl
  · split <;> exact Counters.at_update_of_ne h _

/-- The daily window of a second in it, and the slot of a key. -/
example : windowedKey "quota:daily" 86400 1700000000 = "quota:daily:86400:1699920000" := by decide +kernel

end Paymaster
