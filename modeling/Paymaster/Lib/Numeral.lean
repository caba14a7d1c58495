import Mathlib

/-!
# Numerals

Reading digit strings in a base of at most sixteen, and that what
`Nat.toDigits` writes is read back.
-/

namespace Numeral

def digitValue? (c : Char) : Option Nat :=
  if 48 ≤ c.toNat ∧ c.toNat ≤ 57 then some (c.toNat - 48)
  else if 97 ≤ c.toNat ∧ c.toNat ≤ 102 then some (c.toNat - 87)
  else if 65 ≤ c.toNat ∧ c.toNat ≤ 70 then some (c.toNat - 55)
  else none

def readDigit (b n : Nat) (c : Char) : Option Nat := do
  let d ← digitValue? c
  if d < b then some (n * b + d) else none

/-- The number that a digit string writes; `none` if a character is no digit of the base. -/
def read (b : Nat) (ds : List Char) : Option Nat := ds.foldlM (readDigit b) 0

theorem read_snoc (b : Nat) (ds : List Char) (c : Char) :
    read b (ds ++ [c]) = (read b ds).bind fun n => readDigit b n c := by
  simp [read]

theorem readDigit_digitChar {b d : Nat} (hb : b ≤ 16) (hd : d < b) (n : Nat) :
    readDigit b n d.digitChar = some (n * b + d) := by
  have hvalue : ∀ d < 16, digitValue? d.digitChar = some d := by decide
  simp [readDigit, hvalue d (by omega), hd]

theorem read_toDigits {b : Nat} (hb : 1 < b) (hb' : b ≤ 16) (n : Nat) : read b (Nat.toDigits b n) = some n := by
  induction n using Nat.strongRecOn with
  | ind n ih =>
    by_cases hn : n < b
    · rw [Nat.toDigits_of_lt_base hn, ← List.nil_append [n.digitChar], read_snoc]
      show readDigit b 0 n.digitChar = some n
      rw [readDigit_digitChar hb' hn, Nat.zero_mul, Nat.zero_add]
    · have hdigits := Nat.toDigits_of_base_le hb (Nat.not_lt.mp hn)
      have hquotient := ih (n / b) (Nat.div_lt_self (by omega) hb)
      rw [hdigits, read_snoc, hquotient, Option.bind_some, readDigit_digitChar hb' (Nat.mod_lt n (by omega)),
        Nat.div_add_mod']

theorem read_cons {b : Nat} {c : Char} {ds : List Char} :
    read b (c :: ds) = (readDigit b 0 c).bind fun n => ds.foldlM (readDigit b) n := by
  simp [read]

theorem read_of_second {b : Nat} {c d : Char} {ds : List Char} (h : ∀ n, readDigit b n d = none) :
    read b (c :: d :: ds) = none := by
  rw [read_cons]
  cases readDigit b 0 c with
  | none => rfl
  | some n => simp [List.foldlM_cons, h]

theorem read_zeros {ds : List Char} (h : ∀ c ∈ ds, c = '0') : read 10 ds = some 0 := by
  have hzero : readDigit 10 0 '0' = some 0 := by decide
  induction ds with
  | nil => rfl
  | cons c ds ih =>
    obtain rfl := h c List.mem_cons_self
    rw [read_cons, hzero, Option.bind_some]
    exact ih fun c hc => h c (List.mem_cons_of_mem _ hc)

theorem read_replicate_append {b : Nat} (hb : 0 < b) (k : Nat) (ds : List Char) :
    read b (List.replicate k '0' ++ ds) = read b ds := by
  have hzero : readDigit b 0 '0' = some 0 := by
    have hvalue : digitValue? '0' = some 0 := by decide
    simp [readDigit, hvalue, hb]
  induction k with
  | zero => rfl
  | succ k ih =>
    rw [List.replicate_succ, List.cons_append, read_cons, hzero, Option.bind_some]
    exact ih

theorem read_eq_none {b : Nat} {c : Char} {ds : List Char} (hc : digitValue? c = none) (hmem : c ∈ ds) :
    read b ds = none := by
  induction ds using List.reverseRecOn with
  | nil => cases hmem
  | append_singleton ds d ih =>
    rw [read_snoc]
    rcases List.mem_append.mp hmem with hinit | hlast
    · rw [ih hinit, Option.bind_none]
    · rw [← List.mem_singleton.mp hlast]
      cases read b ds with
      | none => rfl
      | some n => simp [readDigit, hc]

end Numeral
