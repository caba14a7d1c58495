import Mathlib
import Paymaster.Lib.Numeral

/-!
# Lua's numbers

Lua 5.1 has doubles only. These are the natural numbers among them: rounding to
the nearest, ties to even, and the text that `%g` writes, which turns to
scientific notation as soon as the precision is exceeded.
-/

namespace Lua

/-! ## Rounding -/

/-- The nearest multiple of `u`, an even one from halfway. -/
def roundTo (u n : Nat) : Nat :=
  if 2 * (n % u) < u ∨ (2 * (n % u) = u ∧ n / u % 2 = 0) then n / u * u else (n / u + 1) * u

/-- The distance of the doubles around `n`, whose mantissa has 53 bits. -/
def ulp (n : Nat) : Nat := 2 ^ (n.log2 - 52)

def round (n : Nat) : Nat := roundTo (ulp n) n

theorem roundTo_of_dvd {u n : Nat} (hu : 0 < u) (h : u ∣ n) : roundTo u n = n := by
  unfold roundTo
  rw [Nat.mod_eq_zero_of_dvd h, if_pos (Or.inl (by omega)), Nat.div_mul_cancel h]

theorem le_roundTo (u n : Nat) : n / u * u ≤ roundTo u n := by
  unfold roundTo
  split
  · exact Nat.le_refl _
  · exact Nat.mul_le_mul_right u (Nat.le_succ _)

theorem roundTo_le (u n : Nat) : roundTo u n ≤ (n / u + 1) * u := by
  unfold roundTo
  split
  · exact Nat.mul_le_mul_right u (Nat.le_succ _)
  · exact Nat.le_refl _

theorem roundTo_mono (u : Nat) {m n : Nat} (h : m ≤ n) : roundTo u m ≤ roundTo u n := by
  have hdiv : m / u ≤ n / u := Nat.div_le_div_right h
  rcases Nat.lt_or_eq_of_le hdiv with hlt | heq
  · calc roundTo u m ≤ (m / u + 1) * u := roundTo_le u m
      _ ≤ n / u * u := Nat.mul_le_mul_right u hlt
      _ ≤ roundTo u n := le_roundTo u n
  · -- Within one step the remainder decides, and the parity is the same.
    have hmod : m % u ≤ n % u := by
      have hm := Nat.div_add_mod m u
      have hn := Nat.div_add_mod n u
      rw [heq] at hm
      omega
    unfold roundTo
    rw [heq]
    by_cases hn : 2 * (n % u) < u ∨ (2 * (n % u) = u ∧ n / u % 2 = 0)
    · have hm : 2 * (m % u) < u ∨ (2 * (m % u) = u ∧ n / u % 2 = 0) := by omega
      rw [if_pos hm, if_pos hn]
    · rw [if_neg hn]
      split
      · exact Nat.mul_le_mul_right u (Nat.le_succ _)
      · exact Nat.le_refl _

theorem ulp_pos (n : Nat) : 0 < ulp n := Nat.two_pow_pos _

/-- A number is rounded within its binade. -/
theorem round_binade {n : Nat} (hn : n ≠ 0) : 2 ^ n.log2 ≤ round n ∧ round n ≤ 2 ^ (n.log2 + 1) := by
  have hlow : ulp n ∣ 2 ^ n.log2 := Nat.pow_dvd_pow 2 (by omega)
  have hhigh : ulp n ∣ 2 ^ (n.log2 + 1) := Nat.pow_dvd_pow 2 (by omega)
  constructor
  · calc 2 ^ n.log2 = roundTo (ulp n) (2 ^ n.log2) := (roundTo_of_dvd (ulp_pos n) hlow).symm
      _ ≤ round n := roundTo_mono (ulp n) (Nat.log2_self_le hn)
  · calc round n ≤ roundTo (ulp n) (2 ^ (n.log2 + 1)) := roundTo_mono (ulp n) (Nat.le_of_lt Nat.lt_log2_self)
      _ = 2 ^ (n.log2 + 1) := roundTo_of_dvd (ulp_pos n) hhigh

theorem round_zero : round 0 = 0 := by decide

theorem round_mono {m n : Nat} (h : m ≤ n) : round m ≤ round n := by
  by_cases hm : m = 0
  · rw [hm, round_zero]
    exact Nat.zero_le _
  have hn : n ≠ 0 := by omega
  have hlog : m.log2 ≤ n.log2 := by
    have hlt : m.log2 < n.log2 + 1 := (Nat.log2_lt hm).mpr (Nat.lt_of_le_of_lt h Nat.lt_log2_self)
    omega
  rcases Nat.lt_or_eq_of_le hlog with hlt | heq
  · calc round m ≤ 2 ^ (m.log2 + 1) := (round_binade hm).2
      _ ≤ 2 ^ n.log2 := Nat.pow_le_pow_right (by decide) hlt
      _ ≤ round n := (round_binade hn).1
  · have hulp : ulp m = ulp n := by rw [ulp, heq, ulp]
    rw [round, hulp]
    exact roundTo_mono (ulp n) h

/-- Up to 53 bits nothing is rounded. -/
theorem round_of_lt {n : Nat} (h : n < 2 ^ 53) : round n = n := by
  by_cases hn : n = 0
  · rw [hn, round_zero]
  have hlog : n.log2 < 53 := (Nat.log2_lt hn).mpr h
  have hulp : ulp n = 1 := by
    rw [ulp, Nat.sub_eq_zero_of_le (by omega), Nat.pow_zero]
  rw [round, hulp]
  exact roundTo_of_dvd Nat.one_pos (Nat.one_dvd n)

theorem round_ge {n k : Nat} (hk : k < 2 ^ 53) (h : k ≤ n) : k ≤ round n := by
  rw [← round_of_lt hk]
  exact round_mono h

theorem le_of_round_le {n k : Nat} (hk : k < 2 ^ 53) (h : round n ≤ k) : n = round n ∧ n ≤ k := by
  have hn : n ≤ k := by
    by_contra hlt
    have h1 : k + 1 ≤ 2 ^ 53 := hk
    have h2 : round (k + 1) ≤ round n := round_mono (by omega)
    rcases Nat.lt_or_eq_of_le h1 with h3 | h3
    · rw [round_of_lt h3] at h2
      omega
    · have h4 : round (2 ^ 53) = 2 ^ 53 := by decide
      rw [h3, h4] at h2
      omega
  exact ⟨(round_of_lt (Nat.lt_of_le_of_lt hn hk)).symm, hn⟩

/-! ## Numbers -/

inductive Number
  | finite (n : Nat)
  | infinite
deriving DecidableEq

namespace Number

def ofNat (n : Nat) : Number := if round n < 2 ^ 1024 then finite (round n) else infinite

def add : Number → Number → Number
  | finite a, finite b => ofNat (a + b)
  | _, _ => infinite

def gt : Number → Number → Bool
  | finite a, finite b => b < a
  | infinite, finite _ => true
  | _, infinite => false

end Number

def tonumber (text : List Char) : Option Number := (Numeral.read 10 text).map Number.ofNat

/-! ## Text -/

/-- The first `p` digits of a number of more digits, rounded, and its exponent. -/
def significand (p n : Nat) : Nat × Nat :=
  let exponent := (Nat.toDigits 10 n).length - 1
  let digits := roundTo (10 ^ (exponent + 1 - p)) n / 10 ^ (exponent + 1 - p)
  if digits = 10 ^ p then (10 ^ (p - 1), exponent + 1) else (digits, exponent)

def scientific (mantissa exponent : Nat) : List Char :=
  match (Nat.toDigits 10 mantissa).rdropWhile (· = '0') with
  | [] => []
  | first :: rest =>
    first :: (if rest = [] then [] else '.' :: rest) ++
      'e' :: '+' :: (if exponent < 10 then ['0'] else []) ++ Nat.toDigits 10 exponent

def formatG (p n : Nat) : List Char :=
  if n < 10 ^ p then Nat.toDigits 10 n
  else
    let (mantissa, exponent) := significand p n
    scientific mantissa exponent

namespace Number

def format (p : Nat) : Number → List Char
  | finite n => formatG p n
  | infinite => ['i', 'n', 'f']

def tostring : Number → List Char := format 14

def argument : Number → List Char := format 17

end Number

section
variable {p n : Nat}

theorem formatG_short (h : n < 10 ^ p) : formatG p n = Nat.toDigits 10 n := if_pos h

theorem lt_infinity (h : n < 2 ^ 53) : n < 2 ^ 1024 := by
  have hpow : ∀ k, 53 < k → 2 ^ 53 < 2 ^ k := fun k hk => Nat.pow_lt_pow_right (by decide) hk
  exact Nat.lt_trans h (hpow 1024 (by decide))

theorem ofNat_of_lt (h : n < 2 ^ 53) : Number.ofNat n = .finite n := by
  rw [Number.ofNat, round_of_lt h, if_pos (lt_infinity h)]

theorem tonumber_toDigits (n : Nat) : tonumber (Nat.toDigits 10 n) = some (Number.ofNat n) := by
  rw [tonumber, Numeral.read_toDigits (by decide) (by decide), Option.map_some]

/-- What is too long to be written out has a first digit. -/
theorem significand_pos (hp : 0 < p) (h : 10 ^ p ≤ n) : (significand p n).1 ≠ 0 := by
  have hlong : p < (Nat.toDigits 10 n).length := by
    by_contra hle
    have hlt := (Nat.length_toDigits_le_iff (by decide) hp).mp (Nat.not_lt.mp hle)
    omega
  have hlength : (Nat.toDigits 10 n).length - 1 + 1 = (Nat.toDigits 10 n).length := by omega
  have hn : 10 ^ ((Nat.toDigits 10 n).length - 1) ≤ n := by
    by_contra hlt
    have hle := (Nat.length_toDigits_le_iff (by decide) (by omega)).mpr (Nat.not_le.mp hlt)
    omega
  have hunit : 10 ^ ((Nat.toDigits 10 n).length - p) ≤ n :=
    Nat.le_trans (Nat.pow_le_pow_right (by decide) (by omega)) hn
  unfold significand
  simp only
  rw [hlength]
  generalize (Nat.toDigits 10 n).length - p = k at hunit
  have hpos : 0 < 10 ^ k := Nat.pow_pos (by decide)
  have hquotient : 1 ≤ roundTo (10 ^ k) n / 10 ^ k := by
    calc 1 ≤ n / 10 ^ k := Nat.div_pos hunit hpos
      _ = n / 10 ^ k * 10 ^ k / 10 ^ k := (Nat.mul_div_cancel _ hpos).symm
      _ ≤ roundTo (10 ^ k) n / 10 ^ k := Nat.div_le_div_right (le_roundTo _ n)
  split
  · exact Nat.pos_iff_ne_zero.mp (Nat.pow_pos (by decide))
  · omega

/-- A number that is not zero keeps a digit when its zeros are stripped. -/
theorem stripped_ne_nil (h : n ≠ 0) : (Nat.toDigits 10 n).rdropWhile (· = '0') ≠ [] := by
  intro hnil
  have hzeros : ∀ c ∈ Nat.toDigits 10 n, c = '0' := by
    simpa using List.rdropWhile_eq_nil_iff.mp hnil
  have hread := @Numeral.read_toDigits 10 (by decide) (by decide) n
  rw [Numeral.read_zeros hzeros] at hread
  exact h (Option.some.inj hread).symm

/-- Scientific notation is no numeral: its second character is a point or the letter. -/
theorem formatG_long (hp : 0 < p) (h : 10 ^ p ≤ n) :
    ∃ first second rest, formatG p n = first :: second :: rest ∧ (second = '.' ∨ second = 'e') := by
  have hpos := significand_pos hp h
  unfold formatG
  rw [if_neg (Nat.not_lt.mpr h)]
  generalize significand p n = parts at hpos
  obtain ⟨mantissa, exponent⟩ := parts
  have hne := stripped_ne_nil hpos
  simp only [scientific]
  cases hdigits : (Nat.toDigits 10 mantissa).rdropWhile (· = '0') with
  | nil => exact absurd hdigits hne
  | cons first rest =>
    cases rest with
    | nil => exact ⟨_, _, _, rfl, .inr rfl⟩
    | cons digit rest => exact ⟨_, _, _, rfl, .inl rfl⟩

theorem read_letter {first second : Char} {rest : List Char} (h : second = '.' ∨ second = 'e') :
    Numeral.read 10 (first :: second :: rest) = none := by
  apply Numeral.read_of_second
  intro n
  have hpoint : Numeral.digitValue? '.' = none := by decide
  have hletter : Numeral.digitValue? 'e' = some 14 := by decide
  rcases h with rfl | rfl
  · simp [Numeral.readDigit, hpoint]
  · simp [Numeral.readDigit, hletter]

end

end Lua
