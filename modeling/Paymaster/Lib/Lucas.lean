import Mathlib

/-!
# Large primes

Lucas's test needs the prime factors of `p - 1`. `Proved` checks a chain of such
tests, in which a factor is small or has been proved before; it evaluates fast
enough for numbers of 256 bits.
-/

namespace Lucas

/-- `a ^ n % m`, for `n` below `2 ^ bits`. -/
def powMod (m : ℕ) : (bits a n : ℕ) → ℕ
  | 0, _, _ => 1 % m
  | bits + 1, a, n => powMod m bits (a * a % m) (n / 2) * (if n % 2 = 0 then 1 else a) % m

theorem powMod_eq {m : ℕ} : ∀ {bits a n : ℕ}, n < 2 ^ bits → powMod m bits a n = a ^ n % m
  | 0, a, n, h => by
    obtain rfl : n = 0 := by
      rw [Nat.pow_zero] at h
      omega
    rfl
  | bits + 1, a, n, h => by
    have hhalf : n / 2 < 2 ^ bits := by
      rw [Nat.pow_succ] at h
      omega
    have hsquare : powMod m bits (a * a % m) (n / 2) = a ^ (2 * (n / 2)) % m := by
      rw [powMod_eq hhalf, ← Nat.pow_mod, ← Nat.pow_two, ← Nat.pow_mul]
    have hsplit : a ^ n = a ^ (2 * (n / 2)) * a ^ (n % 2) := by
      rw [← Nat.pow_add, Nat.div_add_mod]
    have hbit : (if n % 2 = 0 then 1 else a) = a ^ (n % 2) := by
      split
      · rename_i heven
        rw [heven, Nat.pow_zero]
      · have hodd : n % 2 = 1 := by omega
        rw [hodd, Nat.pow_one]
    unfold powMod
    rw [hsquare, hbit, Nat.mod_mul_mod, hsplit]

/-- A test of `p` with the base `a`, and the factors of `p - 1` as often as they divide it. -/
structure Test where
  p : ℕ
  a : ℕ
  factors : List ℕ

/-- No number below 100 divides it, and it is less than 100 squared. -/
def small (q : ℕ) : Bool := 2 ≤ q && q < 10000 && (List.range 100).all fun d => d < 2 || q ≤ d || q % d ≠ 0

def Test.passes (test : Test) (known : List ℕ) : Bool :=
  2 ≤ test.p && test.p < 2 ^ 256 && test.factors.prod = test.p - 1 && powMod test.p 256 test.a (test.p - 1) = 1 &&
    test.factors.all fun q => (small q || known.contains q) && powMod test.p 256 test.a ((test.p - 1) / q) ≠ 1

def proved : (known : List ℕ) → List Test → Bool
  | _, [] => true
  | known, test :: tests => test.passes known && proved (test.p :: known) tests

theorem prime_of_small {q : ℕ} (h : small q = true) : q.Prime := by
  simp only [small, Bool.and_eq_true, decide_eq_true_eq, List.all_eq_true, List.mem_range, Bool.or_eq_true] at h
  obtain ⟨⟨htwo, hlt⟩, hnone⟩ := h
  refine Nat.prime_def_le_sqrt.mpr ⟨htwo, fun d hd hsqrt hdvd => ?_⟩
  have hdd : d * d ≤ q := Nat.le_sqrt.mp hsqrt
  have hd100 : d < 100 := by
    by_contra hge
    have : 100 * 100 ≤ d * d := Nat.mul_le_mul (by omega) (by omega)
    omega
  rcases hnone d hd100 with (hless | hle) | hmod
  · omega
  · have : d * 2 ≤ d * d := Nat.mul_le_mul_left d hd
    omega
  · exact hmod (Nat.mod_eq_zero_of_dvd hdvd)

theorem pow_eq_one_iff {p a n : ℕ} (hp : 2 ≤ p) (hn : n < 2 ^ 256) : (a : ZMod p) ^ n = 1 ↔ powMod p 256 a n = 1 := by
  rw [powMod_eq hn, ← Nat.cast_pow, ← Nat.cast_one, ZMod.natCast_eq_natCast_iff', Nat.mod_eq_of_lt hp]

theorem prime_of_passes {test : Test} {known : List ℕ} (hknown : ∀ q ∈ known, q.Prime) (h : test.passes known = true) :
    test.p.Prime := by
  simp only [Test.passes, Bool.and_eq_true, decide_eq_true_eq, List.all_eq_true, Bool.or_eq_true] at h
  obtain ⟨⟨⟨⟨htwo, hlt⟩, hprod⟩, hpow⟩, hfactors⟩ := h
  refine lucas_primality test.p test.a ((pow_eq_one_iff htwo (by omega)).mpr hpow) fun q hq hdvd => ?_
  rw [← hprod] at hdvd
  obtain ⟨q', hmem, hdvd'⟩ := (Prime.dvd_prod_iff hq.prime).mp hdvd
  obtain ⟨hq', hne⟩ := hfactors q' hmem
  have hprime : q'.Prime := by
    rcases hq' with hsmall | hin
    · exact prime_of_small hsmall
    · exact hknown q' (List.contains_iff_mem.mp hin)
  obtain rfl := (Nat.prime_dvd_prime_iff_eq hq hprime).mp hdvd'
  have hle : (test.p - 1) / q < 2 ^ 256 := lt_of_le_of_lt (Nat.div_le_self _ _) (by omega)
  exact mt (pow_eq_one_iff htwo hle).mp hne

theorem prime_of_proved {tests : List Test} : ∀ {known : List ℕ}, (∀ q ∈ known, q.Prime) → proved known tests = true →
    ∀ test ∈ tests, test.p.Prime := by
  induction tests with
  | nil =>
    intro known _ _ test htest
    cases htest
  | cons first tests ih =>
    intro known hknown h test htest
    obtain ⟨hpasses, hrest⟩ := (Bool.and_eq_true _ _).mp h
    have hfirst := prime_of_passes hknown hpasses
    rcases List.mem_cons.mp htest with rfl | hin
    · exact hfirst
    · refine ih ?_ hrest test hin
      intro q hq
      rcases List.mem_cons.mp hq with rfl | hq
      · exact hfirst
      · exact hknown q hq

end Lucas
