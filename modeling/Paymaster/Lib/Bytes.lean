import Mathlib

/-!
# Big-endian byte strings

Fixed-width big-endian numbers, the words from which Solidity's static ABI
encodings are built. `ofBytes` reads what `beBytes` writes, so concatenations
of words of known widths determine the numbers in them.
-/

namespace Bytes

/-- The last `k` base-256 digits of `n`, most significant first. -/
def beBytes : (k n : Nat) → List UInt8
  | 0, _ => []
  | k + 1, n => beBytes k (n / 256) ++ [UInt8.ofNat (n % 256)]

/-- The number a byte string writes in base 256. -/
def ofBytes (b : List UInt8) : Nat := b.foldl (fun a d => a * 256 + d.toNat) 0

@[simp] theorem length_beBytes : ∀ k n : Nat, (beBytes k n).length = k
  | 0, _ => rfl
  | k + 1, n => by rw [beBytes, List.length_append, length_beBytes k, List.length_singleton]

theorem ofBytes_snoc (b : List UInt8) (d : UInt8) : ofBytes (b ++ [d]) = ofBytes b * 256 + d.toNat := by
  simp only [ofBytes, List.foldl_append, List.foldl_cons, List.foldl_nil]

theorem ofBytes_beBytes : ∀ k n : Nat, n < 256 ^ k → ofBytes (beBytes k n) = n
  | 0, n, h => by
    have : n = 0 := by simpa using h
    subst this; rfl
  | k + 1, n, h => by
    have hq : n / 256 < 256 ^ k := Nat.div_lt_of_lt_mul (by rwa [Nat.pow_succ, Nat.mul_comm] at h)
    have hd : (UInt8.ofNat (n % 256)).toNat = n % 256 := by
      rw [UInt8.toNat_ofNat']; exact Nat.mod_mod_of_dvd n (Nat.dvd_refl 256)
    rw [beBytes, ofBytes_snoc, ofBytes_beBytes k _ hq, hd, Nat.div_add_mod']

theorem beBytes_inj {k n m : Nat} (hn : n < 256 ^ k) (hm : m < 256 ^ k) (h : beBytes k n = beBytes k m) :
    n = m := by
  rw [← ofBytes_beBytes k n hn, ← ofBytes_beBytes k m hm, h]

theorem append_beBytes_inj {k n m : Nat} {b c : List UInt8} (hn : n < 256 ^ k) (hm : m < 256 ^ k)
    (h : beBytes k n ++ b = beBytes k m ++ c) : n = m ∧ b = c := by
  have hl : (beBytes k n).length = (beBytes k m).length := by simp
  obtain ⟨h1, h2⟩ := List.append_inj h hl
  exact ⟨beBytes_inj hn hm h1, h2⟩

theorem foldl_ofBytes (b : List UInt8) (a : Nat) :
    b.foldl (fun a d => a * 256 + d.toNat) a = a * 256 ^ b.length + ofBytes b := by
  induction b generalizing a with
  | nil => simp [ofBytes]
  | cons d b ih =>
    unfold ofBytes at *
    rw [List.foldl_cons, List.foldl_cons, ih, ih (0 * 256 + d.toNat), List.length_cons, Nat.pow_succ]
    ring

theorem ofBytes_append (a b : List UInt8) : ofBytes (a ++ b) = ofBytes a * 256 ^ b.length + ofBytes b := by
  rw [ofBytes, List.foldl_append]
  exact foldl_ofBytes b _

theorem ofBytes_lt (b : List UInt8) : ofBytes b < 256 ^ b.length := by
  induction b using List.reverseRecOn with
  | nil => simp [ofBytes]
  | append_singleton b d ih =>
    have hd : d.toNat < 256 := d.toNat_lt
    rw [ofBytes_snoc, List.length_append, List.length_singleton, Nat.pow_succ]
    omega

theorem beBytes_ofBytes (b : List UInt8) : beBytes b.length (ofBytes b) = b := by
  induction b using List.reverseRecOn with
  | nil => rfl
  | append_singleton b d ih =>
    have hd : d.toNat < 256 := d.toNat_lt
    have hq : (ofBytes b * 256 + d.toNat) / 256 = ofBytes b := by omega
    have hr : (ofBytes b * 256 + d.toNat) % 256 = d.toNat := by omega
    rw [ofBytes_snoc, List.length_append, List.length_singleton, beBytes, hq, hr, ih, UInt8.ofNat_toNat]

theorem beBytes_zero (k : Nat) : beBytes k 0 = List.replicate k 0 := by
  induction k with
  | zero => rfl
  | succ k ih => rw [beBytes, Nat.zero_div, ih, List.replicate_succ']; rfl

theorem beBytes_add (j k n : Nat) : beBytes (j + k) n = beBytes j (n / 256 ^ k) ++ beBytes k n := by
  induction k generalizing n with
  | zero => simp [beBytes]
  | succ k ih =>
    rw [← Nat.add_assoc, beBytes, ih, beBytes, List.append_assoc, Nat.div_div_eq_div_mul, ← Nat.pow_succ']

theorem beBytes_pad {j k n : Nat} (h : n < 256 ^ k) : beBytes (j + k) n = List.replicate j 0 ++ beBytes k n := by
  rw [beBytes_add, Nat.div_eq_of_lt h, beBytes_zero]

def wordAt (b : List UInt8) (i j : Nat) : Nat := ofBytes ((b.drop i).take (j - i))

theorem wordAt_append {a b c : List UInt8} {i j : Nat} (hi : a.length = i) (hj : i + b.length = j) :
    wordAt (a ++ b ++ c) i j = ofBytes b := by
  subst hi hj
  unfold wordAt
  rw [List.append_assoc, List.drop_left, Nat.add_sub_cancel_left, List.take_left]

theorem wordAt_append_left {a : List UInt8} (b : List UInt8) {i j : Nat} (h : j ≤ a.length) :
    wordAt (a ++ b) i j = wordAt a i j := by
  unfold wordAt
  by_cases hi : i ≤ a.length
  · rw [List.drop_append_of_le_length hi, List.take_append_of_le_length]
    rw [List.length_drop]
    omega
  · have hempty : j - i = 0 := by omega
    rw [hempty, List.take_zero, List.take_zero]

theorem wordAt_lt (b : List UInt8) (i j : Nat) : wordAt b i j < 256 ^ (j - i) := by
  apply Nat.lt_of_lt_of_le (ofBytes_lt _)
  apply Nat.pow_le_pow_right (by decide)
  simp

theorem beBytes_wordAt {b : List UInt8} {i j : Nat} (h : j ≤ b.length) :
    beBytes (j - i) (wordAt b i j) = (b.drop i).take (j - i) := by
  have hl : ((b.drop i).take (j - i)).length = j - i := by
    simp only [List.length_take, List.length_drop]
    omega
  have hb := beBytes_ofBytes ((b.drop i).take (j - i))
  rwa [hl] at hb

theorem take_append_wordAt {b : List UInt8} {i j k : Nat} (hk : i + k = j) (h : j ≤ b.length) :
    b.take i ++ beBytes k (wordAt b i j) = b.take j := by
  subst hk
  have hword : beBytes (i + k - i) (wordAt b i (i + k)) = (b.drop i).take (i + k - i) := beBytes_wordAt h
  rw [Nat.add_sub_cancel_left] at hword
  rw [hword, List.take_add]

/-- A word is its high part and its low part, wherever it is cut. -/
theorem wordAt_split {b : List UInt8} {i k : Nat} (j : Nat) (hij : i ≤ j) (hjk : j ≤ k) (h : k ≤ b.length) :
    wordAt b i k = wordAt b i j * 256 ^ (k - j) + wordAt b j k := by
  have hcut : (b.drop i).take (k - i) = (b.drop i).take (j - i) ++ (b.drop j).take (k - j) := by
    have hk : k - i = (j - i) + (k - j) := by omega
    have hj : i + (j - i) = j := by omega
    rw [hk, List.take_add, List.drop_drop, hj]
  have hl : ((b.drop j).take (k - j)).length = k - j := by
    simp only [List.length_take, List.length_drop]
    omega
  unfold wordAt
  rw [hcut, ofBytes_append, hl]

end Bytes
