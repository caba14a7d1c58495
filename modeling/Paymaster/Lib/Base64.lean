import Mathlib

/-!
# Base64

Bytes in groups of three as digits of six bits. `encode` writes the alphabet that
is safe in a URL, without padding. `decode` reads either alphabet up to the first
`=`, leaves out what is in neither, and drops bits that make no byte.
-/

namespace Base64

def digitChar (d : Nat) : Char :=
  if d < 26 then Char.ofNat (65 + d)
  else if d < 52 then Char.ofNat (71 + d)
  else if d < 62 then Char.ofNat (d - 4)
  else if d = 62 then '-'
  else '_'

def digit? (c : Char) : Option Nat :=
  if 65 ≤ c.toNat ∧ c.toNat ≤ 90 then some (c.toNat - 65)
  else if 97 ≤ c.toNat ∧ c.toNat ≤ 122 then some (c.toNat - 71)
  else if 48 ≤ c.toNat ∧ c.toNat ≤ 57 then some (c.toNat + 4)
  else if c = '-' ∨ c = '+' then some 62
  else if c = '_' ∨ c = '/' then some 63
  else none

/-- The digits of some bytes, the last ones filled up with zeros. -/
def toDigits : List UInt8 → List Nat
  | [] => []
  | [a] => [a.toNat / 4, a.toNat % 4 * 16]
  | [a, b] => [a.toNat / 4, a.toNat % 4 * 16 + b.toNat / 16, b.toNat % 16 * 4]
  | a :: b :: c :: rest =>
    a.toNat / 4 :: (a.toNat % 4 * 16 + b.toNat / 16) :: (b.toNat % 16 * 4 + c.toNat / 64) :: c.toNat % 64 ::
      toDigits rest

def ofDigits : List Nat → List UInt8
  | w :: x :: y :: z :: rest =>
    UInt8.ofNat (w * 4 + x / 16) :: UInt8.ofNat (x % 16 * 16 + y / 4) :: UInt8.ofNat (y % 4 * 64 + z) :: ofDigits rest
  | [w, x, y] => [UInt8.ofNat (w * 4 + x / 16), UInt8.ofNat (x % 16 * 16 + y / 4)]
  | [w, x] => [UInt8.ofNat (w * 4 + x / 16)]
  | _ => []

def encode (bytes : List UInt8) : List Char := (toDigits bytes).map digitChar

def decode (text : List Char) : List UInt8 := ofDigits ((text.takeWhile (· ≠ '=')).filterMap digit?)

theorem digit?_digitChar {d : Nat} (hd : d < 64) : digit? (digitChar d) = some d := by
  have hall : ∀ d < 64, digit? (digitChar d) = some d := by decide +kernel
  exact hall d hd

theorem lt_of_mem_toDigits : ∀ {bytes : List UInt8}, ∀ d ∈ toDigits bytes, d < 64
  | [], d, hd => by cases hd
  | [a], d, hd => by
    have ha := a.toNat_lt
    simp only [toDigits, List.mem_cons, List.not_mem_nil, or_false] at hd
    omega
  | [a, b], d, hd => by
    have ha := a.toNat_lt
    have hb := b.toNat_lt
    simp only [toDigits, List.mem_cons, List.not_mem_nil, or_false] at hd
    omega
  | a :: b :: c :: rest, d, hd => by
    have ha := a.toNat_lt
    have hb := b.toNat_lt
    have hc := c.toNat_lt
    simp only [toDigits, List.mem_cons] at hd
    rcases hd with rfl | rfl | rfl | rfl | hrest
    · omega
    · omega
    · omega
    · omega
    · exact lt_of_mem_toDigits d hrest

theorem ofNat_eq {a : UInt8} {n : Nat} (h : n = a.toNat) : UInt8.ofNat n = a := by
  rw [h, UInt8.ofNat_toNat]

theorem ofDigits_toDigits : ∀ bytes : List UInt8, ofDigits (toDigits bytes) = bytes
  | [] => rfl
  | [a] => by
    simp only [toDigits, ofDigits]
    rw [ofNat_eq (a := a) (by omega)]
  | [a, b] => by
    have hb := b.toNat_lt
    simp only [toDigits, ofDigits]
    rw [ofNat_eq (a := a) (by omega), ofNat_eq (a := b) (by omega)]
  | a :: b :: c :: rest => by
    have hb := b.toNat_lt
    have hc := c.toNat_lt
    simp only [toDigits, ofDigits]
    rw [ofNat_eq (a := a) (by omega), ofNat_eq (a := b) (by omega), ofNat_eq (a := c) (by omega), ofDigits_toDigits rest]

theorem exists_of_mem_encode {bytes : List UInt8} {c : Char} (h : c ∈ encode bytes) : ∃ d, digit? c = some d := by
  obtain ⟨d, hd, rfl⟩ := List.mem_map.mp h
  exact ⟨d, digit?_digitChar (lt_of_mem_toDigits d hd)⟩

theorem not_mem_encode {bytes : List UInt8} {c : Char} (hc : digit? c = none) : c ∉ encode bytes := by
  intro hmem
  obtain ⟨d, hd⟩ := exists_of_mem_encode hmem
  rw [hc] at hd
  cases hd

theorem decode_encode (bytes : List UInt8) : decode (encode bytes) = bytes := by
  have hall : (encode bytes).takeWhile (· ≠ '=') = encode bytes := by
    rw [List.takeWhile_eq_self_iff]
    intro c hc
    rw [decide_eq_true_eq]
    rintro rfl
    exact not_mem_encode (by decide) hc
  have hdigits : (encode bytes).filterMap digit? = toDigits bytes := by
    unfold encode
    rw [List.filterMap_map]
    refine (List.filterMap_congr fun d hd => ?_).trans List.filterMap_some
    exact digit?_digitChar (lt_of_mem_toDigits d hd)
  unfold decode
  rw [hall, hdigits, ofDigits_toDigits]

end Base64
