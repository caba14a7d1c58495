import Mathlib

/-!
# UTF-8

Decoding bytes that need not be well formed: each longest part that could have
begun a character is replaced by U+FFFD. What was encoded is read back.
-/

namespace Utf8

def replacement : Char := Char.ofNat 0xFFFD

def secondByte (lead second : UInt8) : Bool :=
  if lead = 0xE0 then 0xA0 ≤ second && second ≤ 0xBF
  else if lead = 0xED then 0x80 ≤ second && second ≤ 0x9F
  else if lead = 0xF0 then 0x90 ≤ second && second ≤ 0xBF
  else if lead = 0xF4 then 0x80 ≤ second && second ≤ 0x8F
  else 0x80 ≤ second && second ≤ 0xBF

def malformedLength : List UInt8 → Nat
  | lead :: second :: rest =>
    if 0xE0 ≤ lead && lead ≤ 0xF4 && secondByte lead second then
      match rest with
      | third :: _ => if 0xF0 ≤ lead && 0x80 ≤ third && third ≤ 0xBF then 3 else 2
      | [] => 2
    else 1
  | _ => 1

theorem malformedLength_pos (bytes : List UInt8) : 0 < malformedLength bytes := by
  unfold malformedLength
  split
  · split
    · split
      · split <;> decide
      · decide
    · decide
  · decide

def decode (bytes : List UInt8) : List Char :=
  if h : bytes = [] then []
  else
    have : 0 < bytes.length := List.length_pos_of_ne_nil h
    match bytes.toByteArray.utf8DecodeChar? 0 with
    | some c =>
      have : 0 < c.utf8Size := c.utf8Size_pos
      c :: decode (bytes.drop c.utf8Size)
    | none =>
      have : 0 < malformedLength bytes := malformedLength_pos bytes
      replacement :: decode (bytes.drop (malformedLength bytes))
termination_by bytes.length
decreasing_by all_goals rw [List.length_drop]; omega

def encode (text : List Char) : List UInt8 := text.flatMap String.utf8EncodeChar

theorem decode_encodeChar_append (c : Char) (bytes : List UInt8) :
    decode (String.utf8EncodeChar c ++ bytes) = c :: decode bytes := by
  have hlength : (String.utf8EncodeChar c).length = c.utf8Size := String.length_utf8EncodeChar c
  have hne : String.utf8EncodeChar c ++ bytes ≠ [] := by
    intro h
    have hnil := (List.append_eq_nil_iff.mp h).1
    have hpos := c.utf8Size_pos
    rw [← hlength, hnil] at hpos
    exact Nat.lt_irrefl 0 hpos
  have hread : (String.utf8EncodeChar c ++ bytes).toByteArray.utf8DecodeChar? 0 = some c := by
    rw [List.toByteArray_append]
    exact ByteArray.utf8DecodeChar?_utf8EncodeChar_append
  rw [decode, dif_neg hne]
  dsimp only
  rw [hread]
  dsimp only
  rw [← hlength, List.drop_left]

theorem decode_encode (text : List Char) : decode (encode text) = text := by
  induction text with
  | nil => rw [encode, List.flatMap_nil, decode, dif_pos rfl]
  | cons c text ih =>
    rw [encode, List.flatMap_cons, decode_encodeChar_append]
    exact congrArg (List.cons c) ih

end Utf8
