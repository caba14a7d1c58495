import Mathlib

/-!
# Spellings of bytes

A byte is spelled with two hexadecimal digits, the letters in either case. So
bytes have many spellings, of which one is in lower case.
-/

namespace HexDigits

/-- One of `0-9a-fA-F`. -/
structure Digit where
  value : Fin 16
  upper : Bool
  isLetter : upper = true → 10 ≤ value
deriving DecidableEq

namespace Digit

def lower (value : Fin 16) : Digit := ⟨value, false, nofun⟩

def toLowerCase (digit : Digit) : Digit := lower digit.value

def toUpperCase (digit : Digit) : Digit := ⟨digit.value, decide (10 ≤ digit.value), of_decide_eq_true⟩

def char (digit : Digit) : Char :=
  if digit.upper then digit.value.val.digitChar.toUpper else digit.value.val.digitChar

def ascii (digit : Digit) : UInt8 := UInt8.ofNat digit.char.toNat

end Digit

structure Pair where
  high : Digit
  low : Digit
deriving DecidableEq

namespace Pair

def byte (pair : Pair) : UInt8 := UInt8.ofNat (16 * pair.high.value.val + pair.low.value.val)

def toLowerCase (pair : Pair) : Pair := ⟨pair.high.toLowerCase, pair.low.toLowerCase⟩

def ofByte (byte : UInt8) : Pair :=
  have hbyte : byte.toNat < 256 := byte.toNat_lt
  ⟨.lower ⟨byte.toNat / 16, by omega⟩, .lower ⟨byte.toNat % 16, by omega⟩⟩

theorem byte_ofByte (byte : UInt8) : (ofByte byte).byte = byte := by
  show UInt8.ofNat (16 * (byte.toNat / 16) + byte.toNat % 16) = byte
  rw [Nat.div_add_mod, UInt8.ofNat_toNat]

end Pair

abbrev Spelling := List Pair

namespace Spelling

def bytes (spelling : Spelling) : List UInt8 := spelling.map Pair.byte

def ofBytes (bytes : List UInt8) : Spelling := bytes.map Pair.ofByte

def toLowerCase (spelling : Spelling) : Spelling := spelling.map Pair.toLowerCase

def digits (spelling : Spelling) : List Digit := spelling.flatMap fun pair => [pair.high, pair.low]

variable {s t : Spelling} {b : List UInt8}

@[simp] theorem length_bytes : s.bytes.length = s.length := List.length_map ..

@[simp] theorem length_ofBytes : (ofBytes b).length = b.length := List.length_map ..

@[simp] theorem bytes_append : bytes (s ++ t) = s.bytes ++ t.bytes := List.map_append

@[simp] theorem bytes_take (n : Nat) : bytes (s.take n) = s.bytes.take n := List.map_take

@[simp] theorem bytes_drop (n : Nat) : bytes (s.drop n) = s.bytes.drop n := List.map_drop

@[simp] theorem bytes_ofBytes : bytes (ofBytes b) = b := by
  rw [bytes, ofBytes, List.map_map]
  exact (List.map_congr_left fun byte _ => Pair.byte_ofByte byte).trans (List.map_id b)

end Spelling

end HexDigits
