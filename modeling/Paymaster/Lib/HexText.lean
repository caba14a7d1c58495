import Paymaster.Lib.Numeral

/-!
# Bytes in hexadecimal

Bytes as two lower-case digits each, and text as the bytes that its digits
write: reading stops where there are no two digits, and takes either case.
-/

namespace HexText

def isHex (c : Char) : Bool := (48 ≤ c.toNat && c.toNat ≤ 57) || (97 ≤ c.toNat && c.toNat ≤ 102)

def ofBytes (bytes : List (Fin 256)) : List Char :=
  bytes.flatMap fun byte => [(byte.val / 16).digitChar, (byte.val % 16).digitChar]

def toBytes : List Char → List (Fin 256)
  | high :: low :: text =>
    match Numeral.digitValue? high, Numeral.digitValue? low with
    | some x, some y => Fin.ofNat 256 (16 * x + y) :: toBytes text
    | _, _ => []
  | _ => []

variable {bytes : List (Fin 256)}

theorem length_ofBytes : (ofBytes bytes).length = 2 * bytes.length := by
  induction bytes with
  | nil => rfl
  | cons byte bytes ih =>
    simp only [ofBytes, List.flatMap_cons, List.length_append, List.length_cons, List.length_nil] at ih ⊢
    omega

theorem isHex_ofBytes {c : Char} (h : c ∈ ofBytes bytes) : isHex c = true := by
  have hdigit : ∀ d < 16, isHex (Nat.digitChar d) = true := by decide
  obtain ⟨byte, -, hc⟩ := List.mem_flatMap.mp h
  have hlt := byte.isLt
  rcases List.mem_pair.mp hc with rfl | rfl
  · exact hdigit _ (by omega)
  · exact hdigit _ (by omega)

end HexText
