import Paymaster.Backend.Viem

/-!
# Packed pairs

Two 128-bit values in one word, and the accessors that name the halves of a
packed operation.
-/

namespace Paymaster

def uint128Max : Nat := 2 ^ 128 - 1

def uint48Max : Nat := 2 ^ 48 - 1

/-- `packUint128Pair`: two halves of one word, the high one first. -/
def packUint128Pair (high low : Nat) (label : String) : Except Thrown Nat :=
  if uint128Max < high then .error (.valueOutOfRange (label ++ ".high") high)
  else if uint128Max < low then .error (.valueOutOfRange (label ++ ".low") low)
  else .ok (high <<< 128 ||| low)

def unpackUint128Pair (packed : Bytes32) : Nat × Nat := (packed.toNat >>> 128, packed.toNat &&& uint128Max)

def verificationGasLimit (userOp : PackedUserOperation) : Nat := (unpackUint128Pair userOp.accountGasLimits).1

def callGasLimit (userOp : PackedUserOperation) : Nat := (unpackUint128Pair userOp.accountGasLimits).2

def maxPriorityFeePerGas (userOp : PackedUserOperation) : Nat := (unpackUint128Pair userOp.gasFees).1

def maxFeePerGas (userOp : PackedUserOperation) : Nat := (unpackUint128Pair userOp.gasFees).2

theorem packUint128Pair_ok {high low n : Nat} {label : String} :
    packUint128Pair high low label = .ok n ↔ high < 2 ^ 128 ∧ low < 2 ^ 128 ∧ n = high * 2 ^ 128 + low := by
  unfold packUint128Pair uint128Max
  by_cases hhigh : 2 ^ 128 - 1 < high
  · rw [if_pos hhigh]
    constructor
    · intro h
      cases h
    · rintro ⟨h, -⟩
      omega
  by_cases hlow : 2 ^ 128 - 1 < low
  · rw [if_neg hhigh, if_pos hlow]
    constructor
    · intro h
      cases h
    · rintro ⟨-, h, -⟩
      omega
  have hor : high <<< 128 ||| low = high * 2 ^ 128 + low := by
    rw [← Nat.shiftLeft_add_eq_or_of_lt (by omega), Nat.shiftLeft_eq]
  rw [if_neg hhigh, if_neg hlow, hor, Except.ok.injEq]
  constructor
  · rintro rfl
    exact ⟨by omega, by omega, rfl⟩
  · rintro ⟨-, -, rfl⟩
    rfl

theorem unpackUint128Pair_eq (packed : Bytes32) :
    unpackUint128Pair packed = (packed.toNat / 2 ^ 128, packed.toNat % 2 ^ 128) := by
  unfold unpackUint128Pair uint128Max
  rw [Nat.shiftRight_eq_div_pow, Nat.and_two_pow_sub_one_eq_mod]

/-- Two halves of at most 128 bits are determined by the word they make. -/
theorem halves_inj {a b c d : Nat} (hb : b < 2 ^ 128) (hd : d < 2 ^ 128) (h : a * 2 ^ 128 + b = c * 2 ^ 128 + d) :
    a = c ∧ b = d := by
  omega

theorem unpackUint128Pair_pack {high low n : Nat} {label : String} (h : packUint128Pair high low label = .ok n) :
    unpackUint128Pair (BitVec.ofNat 256 n) = (high, low) := by
  obtain ⟨hhigh, hlow, rfl⟩ := packUint128Pair_ok.mp h
  have hlt : high * 2 ^ 128 + low < 2 ^ 256 := by omega
  rw [unpackUint128Pair_eq, BitVec.toNat_ofNat, Nat.mod_eq_of_lt hlt, Prod.mk.injEq]
  constructor <;> omega

end Paymaster
