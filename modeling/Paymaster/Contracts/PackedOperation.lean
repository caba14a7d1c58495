import Paymaster.Contracts.Settlement

/-!
# How EntryPoint v0.7 reads an operation

The EntryPoint refuses gas values above 120 bits, takes the required prefund
from the paymaster's deposit and has the paymaster validate with that amount as
`maxCost`. It identifies the operation by a hash of all its fields but the
account's signature.
-/

namespace Paymaster

open Bytes

def getRequiredPrefund (op : PackedUserOperation) : Nat :=
  let requiredGas := (verificationGasLimitOf op + callGasLimitOf op + paymasterVerificationGasLimitOf op +
    postOpGasLimitOf op + op.preVerificationGas.toNat) % uint256Size
  requiredGas * maxFeePerGasOf op % uint256Size

/-- The EntryPoint's check that no gas value exceeds a `uint120`, without which it reverts. -/
def GasValuesFit (op : PackedUserOperation) : Prop :=
  ∀ value ∈ [op.preVerificationGas.toNat, verificationGasLimitOf op, callGasLimitOf op,
    paymasterVerificationGasLimitOf op, postOpGasLimitOf op, maxFeePerGasOf op, maxPriorityFeePerGasOf op],
    value ≤ 2 ^ 120 - 1

instance (op : PackedUserOperation) : Decidable (GasValuesFit op) :=
  inferInstanceAs (Decidable (∀ _ ∈ _, _))

/-- `getUserOpHash`: the hash of the operation, the EntryPoint and the chain. -/
def userOpHash (keccak256 : Data → Bytes32) (op : PackedUserOperation) (entryPoint : Address) (chainId : Uint256) :
    Bytes32 :=
  let inner := keccak256 (word op.sender ++ word op.nonce ++ word (keccak256 op.initCode) ++
    word (keccak256 op.callData) ++ word op.accountGasLimits ++ word op.preVerificationGas ++ word op.gasFees ++
    word (keccak256 op.paymasterAndData))
  keccak256 (word inner ++ word entryPoint ++ word chainId)

/-- Where the gas values fit, nothing wraps. -/
theorem getRequiredPrefund_eq {op : PackedUserOperation} (h : GasValuesFit op) :
    getRequiredPrefund op = requiredPrefund op := by
  have h1 := h op.preVerificationGas.toNat (by simp)
  have h2 := h (verificationGasLimitOf op) (by simp)
  have h3 := h (callGasLimitOf op) (by simp)
  have h4 := h (paymasterVerificationGasLimitOf op) (by simp)
  have h5 := h (postOpGasLimitOf op) (by simp)
  have h6 := h (maxFeePerGasOf op) (by simp)
  unfold getRequiredPrefund requiredPrefund uint256Size
  generalize maxFeePerGasOf op = fee at *
  have hgas : verificationGasLimitOf op + callGasLimitOf op + paymasterVerificationGasLimitOf op +
      postOpGasLimitOf op + op.preVerificationGas.toNat < 2 ^ 123 := by omega
  generalize verificationGasLimitOf op + callGasLimitOf op + paymasterVerificationGasLimitOf op +
    postOpGasLimitOf op + op.preVerificationGas.toNat = gas at *
  have hprice : gas * fee < 2 ^ 256 :=
    Nat.lt_of_le_of_lt (Nat.mul_le_mul (Nat.le_of_lt hgas) h6) (by decide)
  simp only
  rw [Nat.mod_eq_of_lt (by omega : gas < 2 ^ 256), Nat.mod_eq_of_lt hprice]

end Paymaster
