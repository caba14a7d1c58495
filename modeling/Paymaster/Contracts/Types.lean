import Mathlib
import Paymaster.Lib.Bytes

/-!
# Words, operations, events and reverts

The data the paymaster contract reads and returns. Words that are hashed or
compared carry their width in the type; amounts of wei are natural numbers,
and the two kinds of Solidity arithmetic on them, checked and unchecked, are
spelled out.
-/

namespace Paymaster

abbrev Address := BitVec 160
abbrev Bytes32 := BitVec 256
abbrev Uint256 := BitVec 256
abbrev Uint48 := BitVec 48
abbrev Data := List UInt8

def uint256Size : Nat := 2 ^ 256

/-- EntryPoint v0.7's packed operation. The paymaster hashes `initCode` and
`callData`, and reads `paymasterAndData`. -/
structure PackedUserOperation where
  sender : Address
  nonce : Uint256
  initCode : Data
  callData : Data
  accountGasLimits : Bytes32
  preVerificationGas : Uint256
  gasFees : Bytes32
  paymasterAndData : Data
  signature : Data
deriving DecidableEq

inductive Revert
  | zeroAddress
  | signerAlreadyAuthorised (signer : Address)
  | signerNotAuthorised (signer : Address)
  | invalidPaymasterDataLength (length : Nat)
  | invalidSignatureLength (length : Nat)
  | zeroTenant
  | insufficientTenantBalance (tenant : Bytes32) (balance required : Nat)
  | notTenantController (tenant : Bytes32) (caller : Address)
  | nothingToWithdraw
  | controllerAlreadySet (tenant : Bytes32) (controller : Address)
  | controllerAssignmentExpired (deadline : Uint48)
  | invalidControllerAssignment
  | controllerNotYetActive (tenant : Bytes32) (activeAt : Nat)
  | ownableUnauthorizedAccount (account : Address)
  | enforcedPause
  | expectedPause
  | arithmeticPanic
  | withdrawAmountTooLarge
deriving DecidableEq

inductive Event
  | signerAdded (signer sender : Address)
  | signerRemoved (signer sender : Address)
  | tenantDeposited (tenant : Bytes32) (sender : Address) (amount balance : Nat)
  | tenantWithdrawn (tenant : Bytes32) (receiver : Address) (amount balance : Nat)
  | tenantCharged (tenant : Bytes32) (reserved charged balance : Nat)
  | controllerSet (tenant : Bytes32) (controller : Address)
  | controllerClaimed (tenant : Bytes32) (controller : Address) (activeAt : Nat)
deriving DecidableEq

/-! ## `uint256` arithmetic -/

def checkedAdd (a b : Nat) : Except Revert Nat :=
  if a + b < uint256Size then .ok (a + b) else .error .arithmeticPanic

def checkedMul (a b : Nat) : Except Revert Nat :=
  if a * b < uint256Size then .ok (a * b) else .error .arithmeticPanic

/-- Subtraction in an `unchecked` block: it wraps. -/
def uncheckedSub (a b : Nat) : Nat := if b ≤ a then a - b else a + uint256Size - b

theorem checkedAdd_ok {a b c : Nat} (h : checkedAdd a b = .ok c) : c = a + b := by
  unfold checkedAdd at h
  split at h
  · exact (Except.ok.inj h).symm
  · cases h

theorem checkedMul_ok {a b c : Nat} (h : checkedMul a b = .ok c) : c = a * b := by
  unfold checkedMul at h
  split at h
  · exact (Except.ok.inj h).symm
  · cases h

theorem uncheckedSub_of_le {a b : Nat} (h : b ≤ a) : uncheckedSub a b = a - b := if_pos h

/-- A monadic step that succeeded succeeded in both its halves. -/
theorem bind_ok {ε α β : Type} {x : Except ε α} {f : α → Except ε β} {b : β}
    (h : (x >>= f) = .ok b) : ∃ a, x = .ok a ∧ f a = .ok b := by
  cases x with
  | error e => cases h
  | ok a => exact ⟨a, rfl, h⟩

end Paymaster
