import Paymaster.Contracts.TenantPaymaster

/-!
# The VerifyingPaymaster contract

The single-tenant contract: no balances, no context and no post-op. Its layout
has no tenant, so the signature starts at byte 64, and its domain has a name of
its own.
-/

namespace Paymaster.VerifyingPaymaster

open Bytes

structure State where
  paused : Bool
  isSigner : Address → Bool

def parsePaymasterAndData (paymasterAndData : Data) : Except Revert (Uint48 × Uint48 × Data) :=
  if paymasterAndData.length < 64 then .error (.invalidPaymasterDataLength paymasterAndData.length)
  else .ok (BitVec.ofNat 48 (wordAt paymasterAndData 52 58), BitVec.ofNat 48 (wordAt paymasterAndData 58 64),
    paymasterAndData.drop 64)

section
variable (dep : Deployment)

def domainSeparator : Bytes32 :=
  dep.keccak256 (
    word (dep.keccak256 (ascii
      "EIP712Domain(string name,string version,uint256 chainId,address verifyingContract)")) ++
    word (dep.keccak256 (ascii "VerifyingPaymaster")) ++ word (dep.keccak256 (ascii "1")) ++
    word dep.chainId ++ word dep.self)

def typedData (structHash : Bytes32) : Data :=
  [0x19, 0x01] ++ word (domainSeparator dep) ++ word structHash

def hashTypedDataV4 (structHash : Bytes32) : Bytes32 := dep.keccak256 (typedData dep structHash)

def sponsorshipEncoding (op : PackedUserOperation) (validUntil validAfter : Uint48) : Data :=
  word (dep.keccak256 (ascii
    "Sponsorship(address sender,uint256 nonce,bytes32 initCodeHash,bytes32 callDataHash,bytes32 accountGasLimits,uint256 paymasterGasLimits,uint256 preVerificationGas,bytes32 gasFees,uint48 validUntil,uint48 validAfter)")) ++
  word op.sender ++ word op.nonce ++ word (dep.keccak256 op.initCode) ++ word (dep.keccak256 op.callData) ++
  word op.accountGasLimits ++ word (BitVec.ofNat 256 (wordAt op.paymasterAndData 20 52)) ++
  word op.preVerificationGas ++ word op.gasFees ++ word validUntil ++ word validAfter

def getHash (op : PackedUserOperation) (validUntil validAfter : Uint48) : Bytes32 :=
  hashTypedDataV4 dep (dep.keccak256 (sponsorshipEncoding dep op validUntil validAfter))

/-- What `_validatePaymasterUserOp` packs into its validation data: whether an
authorised signer was recovered, and the validity window. The context is empty. -/
inductive Validation
  | signatureFailed (validUntil validAfter : Uint48)
  | accepted (signer : Address) (validUntil validAfter : Uint48)
deriving DecidableEq

def validatePaymasterUserOp (s : State) (op : PackedUserOperation) : Except Revert Validation :=
  if s.paused then .error .enforcedPause
  else do
    let (validUntil, validAfter, signature) ← parsePaymasterAndData op.paymasterAndData
    if signature.length ≠ 64 ∧ signature.length ≠ 65 then .error (.invalidSignatureLength signature.length)
    else match (dep.tryRecover (getHash dep op validUntil validAfter) signature).filter fun a => s.isSigner a with
      | none => .ok (.signatureFailed validUntil validAfter)
      | some signer => .ok (.accepted signer validUntil validAfter)

/-- Validation accepts on an authorised signature over the hash of what the operation carries. -/
theorem validatePaymasterUserOp_ok {s : State} {op : PackedUserOperation} {signer : Address}
    {validUntil validAfter : Uint48}
    (h : validatePaymasterUserOp dep s op = .ok (.accepted signer validUntil validAfter)) :
    s.paused = false ∧ 64 ≤ op.paymasterAndData.length ∧
      validUntil = BitVec.ofNat 48 (wordAt op.paymasterAndData 52 58) ∧
      validAfter = BitVec.ofNat 48 (wordAt op.paymasterAndData 58 64) ∧
      ((op.paymasterAndData.drop 64).length = 64 ∨ (op.paymasterAndData.drop 64).length = 65) ∧
      dep.tryRecover (getHash dep op validUntil validAfter) (op.paymasterAndData.drop 64) = some signer ∧
      s.isSigner signer = true := by
  unfold validatePaymasterUserOp at h
  split at h
  · cases h
  rename_i hpaused
  obtain ⟨⟨vu, va, signature⟩, hp, h⟩ := bind_ok h
  unfold parsePaymasterAndData at hp
  split at hp
  · cases hp
  rename_i hlen
  cases hp
  simp only at h
  split at h
  · cases h
  rename_i hsig
  split at h
  · cases h
  rename_i hrec
  cases h
  obtain ⟨hrec, hsigner⟩ := Option.filter_eq_some_iff.mp hrec
  exact ⟨by simpa using hpaused, by omega, rfl, rfl, by omega, hrec, hsigner⟩

end

end Paymaster.VerifyingPaymaster
