import Paymaster.Backend.TypedData

/-!
# The signature engine

`attest` rebuilds `paymasterAndData` from the request's own fields, signs the
digest over the rebuilt operation and returns the bytes with the signature at
their end. A controller assignment is signed with the same key.
-/

namespace Paymaster.Signature

open Bytes

structure CommonSponsorshipRequest where
  userOp : PackedUserOperation
  chainId : Nat
  paymaster : Data
  paymasterVerificationGasLimit : Nat
  postOpGasLimit : Nat
  validUntil : Nat
  validAfter : Nat

inductive SponsorshipRequest
  | verifying (common : CommonSponsorshipRequest)
  | tenant (common : CommonSponsorshipRequest) (tenant : Data)

structure SponsorshipAttestation where
  paymasterAndData : Data
  validUntil : Nat
  validAfter : Nat
  signer : Address
deriving DecidableEq

/-- `SponsorshipSigner`: an address, and a signature over a digest unless signing fails. -/
structure SponsorshipSigner where
  address : Address
  signDigest : Bytes32 → Except Thrown Data

namespace SponsorshipRequest

def common : SponsorshipRequest → CommonSponsorshipRequest
  | verifying common => common
  | tenant common _ => common

def fields : SponsorshipRequest → PaymasterAndDataFields
  | verifying c => .verifying ⟨c.paymaster, c.paymasterVerificationGasLimit, c.postOpGasLimit, c.validUntil, c.validAfter⟩
  | tenant c t =>
    .tenant ⟨c.paymaster, c.paymasterVerificationGasLimit, c.postOpGasLimit, c.validUntil, c.validAfter⟩ t

def digestParams (head : Data) : SponsorshipRequest → SponsorshipDigestParams
  | verifying c =>
    .verifying ⟨{ c.userOp with paymasterAndData := head }, c.chainId, c.paymaster, c.validUntil, c.validAfter⟩
  | tenant c t =>
    .tenant ⟨{ c.userOp with paymasterAndData := head }, c.chainId, c.paymaster, c.validUntil, c.validAfter⟩ t

def assertValidWindow (request : SponsorshipRequest) : Except Thrown Unit :=
  let { validUntil, validAfter, .. } := request.common
  if uint48Max < validUntil then
    .error (.invalidSponsorshipRequest ("validUntil must be a uint48, got " ++ toString validUntil))
  else if uint48Max < validAfter then
    .error (.invalidSponsorshipRequest ("validAfter must be a uint48, got " ++ toString validAfter))
  else if validUntil ≠ 0 ∧ validUntil ≤ validAfter then
    .error (.invalidSponsorshipRequest ("validUntil (" ++ toString validUntil ++ ") must be greater than validAfter (" ++
      toString validAfter ++ ")"))
  else .ok ()

end SponsorshipRequest

section
variable (viem : Viem) (signer : SponsorshipSigner)

def requestDigest (request : SponsorshipRequest) : Except Thrown Bytes32 := do
  let head ← encodePaymasterAndDataPrefix viem request.fields
  sponsorshipDigest viem (request.digestParams head)

def attest (request : SponsorshipRequest) : Except Thrown SponsorshipAttestation := do
  request.assertValidWindow
  let digest ← requestDigest viem request
  let signature ← signer.signDigest digest
  let paymasterAndData ← encodePaymasterAndData viem request.fields signature
  .ok ⟨paymasterAndData, request.common.validUntil, request.common.validAfter, signer.address⟩

def signControllerAssignment (params : ControllerAssignmentParams) : Except Thrown Data := do
  let digest ← controllerAssignmentDigest viem params
  signer.signDigest digest

end

section
variable {viem : Viem} {signer : SponsorshipSigner} {request : SponsorshipRequest} {attestation : SponsorshipAttestation}
  {digest : Bytes32}

theorem requestDigest_ok :
    requestDigest viem request = .ok digest ↔
      request.fields.InRange ∧ sponsorshipDigest viem (request.digestParams request.fields.bytes) = .ok digest := by
  unfold requestDigest
  constructor
  · intro h
    obtain ⟨head, hhead, h⟩ := bind_ok h
    obtain ⟨hrange, rfl⟩ := encodePrefix_ok.mp hhead
    exact ⟨hrange, h⟩
  · rintro ⟨hrange, h⟩
    have hhead : encodePaymasterAndDataPrefix viem request.fields = .ok request.fields.bytes :=
      encodePrefix_ok.mpr ⟨hrange, rfl⟩
    rw [hhead]
    exact h

/-- What is returned is the rebuilt bytes and a signature over the digest of the request. -/
theorem attest_ok (h : attest viem signer request = .ok attestation) :
    ∃ digest signature, request.fields.InRange ∧ requestDigest viem request = .ok digest ∧
      signer.signDigest digest = .ok signature ∧ (signature.length = 64 ∨ signature.length = 65) ∧
      attestation = ⟨request.fields.bytes ++ signature, request.common.validUntil, request.common.validAfter,
        signer.address⟩ := by
  obtain ⟨-, -, h⟩ := bind_ok h
  obtain ⟨digest, hdigest, h⟩ := bind_ok h
  obtain ⟨signature, hsignature, h⟩ := bind_ok h
  obtain ⟨bytes, hbytes, h⟩ := bind_ok h
  obtain ⟨hrange, hlength, rfl⟩ := encode_ok.mp hbytes
  exact ⟨digest, signature, hrange, hdigest, hsignature, hlength, (Except.ok.inj h).symm⟩

end

end Paymaster.Signature
