import Paymaster.Lib.Eip712

/-!
# The two paymaster layouts

Which contract a chain is configured with, and what differs between the two as
data: the domain's name, where the signature starts and the signed fields.
-/

namespace Paymaster

inductive PaymasterKind
  | verifying
  | tenant
deriving DecidableEq

namespace Signature

open Eip712

structure PaymasterLayout where
  kind : PaymasterKind
  domainName : String
  signatureOffset : Nat
  types : List Field

def commonFields : List Field :=
  [⟨"sender", .address⟩, ⟨"nonce", .uint 256⟩, ⟨"initCodeHash", .bytes32⟩, ⟨"callDataHash", .bytes32⟩,
    ⟨"accountGasLimits", .bytes32⟩, ⟨"paymasterGasLimits", .uint 256⟩, ⟨"preVerificationGas", .uint 256⟩,
    ⟨"gasFees", .bytes32⟩]

def windowFields : List Field := [⟨"validUntil", .uint 48⟩, ⟨"validAfter", .uint 48⟩]

def verifyingLayout : PaymasterLayout where
  kind := .verifying
  domainName := "VerifyingPaymaster"
  signatureOffset := 64
  types := commonFields ++ windowFields

def tenantLayout : PaymasterLayout where
  kind := .tenant
  domainName := "TenantPaymaster"
  signatureOffset := 96
  types := commonFields ++ [⟨"tenant", .bytes32⟩] ++ windowFields

def layoutFor : PaymasterKind → PaymasterLayout
  | .verifying => verifyingLayout
  | .tenant => tenantLayout

end Signature

end Paymaster
