import Paymaster.Contracts.Types

/-!
# The TenantPaymaster contract

`State` is the contract's storage and each function below is one of the
contract's, as a function from the storage and the call's arguments to the new
storage and the events it emitted, or to the error it reverted with.
`withdrawFor` hands control to the receiver of the money before it emits its
event, so it is two functions: what happens before the EntryPoint is called
and what happens after.
-/

namespace Paymaster

open Bytes Function

/-- What the contract is deployed with, and the primitives it calls: the hash,
and signature recovery (`none` where `ECDSA.tryRecover` reports an error). -/
structure Deployment where
  keccak256 : Data → Bytes32
  tryRecover : Bytes32 → Data → Option Address
  chainId : Uint256
  self : Address

def controllerClaimDelay : Nat := 86400

structure State where
  owner : Address
  pendingOwner : Address
  paused : Bool
  isSigner : Address → Bool
  signerCount : Nat
  balances : Bytes32 → Nat
  totalTenantBalance : Nat
  controllerOf : Bytes32 → Address
  controllerNonce : Bytes32 → Uint256
  controllerActiveAt : Bytes32 → Nat

/-! ## Construction -/

def addSigner' (s : State) (signer : Address) : State :=
  { s with
    isSigner := update s.isSigner signer true
    signerCount := (s.signerCount + 1) % uint256Size }

/-- The storage before the constructor's body: nothing set, `deployer` the owner. -/
def blank (deployer : Address) : State where
  owner := deployer
  pendingOwner := 0
  paused := false
  isSigner := fun _ => false
  signerCount := 0
  balances := fun _ => 0
  totalTenantBalance := 0
  controllerOf := fun _ => 0
  controllerNonce := fun _ => 0
  controllerActiveAt := fun _ => 0

def constructor (deployer owner initialSigner : Address) : Except Revert State :=
  if owner = 0 then .error .zeroAddress
  else if initialSigner = 0 then .error .zeroAddress
  else .ok { addSigner' (blank deployer) initialSigner with owner := owner, pendingOwner := 0 }

/-! ## Funding -/

def depositFor (s : State) (sender : Address) (tenant : Bytes32) (value : Nat) :
    Except Revert (State × List Event) :=
  if tenant = 0 then .error .zeroTenant
  else do
    let balance ← checkedAdd (s.balances tenant) value
    let total ← checkedAdd s.totalTenantBalance value
    let s' := { s with balances := update s.balances tenant balance, totalTenantBalance := total }
    .ok (s', [.tenantDeposited tenant sender value (s'.balances tenant)])

/-! ## Controllers -/

/-- `_assignController`: every controller change consumes a nonce. -/
def assignController (s : State) (tenant : Bytes32) (controller : Address) (activeAt : Nat) : State :=
  { s with
    controllerOf := update s.controllerOf tenant controller
    controllerActiveAt := update s.controllerActiveAt tenant activeAt
    controllerNonce := update s.controllerNonce tenant (s.controllerNonce tenant + 1) }

def setController (s : State) (sender : Address) (tenant : Bytes32) (controller : Address) :
    Except Revert (State × List Event) :=
  if sender ≠ s.owner then .error (.ownableUnauthorizedAccount sender)
  else if tenant = 0 then .error .zeroTenant
  else .ok (assignController s tenant controller 0, [.controllerSet tenant controller])

def transferController (s : State) (sender : Address) (tenant : Bytes32) (newController : Address) :
    Except Revert (State × List Event) :=
  if sender ≠ s.controllerOf tenant ∨ sender = 0 then .error (.notTenantController tenant sender)
  else if newController = 0 then .error .zeroAddress
  else .ok (assignController s tenant newController (s.controllerActiveAt tenant),
    [.controllerSet tenant newController])

/-! ## Withdrawing -/

/-- `withdrawFor` up to its call of the EntryPoint: the checks and the debit. -/
def withdrawForDebit (s : State) (timestamp : Nat) (sender : Address) (tenant : Bytes32)
    (receiver : Address) (amount : Nat) : Except Revert State :=
  if sender ≠ s.owner ∧ sender ≠ s.controllerOf tenant then .error (.notTenantController tenant sender)
  else if sender ≠ s.owner ∧ timestamp < s.controllerActiveAt tenant then
    .error (.controllerNotYetActive tenant (s.controllerActiveAt tenant))
  else if receiver = 0 then .error .zeroAddress
  else if amount = 0 then .error .nothingToWithdraw
  else if s.balances tenant < amount then
    .error (.insufficientTenantBalance tenant (s.balances tenant) amount)
  else .ok { s with
    balances := update s.balances tenant (s.balances tenant - amount)
    totalTenantBalance := uncheckedSub s.totalTenantBalance amount }

/-- `withdrawFor` after its call of the EntryPoint: the event, with the balance as it is by then. -/
def withdrawForEvent (s : State) (tenant : Bytes32) (receiver : Address) (amount : Nat) : Event :=
  .tenantWithdrawn tenant receiver amount (s.balances tenant)

/-! ## The signature layout -/

def parsePaymasterAndData (paymasterAndData : Data) : Except Revert (Uint48 × Uint48 × Bytes32 × Data) :=
  if paymasterAndData.length < 96 then .error (.invalidPaymasterDataLength paymasterAndData.length)
  else .ok (BitVec.ofNat 48 (wordAt paymasterAndData 52 58), BitVec.ofNat 48 (wordAt paymasterAndData 58 64),
    BitVec.ofNat 256 (wordAt paymasterAndData 64 96), paymasterAndData.drop 96)

/-- Bytes `[36 : 52)` of `paymasterAndData`, which both the contract and the EntryPoint read. -/
def postOpGasLimitOf (op : PackedUserOperation) : Nat := wordAt op.paymasterAndData 36 52

def paymasterOf (op : PackedUserOperation) : Address := BitVec.ofNat 160 (wordAt op.paymasterAndData 0 20)

def tenantOf (op : PackedUserOperation) : Bytes32 := BitVec.ofNat 256 (wordAt op.paymasterAndData 64 96)

/-! ## Hashing -/

section
variable (dep : Deployment)

def ascii (s : String) : Data := s.toList.map fun c => UInt8.ofNat c.toNat

def word {w : Nat} (x : BitVec w) : Data := beBytes 32 x.toNat

def domainSeparator : Bytes32 :=
  dep.keccak256 (
    word (dep.keccak256 (ascii
      "EIP712Domain(string name,string version,uint256 chainId,address verifyingContract)")) ++
    word (dep.keccak256 (ascii "TenantPaymaster")) ++ word (dep.keccak256 (ascii "1")) ++
    word dep.chainId ++ word dep.self)

def typedData (structHash : Bytes32) : Data :=
  [0x19, 0x01] ++ word (domainSeparator dep) ++ word structHash

def hashTypedDataV4 (structHash : Bytes32) : Bytes32 := dep.keccak256 (typedData dep structHash)

def sponsorshipEncoding (op : PackedUserOperation) (tenant : Bytes32) (validUntil validAfter : Uint48) : Data :=
  word (dep.keccak256 (ascii
    "Sponsorship(address sender,uint256 nonce,bytes32 initCodeHash,bytes32 callDataHash,bytes32 accountGasLimits,uint256 paymasterGasLimits,uint256 preVerificationGas,bytes32 gasFees,bytes32 tenant,uint48 validUntil,uint48 validAfter)")) ++
  word op.sender ++ word op.nonce ++ word (dep.keccak256 op.initCode) ++ word (dep.keccak256 op.callData) ++
  word op.accountGasLimits ++ word (BitVec.ofNat 256 (wordAt op.paymasterAndData 20 52)) ++
  word op.preVerificationGas ++ word op.gasFees ++ word tenant ++ word validUntil ++ word validAfter

def getHash (op : PackedUserOperation) (tenant : Bytes32) (validUntil validAfter : Uint48) : Bytes32 :=
  hashTypedDataV4 dep (dep.keccak256 (sponsorshipEncoding dep op tenant validUntil validAfter))

def controllerAssignmentEncoding (tenant : Bytes32) (controller : Address) (nonce : Uint256)
    (deadline : Uint48) : Data :=
  word (dep.keccak256 (ascii
    "ControllerAssignment(bytes32 tenant,address controller,uint256 nonce,uint48 deadline)")) ++
  word tenant ++ word controller ++ word nonce ++ word deadline

def controllerAssignmentHash (tenant : Bytes32) (controller : Address) (nonce : Uint256)
    (deadline : Uint48) : Bytes32 :=
  hashTypedDataV4 dep (dep.keccak256 (controllerAssignmentEncoding dep tenant controller nonce deadline))

/-- The authorised signer a signature over a digest recovers to, if there is one. -/
def recoverSigner (s : State) (digest : Bytes32) (signature : Data) : Option Address :=
  (dep.tryRecover digest signature).filter fun a => s.isSigner a

def claimController (s : State) (timestamp : Nat) (tenant : Bytes32) (controller : Address)
    (deadline : Uint48) (signature : Data) : Except Revert (State × List Event) :=
  if tenant = 0 then .error .zeroTenant
  else if controller = 0 then .error .zeroAddress
  else if s.controllerOf tenant ≠ 0 then .error (.controllerAlreadySet tenant (s.controllerOf tenant))
  else if deadline.toNat < timestamp then .error (.controllerAssignmentExpired deadline)
  else match recoverSigner dep s
      (controllerAssignmentHash dep tenant controller (s.controllerNonce tenant) deadline) signature with
    | none => .error .invalidControllerAssignment
    | some _ => do
      let activeAt ← checkedAdd timestamp controllerClaimDelay
      .ok (assignController s tenant controller activeAt, [.controllerClaimed tenant controller activeAt])

/-! ## Validation and settlement -/

/-- What `_validatePaymasterUserOp` hands on to `_postOp`. -/
structure Context where
  tenant : Bytes32
  reserved : Nat
  postOpGasLimit : Nat
deriving DecidableEq

/-- `_validatePaymasterUserOp` returns: `SIG_VALIDATION_FAILED` and the storage
untouched, or the storage after the reservation, with the context, the signer
and the validity window. -/
inductive Validation
  | signatureFailed (validUntil validAfter : Uint48)
  | accepted (s : State) (context : Context) (signer : Address) (validUntil validAfter : Uint48)

def validatePaymasterUserOp (s : State) (op : PackedUserOperation) (maxCost : Nat) : Except Revert Validation :=
  if s.paused then .error .enforcedPause
  else do
    let (validUntil, validAfter, tenant, signature) ← parsePaymasterAndData op.paymasterAndData
    if signature.length ≠ 64 ∧ signature.length ≠ 65 then .error (.invalidSignatureLength signature.length)
    else match recoverSigner dep s (getHash dep op tenant validUntil validAfter) signature with
      | none => .ok (.signatureFailed validUntil validAfter)
      | some signer =>
        if s.balances tenant < maxCost then
          .error (.insufficientTenantBalance tenant (s.balances tenant) maxCost)
        else .ok (.accepted
          { s with
            balances := update s.balances tenant (s.balances tenant - maxCost)
            totalTenantBalance := uncheckedSub s.totalTenantBalance maxCost }
          ⟨tenant, maxCost, postOpGasLimitOf op⟩ signer validUntil validAfter)

/-- The charge `_postOp` computes: the reported cost and the whole post-op gas
limit at the reported fee, but never more than was reserved. -/
def chargeFor (context : Context) (actualGasCost actualUserOpFeePerGas : Nat) : Except Revert Nat := do
  let postOpCost ← checkedMul context.postOpGasLimit actualUserOpFeePerGas
  let charge ← checkedAdd actualGasCost postOpCost
  .ok (if context.reserved < charge then context.reserved else charge)

def postOp (s : State) (context : Context) (actualGasCost actualUserOpFeePerGas : Nat) :
    Except Revert (State × List Event) := do
  let charge ← chargeFor context actualGasCost actualUserOpFeePerGas
  let refund := context.reserved - charge
  if 0 < refund then
    let balance ← checkedAdd (s.balances context.tenant) refund
    let total ← checkedAdd s.totalTenantBalance refund
    let s' := { s with balances := update s.balances context.tenant balance, totalTenantBalance := total }
    .ok (s', [.tenantCharged context.tenant context.reserved charge (s'.balances context.tenant)])
  else .ok (s, [.tenantCharged context.tenant context.reserved charge (s.balances context.tenant)])

end

/-! ## Signers, pause and ownership -/

def addSigner (s : State) (sender signer : Address) : Except Revert (State × List Event) :=
  if sender ≠ s.owner then .error (.ownableUnauthorizedAccount sender)
  else if signer = 0 then .error .zeroAddress
  else if s.isSigner signer then .error (.signerAlreadyAuthorised signer)
  else .ok (addSigner' s signer, [.signerAdded signer sender])

def removeSigner (s : State) (sender signer : Address) : Except Revert (State × List Event) :=
  if sender ≠ s.owner then .error (.ownableUnauthorizedAccount sender)
  else if ¬ s.isSigner signer then .error (.signerNotAuthorised signer)
  else .ok ({ s with
      isSigner := update s.isSigner signer false
      signerCount := uncheckedSub s.signerCount 1 },
    [.signerRemoved signer sender])

def pause (s : State) (sender : Address) : Except Revert (State × List Event) :=
  if sender ≠ s.owner then .error (.ownableUnauthorizedAccount sender)
  else if s.paused then .error .enforcedPause
  else .ok ({ s with paused := true }, [])

def unpause (s : State) (sender : Address) : Except Revert (State × List Event) :=
  if sender ≠ s.owner then .error (.ownableUnauthorizedAccount sender)
  else if ¬ s.paused then .error .expectedPause
  else .ok ({ s with paused := false }, [])

/-- `Ownable2Step.transferOwnership`: the new owner has yet to accept. -/
def transferOwnership (s : State) (sender newOwner : Address) : Except Revert (State × List Event) :=
  if sender ≠ s.owner then .error (.ownableUnauthorizedAccount sender)
  else .ok ({ s with pendingOwner := newOwner }, [])

def acceptOwnership (s : State) (sender : Address) : Except Revert (State × List Event) :=
  if sender ≠ s.pendingOwner then .error (.ownableUnauthorizedAccount sender)
  else .ok ({ s with owner := sender, pendingOwner := 0 }, [])

def renounceOwnership (s : State) (sender : Address) : Except Revert (State × List Event) :=
  if sender ≠ s.owner then .error (.ownableUnauthorizedAccount sender)
  else .ok ({ s with owner := 0, pendingOwner := 0 }, [])

/-! ## Calls that return before anyone else runs -/

inductive Call
  | depositFor (tenant : Bytes32) (value : Nat)
  | setController (tenant : Bytes32) (controller : Address)
  | claimController (tenant : Bytes32) (controller : Address) (deadline : Uint48) (signature : Data)
  | transferController (tenant : Bytes32) (newController : Address)
  | addSigner (signer : Address)
  | removeSigner (signer : Address)
  | pause
  | unpause
  | transferOwnership (newOwner : Address)
  | acceptOwnership
  | renounceOwnership
deriving DecidableEq

/-- The wei sent along with a call, which `depositFor` passes on to the EntryPoint. -/
def Call.value : Call → Nat
  | .depositFor _ value => value
  | _ => 0

def State.call (dep : Deployment) (s : State) (timestamp : Nat) (sender : Address) :
    Call → Except Revert (State × List Event)
  | .depositFor tenant value => depositFor s sender tenant value
  | .setController tenant controller => setController s sender tenant controller
  | .claimController tenant controller deadline signature =>
    claimController dep s timestamp tenant controller deadline signature
  | .transferController tenant newController => transferController s sender tenant newController
  | .addSigner signer => addSigner s sender signer
  | .removeSigner signer => removeSigner s sender signer
  | .pause => pause s sender
  | .unpause => unpause s sender
  | .transferOwnership newOwner => transferOwnership s sender newOwner
  | .acceptOwnership => acceptOwnership s sender
  | .renounceOwnership => renounceOwnership s sender

end Paymaster
