import Paymaster.Backend.Pricing
import Paymaster.Sdk.UserOpHash

/-!
# From the SDK to the chain

An operation travels from the client to the API as text, is packed and signed
there, and comes back as paymaster fields that the client puts on its own copy.
What the client then packs is the operation that the digest was computed over.
-/

namespace Paymaster.Api

/-- What the API answers of an attestation. Quantities are text, hex but for the price. -/
structure SponsorResponse where
  paymaster : Data
  paymasterVerificationGasLimit : List Char
  paymasterPostOpGasLimit : List Char
  paymasterData : Data
  validUntil : Nat
  validAfter : Nat
  maxCost : List Char
deriving DecidableEq

/-- The return value of `#sponsor`. The paymaster's data is cut from the bytes that were signed. -/
def sponsorResponse (viem : Viem) (options : SponsorServiceOptions) (chain : ChainConfig)
    (attestation : Signature.SponsorshipAttestation) (maxCost : Nat) : Except Thrown SponsorResponse := do
  let paymasterData ← viem.slice attestation.paymasterAndData Signature.paymasterDataOffset none
  .ok
    { paymaster := chain.paymaster
      paymasterVerificationGasLimit := viem.numberToText options.paymasterVerificationGasLimit
      paymasterPostOpGasLimit := viem.numberToText options.postOpGasLimit
      paymasterData := paymasterData
      validUntil := attestation.validUntil
      validAfter := attestation.validAfter
      maxCost := Nat.toDigits 10 maxCost }

end Paymaster.Api

namespace Paymaster.Sdk

open Bytes Signature

/-! ## The client -/

structure PaymasterClientConfig where
  chainId : Nat
  policyId : Option String

/-- The body that `sponsor` posts. The account's signature is not part of it. -/
def sponsorBody (viem : Viem) (config : PaymasterClientConfig) (op : UserOperation) : Api.WireRequest where
  chainId := config.chainId
  userOperation :=
    { sender := op.sender
      nonce := viem.numberToText op.nonce
      factory := op.factory
      factoryData := op.factory.map fun _ => op.factoryData.getD []
      callData := op.callData
      callGasLimit := viem.numberToText op.callGasLimit
      verificationGasLimit := viem.numberToText op.verificationGasLimit
      preVerificationGas := viem.numberToText op.preVerificationGas
      maxFeePerGas := viem.numberToText op.maxFeePerGas
      maxPriorityFeePerGas := viem.numberToText op.maxPriorityFeePerGas
      signature := none }
  policyId := config.policyId

structure Sponsorship where
  paymaster : Data
  paymasterVerificationGasLimit : Nat
  paymasterPostOpGasLimit : Nat
  paymasterData : Data
  validUntil : Nat
  validAfter : Nat
  maxCost : Nat
deriving DecidableEq

/-- What `sponsor` makes of the answer; `none` where `BigInt` throws. -/
def sponsorshipOf (response : Api.SponsorResponse) : Option Sponsorship := do
  let paymasterVerificationGasLimit ← Api.bigInt response.paymasterVerificationGasLimit
  let paymasterPostOpGasLimit ← Api.bigInt response.paymasterPostOpGasLimit
  let maxCost ← Api.bigInt response.maxCost
  some
    { paymaster := response.paymaster
      paymasterVerificationGasLimit := paymasterVerificationGasLimit
      paymasterPostOpGasLimit := paymasterPostOpGasLimit
      paymasterData := response.paymasterData
      validUntil := response.validUntil
      validAfter := response.validAfter
      maxCost := maxCost }

def applySponsorshipTo (response : Api.SponsorResponse) (op : UserOperation) : Option UserOperation := do
  let sponsorship ← sponsorshipOf response
  some
    { op with
      paymaster := some sponsorship.paymaster
      paymasterVerificationGasLimit := some sponsorship.paymasterVerificationGasLimit
      paymasterPostOpGasLimit := some sponsorship.paymasterPostOpGasLimit
      paymasterData := some sponsorship.paymasterData }

/-! ## What the API reads -/

section
variable {viem : Viem} {config : PaymasterClientConfig} {op : UserOperation} {request : Api.SponsorRequest}

theorem quantity_text {n m : Nat} (h : Api.quantity (viem.numberToText n) = some m) : m = n ∧ n < 2 ^ 256 := by
  have hlt := Api.quantity_lt h
  unfold Api.quantity at h
  rw [viem.numberToText_eq, Api.bigInt_toDigits, Option.filter_eq_some_iff] at h
  obtain rfl := Option.some.inj h.1
  exact ⟨rfl, hlt⟩

theorem uint128_text {n m : Nat} (h : Api.uint128 (viem.numberToText n) = some m) : m = n ∧ n < 2 ^ 128 := by
  have hlt := Api.uint128_lt h
  unfold Api.uint128 at h
  obtain ⟨hquantity, -⟩ := Option.filter_eq_some_iff.mp h
  obtain ⟨rfl, -⟩ := quantity_text hquantity
  exact ⟨rfl, hlt⟩

def requestOf (config : PaymasterClientConfig) (op : UserOperation) : Api.SponsorRequest where
  chainId := config.chainId
  userOperation :=
    { sender := op.sender
      nonce := op.nonce
      factory := op.factory
      factoryData := op.factory.map fun _ => op.factoryData.getD []
      callData := op.callData
      callGasLimit := op.callGasLimit
      verificationGasLimit := op.verificationGasLimit
      preVerificationGas := op.preVerificationGas
      maxFeePerGas := op.maxFeePerGas
      maxPriorityFeePerGas := op.maxPriorityFeePerGas
      signature := none }
  policyId := config.policyId

/-- An accepted body is read as what the client meant, and its values are in range. -/
theorem schema_body (h : Api.sponsorRequestSchema (sponsorBody viem config op) = some request) :
    request = requestOf config op ∧ op.InRange := by
  obtain ⟨hchain, hsender, hnonce, hfactory, hfactoryData, hcallData, hcall, hverification, hpre, hfee, hpriority,
    hsignature, -, hpolicy⟩ := Api.schema_readFrom h
  obtain ⟨hsender, hlength⟩ := Api.address_some hsender
  obtain ⟨hnonce, hnonceFits⟩ := quantity_text hnonce
  obtain ⟨hcall, hcallFits⟩ := uint128_text hcall
  obtain ⟨hverification, hverificationFits⟩ := uint128_text hverification
  obtain ⟨hpre, hpreFits⟩ := quantity_text hpre
  obtain ⟨hfee, hfeeFits⟩ := uint128_text hfee
  obtain ⟨hpriority, hpriorityFits⟩ := uint128_text hpriority
  have hfactory := Api.optional_some (fun a b hab => (Api.address_some hab).1) hfactory
  refine ⟨?_, hlength, hnonceFits, hcallFits, hverificationFits, hpreFits, hfeeFits, hpriorityFits⟩
  obtain ⟨chainId, ⟨sender, nonce, factory, factoryData, callData, callGas, verificationGas, preGas, maxFee, maxPriority,
    signature⟩, policyId⟩ := request
  simp only [sponsorBody] at *
  subst hchain hsender hnonce hfactory hfactoryData hcallData hcall hverification hpre hfee hpriority hsignature hpolicy
  rfl

def unsponsored (viem : Viem) (op : UserOperation) : PackedUserOperation where
  sender := BitVec.ofNat 160 (ofBytes op.sender)
  nonce := BitVec.ofNat 256 op.nonce
  initCode := encodeInitCode viem op
  callData := op.callData
  accountGasLimits := BitVec.ofNat 256 (op.verificationGasLimit * 2 ^ 128 + op.callGasLimit)
  preVerificationGas := BitVec.ofNat 256 op.preVerificationGas
  gasFees := BitVec.ofNat 256 (op.maxPriorityFeePerGas * 2 ^ 128 + op.maxFeePerGas)
  paymasterAndData := []
  signature := []

theorem packed_unsponsored (hr : op.InRange) {paymasterAndData : Data}
    (hdata : encodePaymasterAndData viem op = .ok paymasterAndData) :
    packed viem op =
      .ok { unsponsored viem op with paymasterAndData := paymasterAndData, signature := op.signature } :=
  packed_eq hr hdata

/-- The API packs an operation as the client does, but for what is added later. -/
theorem toPackedUserOperation_eq (hr : op.InRange) :
    Api.toPackedUserOperation (requestOf config op).userOperation = .ok (unsponsored viem op) := by
  have haccount : Paymaster.packUint128Pair op.verificationGasLimit op.callGasLimit "accountGasLimits" =
      .ok (op.verificationGasLimit * 2 ^ 128 + op.callGasLimit) :=
    Paymaster.packUint128Pair_ok.mpr ⟨hr.verificationGasLimit, hr.callGasLimit, rfl⟩
  have hfees : Paymaster.packUint128Pair op.maxPriorityFeePerGas op.maxFeePerGas "gasFees" =
      .ok (op.maxPriorityFeePerGas * 2 ^ 128 + op.maxFeePerGas) :=
    Paymaster.packUint128Pair_ok.mpr ⟨hr.maxPriorityFeePerGas, hr.maxFeePerGas, rfl⟩
  unfold Api.toPackedUserOperation unsponsored encodeInitCode requestOf
  cases op.factory with
  | none =>
    simp only [haccount, hfees, bind, Except.bind]
    rfl
  | some factory =>
    simp only [haccount, hfees, Option.map_some, viem.concatHex_eq, List.flatten_cons, List.flatten_nil, List.append_nil,
      bind, Except.bind]
    rfl

end

/-! ## What the contract recomputes -/

section
variable {viem : Viem} {op : PackedUserOperation} {request : SponsorshipRequest} {dep : Deployment} {digest : Bytes32}

def contractDigest (dep : Deployment) (op : PackedUserOperation) : PaymasterKind → Bytes32
  | .verifying => VerifyingPaymaster.getHash dep op (BitVec.ofNat 48 (wordAt op.paymasterAndData 52 58))
      (BitVec.ofNat 48 (wordAt op.paymasterAndData 58 64))
  | .tenant => Paymaster.sponsorshipDigest dep op

theorem presented_digest (hkeccak : dep.keccak256 = viem.keccak256) (kind : PaymasterKind)
    (h : 52 ≤ op.paymasterAndData.length) :
    (presented dep op kind).digest viem = .ok (contractDigest dep op kind) := by
  obtain ⟨keccak256, tryRecover, chainId, self⟩ := dep
  simp only at hkeccak
  subst hkeccak
  cases kind with
  | verifying => exact verifying_digest viem tryRecover chainId self op _ _ h
  | tenant => exact tenant_digest viem tryRecover chainId self op _ _ (tenantOf op) h

/-- Of `paymasterAndData` only the gas limits are read for a digest. -/
theorem sponsorshipDigest_congr {params params' : SponsorshipDigestParams}
    (hl : 52 ≤ params.common.userOp.paymasterAndData.length) (hl' : 52 ≤ params'.common.userOp.paymasterAndData.length)
    (hlimits : wordAt params.common.userOp.paymasterAndData 20 52 = wordAt params'.common.userOp.paymasterAndData 20 52)
    (hkind : params.kind = params'.kind) (hchain : params.common.chainId = params'.common.chainId)
    (hpaymaster : params.common.paymaster = params'.common.paymaster)
    (hmessage : ∀ n, sponsorshipMessage viem params n = sponsorshipMessage viem params' n) :
    Signature.sponsorshipDigest viem params = Signature.sponsorshipDigest viem params' := by
  unfold Signature.sponsorshipDigest
  rw [paymasterGasLimitsFrom_eq hl, paymasterGasLimitsFrom_eq hl', hlimits, hkind, hchain, hpaymaster]
  simp only [bind, Except.bind, hmessage]

/-- The digest of a request is the one that the paymaster it names recomputes
from an operation with its values, its encoded fields and any signatures. -/
theorem requestDigest_presented (hdigest : requestDigest viem request = .ok digest) (hkeccak : dep.keccak256 = viem.keccak256)
    (hchain : dep.chainId.toNat = request.common.chainId) (hself : hexOf dep.self = request.common.paymaster)
    (attestation signature : Data)
    (hop : op = { request.common.userOp with
      paymasterAndData := request.fields.bytes ++ attestation, signature := signature }) :
    contractDigest dep op request.fields.kind = digest := by
  obtain ⟨hrange, hdigest⟩ := requestDigest_ok.mp hdigest
  have hlength := length_bytes hrange
  have hoffset : 64 ≤ (layoutFor request.fields.kind).signatureOffset := by
    cases request.fields.kind <;> decide
  have hdata : op.paymasterAndData = request.fields.bytes ++ attestation := by rw [hop]
  have hop52 : 52 ≤ op.paymasterAndData.length := by
    rw [hdata, List.length_append]
    omega
  have hfields := fieldsOf_bytes hrange attestation
  rw [← hdata] at hfields
  have hlimits : wordAt op.paymasterAndData 20 52 = wordAt request.fields.bytes 20 52 := by
    rw [hdata]
    exact wordAt_append_left attestation (by omega)
  have hpresented := presented_digest hkeccak request.fields.kind hop52
  suffices heq : (presented dep op request.fields.kind).digest viem = .ok digest by
    rw [hpresented] at heq
    exact Except.ok.inj heq
  rw [← hdigest]
  cases request with
  | verifying c =>
    have hcommon := PaymasterAndDataFields.verifying.inj hfields
    simp only [commonFieldsOf, CommonFields.mk.injEq] at hcommon
    obtain ⟨-, -, -, huntil, hafter⟩ := hcommon
    show Signature.sponsorshipDigest viem (.verifying ⟨op, dep.chainId.toNat, hexOf dep.self,
      (BitVec.ofNat 48 (wordAt op.paymasterAndData 52 58)).toNat,
      (BitVec.ofNat 48 (wordAt op.paymasterAndData 58 64)).toNat⟩) = _
    rw [uint48_wordAt _ rfl, uint48_wordAt _ rfl, huntil, hafter, hchain, hself]
    refine sponsorshipDigest_congr hop52 ?_ hlimits rfl rfl rfl ?_
    · show 52 ≤ (SponsorshipRequest.verifying c).fields.bytes.length
      omega
    · intro n
      rw [hop]
      rfl
  | tenant c t =>
    obtain ⟨hcommon, htenant⟩ := PaymasterAndDataFields.tenant.inj hfields
    simp only [commonFieldsOf, CommonFields.mk.injEq] at hcommon
    obtain ⟨-, -, -, huntil, hafter⟩ := hcommon
    have hop96 : 96 ≤ op.paymasterAndData.length := by
      rw [hdata, List.length_append, hlength]
      exact Nat.le_add_right 96 _
    show Signature.sponsorshipDigest viem (.tenant ⟨op, dep.chainId.toNat, hexOf dep.self,
      (BitVec.ofNat 48 (wordAt op.paymasterAndData 52 58)).toNat,
      (BitVec.ofNat 48 (wordAt op.paymasterAndData 58 64)).toNat⟩
        (hexOf (BitVec.ofNat 256 (wordAt op.paymasterAndData 64 96)))) = _
    rw [uint48_wordAt _ rfl, uint48_wordAt _ rfl, huntil, hafter, hchain, hself, hexOf_tenantWord hop96, htenant]
    refine sponsorshipDigest_congr hop52 ?_ hlimits rfl rfl rfl ?_
    · show 52 ≤ (SponsorshipRequest.tenant c t).fields.bytes.length
      omega
    · intro n
      rw [hop]
      rfl

end

theorem fields_common (request : SponsorshipRequest) :
    request.fields.common.paymaster = request.common.paymaster ∧
      request.fields.common.paymasterVerificationGasLimit = request.common.paymasterVerificationGasLimit ∧
      request.fields.common.postOpGasLimit = request.common.postOpGasLimit := by
  cases request with
  | verifying c => exact ⟨rfl, rfl, rfl⟩
  | tenant c t => exact ⟨rfl, rfl, rfl⟩

theorem attestationRequest_kind (viem : Viem) (options : SponsorServiceOptions) (chain : ChainConfig) (chainId : Nat)
    (userOp : PackedUserOperation) (tenantId : String) (now : Nat) :
    (attestationRequest viem options chain chainId userOp tenantId now).fields.kind = chain.paymasterKind := by
  unfold attestationRequest
  cases chain.paymasterKind <;> rfl

/-! ## The round -/

section
variable {viem : Viem} {options : SponsorServiceOptions} {chain : ChainConfig} {attestation : SponsorshipAttestation}
  {op : UserOperation}

def withSponsorship (options : SponsorServiceOptions) (chain : ChainConfig) (op : UserOperation) (paymasterData : Data) :
    UserOperation :=
  { op with
    paymaster := some chain.paymaster
    paymasterVerificationGasLimit := some options.paymasterVerificationGasLimit
    paymasterPostOpGasLimit := some options.postOpGasLimit
    paymasterData := some paymasterData }

theorem sponsorResponse_ok {maxCost : Nat} (h : 52 < attestation.paymasterAndData.length) :
    ∃ response, Api.sponsorResponse viem options chain attestation maxCost = .ok response ∧
      response.paymasterData = attestation.paymasterAndData.drop 52 := by
  have hslice : viem.slice attestation.paymasterAndData paymasterDataOffset none =
      .ok (attestation.paymasterAndData.drop 52) := viem.slice_rest _ 52 h
  unfold Api.sponsorResponse
  rw [hslice]
  exact ⟨_, rfl, rfl⟩

theorem applySponsorshipTo_eq {response : Api.SponsorResponse} {maxCost : Nat}
    (h : Api.sponsorResponse viem options chain attestation maxCost = .ok response) :
    applySponsorshipTo response op = some (withSponsorship options chain op response.paymasterData) := by
  obtain ⟨data, -, h⟩ := bind_ok h
  obtain rfl := (Except.ok.inj h).symm
  simp only [applySponsorshipTo, sponsorshipOf, viem.numberToText_eq, Api.bigInt_toDigits, Api.bigInt_decimal,
    Option.bind_eq_bind, Option.bind_some, withSponsorship]

theorem encodePaymasterAndData_attested {fields : PaymasterAndDataFields} {signature : Data} (hrange : fields.InRange)
    (hpaymaster : fields.common.paymaster = chain.paymaster)
    (hverification : fields.common.paymasterVerificationGasLimit = options.paymasterVerificationGasLimit)
    (hpostOp : fields.common.postOpGasLimit = options.postOpGasLimit) :
    encodePaymasterAndData viem (withSponsorship options chain op ((fields.bytes ++ signature).drop 52)) =
      .ok (fields.bytes ++ signature) := by
  have hcommon := common_inRange hrange
  have hsplit : ∃ rest, fields.bytes = fields.common.paymaster ++ beBytes 16 fields.common.paymasterVerificationGasLimit ++
      beBytes 16 fields.common.postOpGasLimit ++ rest := by
    cases fields with
    | verifying common => exact ⟨_, List.append_assoc _ _ _⟩
    | tenant common key =>
      refine ⟨beBytes 6 common.validUntil ++ beBytes 6 common.validAfter ++ key, ?_⟩
      simp only [PaymasterAndDataFields.bytes, PaymasterAndDataFields.common, CommonFields.bytes, List.append_assoc]
  obtain ⟨rest, hbytes⟩ := hsplit
  have hlength : (fields.common.paymaster ++ beBytes 16 fields.common.paymasterVerificationGasLimit ++
      beBytes 16 fields.common.postOpGasLimit).length = 52 := by
    simp [hcommon.paymaster]
  have hdrop : (fields.bytes ++ signature).drop 52 = rest ++ signature := by
    rw [hbytes, List.append_assoc, ← hlength, List.drop_left]
  have hverificationHex : viem.numberToHex fields.common.paymasterVerificationGasLimit 16 =
      .ok (beBytes 16 fields.common.paymasterVerificationGasLimit) :=
    viem.numberToHex_fits _ 16 (Nat.lt_of_lt_of_eq hcommon.paymasterVerificationGasLimit (by decide))
  have hpostOpHex : viem.numberToHex fields.common.postOpGasLimit 16 = .ok (beBytes 16 fields.common.postOpGasLimit) :=
    viem.numberToHex_fits _ 16 (Nat.lt_of_lt_of_eq hcommon.postOpGasLimit (by decide))
  unfold encodePaymasterAndData withSponsorship
  rw [hdrop, ← hpaymaster, ← hverification, ← hpostOp]
  simp only [Option.getD_some, hverificationHex, hpostOpHex, bind, Except.bind, viem.concatHex_eq]
  rw [hbytes]
  simp only [List.flatten_cons, List.flatten_nil, List.append_nil, List.append_assoc]

end

/-- **The SDK and the chain agree.** Let the API accept the body that the
client posts for an operation. It packs it, and whatever attestation it answers
with, the client's operation with the sponsorship applied packs to the
operation that was signed, with the attestation's bytes as `paymasterAndData`
and the client's own signature. The paymaster that the chain is configured with
recomputes from it the digest that was signed and finds its signature, and the
hash that the account signs is the EntryPoint's hash of it. -/
theorem sdk_agrees (viem : Viem) (signer : SponsorshipSigner) (options : SponsorServiceOptions) (chain : ChainConfig)
    (config : PaymasterClientConfig) (tenantId : String) (now : Nat) (op : UserOperation) (request : Api.SponsorRequest)
    (haccepted : Api.sponsorRequestSchema (sponsorBody viem config op) = some request) :
    ∃ userOp, Api.toPackedUserOperation request.userOperation = .ok userOp ∧
      ∀ attestation maxCost,
        attest viem signer (attestationRequest viem options chain request.chainId userOp tenantId now) = .ok attestation →
        ∃ response op', Api.sponsorResponse viem options chain attestation maxCost = .ok response ∧
          applySponsorshipTo response op = some op' ∧
          let p : PackedUserOperation :=
            { userOp with paymasterAndData := attestation.paymasterAndData, signature := op.signature }
          packed viem op' = .ok p ∧
          (∀ dep : Deployment, dep.keccak256 = viem.keccak256 → dep.chainId.toNat = config.chainId →
            hexOf dep.self = chain.paymaster →
            ∃ digest signature, requestDigest viem
                (attestationRequest viem options chain request.chainId userOp tenantId now) = .ok digest ∧
              signer.signDigest digest = .ok signature ∧ contractDigest dep p chain.paymasterKind = digest ∧
              p.paymasterAndData.drop (layoutFor chain.paymasterKind).signatureOffset = signature) ∧
          ∀ (entryPoint : Address) (chainId : Uint256), chainId.toNat = config.chainId →
            getUserOperationHash viem op' (hexOf entryPoint) config.chainId =
              .ok (userOpHash viem.keccak256 p entryPoint chainId) := by
  obtain ⟨rfl, hrange⟩ := schema_body haccepted
  refine ⟨unsponsored viem op, toPackedUserOperation_eq hrange, ?_⟩
  intro attestation maxCost hattested
  obtain ⟨digest, signature, hfields, hdigest, hsigned, hlength, rfl⟩ := attest_ok hattested
  have hcommon := attestationRequest_common viem options chain (requestOf config op).chainId (unsponsored viem op) tenantId now
  have hkind := attestationRequest_kind viem options chain (requestOf config op).chainId (unsponsored viem op) tenantId now
  generalize attestationRequest viem options chain (requestOf config op).chainId (unsponsored viem op) tenantId now =
    attested at *
  obtain ⟨hpaymaster, hverification, hpostOp⟩ := fields_common attested
  rw [hcommon] at hpaymaster hverification hpostOp
  have hbytes := length_bytes hfields
  have hoffset : 64 ≤ (layoutFor attested.fields.kind).signatureOffset := by
    cases attested.fields.kind <;> decide
  obtain ⟨response, hresponse, hdata⟩ := @sponsorResponse_ok viem options chain
    ⟨attested.fields.bytes ++ signature, attested.common.validUntil, attested.common.validAfter, signer.address⟩
      maxCost (by
        rw [List.length_append]
        omega)
  simp only at hdata
  refine ⟨response, _, hresponse, applySponsorshipTo_eq hresponse, ?_⟩
  rw [hdata]
  have hrange' : (withSponsorship options chain op ((attested.fields.bytes ++ signature).drop 52)).InRange :=
    ⟨hrange.sender, hrange.nonce, hrange.callGasLimit, hrange.verificationGasLimit, hrange.preVerificationGas,
      hrange.maxFeePerGas, hrange.maxPriorityFeePerGas⟩
  have hencoded : encodePaymasterAndData viem (withSponsorship options chain op
      ((attested.fields.bytes ++ signature).drop 52)) = .ok (attested.fields.bytes ++ signature) :=
    encodePaymasterAndData_attested hfields hpaymaster hverification hpostOp
  have hpacked := packed_unsponsored hrange' hencoded
  refine ⟨hpacked, ?_, ?_⟩
  · intro dep hkeccak hchain hself
    refine ⟨digest, signature, hdigest, hsigned, ?_, ?_⟩
    · rw [← hkind]
      apply requestDigest_presented hdigest hkeccak _ _ signature op.signature
      · rw [hcommon]
      · rw [hcommon]
        exact hchain
      · rw [hcommon]
        exact hself
    · rw [← hkind, ← hbytes, List.drop_left]
  · intro entryPoint chainId hchain
    rw [← hchain]
    exact getUserOperationHash_eq hrange' hpacked entryPoint chainId

def clientOp : UserOperation where
  sender := hexOf sponsoredRequest.userOp.sender
  nonce := 0
  factory := none
  factoryData := none
  callData := sponsoredCallData
  callGasLimit := 50000
  verificationGasLimit := 100000
  preVerificationGas := 21000
  maxFeePerGas := 2000000000
  maxPriorityFeePerGas := 1000000000
  paymaster := none
  paymasterVerificationGasLimit := none
  paymasterPostOpGasLimit := none
  paymasterData := none
  signature := [0xab]

theorem sdk_agrees_clientOp :
    ∃ op', packed (viemOf sponsoredKeccak) op' = .ok { sponsoredOp with signature := [0xab] } ∧
      contractDigest sponsoredDeployment { sponsoredOp with signature := [0xab] } .tenant =
        0xaa99ef35d8c8ad2ac0491b61362c6e8f757d361d17dd3c00bdf22bf2e9c8fd01 := by
  have haccepted : Api.sponsorRequestSchema (sponsorBody (viemOf sponsoredKeccak) ⟨1, none⟩ clientOp) =
      some sponsoredApiRequest := by
    decide +kernel
  obtain ⟨userOp, hpacked, hall⟩ := sdk_agrees (viemOf sponsoredKeccak) sponsorSigner sponsorOptions sponsorChain
    ⟨1, none⟩ "acme" 1800000000 clientOp sponsoredApiRequest haccepted
  have huserOp : Api.toPackedUserOperation sponsoredApiRequest.userOperation = .ok sponsoredRequest.userOp := rfl
  obtain rfl : sponsoredRequest.userOp = userOp := Except.ok.inj (huserOp.symm.trans hpacked)
  have hattested : attest (viemOf sponsoredKeccak) sponsorSigner (attestationRequest (viemOf sponsoredKeccak)
      sponsorOptions sponsorChain 1 sponsoredRequest.userOp "acme" 1800000000) =
        .ok ⟨sponsoredOp.paymasterAndData, 1800000300, 0, 0x2b5ad5c4795c026514f8317c7a215e218dccd6cf⟩ := by
    rw [sponsored_attestationRequest]
    exact sponsored_attested
  obtain ⟨response, op', -, -, hop, hdigest, -⟩ := hall _ 562000000000000 hattested
  obtain ⟨digest, signature, -, hsigned, hcontract, -⟩ := hdigest sponsoredDeployment rfl rfl rfl
  refine ⟨op', hop, hcontract.trans ?_⟩
  -- The signer signs one digest only.
  simp only [sponsorSigner] at hsigned
  split at hsigned
  · assumption
  · cases hsigned

end Paymaster.Sdk
