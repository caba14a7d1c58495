import Paymaster.Sdk.SponsoredBundler

/-!
# What the SDK submits

Whatever the bundler and the wallet answer, an operation is submitted once, and
after it was sponsored with the limits it has, and signed with the paymaster's
fields it has.
-/

namespace Paymaster.Sdk

open Bytes Signature Dialogue SponsoredBundlerClient

/-! ## What a bundler reads -/

def RpcUserOperation.read (rpc : RpcUserOperation) : Option UserOperation := do
  let nonce ← Api.bigInt rpc.nonce
  let callGasLimit ← Api.bigInt rpc.callGasLimit
  let verificationGasLimit ← Api.bigInt rpc.verificationGasLimit
  let preVerificationGas ← Api.bigInt rpc.preVerificationGas
  let maxFeePerGas ← Api.bigInt rpc.maxFeePerGas
  let maxPriorityFeePerGas ← Api.bigInt rpc.maxPriorityFeePerGas
  let paymasterVerificationGasLimit ← Api.optional Api.bigInt rpc.paymasterVerificationGasLimit
  let paymasterPostOpGasLimit ← Api.optional Api.bigInt rpc.paymasterPostOpGasLimit
  some
    { sender := rpc.sender
      nonce := nonce
      factory := rpc.factory
      factoryData := rpc.factoryData
      callData := rpc.callData
      callGasLimit := callGasLimit
      verificationGasLimit := verificationGasLimit
      preVerificationGas := preVerificationGas
      maxFeePerGas := maxFeePerGas
      maxPriorityFeePerGas := maxPriorityFeePerGas
      paymaster := rpc.paymaster
      paymasterVerificationGasLimit := paymasterVerificationGasLimit
      paymasterPostOpGasLimit := paymasterPostOpGasLimit
      paymasterData := rpc.paymasterData
      signature := rpc.signature }

section
variable {viem : Viem} {op : UserOperation}

theorem bigInt_numberToText (n : Nat) : Api.bigInt (viem.numberToText n) = some n := by
  rw [viem.numberToText_eq, Api.bigInt_toDigits]

/-- The members that the JSON-RPC form has only with another one, filled in or left out. -/
def UserOperation.spelled (op : UserOperation) : UserOperation :=
  { op with
    factoryData := op.factory.map fun _ => op.factoryData.getD []
    paymasterVerificationGasLimit := op.paymaster.map fun _ => op.paymasterVerificationGasLimit.getD 0
    paymasterPostOpGasLimit := op.paymaster.map fun _ => op.paymasterPostOpGasLimit.getD 0
    paymasterData := op.paymaster.map fun _ => op.paymasterData.getD [] }

theorem read_toRpcUserOperation : (toRpcUserOperation viem op).read = some op.spelled := by
  have hlimit : ∀ n, Api.optional Api.bigInt (op.paymaster.map fun _ => viem.numberToText n) =
      some (op.paymaster.map fun _ => n) := by
    intro n
    cases op.paymaster with
    | none => rfl
    | some paymaster => simp only [Option.map_some, Api.optional, bigInt_numberToText]
  simp only [RpcUserOperation.read, toRpcUserOperation, bigInt_numberToText, hlimit, Option.bind_eq_bind,
    Option.bind_some, UserOperation.spelled]

theorem packed_spelled : packed viem op.spelled = packed viem op := by
  have hinit : encodeInitCode viem op.spelled = encodeInitCode viem op := by
    unfold encodeInitCode UserOperation.spelled
    cases op.factory <;> rfl
  have hdata : encodePaymasterAndData viem op.spelled = encodePaymasterAndData viem op := by
    unfold encodePaymasterAndData UserOperation.spelled
    cases op.paymaster <;> rfl
  unfold packed
  rw [hinit, hdata]
  rfl

theorem packed_signature {p : PackedUserOperation} (h : packed viem op = .ok p) (signature : Data) :
    packed viem { op with signature := signature } = .ok { p with signature := signature } := by
  unfold packed at h ⊢
  obtain ⟨accountGasLimits, hlimits, h⟩ := bind_ok h
  obtain ⟨gasFees, hfees, h⟩ := bind_ok h
  obtain ⟨paymasterAndData, hdata, h⟩ := bind_ok h
  cases h
  have hdata' : encodePaymasterAndData viem { op with signature := signature } = .ok paymasterAndData := hdata
  rw [hlimits, hfees, hdata']
  rfl

end

/-! ## What comes before a submission -/

structure Preparation where
  maxFeePerGas : Nat
  maxPriorityFeePerGas : Nat
  preliminary : Api.SponsorResponse
  stubbed : UserOperation
  estimateResponse : EstimateResponse
  estimate : GasEstimate
  final : Api.SponsorResponse
  sponsored : UserOperation
  userOpHash : Bytes32
  signature : Data

namespace Preparation

variable (viem : Viem) (config : SponsoredBundlerConfig) (request : UserOperationRequest) (options : SendOptions)
  (p : Preparation)

def draft : UserOperation := draftOf request p.maxFeePerGas p.maxPriorityFeePerGas

def estimated : UserOperation := estimatedOf (p.draft request) p.estimate

def op : UserOperation := { p.sponsored with signature := p.signature }

def exchanges : Log :=
  let sponsoring (op : UserOperation) : Question :=
    .sponsor (paymaster config).url (paymaster config).authorization (sponsorBody viem (paymaster config).client op)
  [⟨sponsoring (p.draft request), .ok p.preliminary⟩,
    ⟨.estimate config.bundlerEndpoint (toRpcUserOperation viem p.stubbed) config.entryPoint, .result p.estimateResponse⟩,
    ⟨sponsoring (p.estimated request), .ok p.final⟩, ⟨.sign p.userOpHash, some p.signature⟩]

structure Valid : Prop where
  maxFeePerGas : feeOf config request options = some p.maxFeePerGas
  maxPriorityFeePerGas : priorityFeeOf config request options = some p.maxPriorityFeePerGas
  stubbed : applySponsorshipTo p.preliminary (p.draft request) = some p.stubbed
  estimate : BundlerClient.gasEstimate p.estimateResponse = some p.estimate
  sponsored : applySponsorshipTo p.final (p.estimated request) = some p.sponsored
  userOpHash : getUserOperationHash viem p.sponsored config.entryPoint config.chainId = .ok p.userOpHash

end Preparation

section
variable {viem : Viem} {config : SponsoredBundlerConfig} {request : UserOperationRequest} {options : SendOptions}
  {op op' : UserOperation} {log : Log}

theorem after_applySponsorshipTo {paymaster : PaymasterConfig}
    (h : After (PaymasterClient.applySponsorshipTo viem paymaster op) log (.answer op')) :
    ∃ response, log = [⟨.sponsor paymaster.url paymaster.authorization (sponsorBody viem paymaster.client op),
      .ok response⟩] ∧ applySponsorshipTo response op = some op' := by
  obtain ⟨sponsorship, before, rest, rfl, hsponsor, hrest⟩ := after_bind_answer h
  obtain ⟨rfl, hop⟩ := after_answer hrest
  unfold PaymasterClient.sponsor at hsponsor
  obtain ⟨-, hask⟩ | ⟨reply, rest, rfl, hafter⟩ := after_ask hsponsor
  · cases hask
  · obtain ⟨response, first, last, rfl, hreply, hlast⟩ := after_bind_answer hafter
    obtain ⟨rfl, hok⟩ := after_ofExcept_answer hreply
    obtain ⟨rfl, hread⟩ := after_ofOption_answer hlast
    obtain rfl := httpApi_ok hok
    refine ⟨response, rfl, ?_⟩
    cases hop
    simp only [applySponsorshipTo, hread, Option.bind_eq_bind, Option.bind_some]

theorem after_estimate {client : BundlerClient} {rpc : RpcUserOperation} {entryPoint : Data} {estimate : GasEstimate}
    (h : After (client.estimateUserOperationGas rpc entryPoint) log (.answer estimate)) :
    ∃ result, log = [⟨.estimate client.endpoint rpc entryPoint, .result result⟩] ∧
      BundlerClient.gasEstimate result = some estimate := by
  unfold BundlerClient.estimateUserOperationGas at h
  obtain ⟨-, hask⟩ | ⟨reply, rest, rfl, hafter⟩ := after_ask h
  · cases hask
  · obtain ⟨result, first, last, rfl, hreply, hlast⟩ := after_bind_answer hafter
    obtain ⟨rfl, hok⟩ := after_ofExcept_answer hreply
    obtain ⟨rfl, hread⟩ := after_ofOption_answer hlast
    obtain rfl := jsonRpc_ok hok
    exact ⟨result, rfl, hread⟩

theorem after_sign {userOpHash : Bytes32} {signature : Data}
    (h : After (signUserOperationHash userOpHash) log (.answer signature)) :
    log = [⟨.sign userOpHash, some signature⟩] := by
  unfold signUserOperationHash at h
  obtain ⟨-, hask⟩ | ⟨reply, rest, rfl, hafter⟩ := after_ask h
  · cases hask
  · obtain ⟨rfl, rfl⟩ := after_ofOption_answer hafter
    rfl

/-- An operation is ready only after all of its preparation. -/
theorem after_prepareUserOperation (h : After (prepareUserOperation viem config request options) log (.answer op)) :
    ∃ p : Preparation, p.Valid viem config request options ∧ log = p.exchanges viem config request ∧ op = p.op := by
  unfold prepareUserOperation at h
  split at h
  · rename_i maxFeePerGas maxPriorityFeePerGas hfee hpriority
    obtain ⟨stubbed, _, _, rfl, hstubbed, h₁⟩ := after_bind_answer h
    obtain ⟨estimate, _, _, rfl, hestimate, h₂⟩ := after_bind_answer h₁
    obtain ⟨sponsored, _, _, rfl, hsponsored, h₃⟩ := after_bind_answer h₂
    obtain ⟨userOpHash, _, _, rfl, hhash, h₄⟩ := after_bind_answer h₃
    obtain ⟨signature, _, _, rfl, hsign, h₅⟩ := after_bind_answer h₄
    obtain ⟨preliminary, rfl, hpreliminary⟩ := after_applySponsorshipTo hstubbed
    obtain ⟨estimateResponse, rfl, hestimated⟩ := after_estimate hestimate
    obtain ⟨final, rfl, hfinal⟩ := after_applySponsorshipTo hsponsored
    obtain ⟨rfl, hhash⟩ := after_ofExcept_answer hhash
    obtain rfl := after_sign hsign
    obtain ⟨rfl, hop⟩ := after_answer h₅
    cases hop
    refine ⟨⟨maxFeePerGas, maxPriorityFeePerGas, preliminary, stubbed, estimateResponse, estimate, final, sponsored,
      userOpHash, signature⟩, ⟨hfee, hpriority, hpreliminary, hestimated, hfinal, ?_⟩, rfl, rfl⟩
    cases hcomputed : getUserOperationHash viem sponsored config.entryPoint config.chainId with
    | error e =>
      rw [hcomputed] at hhash
      cases hhash
    | ok computed =>
      rw [hcomputed] at hhash
      cases hhash
      rfl
  · cases (after_throw h).2

theorem sponsored_after {paymaster : PaymasterConfig} {response : Api.SponsorResponse}
    (h : applySponsorshipTo response op = some op') :
    After (PaymasterClient.applySponsorshipTo viem paymaster op)
      [⟨.sponsor paymaster.url paymaster.authorization (sponsorBody viem paymaster.client op), .ok response⟩]
      (.answer op') := by
  obtain ⟨sponsorship, hread, hop⟩ := Option.bind_eq_some_iff.mp h
  cases hop
  apply After.told
  show After (ofOption _ (sponsorshipOf response) >>= _) [] _
  rw [hread]
  exact .here _

/-- After these exchanges the operation is ready. -/
theorem Preparation.Valid.after {p : Preparation} (hp : p.Valid viem config request options) :
    After (prepareUserOperation viem config request options) (p.exchanges viem config request) (.answer p.op) := by
  unfold prepareUserOperation
  rw [hp.maxFeePerGas, hp.maxPriorityFeePerGas]
  apply After.bind (sponsored_after hp.stubbed)
  apply After.told
  show After (ofOption _ (BundlerClient.gasEstimate p.estimateResponse) >>= _) _ _
  rw [hp.estimate]
  apply After.bind (sponsored_after hp.sponsored)
  show After (ofExcept ((getUserOperationHash viem p.sponsored config.entryPoint config.chainId).mapError _) >>= _) _ _
  rw [hp.userOpHash]
  apply After.told
  exact .here _

end

/-! ## One submission -/

def Question.isSend : Question → Bool
  | .send .. => true
  | _ => false

section
variable {viem : Viem} {config : SponsoredBundlerConfig} {request : UserOperationRequest} {options : SendOptions}
  {op : UserOperation} {client : BundlerClient} {log : Log} {d : Client UserOperationReceipt} {fuel : Nat}
  {x : Exchange Question Answer}

theorem asks_applySponsorshipTo {paymaster : PaymasterConfig} :
    Asks (fun q => q.isSend = false) (PaymasterClient.applySponsorshipTo viem paymaster op) := by
  apply asks_bind
  · refine ⟨rfl, fun reply => ?_⟩
    apply asks_bind (asks_ofExcept _)
    intro response
    exact asks_ofOption _ _
  · intro sponsorship
    trivial

theorem asks_prepareUserOperation :
    Asks (fun q => q.isSend = false) (prepareUserOperation viem config request options) := by
  unfold prepareUserOperation
  split
  · apply asks_bind asks_applySponsorshipTo
    intro stubbed
    apply asks_bind
    · refine ⟨rfl, fun reply => ?_⟩
      apply asks_bind (asks_ofExcept _)
      intro result
      exact asks_ofOption _ _
    · intro estimate
      apply asks_bind asks_applySponsorshipTo
      intro sponsored
      apply asks_bind (asks_ofExcept _)
      intro userOpHash
      apply asks_bind
      · exact ⟨rfl, fun reply => asks_ofOption _ _⟩
      · intro signature
        trivial
  · trivial

theorem asks_getUserOperationReceipt {userOpHash : Data} :
    Asks (fun q => q.isSend = false) (client.getUserOperationReceipt userOpHash) := by
  refine ⟨rfl, fun reply => ?_⟩
  apply asks_bind (asks_ofExcept _)
  intro raw
  cases raw with
  | none => trivial
  | some raw =>
    apply asks_bind (asks_ofOption _ _)
    intro receipt
    trivial

theorem asks_poll {userOpHash : Data} {timeoutMs pollIntervalMs deadline : Nat} :
    Asks (fun q => q.isSend = false) (client.poll userOpHash timeoutMs pollIntervalMs deadline fuel) := by
  induction fuel with
  | zero => trivial
  | succ fuel ih =>
    refine ⟨rfl, fun now => ?_⟩
    show Asks _ (if now < deadline then _ else _)
    by_cases hnow : now < deadline
    · rw [if_pos hnow]
      apply asks_bind asks_getUserOperationReceipt
      intro receipt
      cases receipt with
      | none => exact ⟨rfl, fun _ => ih⟩
      | some receipt => trivial
    · rw [if_neg hnow]
      trivial

/-- What is submitted was prepared, and nothing was submitted before or is after. -/
theorem after_sendUserOperation (h : After (sendUserOperation viem config request options fuel) log d) (hx : x ∈ log)
    (hsend : x.1.isSend = true) :
    ∃ (p : Preparation) (reply : RpcReply Data) (rest : Log), p.Valid viem config request options ∧
      x = ⟨.send config.bundlerEndpoint (toRpcUserOperation viem p.op) config.entryPoint, reply⟩ ∧
      log = p.exchanges viem config request ++ x :: rest ∧ ∀ y ∈ rest, y.1.isSend = false := by
  have hnot : ¬ x.1.isSend = false := by simp [hsend]
  obtain ⟨x', hprepare, -⟩ | ⟨op, before, rest, rfl, hprepare, h⟩ := after_bind h
  · exact absurd (asks_prepareUserOperation.of_mem hprepare x hx) hnot
  · have hquiet := asks_prepareUserOperation.of_mem hprepare
    obtain ⟨p, hvalid, rfl, rfl⟩ := after_prepareUserOperation hprepare
    have hrest : x ∈ rest := (List.mem_append.mp hx).resolve_left fun hbefore => hnot (hquiet x hbefore)
    have hlater : ∀ reply, Asks (fun q => q.isSend = false)
        (ofExcept (jsonRpc config.bundlerEndpoint "eth_sendUserOperation" (bundler config).transport reply) >>=
          fun userOpHash => (bundler config).waitForUserOperationReceipt userOpHash options.waitTimeoutMs none fuel :
            Client UserOperationReceipt) := by
      intro reply
      apply asks_bind (asks_ofExcept _)
      intro userOpHash
      exact ⟨rfl, fun now => asks_poll⟩
    obtain ⟨rfl, -⟩ | ⟨reply, later, rfl, hafter⟩ := after_ask h
    · cases hrest
    · have hquiet' := (hlater reply).of_mem hafter
      obtain rfl | hmem := List.mem_cons.mp hrest
      · exact ⟨p, reply, later, hvalid, rfl, rfl, hquiet'⟩
      · exact absurd (hquiet' x hmem) hnot

end

/-! ## What the paymaster and the EntryPoint make of it -/

section
variable (viem : Viem) (signer : SponsorshipSigner) (service : SponsorServiceOptions) (chain : ChainConfig)
  (tenantId : String)

/-- If a sponsorship, then one that the API granted. -/
def Granted : Exchange Question Answer → Prop
  | ⟨.sponsor _ _ body, .ok response⟩ => ∃ request userOp attestation maxCost now,
      Api.sponsorRequestSchema body = some request ∧ Api.toPackedUserOperation request.userOperation = .ok userOp ∧
        attest viem signer (attestationRequest viem service chain request.chainId userOp tenantId now) = .ok attestation ∧
          Api.sponsorResponse viem service chain attestation maxCost = .ok response
  | _ => True

/-- What the contracts find in an operation: the hash that the account signed,
and what the paymaster's signer signed for the paymaster on this chain. -/
structure Covered (config : SponsoredBundlerConfig) (userOpHash : Bytes32) (p : PackedUserOperation) : Prop where
  account : ∀ (entryPoint : Address) (chainId : Uint256), hexOf entryPoint = config.entryPoint →
    chainId.toNat = config.chainId → userOpHash = Paymaster.userOpHash viem.keccak256 p entryPoint chainId
  paymaster : ∀ dep : Deployment, dep.keccak256 = viem.keccak256 → dep.chainId.toNat = config.chainId →
    hexOf dep.self = chain.paymaster →
      signer.signDigest (contractDigest dep p chain.paymasterKind) =
        .ok (p.paymasterAndData.drop (layoutFor chain.paymasterKind).signatureOffset)

end

section
variable {viem : Viem} {signer : SponsorshipSigner} {service : SponsorServiceOptions} {chain : ChainConfig}
  {tenantId : String} {config : SponsoredBundlerConfig} {request : UserOperationRequest} {options : SendOptions}
  {op op' : UserOperation} {url : String} {authorization : Option String} {response : Api.SponsorResponse}

/-- The operation with a granted sponsorship packs to one that the paymaster's signer signed, whatever signature it gets. -/
theorem granted_packed
    (hgranted : Granted viem signer service chain tenantId
      ⟨.sponsor url authorization (sponsorBody viem (paymaster config).client op), .ok response⟩)
    (happlied : applySponsorshipTo response op = some op') :
    op'.InRange ∧ ∃ p, packed viem op' = .ok p ∧ ∀ (signature : Data) (dep : Deployment),
      dep.keccak256 = viem.keccak256 → dep.chainId.toNat = config.chainId → hexOf dep.self = chain.paymaster →
        signer.signDigest (contractDigest dep { p with signature := signature } chain.paymasterKind) =
          .ok (p.paymasterAndData.drop (layoutFor chain.paymasterKind).signatureOffset) := by
  obtain ⟨request, userOp, attestation, maxCost, now, haccepted, hpacked, hattested, hresponse⟩ := hgranted
  obtain ⟨rfl, hrange⟩ := schema_body haccepted
  have hunsponsored : Api.toPackedUserOperation (requestOf (paymaster config).client op).userOperation =
      .ok (unsponsored viem op) := toPackedUserOperation_eq hrange
  obtain rfl := Except.ok.inj (hunsponsored.symm.trans hpacked)
  obtain ⟨digest, signature, hfields, hdigest, hsigned, hlength, rfl⟩ := attest_ok hattested
  have hcommon := attestationRequest_common viem service chain (requestOf (paymaster config).client op).chainId
    (unsponsored viem op) tenantId now
  have hkind := attestationRequest_kind viem service chain (requestOf (paymaster config).client op).chainId
    (unsponsored viem op) tenantId now
  generalize attestationRequest viem service chain (requestOf (paymaster config).client op).chainId
    (unsponsored viem op) tenantId now = attested at *
  obtain ⟨hpaymaster, hverification, hpostOp⟩ := fields_common attested
  rw [hcommon] at hpaymaster hverification hpostOp
  have hbytes := length_bytes hfields
  have hoffset : 64 ≤ (layoutFor attested.fields.kind).signatureOffset := by
    cases attested.fields.kind <;> decide
  have hdata : response.paymasterData = (attested.fields.bytes ++ signature).drop 52 := by
    obtain ⟨response', hresponse', hdata⟩ := @sponsorResponse_ok viem service chain
      ⟨attested.fields.bytes ++ signature, attested.common.validUntil, attested.common.validAfter, signer.address⟩
        maxCost (by
          rw [List.length_append]
          omega)
    obtain rfl := Except.ok.inj (hresponse'.symm.trans hresponse)
    exact hdata
  rw [applySponsorshipTo_eq hresponse, hdata, Option.some.injEq] at happlied
  subst happlied
  have hencoded := @encodePaymasterAndData_attested viem service chain op attested.fields signature hfields hpaymaster
    hverification hpostOp
  have hrange' : (withSponsorship service chain op ((attested.fields.bytes ++ signature).drop 52)).InRange :=
    ⟨hrange.sender, hrange.nonce, hrange.callGasLimit, hrange.verificationGasLimit, hrange.preVerificationGas,
      hrange.maxFeePerGas, hrange.maxPriorityFeePerGas⟩
  refine ⟨hrange', _, packed_unsponsored hrange' hencoded, ?_⟩
  intro accountSignature dep hkeccak hchain hself
  have hcontract : contractDigest dep
      { unsponsored viem op with
        paymasterAndData := attested.fields.bytes ++ signature, signature := accountSignature }
      attested.fields.kind = digest := by
    apply requestDigest_presented hdigest hkeccak _ _ signature accountSignature
    · rw [hcommon]
    · rw [hcommon]
      exact hchain
    · rw [hcommon]
      exact hself
  rw [← hkind]
  show signer.signDigest (contractDigest dep { unsponsored viem op with
    paymasterAndData := attested.fields.bytes ++ signature, signature := accountSignature } attested.fields.kind) =
      .ok ((attested.fields.bytes ++ signature).drop (layoutFor attested.fields.kind).signatureOffset)
  rw [hcontract, hsigned, ← hbytes, List.drop_left]

/-- **What is submitted was sponsored and signed as it is.** An operation that
the bundler is asked to take is the first and last in its log, and comes right
after its preparation. Let the sponsorships be the API's. What a bundler reads
then packs to an operation with the signature that the wallet answered, to its
EntryPoint hash, and with paymaster fields that the paymaster finds signed. -/
theorem submitted_as_sponsored {log : Log} {d : Client UserOperationReceipt} {fuel : Nat} {x : Exchange Question Answer}
    (hlog : After (sendUserOperation viem config request options fuel) log d) (hx : x ∈ log)
    (hsend : x.1.isSend = true) :
    ∃ (s : Preparation) (reply : RpcReply Data) (rest : Log), s.Valid viem config request options ∧
      x = ⟨.send config.bundlerEndpoint (toRpcUserOperation viem s.op) config.entryPoint, reply⟩ ∧
      log = s.exchanges viem config request ++ x :: rest ∧ (∀ y ∈ rest, y.1.isSend = false) ∧
      ((∀ y ∈ log, Granted viem signer service chain tenantId y) → ∃ p : PackedUserOperation,
        (toRpcUserOperation viem s.op).read.map (packed viem) = some (.ok p) ∧ p.signature = s.signature ∧
          Covered viem signer chain config s.userOpHash p) := by
  obtain ⟨s, reply, rest, hvalid, rfl, rfl, hquiet⟩ := after_sendUserOperation hlog hx hsend
  refine ⟨s, reply, rest, hvalid, rfl, rfl, hquiet, fun hgranted => ?_⟩
  have hfinal := hgranted ⟨.sponsor (paymaster config).url (paymaster config).authorization
    (sponsorBody viem (paymaster config).client (s.estimated request)), .ok s.final⟩ (by simp [Preparation.exchanges])
  obtain ⟨hrange, p, hpacked, hpaymaster⟩ := granted_packed hfinal hvalid.sponsored
  have hop : packed viem s.op = .ok { p with signature := s.signature } := packed_signature hpacked s.signature
  refine ⟨_, ?_, rfl, ?_, fun dep => hpaymaster s.signature dep⟩
  · rw [read_toRpcUserOperation, Option.map_some, packed_spelled, hop]
  · intro entryPoint chainId hentry hchain
    have hhash := hvalid.userOpHash
    rw [← hentry, ← hchain, getUserOperationHash_eq hrange hpacked entryPoint chainId] at hhash
    exact (Except.ok.inj hhash).symm

end

def clientRequest : UserOperationRequest where
  sender := clientOp.sender
  nonce := clientOp.nonce
  factory := none
  factoryData := none
  callData := clientOp.callData
  callGasLimit := some clientOp.callGasLimit
  verificationGasLimit := some clientOp.verificationGasLimit
  preVerificationGas := some clientOp.preVerificationGas
  maxFeePerGas := some clientOp.maxFeePerGas
  maxPriorityFeePerGas := none

def clientOptions : SendOptions := ⟨none, some clientOp.maxPriorityFeePerGas, none⟩

def clientConfig : SponsoredBundlerConfig where
  entryPoint := hexOf (0x0000000071727De22E5E9d8BAf0edAc6f37da032 : Address)
  chainId := 1
  bundlerEndpoint := "https://bundler.example/rpc"
  bundlerTransport := none
  paymasterEndpoint := "https://paymaster.example/"
  apiKey := some "key"
  policyId := none
  paymasterTransport := none
  defaultMaxFeePerGas := none
  defaultMaxPriorityFeePerGas := none

def clientEstimate : EstimateResponse where
  preVerificationGas := some "0x5208".toList
  verificationGasLimit := some "0x186a0".toList
  callGasLimit := some "0xc350".toList
  paymasterVerificationGasLimit := none
  paymasterPostOpGasLimit := none

theorem submitted_as_sponsored_clientRequest :
    ∃ (log : Log) (d : Client UserOperationReceipt) (s : Preparation) (x : Exchange Question Answer) (rest : Log)
      (p : PackedUserOperation),
      After (sendUserOperation (viemOf sponsoredKeccak) clientConfig clientRequest clientOptions 0) log d ∧
        log = s.exchanges (viemOf sponsoredKeccak) clientConfig clientRequest ++ x :: rest ∧ p.signature = s.signature ∧
          Covered (viemOf sponsoredKeccak) sponsorSigner sponsorChain clientConfig s.userOpHash p := by
  have haccepted : Api.sponsorRequestSchema (sponsorBody (viemOf sponsoredKeccak) (paymaster clientConfig).client
      (draftOf clientRequest 2000000000 1000000000)) = some sponsoredApiRequest := by
    decide +kernel
  have hattested : attest (viemOf sponsoredKeccak) sponsorSigner (attestationRequest (viemOf sponsoredKeccak)
      sponsorOptions sponsorChain 1 sponsoredRequest.userOp "acme" 1800000000) =
        .ok ⟨sponsoredOp.paymasterAndData, 1800000300, 0, 0x2b5ad5c4795c026514f8317c7a215e218dccd6cf⟩ := by
    rw [sponsored_attestationRequest]
    exact sponsored_attested
  obtain ⟨response, hresponse, -⟩ := @sponsorResponse_ok (viemOf sponsoredKeccak) sponsorOptions sponsorChain
    ⟨sponsoredOp.paymasterAndData, 1800000300, 0, 0x2b5ad5c4795c026514f8317c7a215e218dccd6cf⟩ 562000000000000
      (by decide +kernel)
  have hgranted : ∀ url authorization, Granted (viemOf sponsoredKeccak) sponsorSigner sponsorOptions sponsorChain "acme"
      ⟨.sponsor url authorization (sponsorBody (viemOf sponsoredKeccak) (paymaster clientConfig).client
        (draftOf clientRequest 2000000000 1000000000)), .ok response⟩ := fun _ _ =>
    ⟨sponsoredApiRequest, sponsoredRequest.userOp, _, 562000000000000, 1800000000, haccepted, rfl, hattested, hresponse⟩
  have happlied := @applySponsorshipTo_eq _ _ _ _ (draftOf clientRequest 2000000000 1000000000) _ _ hresponse
  obtain ⟨hrange, packedOp, hpacked, -⟩ := granted_packed (hgranted "" none) happlied
  have hhash := getUserOperationHash_eq hrange hpacked 0x0000000071727De22E5E9d8BAf0edAc6f37da032 1
  have hestimate : BundlerClient.gasEstimate clientEstimate = some ⟨21000, 100000, 50000, none, none⟩ := by decide +kernel
  have hvalid : Preparation.Valid (viemOf sponsoredKeccak) clientConfig clientRequest clientOptions
      ⟨2000000000, 1000000000, response, _, clientEstimate, ⟨21000, 100000, 50000, none, none⟩, response, _, _, [0xab]⟩ :=
    ⟨rfl, rfl, happlied, hestimate, happlied, hhash⟩
  have hsent := hvalid.after.bind (f := fun op => (bundler clientConfig).sendUserOperation (viemOf sponsoredKeccak) op
    clientConfig.entryPoint >>= fun userOpHash => (bundler clientConfig).waitForUserOperationReceipt userOpHash none none 0)
      (.told (r := .result []) (.here _))
  obtain ⟨s, -, rest, -, -, hexchanges, -, hcovers⟩ :=
    submitted_as_sponsored hsent (List.mem_append_right _ (List.mem_singleton_self _)) rfl
  obtain ⟨p, -, hsignature, hcovered⟩ := hcovers (by
    intro y hy
    simp only [Preparation.exchanges, List.cons_append, List.nil_append, List.mem_cons, List.not_mem_nil, or_false] at hy
    obtain rfl | rfl | rfl | rfl | rfl := hy
    · exact hgranted _ _
    · trivial
    · exact hgranted _ _
    · trivial
    · trivial)
  exact ⟨_, _, s, _, rest, p, hsent, hexchanges, hsignature, hcovered⟩

end Paymaster.Sdk
