import Paymaster.Backend.Binding
import Paymaster.Backend.Refunds
import Paymaster.Backend.SponsorRequest
import Paymaster.Contracts.PackedOperation

/-!
# The price of a sponsorship

The service prices a request before its attestation exists, from the packed
words and its own gas limits. The EntryPoint computes the prefund from the
operation that comes back with the attestation. The two amounts are the same,
because what the price is computed from is part of what was signed.
-/

namespace Paymaster

open Bytes Signature Runs Pool

/-! ## What the service asks for -/

structure SponsorServiceOptions where
  paymasterVerificationGasLimit : Nat
  postOpGasLimit : Nat
  validitySeconds : Nat

structure ChainConfig where
  paymaster : Data
  paymasterKind : PaymasterKind

/-- The `bytes32` a tenant is known by on chain. -/
def onChainTenantKey (viem : Viem) (tenant : String) : Data := hexOf (viem.keccak256 (ascii tenant))

def priced (options : SponsorServiceOptions) (decodeCallTargets : Data → Option (List Address))
    (request : Api.SponsorRequest) (userOp : PackedUserOperation) : SponsorRequest where
  chainId := request.chainId
  sender := BitVec.ofNat 160 (ofBytes request.userOperation.sender)
  nonce := BitVec.ofNat 256 request.userOperation.nonce
  policyId := request.policyId
  calls := decodeCallTargets request.userOperation.callData
  maxCost := Api.calculateMaxCost userOp options.paymasterVerificationGasLimit options.postOpGasLimit

def attestationRequest (viem : Viem) (options : SponsorServiceOptions) (chain : ChainConfig) (chainId : Nat)
    (userOp : PackedUserOperation) (tenantId : String) (now : Nat) : SponsorshipRequest :=
  let request : CommonSponsorshipRequest :=
    { userOp := userOp
      chainId := chainId
      paymaster := chain.paymaster
      paymasterVerificationGasLimit := options.paymasterVerificationGasLimit
      postOpGasLimit := options.postOpGasLimit
      validUntil := now + options.validitySeconds
      validAfter := 0 }
  match chain.paymasterKind with
  | .verifying => .verifying request
  | .tenant => .tenant request (onChainTenantKey viem tenantId)

/-! ## What the chain demands -/

/-- The EntryPoint takes an operation's values, and a paymaster with the
signers `isSigner` accepts it, the TenantPaymaster with the required prefund as
`maxCost`. -/
inductive Validated (dep : Deployment) (isSigner : Address → Bool) (op : PackedUserOperation) : PaymasterKind → Prop
  | verifying {s : VerifyingPaymaster.State} {signer : Address} {validUntil validAfter : Uint48} :
    GasValuesFit op → s.isSigner = isSigner →
    VerifyingPaymaster.validatePaymasterUserOp dep s op = .ok (.accepted signer validUntil validAfter) →
    Validated dep isSigner op .verifying
  | tenant {s s' : State} {context : Context} {signer : Address} {validUntil validAfter : Uint48} :
    GasValuesFit op → s.isSigner = isSigner →
    validatePaymasterUserOp dep s op (getRequiredPrefund op) = .ok (.accepted s' context signer validUntil validAfter) →
    Validated dep isSigner op .tenant

def presented (dep : Deployment) (op : PackedUserOperation) : PaymasterKind → Signable
  | .verifying => verifyingSignable dep op (BitVec.ofNat 48 (wordAt op.paymasterAndData 52 58))
      (BitVec.ofNat 48 (wordAt op.paymasterAndData 58 64))
  | .tenant => tenantSignable dep op (tenantOf op) (BitVec.ofNat 48 (wordAt op.paymasterAndData 52 58))
      (BitVec.ofNat 48 (wordAt op.paymasterAndData 58 64))

section
variable {viem : Viem} {signer : SponsorshipSigner} {dep : Deployment} {isSigner : Address → Bool}
  {op : PackedUserOperation} {kind : PaymasterKind}

theorem Validated.fits (h : Validated dep isSigner op kind) : GasValuesFit op := by
  cases h with
  | verifying hfit => exact hfit
  | tenant hfit => exact hfit

/-- An accepted operation ends in an authorised signature over its digest. -/
theorem Validated.signed (hkeccak : dep.keccak256 = viem.keccak256) (h : Validated dep isSigner op kind) :
    ∃ digest a, (presented dep op kind).digest viem = .ok digest ∧
      (layoutFor kind).signatureOffset ≤ op.paymasterAndData.length ∧
      ((op.paymasterAndData.drop (layoutFor kind).signatureOffset).length = 64 ∨
        (op.paymasterAndData.drop (layoutFor kind).signatureOffset).length = 65) ∧
      dep.tryRecover digest (op.paymasterAndData.drop (layoutFor kind).signatureOffset) = some a ∧
      isSigner a = true := by
  obtain ⟨keccak256, tryRecover, chainId, self⟩ := dep
  simp only at hkeccak
  subst hkeccak
  cases h with
  | @verifying s a validUntil validAfter _ hs hok =>
    obtain ⟨-, hlength, rfl, rfl, hsignature, hrecovered, hsigner⟩ := VerifyingPaymaster.validatePaymasterUserOp_ok _ hok
    refine ⟨_, a, verifying_digest viem tryRecover chainId self op _ _ (by omega), ?_, hsignature, hrecovered, ?_⟩
    · exact hlength
    · rw [← hs]
      exact hsigner
  | @tenant s s' context a validUntil validAfter _ hs hok =>
    obtain ⟨-, hlength, hsignature, hrecovered, -, -, -, rfl, rfl⟩ := validatePaymasterUserOp_accepted hok
    obtain ⟨hrecovered, hsigner⟩ := recoverSigner_some hrecovered
    refine ⟨_, a, tenant_digest viem tryRecover chainId self op _ _ (tenantOf op) (by omega), ?_, hsignature,
      hrecovered, ?_⟩
    · exact hlength
    · rw [← hs]
      exact hsigner

/-- What the signer signs for the one digest is no authorised signature over the other, unless they are the same. -/
def SignsOnly (signer : SponsorshipSigner) (dep : Deployment) (isSigner : Address → Bool) (signed checked : Bytes32) :
    Prop :=
  ∀ signature a, signer.signDigest signed = .ok signature → dep.tryRecover checked signature = some a →
    isSigner a = true → checked = signed

variable {request : SponsorshipRequest} {attestation : SponsorshipAttestation}

/-- The bytes of an attestation have a well-formed signature only where the
layout of the request's own kind has it. -/
theorem signature_of_attested (hattested : attest viem signer request = .ok attestation)
    (hop : op.paymasterAndData = attestation.paymasterAndData)
    (hoffset : (layoutFor kind).signatureOffset ≤ op.paymasterAndData.length)
    (hlength : (op.paymasterAndData.drop (layoutFor kind).signatureOffset).length = 64 ∨
      (op.paymasterAndData.drop (layoutFor kind).signatureOffset).length = 65) :
    ∃ digest, requestDigest viem request = .ok digest ∧
      signer.signDigest digest = .ok (op.paymasterAndData.drop (layoutFor kind).signatureOffset) := by
  obtain ⟨digest, signature, hrange, hdigest, hsigned, hsignature, rfl⟩ := attest_ok hattested
  simp only at hop
  have hhead := length_bytes hrange
  have hkind : (layoutFor kind).signatureOffset = (layoutFor request.fields.kind).signatureOffset := by
    rw [List.length_drop, hop, List.length_append, hhead] at hlength
    rw [hop, List.length_append, hhead] at hoffset
    cases kind <;> cases hk : request.fields.kind <;>
      simp only [hk, layoutFor, verifyingLayout, tenantLayout] at hlength hoffset ⊢ <;> omega
  refine ⟨digest, hdigest, ?_⟩
  rw [hop, hkind, ← hhead, List.drop_left]
  exact hsigned

/-- An accepted operation that carries an attestation has the content of its request. -/
theorem terms_of_validated (hkeccak : dep.keccak256 = viem.keccak256)
    (hinj : Set.InjOn viem.keccak256
      {b | b ∈ (SignedMessage.sponsorship request).hashed viem ∨ b ∈ (presented dep op kind).hashed viem})
    (hsigns : ∀ signed checked, requestDigest viem request = .ok signed →
      (presented dep op kind).digest viem = .ok checked → SignsOnly signer dep isSigner signed checked)
    (hattested : attest viem signer request = .ok attestation)
    (hop : op.paymasterAndData = attestation.paymasterAndData) (hvalidated : Validated dep isSigner op kind) :
    (SignedMessage.sponsorship request).terms = (presented dep op kind).terms := by
  obtain ⟨digest, a, hpresented, hoffset, hlength, hrecovered, hsigner⟩ := hvalidated.signed hkeccak
  obtain ⟨digest', hdigest, hsigned⟩ := signature_of_attested hattested hop hoffset hlength
  obtain rfl : digest = digest' := hsigns digest' digest hdigest hpresented _ a hsigned hrecovered hsigner
  exact terms_of_signed hinj (fun b hb => .inl hb) (fun b hb => .inr hb) hdigest hpresented

end

/-! ## The two amounts -/

def sponsorshipTerms? : SignedTerms → Option SponsorshipTerms
  | .verifying _ _ terms => some terms
  | .tenant _ _ terms _ => some terms
  | .controllerAssignment .. => none

theorem sponsorshipTerms_request (request : SponsorshipRequest) :
    sponsorshipTerms? (SignedMessage.sponsorship request).terms = some request.common.terms := by
  cases request <;> rfl

theorem sponsorshipTerms_presented (dep : Deployment) (op : PackedUserOperation) (kind : PaymasterKind) :
    ∃ validUntil validAfter, sponsorshipTerms? (presented dep op kind).terms =
      some (termsOf op validUntil validAfter) := by
  cases kind with
  | verifying => exact ⟨_, _, rfl⟩
  | tenant => exact ⟨_, _, rfl⟩

theorem attestationRequest_common (viem : Viem) (options : SponsorServiceOptions) (chain : ChainConfig) (chainId : Nat)
    (userOp : PackedUserOperation) (tenantId : String) (now : Nat) :
    (attestationRequest viem options chain chainId userOp tenantId now).common =
      ⟨userOp, chainId, chain.paymaster, options.paymasterVerificationGasLimit, options.postOpGasLimit,
        now + options.validitySeconds, 0⟩ := by
  unfold attestationRequest
  cases chain.paymasterKind <;> rfl

section
variable {op : PackedUserOperation} {validUntil validAfter : Nat} {request : CommonSponsorshipRequest}

theorem verificationGasLimitOf_eq : verificationGasLimitOf op = verificationGasLimit op := by
  rw [verificationGasLimit, unpackUint128Pair_eq, verificationGasLimitOf, BitVec.toNat_ushiftRight,
    Nat.shiftRight_eq_div_pow]

theorem callGasLimitOf_eq : callGasLimitOf op = callGasLimit op := by
  rw [callGasLimit, unpackUint128Pair_eq, callGasLimitOf, BitVec.truncate_eq_setWidth, BitVec.toNat_setWidth]

theorem maxFeePerGasOf_eq : maxFeePerGasOf op = maxFeePerGas op := by
  rw [maxFeePerGas, unpackUint128Pair_eq, maxFeePerGasOf, BitVec.truncate_eq_setWidth, BitVec.toNat_setWidth]

/-- The prefund of an operation is the price of what it was signed for. -/
theorem requiredPrefund_of_terms (h : request.terms = termsOf op validUntil validAfter) :
    requiredPrefund op =
      Api.calculateMaxCost request.userOp request.paymasterVerificationGasLimit request.postOpGasLimit := by
  simp only [CommonSponsorshipRequest.terms, termsOf, SponsorshipTerms.mk.injEq] at h
  obtain ⟨-, -, -, -, hverification, hcall, hpaymaster, hpostOp, hpre, -, hfee, -, -⟩ := h
  rw [requiredPrefund, verificationGasLimitOf_eq, callGasLimitOf_eq, maxFeePerGasOf_eq, Api.calculateMaxCost,
    hverification, hcall, hpre, hfee, hpaymaster, hpostOp]
  rfl

end

/-! ## Runs -/

def sponsorDeps (config : Nat → Option ChainConfig) (defaultPolicyId : String) : SponsorServiceDeps :=
  ⟨fun chainId => (config chainId).map ChainConfig.paymasterKind, defaultPolicyId⟩

section
variable {deps : SponsorServiceDeps} {s s' : Service} {c : SponsorCall} {ls : List SponsorLabel} {i : Nat}

/-- What a call was asked stays, and so does its denial. -/
theorem denied_run {r : SponsorRequest} (denial : PolicyDenial) (hs : ∀ d ∈ s.calls, d.Sound)
    (hc : s.calls[i]? = some c) (hr : c.request = r) (h : run (Service.step deps) s ls = some s') :
    ∃ c', s'.calls[i]? = some c' ∧ c'.request = r ∧ (c.phase = .denied denial → c'.phase = .denied denial) := by
  have hrun := invariant (P := fun t : Service => (∀ d ∈ t.calls, d.Sound) ∧
    ∃ c', t.calls[i]? = some c' ∧ c'.request = r ∧ (c.phase = .denied denial → c'.phase = .denied denial))
    (fun {t l t'} ht hstep => ?_) ⟨hs, c, hc, hr, fun hp => hp⟩ h
  · exact hrun.2
  obtain ⟨ht, c', hc', hr', hp'⟩ := ht
  have hstep' := sponsorStep_cases hstep
  refine ⟨sound_step hstep' ht, ?_⟩
  by_cases hp : c.phase = .denied denial
  · exact ⟨c', sponsorStep_finished hstep' hc' (by rw [hp' hp]; rfl), hr', hp'⟩
  · obtain ⟨c'', hc'', hcont⟩ := service_carry hstep' ht hc'
    exact ⟨c'', hc'', hcont.request.trans hr', fun h => absurd h hp⟩

/-- A call that was attested has passed the checks before the policy with its price. -/
theorem prechecked {policies : Nat → PolicySource} {start : Counters}
    (h : run (Service.step deps) (.start policies start) ls = some s) (hc : s.calls[i]? = some c)
    (hp : c.phase = .attested) {subscription : Option SubscriptionStatus} {balance : Option Nat} {now : Nat}
    (hl : .enter i subscription balance now ∈ ls) :
    ∃ kind, deps.chains c.request.chainId = some kind ∧
      precheck kind subscription balance c.request.maxCost = none := by
  obtain ⟨before, after, rfl⟩ := List.append_of_mem hl
  obtain ⟨m, hbefore, hrest⟩ := (run_append _ _).mp h
  obtain ⟨m', hstep, hafter⟩ := run_cons.mp hrest
  have hsound : ∀ d ∈ m.calls, d.Sound := invariant (P := fun t : Service => ∀ d ∈ t.calls, d.Sound)
    (fun ht hstep => sound_step (sponsorStep_cases hstep) ht) (by simp [Service.start]) hbefore
  have hsound' := sound_step (sponsorStep_cases hstep) hsound
  simp only [Service.step] at hstep
  split at hstep
  · rename_i d hd
    split at hstep
    · rename_i kind _ hkind
      cases hstep
      have hd' : (m.setCall i (d.enter kind subscription balance now)).calls[i]? =
          some (d.enter kind subscription balance now) := getElem?_set_self_of_some hd
      unfold SponsorCall.enter at hd' hafter hsound'
      cases hcheck : precheck kind subscription balance d.request.maxCost with
      | none =>
        rw [hcheck] at hd' hafter hsound'
        obtain ⟨c', hc', hr, -⟩ := denied_run ⟨"", .ruleError, ""⟩ hsound' hd' rfl hafter
        obtain rfl := Option.some.inj (hc.symm.trans hc')
        rw [hr]
        exact ⟨kind, hkind, hcheck⟩
      | some denial =>
        rw [hcheck] at hd' hafter hsound'
        obtain ⟨c', hc', -, hdenied⟩ := denied_run denial hsound' hd' rfl hafter
        obtain rfl := Option.some.inj (hc.symm.trans hc')
        rw [hdenied rfl] at hp
        cases hp
    · cases hstep
  · cases hstep

theorem sponsorDeps_chains {config : Nat → Option ChainConfig} {defaultPolicyId : String} {chainId : Nat}
    {chain : ChainConfig} (h : config chainId = some chain) :
    (sponsorDeps config defaultPolicyId).chains chainId = some chain.paymasterKind := by
  show (config chainId).map ChainConfig.paymasterKind = _
  rw [h, Option.map_some]

theorem books_run {policies : Nat → PolicySource} {start : Counters}
    (h : run (Service.step deps) (.start policies start) ls = some s) : Books s := by
  have hstart : Books (.start policies start) := by constructor <;> simp [Service.start]
  exact invariant (P := Books) (fun hb hstep => books_service_step (sponsorStep_cases hstep) hb) hstart h

end

/-- **The price charged is the prefund demanded.** Let a call of a run of the
service be attested, for a request packed as `userOp`, and let an operation
that carries the attestation be accepted by the EntryPoint and a paymaster of
either kind, under a hash with no collision among the strings hashed for the
two, where the signature over the digest that was signed does not pass for one
over another digest, that of the operation. Then the price,
made of the request's own values and the service's limits, is the EntryPoint's
required prefund of that operation, the sum of its five gas limits times its
fee; the balance check has passed for this amount; every quota of the policy
was charged for it; and the row records it. -/
theorem price_is_prefund {config : Nat → Option ChainConfig} {defaultPolicyId : String}
    {policies : Nat → PolicySource} {start : Counters} {ls : List SponsorLabel} {s : Service} {i : Nat}
    {c : SponsorCall} {viem : Viem} {signer : SponsorshipSigner} {options : SponsorServiceOptions}
    {chain : ChainConfig} {decodeCallTargets : Data → Option (List Address)} {wire : Api.WireRequest}
    {request : Api.SponsorRequest}
    {userOp op : PackedUserOperation} {attestation : SponsorshipAttestation} {dep : Deployment}
    {isSigner : Address → Bool} {kind : PaymasterKind}
    (hrun : run (Service.step (sponsorDeps config defaultPolicyId)) (.start policies start) ls = some s)
    (hcall : s.calls[i]? = some c) (hphase : c.phase = .attested)
    (hconfig : config request.chainId = some chain)
    (haccepted : Api.sponsorRequestSchema wire = some request)
    (hpacked : Api.toPackedUserOperation request.userOperation = .ok userOp)
    (hpriced : c.request = priced options decodeCallTargets request userOp)
    (hattested : attest viem signer
      (attestationRequest viem options chain request.chainId userOp c.caller.tenantId c.now) = .ok attestation)
    (hcarried : op.paymasterAndData = attestation.paymasterAndData)
    (hkeccak : dep.keccak256 = viem.keccak256)
    (hinjective : Set.InjOn viem.keccak256 {b | b ∈ (SignedMessage.sponsorship (attestationRequest viem options chain
      request.chainId userOp c.caller.tenantId c.now)).hashed viem ∨ b ∈ (presented dep op kind).hashed viem})
    (hsigns : ∀ signed checked, requestDigest viem (attestationRequest viem options chain request.chainId userOp
        c.caller.tenantId c.now) = .ok signed → (presented dep op kind).digest viem = .ok checked →
      SignsOnly signer dep isSigner signed checked)
    (hvalidated : Validated dep isSigner op kind) :
    c.request.maxCost = (request.userOperation.verificationGasLimit + request.userOperation.callGasLimit +
      options.paymasterVerificationGasLimit + options.postOpGasLimit + request.userOperation.preVerificationGas) *
        request.userOperation.maxFeePerGas ∧
    c.request.maxCost = getRequiredPrefund op ∧
    getRequiredPrefund op = (verificationGasLimitOf op + callGasLimitOf op + paymasterVerificationGasLimitOf op +
      postOpGasLimitOf op + op.preVerificationGas.toNat) * maxFeePerGasOf op ∧
    (∀ subscription balance now, .enter i subscription balance now ∈ ls →
      precheck chain.paymasterKind subscription balance (getRequiredPrefund op) = none) ∧
    (∀ slot, c.charged slot = total (fun rule =>
      rule.chargeAt { c.context with maxCost := getRequiredPrefund op } slot) (reservingOf c.policy.rules)) ∧
    ∀ row ∈ s.rows, row.issuedBy = i → row.maxCostWei = getRequiredPrefund op := by
  have hterms := terms_of_validated hkeccak hinjective hsigns hattested hcarried hvalidated
  have hprefund : getRequiredPrefund op = requiredPrefund op := getRequiredPrefund_eq hvalidated.fits
  have hprice : c.request.maxCost = getRequiredPrefund op := by
    obtain ⟨validUntil, validAfter, hpresented⟩ := sponsorshipTerms_presented dep op kind
    have hcontent := congrArg sponsorshipTerms? hterms
    rw [sponsorshipTerms_request, hpresented, Option.some.injEq] at hcontent
    rw [hprefund, requiredPrefund_of_terms hcontent, attestationRequest_common, hpriced]
    rfl
  have hbooks := books_run hrun
  refine ⟨?_, hprice, hprefund, ?_, ?_, ?_⟩
  · rw [hpriced, ← Api.calculateMaxCost_packed (Api.schema_ok haccepted) hpacked]
    rfl
  · intro subscription balance now hl
    have hchain : c.request.chainId = request.chainId := congrArg SponsorRequest.chainId hpriced
    obtain ⟨kind', hkind', hcheck⟩ := prechecked hrun hcall hphase hl
    rw [hchain, sponsorDeps_chains hconfig, Option.some.injEq] at hkind'
    rw [hkind', ← hprice]
    exact hcheck
  · intro slot
    have hsound := hbooks.sound c (List.mem_of_getElem? hcall)
    have hcontext : { c.context with maxCost := getRequiredPrefund op } = c.context := by
      rw [← hprice, SponsorCall.context]
    rw [hsound.balance slot, hsound.kept (.inl hphase) slot, Nat.zero_add, SponsorCall.held,
      SponsorCall.reservations, hphase, hcontext]
  · rintro row hrow rfl
    obtain ⟨r, hr⟩ := List.getElem?_of_mem hrow
    obtain ⟨d, hd, hissued⟩ := hbooks.issued r row hr
    obtain rfl := Option.some.inj (hcall.symm.trans hd)
    rw [← hprice, hissued.maxCostWei]

/-! ## A sponsored call -/

def sponsoredWire : Api.WireRequest where
  chainId := 1
  userOperation :=
    { sender := hexOf sponsoredRequest.userOp.sender
      nonce := "0x0".toList
      factory := none
      factoryData := none
      callData := sponsoredCallData
      callGasLimit := "50000".toList
      verificationGasLimit := "0x186a0".toList
      preVerificationGas := "21000".toList
      maxFeePerGas := "2000000000".toList
      maxPriorityFeePerGas := "0x3b9aca00".toList
      signature := none }
  policyId := none

def sponsoredApiRequest : Api.SponsorRequest where
  chainId := 1
  userOperation :=
    { sender := hexOf sponsoredRequest.userOp.sender
      nonce := 0
      factory := none
      factoryData := none
      callData := sponsoredCallData
      callGasLimit := 50000
      verificationGasLimit := 100000
      preVerificationGas := 21000
      maxFeePerGas := 2000000000
      maxPriorityFeePerGas := 1000000000
      signature := none }
  policyId := none

def sponsorOptions : SponsorServiceOptions := ⟨60000, 50000, 300⟩

def sponsorChain : ChainConfig := ⟨hexOf sponsoredDeployment.self, .tenant⟩

def sponsoredSource : PolicySource := ⟨[⟨"acme", "standard", [.quota (dailySpend (10 ^ 18))]⟩], by simp⟩

def sponsorSigner : SponsorshipSigner where
  address := 0x2b5ad5c4795c026514f8317c7a215e218dccd6cf
  signDigest digest :=
    if digest = 0xaa99ef35d8c8ad2ac0491b61362c6e8f757d361d17dd3c00bdf22bf2e9c8fd01 then .ok sponsoredSignature
    else .error .signer

def sponsoredCaller : CallerIdentity := ⟨"acme", none, some "key"⟩

def sponsoredRun : List SponsorLabel :=
  [.sponsor 0 (priced sponsorOptions (fun _ => none) sponsoredApiRequest sponsoredRequest.userOp) sponsoredCaller,
    .enter 0 none (some 563000000000000) 1800000000, .evaluate 0 (.decided .allow), .attest 0 true,
    .record 0 (.inserted 1800000000000000)]

theorem sponsored_attestationRequest :
    attestationRequest (viemOf sponsoredKeccak) sponsorOptions sponsorChain 1 sponsoredRequest.userOp "acme" 1800000000 =
      .tenant sponsoredRequest (hexOf sponsoredTenant) := by
  have hkey : onChainTenantKey (viemOf sponsoredKeccak) "acme" = hexOf sponsoredTenant := by decide +kernel
  show SponsorshipRequest.tenant _ (onChainTenantKey (viemOf sponsoredKeccak) "acme") = _
  rw [hkey]
  rfl

theorem sponsored_attested :
    attest (viemOf sponsoredKeccak) sponsorSigner (.tenant sponsoredRequest (hexOf sponsoredTenant)) =
      .ok ⟨sponsoredOp.paymasterAndData, 1800000300, 0, 0x2b5ad5c4795c026514f8317c7a215e218dccd6cf⟩ := by
  decide +kernel

theorem sponsored_signsOnly (signed checked : Bytes32) :
    SignsOnly sponsorSigner sponsoredDeployment sponsoredState.isSigner signed checked := by
  intro signature a hsigned hrecovered _
  simp only [sponsorSigner] at hsigned
  split at hsigned
  · rename_i hdigest
    simp only [sponsoredDeployment, Option.ite_none_right_eq_some] at hrecovered
    rw [hdigest]
    exact hrecovered.1.2
  · cases hsigned

theorem price_is_prefund_sponsoredRun :
    ∃ s, run (Service.step (sponsorDeps (fun _ => some sponsorChain) "standard"))
        (.start (fun _ => sponsoredSource) fun _ => none) sponsoredRun = some s ∧
      getRequiredPrefund sponsoredOp = 562000000000000 ∧
      ∃ c, s.calls[0]? = some c ∧ c.request.maxCost = getRequiredPrefund sponsoredOp ∧
        ∀ row ∈ s.rows, row.issuedBy = 0 → row.maxCostWei = getRequiredPrefund sponsoredOp := by
  have hrun : (run (Service.step (sponsorDeps (fun _ => some sponsorChain) "standard"))
      (.start (fun _ => sponsoredSource) fun _ => none) sponsoredRun).map (fun s =>
        (s.calls[0]?).map fun c => (c.phase, c.request, c.caller, c.now)) =
      some (some (.attested, priced sponsorOptions (fun _ => none) sponsoredApiRequest sponsoredRequest.userOp,
        sponsoredCaller, 1800000000)) := by
    decide +kernel
  have hprefund : getRequiredPrefund sponsoredOp = 562000000000000 := by decide +kernel
  have hfit : GasValuesFit sponsoredOp := by decide +kernel
  have hkind : presented sponsoredDeployment sponsoredOp .tenant =
      tenantSignable sponsoredDeployment sponsoredOp (tenantOf sponsoredOp)
        (BitVec.ofNat 48 (wordAt sponsoredOp.paymasterAndData 52 58))
        (BitVec.ofNat 48 (wordAt sponsoredOp.paymasterAndData 58 64)) := rfl
  have hwindow : BitVec.ofNat 48 (wordAt sponsoredOp.paymasterAndData 52 58) = (1800000300 : Uint48) ∧
      BitVec.ofNat 48 (wordAt sponsoredOp.paymasterAndData 58 64) = (0 : Uint48) := by decide +kernel
  rw [hwindow.1, hwindow.2] at hkind
  obtain ⟨s, hs, hc⟩ := Option.map_eq_some_iff.mp hrun
  obtain ⟨c, hcall, hc⟩ := Option.map_eq_some_iff.mp hc
  obtain ⟨hphase, hc⟩ := Prod.mk.inj hc
  obtain ⟨hrequest, hc⟩ := Prod.mk.inj hc
  obtain ⟨hcaller, hnow⟩ := Prod.mk.inj hc
  obtain ⟨s', haccepted⟩ := sponsoredOp_accepted
  have hrequested : attestationRequest (viemOf sponsoredKeccak) sponsorOptions sponsorChain 1
      sponsoredRequest.userOp c.caller.tenantId c.now = .tenant sponsoredRequest (hexOf sponsoredTenant) := by
    rw [hcaller, hnow]
    exact sponsored_attestationRequest
  have haccepts : Api.sponsorRequestSchema sponsoredWire = some sponsoredApiRequest := by decide +kernel
  have hinjective : Set.InjOn sponsoredKeccak {b | b ∈ (SignedMessage.sponsorship (attestationRequest
      (viemOf sponsoredKeccak) sponsorOptions sponsorChain 1 sponsoredRequest.userOp c.caller.tenantId c.now)).hashed
        (viemOf sponsoredKeccak) ∨
      b ∈ (presented sponsoredDeployment sponsoredOp .tenant).hashed (viemOf sponsoredKeccak)} := by
    rw [hrequested, hkind, sponsoredOp_hashed]
    simp only [sponsoredMessage, or_self]
    exact sponsoredMessage_hashed
  have hvalidated : Validated sponsoredDeployment sponsoredState.isSigner sponsoredOp .tenant :=
    .tenant hfit rfl (hprefund ▸ haccepted)
  obtain ⟨-, hprice, -, -, -, hrow⟩ := price_is_prefund hs hcall hphase rfl haccepts rfl hrequest
    (hrequested ▸ sponsored_attested) rfl rfl hinjective (fun signed checked _ _ => sponsored_signsOnly signed checked)
    hvalidated
  exact ⟨s, hs, hprefund, c, hcall, hprice, hrow⟩

end Paymaster
