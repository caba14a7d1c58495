import Paymaster.Backend.SignatureEngine
import Paymaster.Contracts.Spec

/-!
# Attestations bind what was signed

The signer signs three kinds of messages, each for a chain and a paymaster.
While the hash has no collision among the strings that it is applied to, a
digest is the digest of one content only, so whatever a contract accepts on an
honest signature has the content of a message that was signed.
-/

namespace Paymaster.Signature

open Bytes Eip712

structure SponsorshipTerms where
  sender : Address
  nonce : Uint256
  initCode : Data
  callData : Data
  verificationGasLimit : Nat
  callGasLimit : Nat
  paymasterVerificationGasLimit : Nat
  postOpGasLimit : Nat
  preVerificationGas : Uint256
  maxPriorityFeePerGas : Nat
  maxFeePerGas : Nat
  validUntil : Nat
  validAfter : Nat
deriving DecidableEq

inductive SignedTerms
  | verifying (chainId : Nat) (paymaster : Data) (terms : SponsorshipTerms)
  | tenant (chainId : Nat) (paymaster : Data) (terms : SponsorshipTerms) (tenant : Data)
  | controllerAssignment (chainId : Nat) (paymaster tenant controller : Data) (nonce deadline : Nat)
deriving DecidableEq

def termsOf (op : PackedUserOperation) (validUntil validAfter : Nat) : SponsorshipTerms where
  sender := op.sender
  nonce := op.nonce
  initCode := op.initCode
  callData := op.callData
  verificationGasLimit := verificationGasLimit op
  callGasLimit := callGasLimit op
  paymasterVerificationGasLimit := wordAt op.paymasterAndData 20 36
  postOpGasLimit := wordAt op.paymasterAndData 36 52
  preVerificationGas := op.preVerificationGas
  maxPriorityFeePerGas := maxPriorityFeePerGas op
  maxFeePerGas := maxFeePerGas op
  validUntil := validUntil
  validAfter := validAfter

/-- The content of a request. Its operation's `paymasterAndData` is not part of it. -/
def CommonSponsorshipRequest.terms (c : CommonSponsorshipRequest) : SponsorshipTerms :=
  { termsOf c.userOp c.validUntil c.validAfter with
    paymasterVerificationGasLimit := c.paymasterVerificationGasLimit
    postOpGasLimit := c.postOpGasLimit }

inductive SignedMessage
  | sponsorship (request : SponsorshipRequest)
  | controllerAssignment (params : ControllerAssignmentParams)

/-- What a digest is computed from, by the backend or by a contract. -/
inductive Signable
  | sponsorship (params : SponsorshipDigestParams)
  | controllerAssignment (params : ControllerAssignmentParams)

namespace Signable

def domain : Signable → Domain
  | sponsorship params => sponsorshipDomain params.common.chainId params.common.paymaster params.kind
  | controllerAssignment params => sponsorshipDomain params.chainId params.paymaster .tenant

def primaryType : Signable → String
  | sponsorship _ => "Sponsorship"
  | controllerAssignment _ => "ControllerAssignment"

def types : Signable → List Field
  | sponsorship params => (layoutFor params.kind).types
  | controllerAssignment _ => controllerAssignmentTypes

def message (viem : Viem) : Signable → Message
  | sponsorship params => sponsorshipMessage viem params (wordAt params.common.userOp.paymasterAndData 20 52)
  | controllerAssignment params => controllerAssignmentMessage params

/-- The strings of unbounded length that enter the message by their hashes. -/
def contents : Signable → List Data
  | sponsorship params => [params.common.userOp.initCode, params.common.userOp.callData]
  | controllerAssignment _ => []

/-- The strings that are hashed on the way to the digest. -/
def hashed (viem : Viem) (x : Signable) : List Data :=
  preimages viem.keccak256 x.domain x.primaryType x.types (x.message viem) ++ x.contents

def digest (viem : Viem) : Signable → Except Thrown Bytes32
  | sponsorship params => sponsorshipDigest viem params
  | controllerAssignment params => controllerAssignmentDigest viem params

def terms : Signable → SignedTerms
  | sponsorship (.verifying c) => .verifying c.chainId c.paymaster (termsOf c.userOp c.validUntil c.validAfter)
  | sponsorship (.tenant c t) => .tenant c.chainId c.paymaster (termsOf c.userOp c.validUntil c.validAfter) t
  | controllerAssignment p => .controllerAssignment p.chainId p.paymaster p.tenant p.controller p.nonce p.deadline

end Signable

namespace SignedMessage

def signable : SignedMessage → Signable
  | sponsorship request => .sponsorship (request.digestParams request.fields.bytes)
  | controllerAssignment params => .controllerAssignment params

def digest (viem : Viem) : SignedMessage → Except Thrown Bytes32
  | sponsorship request => requestDigest viem request
  | controllerAssignment params => controllerAssignmentDigest viem params

def hashed (viem : Viem) (m : SignedMessage) : List Data := m.signable.hashed viem

def terms : SignedMessage → SignedTerms
  | sponsorship (.verifying c) => .verifying c.chainId c.paymaster c.terms
  | sponsorship (.tenant c t) => .tenant c.chainId c.paymaster c.terms t
  | controllerAssignment p => .controllerAssignment p.chainId p.paymaster p.tenant p.controller p.nonce p.deadline

end SignedMessage

/-! ## Digests determine terms -/

theorem hexOf_inj {w : Nat} (hw : 8 * (w / 8) = w) {x y : BitVec w} (h : hexOf x = hexOf y) : x = y := by
  have hpow : 256 ^ (w / 8) = 2 ^ w := by
    conv_rhs => rw [← hw, Nat.pow_mul]
  exact BitVec.eq_of_toNat_eq (beBytes_inj (hpow ▸ x.isLt) (hpow ▸ y.isLt) h)

section
variable {viem : Viem} {S : Set Data} {x y : Signable} {digest : Bytes32}

theorem digest_typed (h : x.digest viem = .ok digest) :
    Eip712.hashTypedData viem.keccak256 x.domain x.primaryType x.types (x.message viem) = some digest := by
  cases x with
  | sponsorship params =>
    obtain ⟨n, hn, h⟩ := bind_ok h
    obtain ⟨-, rfl⟩ := paymasterGasLimitsFrom_ok hn
    exact viem.hashTypedData_ok.mp h
  | controllerAssignment params => exact viem.hashTypedData_ok.mp h

theorem digest_length {params : SponsorshipDigestParams} (h : (Signable.sponsorship params).digest viem = .ok digest) :
    52 ≤ params.common.userOp.paymasterAndData.length := by
  obtain ⟨n, hn, -⟩ := bind_ok h
  exact (paymasterGasLimitsFrom_ok hn).1

theorem gasLimits_inj {a b : Data} (ha : 52 ≤ a.length) (hb : 52 ≤ b.length) (h : wordAt a 20 52 = wordAt b 20 52) :
    wordAt a 20 36 = wordAt b 20 36 ∧ wordAt a 36 52 = wordAt b 36 52 := by
  have hsplit : ∀ d : Data, 52 ≤ d.length → wordAt d 20 52 = wordAt d 20 36 * 2 ^ 128 + wordAt d 36 52 :=
    fun d hd => wordAt_split 36 (by decide) (by decide) hd
  rw [hsplit a ha, hsplit b hb] at h
  exact halves_inj (wordAt_lt a 36 52) (wordAt_lt b 36 52) h

theorem lookup_common {params : SponsorshipDigestParams} {n : Nat} {f : Field} (hf : f ∈ commonFields ++ windowFields) :
    (sponsorshipMessage viem params n).lookup f.name = (commonMessage viem params.common n).lookup f.name := by
  cases params with
  | verifying common => rfl
  | tenant common t =>
    have hsome : ((commonMessage viem common n).lookup f.name).isSome = true := by
      simp only [commonFields, windowFields, List.cons_append, List.nil_append, List.mem_cons, List.not_mem_nil,
        or_false] at hf
      rcases hf with rfl | rfl | rfl | rfl | rfl | rfl | rfl | rfl | rfl | rfl <;> rfl
    show (commonMessage viem common n ++ [("tenant", Value.hex t)]).lookup f.name = _
    rw [List.lookup_append, Option.or_of_isSome hsome]
    rfl

theorem common_inj (hinj : Set.InjOn viem.keccak256 S) {c c' : CommonDigestParams}
    (hc : c.userOp.initCode ∈ S ∧ c.userOp.callData ∈ S) (hc' : c'.userOp.initCode ∈ S ∧ c'.userOp.callData ∈ S)
    (hl : 52 ≤ c.userOp.paymasterAndData.length) (hl' : 52 ≤ c'.userOp.paymasterAndData.length)
    (h : ∀ f ∈ commonFields ++ windowFields,
      (commonMessage viem c (wordAt c.userOp.paymasterAndData 20 52)).lookup f.name =
        (commonMessage viem c' (wordAt c'.userOp.paymasterAndData 20 52)).lookup f.name) :
    termsOf c.userOp c.validUntil c.validAfter = termsOf c'.userOp c'.validUntil c'.validAfter := by
  have hsender := Value.hex.inj (Option.some.inj (h ⟨"sender", .address⟩ (by decide)))
  have hnonce := Value.number.inj (Option.some.inj (h ⟨"nonce", .uint 256⟩ (by decide)))
  have hinit := Value.hex.inj (Option.some.inj (h ⟨"initCodeHash", .bytes32⟩ (by decide)))
  have hcall := Value.hex.inj (Option.some.inj (h ⟨"callDataHash", .bytes32⟩ (by decide)))
  have haccount := Value.hex.inj (Option.some.inj (h ⟨"accountGasLimits", .bytes32⟩ (by decide)))
  have hpaymaster := Value.number.inj (Option.some.inj (h ⟨"paymasterGasLimits", .uint 256⟩ (by decide)))
  have hpre := Value.number.inj (Option.some.inj (h ⟨"preVerificationGas", .uint 256⟩ (by decide)))
  have hfees := Value.hex.inj (Option.some.inj (h ⟨"gasFees", .bytes32⟩ (by decide)))
  have huntil := Value.number.inj (Option.some.inj (h ⟨"validUntil", .uint 48⟩ (by decide)))
  have hafter := Value.number.inj (Option.some.inj (h ⟨"validAfter", .uint 48⟩ (by decide)))
  have hinit' := hinj hc.1 hc'.1 (hexOf_inj rfl hinit)
  have hcall' := hinj hc.2 hc'.2 (hexOf_inj rfl hcall)
  obtain ⟨hhigh, hlow⟩ := gasLimits_inj hl hl' hpaymaster
  simp only [termsOf, verificationGasLimit, callGasLimit, maxPriorityFeePerGas, maxFeePerGas,
    SponsorshipTerms.mk.injEq]
  rw [hexOf_inj rfl hsender, BitVec.eq_of_toNat_eq hnonce, hinit', hcall', hexOf_inj rfl haccount, hhigh, hlow,
    BitVec.eq_of_toNat_eq hpre, hexOf_inj rfl hfees, huntil, hafter]
  simp

theorem sponsorship_inj (hinj : Set.InjOn viem.keccak256 S) {params params' : SponsorshipDigestParams}
    (hx : ∀ b ∈ (Signable.sponsorship params).hashed viem, b ∈ S)
    (hy : ∀ b ∈ (Signable.sponsorship params').hashed viem, b ∈ S)
    (hdx : (Signable.sponsorship params).digest viem = .ok digest)
    (hdy : (Signable.sponsorship params').digest viem = .ok digest)
    (h : ∀ f ∈ commonFields ++ windowFields,
      ((Signable.sponsorship params).message viem).lookup f.name =
        ((Signable.sponsorship params').message viem).lookup f.name) :
    termsOf params.common.userOp params.common.validUntil params.common.validAfter =
      termsOf params'.common.userOp params'.common.validUntil params'.common.validAfter := by
  apply common_inj hinj _ _ (digest_length hdx) (digest_length hdy)
  · intro f hf
    have hm := h f hf
    simp only [Signable.message] at hm
    rwa [lookup_common hf, lookup_common hf] at hm
  · exact ⟨hx _ (by simp [Signable.hashed, Signable.contents]), hx _ (by simp [Signable.hashed, Signable.contents])⟩
  · exact ⟨hy _ (by simp [Signable.hashed, Signable.contents]), hy _ (by simp [Signable.hashed, Signable.contents])⟩

theorem names_differ {chainId chainId' : Nat} {paymaster paymaster' : Data} :
    sponsorshipDomain chainId paymaster .verifying ≠ sponsorshipDomain chainId' paymaster' .tenant := by
  intro h
  exact absurd (congrArg Domain.name h) (by decide : "VerifyingPaymaster" ≠ "TenantPaymaster")

theorem types_differ : encodeType "Sponsorship" tenantLayout.types ≠
    encodeType "ControllerAssignment" controllerAssignmentTypes := by
  intro h
  have hfirst : (encodeType "Sponsorship" tenantLayout.types).toList.head? =
      (encodeType "ControllerAssignment" controllerAssignmentTypes).toList.head? := by
    rw [h]
  simp [encodeType] at hfirst

theorem controllerAssignment_inj {p p' : ControllerAssignmentParams}
    (hdomain : sponsorshipDomain p.chainId p.paymaster .tenant = sponsorshipDomain p'.chainId p'.paymaster .tenant)
    (h : ∀ f ∈ controllerAssignmentTypes,
      (controllerAssignmentMessage p).lookup f.name = (controllerAssignmentMessage p').lookup f.name) : p = p' := by
  have htenant := Value.hex.inj (Option.some.inj (h ⟨"tenant", .bytes32⟩ (by decide)))
  have hcontroller := Value.hex.inj (Option.some.inj (h ⟨"controller", .address⟩ (by decide)))
  have hnonce := Value.number.inj (Option.some.inj (h ⟨"nonce", .uint 256⟩ (by decide)))
  have hdeadline := Value.number.inj (Option.some.inj (h ⟨"deadline", .uint 48⟩ (by decide)))
  have hchain : p.chainId = p'.chainId := congrArg Domain.chainId hdomain
  have hpaymaster : p.paymaster = p'.paymaster := congrArg Domain.verifyingContract hdomain
  cases p
  cases p'
  simp_all

theorem terms_of_digest (hinj : Set.InjOn viem.keccak256 S) (hx : ∀ b ∈ x.hashed viem, b ∈ S)
    (hy : ∀ b ∈ y.hashed viem, b ∈ S) (hdx : x.digest viem = .ok digest) (hdy : y.digest viem = .ok digest) :
    x.terms = y.terms := by
  obtain ⟨hdomain, htype, hmembers⟩ := hashTypedData_inj hinj
    (fun b hb => hx b (List.mem_append_left _ hb)) (fun b hb => hy b (List.mem_append_left _ hb))
    (digest_typed hdx) (digest_typed hdy)
  cases x with
  | sponsorship params =>
    cases y with
    | sponsorship params' =>
      cases params with
      | verifying c =>
        cases params' with
        | verifying c' =>
          have hterms := sponsorship_inj hinj hx hy hdx hdy (hmembers rfl)
          have hchain : c.chainId = c'.chainId := congrArg Domain.chainId hdomain
          have hpaymaster : c.paymaster = c'.paymaster := congrArg Domain.verifyingContract hdomain
          simp only [Signable.terms, SignedTerms.verifying.injEq]
          exact ⟨hchain, hpaymaster, hterms⟩
        | tenant c' t' => exact absurd hdomain names_differ
      | tenant c t =>
        cases params' with
        | verifying c' => exact absurd hdomain.symm names_differ
        | tenant c' t' =>
          have hlookup := hmembers rfl
          have hterms := sponsorship_inj hinj hx hy hdx hdy fun f hf => hlookup f (by
            simp only [Signable.types, SponsorshipDigestParams.kind, layoutFor, tenantLayout, List.mem_append] at hf ⊢
            tauto)
          have hchain : c.chainId = c'.chainId := congrArg Domain.chainId hdomain
          have hpaymaster : c.paymaster = c'.paymaster := congrArg Domain.verifyingContract hdomain
          have htenant : t = t' := Value.hex.inj (Option.some.inj (hlookup ⟨"tenant", .bytes32⟩ (by
            show _ ∈ tenantLayout.types
            decide)))
          simp only [Signable.terms, SignedTerms.tenant.injEq]
          exact ⟨hchain, hpaymaster, hterms, htenant⟩
    | controllerAssignment p' =>
      cases params with
      | verifying c => exact absurd hdomain names_differ
      | tenant c t => exact absurd htype types_differ
  | controllerAssignment p =>
    cases y with
    | sponsorship params' =>
      cases params' with
      | verifying c' => exact absurd hdomain.symm names_differ
      | tenant c' t' => exact absurd htype.symm types_differ
    | controllerAssignment p' =>
      obtain rfl : p = p' := controllerAssignment_inj hdomain (hmembers rfl)
      rfl

/-- A message has the content of what its digest is computed from. -/
theorem signable_of_digest {m : SignedMessage} (h : m.digest viem = .ok digest) :
    m.signable.digest viem = .ok digest ∧ m.signable.terms = m.terms := by
  cases m with
  | controllerAssignment params => exact ⟨h, rfl⟩
  | sponsorship request =>
    obtain ⟨hrange, hdigest⟩ := requestDigest_ok.mp h
    refine ⟨hdigest, ?_⟩
    cases request with
    | verifying c =>
      have hcommon := fieldsOf_bytes hrange []
      rw [List.append_nil] at hcommon
      have hlimits := PaymasterAndDataFields.verifying.inj hcommon
      simp only [commonFieldsOf, CommonFields.mk.injEq] at hlimits
      simp only [SignedMessage.signable, Signable.terms, SponsorshipRequest.digestParams, SignedMessage.terms,
        CommonSponsorshipRequest.terms, termsOf, hlimits.2.1, hlimits.2.2.1]
      rfl
    | tenant c t =>
      have hcommon := fieldsOf_bytes hrange []
      rw [List.append_nil] at hcommon
      have hlimits := (PaymasterAndDataFields.tenant.inj hcommon).1
      simp only [commonFieldsOf, CommonFields.mk.injEq] at hlimits
      simp only [SignedMessage.signable, Signable.terms, SponsorshipRequest.digestParams, SignedMessage.terms,
        CommonSponsorshipRequest.terms, termsOf, hlimits.2.1, hlimits.2.2.1]
      rfl

theorem terms_of_signed (hinj : Set.InjOn viem.keccak256 S) {m : SignedMessage} (hm : ∀ b ∈ m.hashed viem, b ∈ S)
    (hx : ∀ b ∈ x.hashed viem, b ∈ S) (hdm : m.digest viem = .ok digest) (hdx : x.digest viem = .ok digest) :
    m.terms = x.terms := by
  obtain ⟨hds, hterms⟩ := signable_of_digest hdm
  rw [← hterms]
  exact terms_of_digest hinj hm hx hds hdx

end

/-! ## What a contract accepts -/

def verifyingSignable (dep : Deployment) (op : PackedUserOperation) (validUntil validAfter : Uint48) : Signable :=
  .sponsorship (.verifying ⟨op, dep.chainId.toNat, hexOf dep.self, validUntil.toNat, validAfter.toNat⟩)

def tenantSignable (dep : Deployment) (op : PackedUserOperation) (tenant : Bytes32) (validUntil validAfter : Uint48) :
    Signable :=
  .sponsorship
    (.tenant ⟨op, dep.chainId.toNat, hexOf dep.self, validUntil.toNat, validAfter.toNat⟩ (hexOf tenant))

def claimSignable (dep : Deployment) (tenant : Bytes32) (controller : Address) (nonce : Uint256) (deadline : Uint48) :
    Signable :=
  .controllerAssignment
    ⟨dep.chainId.toNat, hexOf dep.self, hexOf tenant, hexOf controller, nonce.toNat, deadline.toNat⟩

/-- This signature is not forged: if it is the signer's over the digest of this
content, a message with that digest was signed. -/
def Unforged (viem : Viem) (dep : Deployment) (signed : SignedMessage → Prop) (backendSigner : Address) (x : Signable)
    (signature : Data) : Prop :=
  ∀ digest, x.digest viem = .ok digest → dep.tryRecover digest signature = some backendSigner →
    ∃ m, signed m ∧ m.digest viem = .ok digest

/-- **An attestation authorises exactly what was signed.** Let the hash have no
collision on `S`. Two messages that the backend signs, with all that is hashed
for them in `S`, have equal digests only if they are of one type, for one chain
and one paymaster, and agree in every covered field. And whatever operation a
contract accepts on a backend signer's signature, and whatever claim, agrees
with a signed message in type, chain, paymaster and every covered field, unless
the signature that was presented is a forgery. -/
theorem attestation_binds (viem : Viem) (S : Set Data) (hinj : Set.InjOn viem.keccak256 S) :
    (∀ (m m' : SignedMessage) (digest : Bytes32), (∀ b ∈ m.hashed viem, b ∈ S) → (∀ b ∈ m'.hashed viem, b ∈ S) →
      m.digest viem = .ok digest → m'.digest viem = .ok digest → m.terms = m'.terms) ∧
    ∀ (dep : Deployment) (signed : SignedMessage → Prop) (backendSigner : Address),
      dep.keccak256 = viem.keccak256 →
      (∀ m, signed m → ∀ b ∈ m.hashed viem, b ∈ S) →
      (∀ (s : VerifyingPaymaster.State) (op : PackedUserOperation) (validUntil validAfter : Uint48),
        (∀ b ∈ (verifyingSignable dep op validUntil validAfter).hashed viem, b ∈ S) →
        Unforged viem dep signed backendSigner (verifyingSignable dep op validUntil validAfter)
          (op.paymasterAndData.drop 64) →
        VerifyingPaymaster.validatePaymasterUserOp dep s op = .ok (.accepted backendSigner validUntil validAfter) →
        ∃ m, signed m ∧ m.terms = .verifying dep.chainId.toNat (hexOf dep.self)
          (termsOf op validUntil.toNat validAfter.toNat)) ∧
      (∀ (s s' : State) (op : PackedUserOperation) (maxCost : Nat) (context : Context) (validUntil validAfter : Uint48),
        (∀ b ∈ (tenantSignable dep op (tenantOf op) validUntil validAfter).hashed viem, b ∈ S) →
        Unforged viem dep signed backendSigner (tenantSignable dep op (tenantOf op) validUntil validAfter)
          (attestationOf op) →
        validatePaymasterUserOp dep s op maxCost =
          .ok (.accepted s' context backendSigner validUntil validAfter) →
        ∃ m, signed m ∧ m.terms = .tenant dep.chainId.toNat (hexOf dep.self)
          (termsOf op validUntil.toNat validAfter.toNat) (hexOf (tenantOf op))) ∧
      (∀ (s s' : State) (timestamp : Nat) (tenant : Bytes32) (controller : Address) (deadline : Uint48)
        (signature : Data) (events : List Event),
        (∀ b ∈ (claimSignable dep tenant controller (s.controllerNonce tenant) deadline).hashed viem, b ∈ S) →
        Unforged viem dep signed backendSigner
          (claimSignable dep tenant controller (s.controllerNonce tenant) deadline) signature →
        claimController dep s timestamp tenant controller deadline signature = .ok (s', events) →
        dep.tryRecover (controllerAssignmentHash dep tenant controller (s.controllerNonce tenant) deadline) signature =
          some backendSigner →
        ∃ m, signed m ∧ m.terms = .controllerAssignment dep.chainId.toNat (hexOf dep.self) (hexOf tenant)
          (hexOf controller) (s.controllerNonce tenant).toNat deadline.toNat) := by
  refine ⟨?_, ?_⟩
  · intro m m' digest hm hm' hd hd'
    obtain ⟨hds, hterms⟩ := signable_of_digest hd'
    rw [← hterms]
    exact terms_of_signed hinj hm hm' hd hds
  · rintro ⟨keccak256, tryRecover, chainId, self⟩ signed backendSigner hkeccak hsigned
    simp only at hkeccak
    subst hkeccak
    -- Whatever the signer is recovered from, a signed message has the content of.
    have hauthorised : ∀ (x : Signable) (digest : Bytes32) (signature : Data), (∀ b ∈ x.hashed viem, b ∈ S) →
        Unforged viem ⟨viem.keccak256, tryRecover, chainId, self⟩ signed backendSigner x signature →
        x.digest viem = .ok digest → tryRecover digest signature = some backendSigner →
        ∃ m, signed m ∧ m.terms = x.terms := by
      intro x digest signature hx hunforged hdx hrecovered
      obtain ⟨m, hm, hdm⟩ := hunforged digest hdx hrecovered
      exact ⟨m, hm, terms_of_signed hinj (hsigned m hm) hx hdm hdx⟩
    refine ⟨?_, ?_, ?_⟩
    · intro s op validUntil validAfter hx hunforged h
      obtain ⟨-, hlength, -, -, -, hrecovered, -⟩ := VerifyingPaymaster.validatePaymasterUserOp_ok _ h
      exact hauthorised _ _ _ hx hunforged
        (verifying_digest viem tryRecover chainId self op validUntil validAfter (by omega)) hrecovered
    · intro s s' op maxCost context validUntil validAfter hx hunforged h
      obtain ⟨hlength, rfl, rfl⟩ := validatePaymasterUserOp_window h
      obtain ⟨-, hrecovered, -⟩ := validatePaymasterUserOp_ok h
      obtain ⟨hrecovered, -⟩ := recoverSigner_some hrecovered
      exact hauthorised _ _ _ hx hunforged
        (tenant_digest viem tryRecover chainId self op _ _ (tenantOf op) (by omega)) hrecovered
    · intro s s' timestamp tenant controller deadline signature events hx hunforged h hrecovered
      exact hauthorised _ _ _ hx hunforged
        (controller_digest viem tryRecover chainId self tenant controller _ deadline) hrecovered

/-! ## A sponsored operation -/

def sponsoredTenant : Bytes32 := 0xe29dae06ef4c3e336b7538b6d4f52ca1ecec009b1df6fb501320e11b223aeeaf

def sponsoredCallData : Data := [0xb6, 0x1d, 0x27, 0xf6]

/-- keccak256 on the strings that are hashed for the operation below, which differ in length but for two. -/
def sponsoredKeccak (data : Data) : Bytes32 :=
  match data.length with
  | 0 => 0xc5d2460186f7233c927e7db2dcc703c0e500b653ca82273b7bfad8045d85a470
  | 1 => 0xc89efdaa54c0f20c7adf612882df0950f5a951637e0307cdcb4c672f298b8bc6
  | 4 =>
    if data = sponsoredCallData then 0xd516d1b747d4a044c1b2b69c7976eb0a042b0a76e67ef6fcfc4f46b8efa9093c
    else sponsoredTenant
  | 15 => 0xcbd778bd0ff46ae0698b61e191c39313334e0a1cce09709a83c60045224bc03a
  | 66 => 0xaa99ef35d8c8ad2ac0491b61362c6e8f757d361d17dd3c00bdf22bf2e9c8fd01
  | 82 => 0x8b73c3c69bb8fe3d512ecc4cf759cc79239f7b179b0ffacaa9a75d522b39400f
  | 160 => 0x1258fa614d63d22fb5234a773d2488126f48add79912d3bccbb4dae1b9f3ca6b
  | 229 => 0xca4189589acd83a5be9be9adb4eef03e5d2274e91080e91ec4cbc436a2c0754d
  | _ => 0xe881a5877222d9efc9b71493591ea3a056b5c56d3b887ec92e5561aceece8ea5

def sponsoredSignature : Data :=
  beBytes 65 0x5bca0564101393bf7cb0e7915a26458c18feee0f2e5b25d321a56d24c73ebead255c94c3be8d7bb645bbd18c642da0d3cae1a9967290deca1bed5bb7850d907a1b

def sponsoredDeployment : Deployment where
  keccak256 := sponsoredKeccak
  tryRecover digest signature :=
    if signature = sponsoredSignature ∧
        digest = 0xaa99ef35d8c8ad2ac0491b61362c6e8f757d361d17dd3c00bdf22bf2e9c8fd01 then
      some 0x2b5ad5c4795c026514f8317c7a215e218dccd6cf
    else none
  chainId := 1
  self := 0x5fbdb2315678afecb367f032d93f642f64180aa3

def sponsoredRequest : CommonSponsorshipRequest where
  userOp :=
    { sender := 0x3c44cdddb6a900fa2b585dd299e03d12fa4293bc
      nonce := 0
      initCode := []
      callData := sponsoredCallData
      accountGasLimits := 0x186a00000000000000000000000000000c350
      preVerificationGas := 21000
      gasFees := 0x3b9aca0000000000000000000000000077359400
      paymasterAndData := []
      signature := [] }
  chainId := 1
  paymaster := hexOf sponsoredDeployment.self
  paymasterVerificationGasLimit := 60000
  postOpGasLimit := 50000
  validUntil := 1800000300
  validAfter := 0

def sponsoredMessage : SignedMessage := .sponsorship (.tenant sponsoredRequest (hexOf sponsoredTenant))

def sponsoredOp : PackedUserOperation :=
  { sponsoredRequest.userOp with
    paymasterAndData := (SponsorshipRequest.tenant sponsoredRequest (hexOf sponsoredTenant)).fields.bytes ++
      sponsoredSignature }

def sponsoredState : State :=
  { addSigner' (blank 3) 0x2b5ad5c4795c026514f8317c7a215e218dccd6cf with
    owner := 3
    balances := fun _ => 1000000000000000
    totalTenantBalance := 1000000000000000 }

/-- What is hashed for the message is told apart, and is what is hashed for the operation. -/
theorem sponsored_strings :
    (∀ x ∈ sponsoredMessage.hashed (viemOf sponsoredKeccak), ∀ y ∈ sponsoredMessage.hashed (viemOf sponsoredKeccak),
      sponsoredKeccak x = sponsoredKeccak y → x = y) ∧
    (tenantSignable sponsoredDeployment sponsoredOp (tenantOf sponsoredOp) 1800000300 0).hashed
      (viemOf sponsoredKeccak) = sponsoredMessage.hashed (viemOf sponsoredKeccak) ∧
    sponsoredMessage.digest (viemOf sponsoredKeccak) =
      .ok 0xaa99ef35d8c8ad2ac0491b61362c6e8f757d361d17dd3c00bdf22bf2e9c8fd01 := by
  decide +kernel

theorem sponsoredMessage_hashed :
    Set.InjOn sponsoredKeccak {b | b ∈ sponsoredMessage.hashed (viemOf sponsoredKeccak)} :=
  fun x hx y hy h => sponsored_strings.1 x hx y hy h

theorem sponsoredOp_hashed :
    (tenantSignable sponsoredDeployment sponsoredOp (tenantOf sponsoredOp) 1800000300 0).hashed
      (viemOf sponsoredKeccak) = sponsoredMessage.hashed (viemOf sponsoredKeccak) :=
  sponsored_strings.2.1

theorem sponsoredMessage_digest : sponsoredMessage.digest (viemOf sponsoredKeccak) =
    .ok 0xaa99ef35d8c8ad2ac0491b61362c6e8f757d361d17dd3c00bdf22bf2e9c8fd01 :=
  sponsored_strings.2.2

/-- What the contract reads from the operation, and recovers. -/
theorem sponsoredOp_read : sponsoredOp.paymasterAndData.length = 161 ∧
    recoverSigner sponsoredDeployment sponsoredState (Paymaster.sponsorshipDigest sponsoredDeployment sponsoredOp)
      (attestationOf sponsoredOp) = some 0x2b5ad5c4795c026514f8317c7a215e218dccd6cf ∧
    tenantOf sponsoredOp = sponsoredTenant ∧ postOpGasLimitOf sponsoredOp = 50000 ∧
    BitVec.ofNat 48 (wordAt sponsoredOp.paymasterAndData 52 58) = (1800000300 : Uint48) ∧
    BitVec.ofNat 48 (wordAt sponsoredOp.paymasterAndData 58 64) = (0 : Uint48) := by
  decide +kernel

theorem sponsoredOp_accepted : ∃ s', validatePaymasterUserOp sponsoredDeployment sponsoredState sponsoredOp
    562000000000000 = .ok (.accepted s' ⟨sponsoredTenant, 562000000000000, 50000⟩
      0x2b5ad5c4795c026514f8317c7a215e218dccd6cf 1800000300 0) := by
  obtain ⟨hlength, hrecovered, htenant, hpostOp, hvalidUntil, hvalidAfter⟩ := sponsoredOp_read
  have hbalance : 562000000000000 ≤ sponsoredState.balances (tenantOf sponsoredOp) := by decide
  have haccepts := validatePaymasterUserOp_accepts rfl (by omega)
    (Or.inr (by rw [attestationOf, List.length_drop, hlength])) hrecovered hbalance
  rw [htenant, hpostOp, hvalidUntil, hvalidAfter] at haccepts
  exact ⟨_, haccepts⟩

/-- The operation carries the content of the message. -/
theorem attestation_binds_sponsoredOp :
    ∃ m, m = sponsoredMessage ∧ m.terms = .tenant 1 (hexOf sponsoredDeployment.self)
      (termsOf sponsoredOp 1800000300 0) (hexOf sponsoredTenant) := by
  obtain ⟨s', haccepted⟩ := sponsoredOp_accepted
  obtain ⟨-, hall⟩ := attestation_binds (viemOf sponsoredKeccak) _ sponsoredMessage_hashed
  obtain ⟨-, htenant, -⟩ := hall sponsoredDeployment (· = sponsoredMessage)
    0x2b5ad5c4795c026514f8317c7a215e218dccd6cf rfl
    (by
      rintro m rfl b hb
      exact hb)
  have hunforged : Unforged (viemOf sponsoredKeccak) sponsoredDeployment (· = sponsoredMessage)
      0x2b5ad5c4795c026514f8317c7a215e218dccd6cf
      (tenantSignable sponsoredDeployment sponsoredOp (tenantOf sponsoredOp) 1800000300 0) (attestationOf sponsoredOp) := by
    intro digest _ h
    refine ⟨sponsoredMessage, rfl, ?_⟩
    rw [sponsoredMessage_digest]
    simp only [sponsoredDeployment, Option.ite_none_right_eq_some] at h
    rw [h.1.2]
  obtain ⟨m, hm, hterms⟩ := htenant sponsoredState s' sponsoredOp _ _ _ _
    (fun b hb => sponsoredOp_hashed ▸ hb) hunforged haccepted
  have hkey : tenantOf sponsoredOp = sponsoredTenant := sponsoredOp_read.2.2.1
  refine ⟨m, hm, ?_⟩
  rw [hterms, hkey]
  rfl

end Paymaster.Signature
