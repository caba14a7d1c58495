import Paymaster.Backend.Pricing

/-!
# What becomes of an attestation

The operation that carries an attestation is validated by the contract that it
was issued for: the contract reads back the window and the tenant, and computes
the digest that was signed. Whether it then recovers the signer is up to the
form of the signature. Both sides let 64 and 65 bytes pass, but recovery knows
signatures of 65 bytes only.
-/

namespace Paymaster.Signature

open Bytes

/-- `ECDSA.tryRecover(bytes32, bytes)` and what is signed: a signature of 65
bytes is the signer's, and one of any other length is refused. -/
structure Recovers (dep : Deployment) (signer : SponsorshipSigner) : Prop where
  signed : ∀ digest signature, signer.signDigest digest = .ok signature → signature.length = 65 →
    dep.tryRecover digest signature = some signer.address
  refused : ∀ digest signature, signature.length ≠ 65 → dep.tryRecover digest signature = none

inductive PaymasterState
  | verifying (s : VerifyingPaymaster.State)
  | tenant (s : State)

structure CommonSponsorshipRequest.For (request : CommonSponsorshipRequest) (dep : Deployment) : Prop where
  chainId : request.chainId = dep.chainId.toNat
  paymaster : request.paymaster = hexOf dep.self

/-- The contract is of the request's kind and not paused, it knows the signer,
and the tenant can pay. -/
def Ready (signer : SponsorshipSigner) (maxCost : Nat) : SponsorshipRequest → PaymasterState → Prop
  | .verifying _, .verifying s => s.paused = false ∧ s.isSigner signer.address = true
  | .tenant _ tenant, .tenant s =>
    s.paused = false ∧ s.isSigner signer.address = true ∧ maxCost ≤ s.balances (BitVec.ofNat 256 (ofBytes tenant))
  | _, _ => False

def validatedWindow (dep : Deployment) (op : PackedUserOperation) (maxCost : Nat) : PaymasterState → Option (Nat × Nat)
  | .verifying s =>
    match VerifyingPaymaster.validatePaymasterUserOp dep s op with
    | .ok (.accepted _ validUntil validAfter) => some (validUntil.toNat, validAfter.toNat)
    | _ => none
  | .tenant s =>
    match validatePaymasterUserOp dep s op maxCost with
    | .ok (.accepted _ _ _ validUntil validAfter) => some (validUntil.toNat, validAfter.toNat)
    | _ => none

def SponsorshipRequest.carrying (request : SponsorshipRequest) (paymasterAndData : Data) : PackedUserOperation :=
  { request.common.userOp with paymasterAndData := paymasterAndData }

section
variable {viem : Viem} {dep : Deployment} {signer : SponsorshipSigner} {c : CommonSponsorshipRequest}
  {op : PackedUserOperation} {rest signature tenant : Data} {digest : Bytes32}

/-! ## What the contracts read -/

theorem uint48_of_lt {n : Nat} (h : n < 2 ^ 48) : (BitVec.ofNat 48 n).toNat = n := by
  rw [BitVec.toNat_ofNat, Nat.mod_eq_of_lt h]

theorem window_toNat {common : CommonFields} (h : common.InRange) :
    ((BitVec.ofNat 48 common.validUntil).toNat, (BitVec.ofNat 48 common.validAfter).toNat) =
      (common.validUntil, common.validAfter) := by
  rw [uint48_of_lt h.validUntil, uint48_of_lt h.validAfter]

theorem windowOf_bytes {common : CommonFields} (h : common.InRange) (rest : Data) :
    wordAt (common.bytes ++ rest) 52 58 = common.validUntil ∧ wordAt (common.bytes ++ rest) 58 64 = common.validAfter := by
  have hread := commonFieldsOf_bytes h rest
  exact ⟨congrArg CommonFields.validUntil hread, congrArg CommonFields.validAfter hread⟩

theorem tenantWord_bytes {common : CommonFields} (h : common.InRange) (htenant : tenant.length = 32) (rest : Data) :
    wordAt (common.bytes ++ tenant ++ rest) 64 96 = ofBytes tenant :=
  wordAt_append (length_common_bytes h) (by rw [htenant])

theorem verifying_parse (hrange : (SponsorshipRequest.verifying c).fields.InRange) (signature : Data) :
    VerifyingPaymaster.parsePaymasterAndData ((SponsorshipRequest.verifying c).fields.bytes ++ signature) =
      .ok (BitVec.ofNat 48 c.validUntil, BitVec.ofNat 48 c.validAfter, signature) := by
  have hlength : (SponsorshipRequest.verifying c).fields.bytes.length = 64 := length_bytes hrange
  obtain ⟨huntil, hafter⟩ := windowOf_bytes hrange signature
  have hdrop : ((SponsorshipRequest.verifying c).fields.bytes ++ signature).drop 64 = signature := by
    rw [← hlength, List.drop_left]
  unfold VerifyingPaymaster.parsePaymasterAndData
  rw [if_neg (by rw [List.length_append, hlength]; omega), hdrop]
  simp only [Except.ok.injEq, Prod.mk.injEq, and_true]
  exact ⟨congrArg (BitVec.ofNat 48) huntil, congrArg (BitVec.ofNat 48) hafter⟩

theorem tenant_parse (hrange : (SponsorshipRequest.tenant c tenant).fields.InRange) (signature : Data) :
    parsePaymasterAndData ((SponsorshipRequest.tenant c tenant).fields.bytes ++ signature) =
      .ok (BitVec.ofNat 48 c.validUntil, BitVec.ofNat 48 c.validAfter, BitVec.ofNat 256 (ofBytes tenant), signature) := by
  have hlength : (SponsorshipRequest.tenant c tenant).fields.bytes.length = 96 := length_bytes hrange
  obtain ⟨hcommon, htenant⟩ := hrange
  obtain ⟨huntil, hafter⟩ := windowOf_bytes hcommon (tenant ++ signature)
  rw [← List.append_assoc] at huntil hafter
  have hword := tenantWord_bytes hcommon htenant signature
  have hdrop : ((SponsorshipRequest.tenant c tenant).fields.bytes ++ signature).drop 96 = signature := by
    rw [← hlength, List.drop_left]
  unfold parsePaymasterAndData
  rw [if_neg (by rw [List.length_append, hlength]; omega), hdrop]
  simp only [Except.ok.injEq, Prod.mk.injEq, and_true]
  exact ⟨congrArg (BitVec.ofNat 48) huntil, congrArg (BitVec.ofNat 48) hafter, congrArg (BitVec.ofNat 256) hword⟩

theorem hexOf_ofBytes (htenant : tenant.length = 32) : hexOf (BitVec.ofNat 256 (ofBytes tenant)) = tenant := by
  have hlt : ofBytes tenant < 2 ^ 256 := Nat.lt_of_lt_of_eq (ofBytes_lt tenant) (by rw [htenant]; decide)
  have hbytes := beBytes_ofBytes tenant
  rw [htenant] at hbytes
  rw [hexOf, BitVec.toNat_ofNat, Nat.mod_eq_of_lt hlt]
  exact hbytes

/-! ## The digest is the one that was signed -/

theorem verifying_hash (hkeccak : dep.keccak256 = viem.keccak256) (hfor : c.For dep)
    (hdigest : requestDigest viem (.verifying c) = .ok digest) (signature : Data) :
    VerifyingPaymaster.getHash dep
        ((SponsorshipRequest.verifying c).carrying ((SponsorshipRequest.verifying c).fields.bytes ++ signature))
        (BitVec.ofNat 48 c.validUntil) (BitVec.ofNat 48 c.validAfter) = digest := by
  obtain ⟨keccak256, tryRecover, chainId, self⟩ := dep
  simp only at hkeccak
  subst hkeccak
  obtain ⟨hchain, hpaymaster⟩ := hfor
  obtain ⟨hrange, hsigned⟩ := requestDigest_ok.mp hdigest
  have hlength : (SponsorshipRequest.verifying c).fields.bytes.length = 64 := length_bytes hrange
  have hrebuilt := verifying_digest viem tryRecover chainId self
    ((SponsorshipRequest.verifying c).carrying (SponsorshipRequest.verifying c).fields.bytes)
    (BitVec.ofNat 48 c.validUntil) (BitVec.ofNat 48 c.validAfter) (show 52 ≤ _ by rw [SponsorshipRequest.carrying, hlength]; decide)
  rw [uint48_of_lt hrange.validUntil, uint48_of_lt hrange.validAfter, ← hchain, ← hpaymaster] at hrebuilt
  have hsame := Except.ok.inj (hsigned.symm.trans hrebuilt)
  rw [hsame]
  unfold VerifyingPaymaster.getHash VerifyingPaymaster.sponsorshipEncoding
  simp only [SponsorshipRequest.carrying]
  rw [wordAt_append_left signature (show 52 ≤ _ by rw [hlength]; decide)]

theorem tenant_hash (hkeccak : dep.keccak256 = viem.keccak256) (hfor : c.For dep)
    (hdigest : requestDigest viem (.tenant c tenant) = .ok digest) (signature : Data) :
    getHash dep
        ((SponsorshipRequest.tenant c tenant).carrying ((SponsorshipRequest.tenant c tenant).fields.bytes ++ signature))
        (BitVec.ofNat 256 (ofBytes tenant)) (BitVec.ofNat 48 c.validUntil) (BitVec.ofNat 48 c.validAfter) = digest := by
  obtain ⟨keccak256, tryRecover, chainId, self⟩ := dep
  simp only at hkeccak
  subst hkeccak
  obtain ⟨hchain, hpaymaster⟩ := hfor
  obtain ⟨hrange, hsigned⟩ := requestDigest_ok.mp hdigest
  have hlength : (SponsorshipRequest.tenant c tenant).fields.bytes.length = 96 := length_bytes hrange
  have hrebuilt := tenant_digest viem tryRecover chainId self
    ((SponsorshipRequest.tenant c tenant).carrying (SponsorshipRequest.tenant c tenant).fields.bytes)
    (BitVec.ofNat 48 c.validUntil) (BitVec.ofNat 48 c.validAfter) (BitVec.ofNat 256 (ofBytes tenant))
    (show 52 ≤ _ by rw [SponsorshipRequest.carrying, hlength]; decide)
  rw [uint48_of_lt hrange.1.validUntil, uint48_of_lt hrange.1.validAfter, ← hchain, ← hpaymaster, hexOf_ofBytes hrange.2] at hrebuilt
  have hsame := Except.ok.inj (hsigned.symm.trans hrebuilt)
  rw [hsame]
  unfold getHash sponsorshipEncoding
  simp only [SponsorshipRequest.carrying]
  rw [wordAt_append_left signature (show 52 ≤ _ by rw [hlength]; decide)]

/-! ## Validation -/

theorem recovered_iff {isSigner : Address → Bool} {window : Nat × Nat} (hrecovers : Recovers dep signer)
    (hsigner : isSigner signer.address = true) (hsigned : signer.signDigest digest = .ok signature) :
    ((dep.tryRecover digest signature).filter fun a => isSigner a).map (fun _ => window) = some window ↔
      signature.length = 65 := by
  constructor
  · intro hsome
    by_contra hlength
    rw [hrecovers.refused digest signature hlength] at hsome
    cases hsome
  · intro hlength
    rw [hrecovers.signed digest signature hsigned hlength, Option.filter_some, if_pos hsigner]
    rfl

theorem window_verifying {s : VerifyingPaymaster.State} (hrange : (SponsorshipRequest.verifying c).fields.InRange)
    (hp : s.paused = false) (hform : signature.length = 64 ∨ signature.length = 65)
    (hhash : VerifyingPaymaster.getHash dep
      ((SponsorshipRequest.verifying c).carrying ((SponsorshipRequest.verifying c).fields.bytes ++ signature))
      (BitVec.ofNat 48 c.validUntil) (BitVec.ofNat 48 c.validAfter) = digest) (maxCost : Nat) :
    validatedWindow dep
        ((SponsorshipRequest.verifying c).carrying ((SponsorshipRequest.verifying c).fields.bytes ++ signature)) maxCost
        (.verifying s) =
      ((dep.tryRecover digest signature).filter fun a => s.isSigner a).map fun _ => (c.validUntil, c.validAfter) := by
  have hsize : ¬ (signature.length ≠ 64 ∧ signature.length ≠ 65) := by omega
  unfold validatedWindow VerifyingPaymaster.validatePaymasterUserOp
  simp only [hp, Bool.false_eq_true, if_false]
  rw [show ((SponsorshipRequest.verifying c).carrying _).paymasterAndData =
    (SponsorshipRequest.verifying c).fields.bytes ++ signature from rfl, verifying_parse hrange]
  simp only [bind, Except.bind, if_neg hsize, hhash]
  cases (dep.tryRecover digest signature).filter fun a => s.isSigner a with
  | none => rfl
  | some a => exact congrArg some (window_toNat hrange)

theorem window_tenant {s : State} {maxCost : Nat} (hrange : (SponsorshipRequest.tenant c tenant).fields.InRange)
    (hp : s.paused = false) (hbalance : maxCost ≤ s.balances (BitVec.ofNat 256 (ofBytes tenant)))
    (hform : signature.length = 64 ∨ signature.length = 65)
    (hhash : getHash dep
      ((SponsorshipRequest.tenant c tenant).carrying ((SponsorshipRequest.tenant c tenant).fields.bytes ++ signature))
      (BitVec.ofNat 256 (ofBytes tenant)) (BitVec.ofNat 48 c.validUntil) (BitVec.ofNat 48 c.validAfter) = digest) :
    validatedWindow dep
        ((SponsorshipRequest.tenant c tenant).carrying ((SponsorshipRequest.tenant c tenant).fields.bytes ++ signature))
        maxCost (.tenant s) =
      ((dep.tryRecover digest signature).filter fun a => s.isSigner a).map fun _ => (c.validUntil, c.validAfter) := by
  have hsize : ¬ (signature.length ≠ 64 ∧ signature.length ≠ 65) := by omega
  unfold validatedWindow validatePaymasterUserOp
  simp only [hp, Bool.false_eq_true, if_false]
  rw [show ((SponsorshipRequest.tenant c tenant).carrying _).paymasterAndData =
    (SponsorshipRequest.tenant c tenant).fields.bytes ++ signature from rfl, tenant_parse hrange]
  simp only [bind, Except.bind, if_neg hsize, hhash, recoverSigner, if_neg (Nat.not_lt.mpr hbalance)]
  cases (dep.tryRecover digest signature).filter fun a => s.isSigner a with
  | none => rfl
  | some a => exact congrArg some (window_toNat hrange.1)

/-- The operation of a request that `attest` accepted validates with the
request's own window exactly if the signature is 65 bytes long. -/
theorem attestation_validates_iff {request : SponsorshipRequest} {attestation : SponsorshipAttestation}
    {state : PaymasterState} {maxCost : Nat} (hkeccak : dep.keccak256 = viem.keccak256)
    (hrecovers : Recovers dep signer) (hfor : request.common.For dep) (hready : Ready signer maxCost request state)
    (hattested : attest viem signer request = .ok attestation) (hdigest : requestDigest viem request = .ok digest)
    (hsigned : signer.signDigest digest = .ok signature) :
    validatedWindow dep (request.carrying attestation.paymasterAndData) maxCost state =
        some (request.common.validUntil, request.common.validAfter) ↔ signature.length = 65 := by
  obtain ⟨digest', signature', hrange, hdigest', hsigned', hform, rfl⟩ := attest_ok hattested
  obtain rfl := Except.ok.inj (hdigest.symm.trans hdigest')
  obtain rfl := Except.ok.inj (hsigned.symm.trans hsigned')
  cases request with
  | verifying c =>
    cases state with
    | verifying s =>
      obtain ⟨hp, hsigner⟩ := hready
      rw [window_verifying hrange hp hform (verifying_hash hkeccak hfor hdigest signature)]
      exact recovered_iff hrecovers hsigner hsigned
    | tenant s => exact hready.elim
  | tenant c tenant =>
    cases state with
    | verifying s => exact hready.elim
    | tenant s =>
      obtain ⟨hp, hsigner, hbalance⟩ := hready
      rw [window_tenant hrange hp hbalance hform (tenant_hash hkeccak hfor hdigest signature)]
      exact recovered_iff hrecovers hsigner hsigned

end

/-! ## One signature in two forms -/

theorem sponsoredSignature_length : sponsoredSignature.length = 65 := by decide +kernel

theorem sponsored_refused (digest : Bytes32) (signature : Data) (hlength : signature.length ≠ 65) :
    sponsoredDeployment.tryRecover digest signature = none := by
  refine if_neg fun h => hlength ?_
  rw [h.1]
  exact sponsoredSignature_length

theorem sponsored_recovers : Recovers sponsoredDeployment sponsorSigner := by
  refine ⟨?_, sponsored_refused⟩
  intro digest signature hsigned _
  simp only [sponsorSigner] at hsigned
  split at hsigned
  · rename_i hdigest
    exact if_pos ⟨(Except.ok.inj hsigned).symm, hdigest⟩
  · cases hsigned

theorem sponsored_for : (SponsorshipRequest.tenant sponsoredRequest (hexOf sponsoredTenant)).common.For sponsoredDeployment :=
  ⟨rfl, rfl⟩

theorem sponsored_ready : Ready sponsorSigner 562000000000000 (.tenant sponsoredRequest (hexOf sponsoredTenant))
    (.tenant sponsoredState) :=
  ⟨rfl, by decide +kernel, by decide⟩

theorem attestation_validates_sponsored :
    validatedWindow sponsoredDeployment sponsoredOp 562000000000000 (.tenant sponsoredState) = some (1800000300, 0) := by
  have hkeccak : sponsoredDeployment.keccak256 = (viemOf sponsoredKeccak).keccak256 := rfl
  have hsigned : sponsorSigner.signDigest 0xaa99ef35d8c8ad2ac0491b61362c6e8f757d361d17dd3c00bdf22bf2e9c8fd01 =
      .ok sponsoredSignature := by simp [sponsorSigner]
  exact (attestation_validates_iff hkeccak sponsored_recovers sponsored_for sponsored_ready sponsored_attested
    sponsoredMessage_digest hsigned).mpr sponsoredSignature_length

/-- The same signature in its compact form, whose first bit of `s` is the parity, 0. -/
def compactSignature : Data := sponsoredSignature.take 64

def compactSigner : SponsorshipSigner where
  address := sponsorSigner.address
  signDigest digest := (sponsorSigner.signDigest digest).map fun _ => compactSignature

theorem compact_recovers : Recovers sponsoredDeployment compactSigner := by
  have hlength : compactSignature.length = 64 := by decide +kernel
  refine ⟨?_, sponsored_refused⟩
  intro digest signature hsigned h65
  simp only [compactSigner] at hsigned
  cases hsign : sponsorSigner.signDigest digest with
  | error e =>
    rw [hsign] at hsigned
    cases hsigned
  | ok full =>
    rw [hsign] at hsigned
    cases hsigned
    exact absurd (hlength.symm.trans h65) (by decide)

/-- The attestation with the compact signature is issued, and is not validated. -/
theorem compact_not_validated : ¬ ∀ (viem : Viem) (dep : Deployment) (signer : SponsorshipSigner)
    (request : SponsorshipRequest) (attestation : SponsorshipAttestation) (state : PaymasterState) (maxCost : Nat),
    dep.keccak256 = viem.keccak256 → Recovers dep signer → request.common.For dep → Ready signer maxCost request state →
    attest viem signer request = .ok attestation →
    validatedWindow dep (request.carrying attestation.paymasterAndData) maxCost state =
      some (request.common.validUntil, request.common.validAfter) := by
  intro hall
  have hattested : attest (viemOf sponsoredKeccak) compactSigner (.tenant sponsoredRequest (hexOf sponsoredTenant)) =
      .ok ⟨sponsoredOp.paymasterAndData.take 160, 1800000300, 0, 0x2b5ad5c4795c026514f8317c7a215e218dccd6cf⟩ := by
    decide +kernel
  have hwindow := hall (viemOf sponsoredKeccak) sponsoredDeployment compactSigner _ _ (.tenant sponsoredState)
    562000000000000 rfl compact_recovers sponsored_for sponsored_ready hattested
  have hnone : validatedWindow sponsoredDeployment
      ((SponsorshipRequest.tenant sponsoredRequest (hexOf sponsoredTenant)).carrying (sponsoredOp.paymasterAndData.take 160))
      562000000000000 (.tenant sponsoredState) = none := by
    decide +kernel
  rw [hnone] at hwindow
  cases hwindow

end Paymaster.Signature
