import Paymaster.Backend.PaymasterAndData
import Paymaster.Backend.UserOperation

/-!
# The digests that the backend signs

The digests of the two kinds of sponsorship and of a controller assignment, as
typed data whose types are the layouts' lists of fields. They are the digests
that the contracts recover a signer from.
-/

namespace Paymaster.Signature

open Bytes Eip712

def sponsorshipDomainVersion : String := "1"

structure CommonDigestParams where
  userOp : PackedUserOperation
  chainId : Nat
  paymaster : Data
  validUntil : Nat
  validAfter : Nat

inductive SponsorshipDigestParams
  | verifying (common : CommonDigestParams)
  | tenant (common : CommonDigestParams) (tenant : Data)

namespace SponsorshipDigestParams

def kind : SponsorshipDigestParams → PaymasterKind
  | verifying _ => .verifying
  | tenant .. => .tenant

def common : SponsorshipDigestParams → CommonDigestParams
  | verifying common => common
  | tenant common _ => common

end SponsorshipDigestParams

def sponsorshipDomain (chainId : Nat) (paymaster : Data) (kind : PaymasterKind) : Domain where
  name := (layoutFor kind).domainName
  version := sponsorshipDomainVersion
  chainId := chainId
  verifyingContract := paymaster

structure ControllerAssignmentParams where
  chainId : Nat
  paymaster : Data
  tenant : Data
  controller : Data
  nonce : Nat
  deadline : Nat

def controllerAssignmentTypes : List Field :=
  [⟨"tenant", .bytes32⟩, ⟨"controller", .address⟩, ⟨"nonce", .uint 256⟩, ⟨"deadline", .uint 48⟩]

section
variable (viem : Viem)

def paymasterGasLimitsFrom (paymasterAndData : Data) : Except Thrown Nat :=
  let length := viem.size paymasterAndData
  if length < paymasterDataOffset then
    .error (.invalidPaymasterData ("paymasterAndData must be >= " ++ toString paymasterDataOffset ++
      " bytes to read gas limits, got " ++ toString length))
  else do
    let high ← viem.slice paymasterAndData paymasterValidationGasOffset (some paymasterPostOpGasOffset)
    let low ← viem.slice paymasterAndData paymasterPostOpGasOffset (some paymasterDataOffset)
    packUint128Pair (viem.hexToBigInt high) (viem.hexToBigInt low) "paymasterGasLimits"

def commonMessage (params : CommonDigestParams) (paymasterGasLimits : Nat) : Message :=
  [("sender", .hex (hexOf params.userOp.sender)), ("nonce", .number params.userOp.nonce.toNat),
    ("initCodeHash", .hex (hexOf (viem.keccak256 params.userOp.initCode))),
    ("callDataHash", .hex (hexOf (viem.keccak256 params.userOp.callData))),
    ("accountGasLimits", .hex (hexOf params.userOp.accountGasLimits)),
    ("paymasterGasLimits", .number paymasterGasLimits),
    ("preVerificationGas", .number params.userOp.preVerificationGas.toNat),
    ("gasFees", .hex (hexOf params.userOp.gasFees)), ("validUntil", .number params.validUntil),
    ("validAfter", .number params.validAfter)]

def sponsorshipMessage (params : SponsorshipDigestParams) (paymasterGasLimits : Nat) : Message :=
  match params with
  | .verifying common => commonMessage viem common paymasterGasLimits
  | .tenant common tenant => commonMessage viem common paymasterGasLimits ++ [("tenant", .hex tenant)]

def sponsorshipDigest (params : SponsorshipDigestParams) : Except Thrown Bytes32 := do
  let paymasterGasLimits ← paymasterGasLimitsFrom viem params.common.userOp.paymasterAndData
  viem.hashTypedData (sponsorshipDomain params.common.chainId params.common.paymaster params.kind) "Sponsorship"
    (layoutFor params.kind).types (sponsorshipMessage viem params paymasterGasLimits)

def controllerAssignmentMessage (params : ControllerAssignmentParams) : Message :=
  [("tenant", .hex params.tenant), ("controller", .hex params.controller), ("nonce", .number params.nonce),
    ("deadline", .number params.deadline)]

def controllerAssignmentDigest (params : ControllerAssignmentParams) : Except Thrown Bytes32 :=
  viem.hashTypedData (sponsorshipDomain params.chainId params.paymaster .tenant) "ControllerAssignment"
    controllerAssignmentTypes (controllerAssignmentMessage params)

end

/-! ## The words of a message -/

section
variable {hash : Data → Bytes32}

theorem word_address (x : Address) : word x = List.replicate 12 0 ++ hexOf x := by
  have hlt : x.toNat < 256 ^ 20 := Nat.lt_of_lt_of_eq x.isLt (by decide)
  have hpad : beBytes (12 + 20) x.toNat = List.replicate 12 0 ++ beBytes 20 x.toNat := beBytes_pad hlt
  rw [word, hexOf]
  exact hpad

theorem encodeField_address (x : Address) : encodeField hash .address (.hex (hexOf x)) = some (word x) := by
  rw [word_address]
  simp only [encodeField, length_hexOf]
  rfl

theorem encodeField_bytes32 (x : Bytes32) : encodeField hash .bytes32 (.hex (hexOf x)) = some (word x) := by
  simp only [encodeField, length_hexOf]
  rfl

theorem encodeField_uint {w : Nat} (hw : w ≤ 256) (x : BitVec w) :
    encodeField hash (.uint w) (.number x.toNat) = some (word x) := if_pos ⟨x.isLt, hw⟩

theorem encodeField_string (s : String) : encodeField hash .string (.text s) = some (word (hash (utf8 s))) := rfl

theorem encodeFields_domain (chainId : Uint256) (paymaster : Address) (kind : PaymasterKind) :
    encodeFields hash (sponsorshipDomain chainId.toNat (hexOf paymaster) kind).message domainFields =
      some (word (hash (utf8 (layoutFor kind).domainName)) ++ word (hash (utf8 "1")) ++ word chainId ++
        word paymaster) := by
  simp only [Domain.message, domainFields, encodeFields, List.lookup]
  simp [sponsorshipDomain, sponsorshipDomainVersion, encodeField_string, encodeField_uint, encodeField_address]

end

/-! ## Reading the gas limits -/

section
variable {viem : Viem}

theorem paymasterGasLimitsFrom_eq {d : Data} (h : 52 ≤ d.length) :
    paymasterGasLimitsFrom viem d = .ok (wordAt d 20 52) := by
  have hsplit : wordAt d 20 52 = wordAt d 20 36 * 256 ^ 16 + wordAt d 36 52 :=
    wordAt_split 36 (by decide) (by decide) h
  unfold paymasterGasLimitsFrom
  simp only [viem.size_eq, paymasterDataOffset, paymasterValidationGasOffset, paymasterPostOpGasOffset,
    if_neg (Nat.not_lt.mpr h)]
  rw [viem.slice_within d 20 36 (by omega) (by omega), viem.slice_within d 36 52 (by omega) h]
  simp only [bind, Except.bind]
  rw [hexToBigInt_word (by decide) (by omega), hexToBigInt_word (by decide) h]
  exact packUint128Pair_ok.mpr ⟨wordAt_lt d 20 36, wordAt_lt d 36 52, hsplit⟩

theorem paymasterGasLimitsFrom_ok {d : Data} {n : Nat} (h : paymasterGasLimitsFrom viem d = .ok n) :
    52 ≤ d.length ∧ n = wordAt d 20 52 := by
  by_cases hlength : d.length < 52
  · unfold paymasterGasLimitsFrom at h
    simp only [viem.size_eq, paymasterDataOffset, if_pos hlength, reduceCtorEq] at h
  · rw [paymasterGasLimitsFrom_eq (Nat.not_lt.mp hlength)] at h
    exact ⟨Nat.not_lt.mp hlength, (Except.ok.inj h).symm⟩

end

/-! ## The digests are the contracts' -/

section
variable (viem : Viem) (dep : Deployment) (op : PackedUserOperation) (validUntil validAfter : Uint48)

def digestParamsFor : CommonDigestParams where
  userOp := op
  chainId := dep.chainId.toNat
  paymaster := hexOf dep.self
  validUntil := validUntil.toNat
  validAfter := validAfter.toNat

def gasLimitsWord : Uint256 := BitVec.ofNat 256 (wordAt op.paymasterAndData 20 52)

theorem gasLimitsWord_toNat : (gasLimitsWord op).toNat = wordAt op.paymasterAndData 20 52 := by
  rw [gasLimitsWord, BitVec.toNat_ofNat, Nat.mod_eq_of_lt]
  exact Nat.lt_of_lt_of_eq (wordAt_lt op.paymasterAndData 20 52) (by decide)

theorem encodeFields_verifying :
    encodeFields viem.keccak256 (sponsorshipMessage viem (.verifying (digestParamsFor dep op validUntil validAfter))
      (gasLimitsWord op).toNat) verifyingLayout.types =
      some (word op.sender ++ word op.nonce ++ word (viem.keccak256 op.initCode) ++ word (viem.keccak256 op.callData) ++
        word op.accountGasLimits ++ word (gasLimitsWord op) ++ word op.preVerificationGas ++ word op.gasFees ++
        word validUntil ++ word validAfter) := by
  simp only [verifyingLayout, commonFields, windowFields, List.cons_append, List.nil_append, encodeFields,
    sponsorshipMessage, commonMessage, digestParamsFor, List.lookup]
  simp [encodeField_bytes32, encodeField_uint, encodeField_address]

theorem encodeFields_tenant (tenant : Bytes32) :
    encodeFields viem.keccak256 (sponsorshipMessage viem
      (.tenant (digestParamsFor dep op validUntil validAfter) (hexOf tenant)) (gasLimitsWord op).toNat) tenantLayout.types =
      some (word op.sender ++ word op.nonce ++ word (viem.keccak256 op.initCode) ++ word (viem.keccak256 op.callData) ++
        word op.accountGasLimits ++ word (gasLimitsWord op) ++ word op.preVerificationGas ++ word op.gasFees ++
        word tenant ++ word validUntil ++ word validAfter) := by
  simp only [tenantLayout, commonFields, windowFields, List.cons_append, List.nil_append, encodeFields,
    sponsorshipMessage, commonMessage, digestParamsFor, List.lookup]
  simp [encodeField_bytes32, encodeField_uint, encodeField_address]

end

/-! ## The type strings, once generated -/

theorem utf8_of_toList {s : String} {l : List Char} (h : s.toList = l) (hascii : (l.all fun c => c.toNat < 128) = true) :
    utf8 s = ascii (String.ofList l) := by
  rw [← String.ofList_toList (s := s), h, utf8_ofList, ascii, String.toList_ofList, List.map_eq_flatMap]
  exact List.flatMap_congr fun c hc => utf8EncodeChar_ascii (of_decide_eq_true (List.all_eq_true.mp hascii c hc))

set_option maxRecDepth 4000 in
theorem domain_type : utf8 (encodeType "EIP712Domain" domainFields) =
    ascii "EIP712Domain(string name,string version,uint256 chainId,address verifyingContract)" := by
  apply utf8_of_toList
  · simp only [encodeType, domainFields, List.map_cons, List.map_nil, FieldType.name, String.intercalate_cons_cons,
      String.intercalate_singleton, String.toList_append]
    repeat rw [String.toList_ofList]
    rfl
  · rfl

set_option maxRecDepth 4000 in
theorem verifying_type : utf8 (encodeType "Sponsorship" verifyingLayout.types) = ascii
    "Sponsorship(address sender,uint256 nonce,bytes32 initCodeHash,bytes32 callDataHash,bytes32 accountGasLimits,uint256 paymasterGasLimits,uint256 preVerificationGas,bytes32 gasFees,uint48 validUntil,uint48 validAfter)" := by
  apply utf8_of_toList
  · simp only [encodeType, verifyingLayout, commonFields, windowFields, List.cons_append, List.nil_append, List.map_cons,
      List.map_nil, FieldType.name, String.intercalate_cons_cons, String.intercalate_singleton, String.toList_append]
    repeat rw [String.toList_ofList]
    rfl
  · rfl

set_option maxRecDepth 4000 in
theorem tenant_type : utf8 (encodeType "Sponsorship" tenantLayout.types) = ascii
    "Sponsorship(address sender,uint256 nonce,bytes32 initCodeHash,bytes32 callDataHash,bytes32 accountGasLimits,uint256 paymasterGasLimits,uint256 preVerificationGas,bytes32 gasFees,bytes32 tenant,uint48 validUntil,uint48 validAfter)" := by
  apply utf8_of_toList
  · simp only [encodeType, tenantLayout, commonFields, windowFields, List.cons_append, List.nil_append, List.map_cons,
      List.map_nil, FieldType.name, String.intercalate_cons_cons, String.intercalate_singleton, String.toList_append]
    repeat rw [String.toList_ofList]
    rfl
  · rfl

set_option maxRecDepth 4000 in
theorem controller_type : utf8 (encodeType "ControllerAssignment" controllerAssignmentTypes) =
    ascii "ControllerAssignment(bytes32 tenant,address controller,uint256 nonce,uint48 deadline)" := by
  apply utf8_of_toList
  · simp only [encodeType, controllerAssignmentTypes, List.map_cons, List.map_nil, FieldType.name,
      String.intercalate_cons_cons, String.intercalate_singleton, String.toList_append]
    repeat rw [String.toList_ofList]
    rfl
  · rfl

section
variable {hash : Data → Bytes32} {dep : Deployment} {type : String} {fields : List Field} {message : Message}
  {words : Data}

/-- What is hashed for a message of a kind's domain. -/
theorem hashTypedData_eq (kind : PaymasterKind) (h : encodeFields hash message fields = some words) :
    Eip712.hashTypedData hash (sponsorshipDomain dep.chainId.toNat (hexOf dep.self) kind) type fields message =
      some (hash ([0x19, 0x01] ++
        word (hash (word (hash (ascii
            "EIP712Domain(string name,string version,uint256 chainId,address verifyingContract)")) ++
          (word (hash (utf8 (layoutFor kind).domainName)) ++ word (hash (ascii "1")) ++ word dep.chainId ++
            word dep.self))) ++
        word (hash (word (hash (utf8 (encodeType type fields))) ++ words)))) := by
  have hversion : utf8 "1" = ascii "1" := by decide
  simp only [Eip712.hashTypedData, typedDataOf, encodeData, encodeFields_domain, h, Option.map_some, domain_type,
    hversion, Option.bind_eq_bind, Option.bind_some]
  rfl

end

section
variable (viem : Viem) (tryRecover : Bytes32 → Data → Option Address) (chainId : Uint256) (self : Address)
  (op : PackedUserOperation) (validUntil validAfter : Uint48)

theorem verifying_digest (h : 52 ≤ op.paymasterAndData.length) :
    sponsorshipDigest viem (.verifying ⟨op, chainId.toNat, hexOf self, validUntil.toNat, validAfter.toNat⟩) =
      .ok (VerifyingPaymaster.getHash ⟨viem.keccak256, tryRecover, chainId, self⟩ op validUntil validAfter) := by
  have hname : utf8 verifyingLayout.domainName = ascii "VerifyingPaymaster" := by decide
  have hwords := encodeFields_verifying viem ⟨viem.keccak256, tryRecover, chainId, self⟩ op validUntil validAfter
  rw [gasLimitsWord_toNat] at hwords
  unfold sponsorshipDigest
  rw [SponsorshipDigestParams.common, paymasterGasLimitsFrom_eq h]
  apply viem.hashTypedData_ok.mpr
  refine (@hashTypedData_eq _ ⟨viem.keccak256, tryRecover, chainId, self⟩ _ _ _ _ .verifying hwords).trans ?_
  rw [verifying_type, layoutFor, hname]
  simp only [VerifyingPaymaster.getHash, VerifyingPaymaster.hashTypedDataV4, VerifyingPaymaster.typedData,
    VerifyingPaymaster.domainSeparator, VerifyingPaymaster.sponsorshipEncoding, gasLimitsWord, List.append_assoc]

theorem tenant_digest (tenant : Bytes32) (h : 52 ≤ op.paymasterAndData.length) :
    sponsorshipDigest viem
        (.tenant ⟨op, chainId.toNat, hexOf self, validUntil.toNat, validAfter.toNat⟩ (hexOf tenant)) =
      .ok (getHash ⟨viem.keccak256, tryRecover, chainId, self⟩ op tenant validUntil validAfter) := by
  have hname : utf8 tenantLayout.domainName = ascii "TenantPaymaster" := by decide
  have hwords := encodeFields_tenant viem ⟨viem.keccak256, tryRecover, chainId, self⟩ op validUntil validAfter tenant
  rw [gasLimitsWord_toNat] at hwords
  unfold sponsorshipDigest
  rw [SponsorshipDigestParams.common, paymasterGasLimitsFrom_eq h]
  apply viem.hashTypedData_ok.mpr
  refine (@hashTypedData_eq _ ⟨viem.keccak256, tryRecover, chainId, self⟩ _ _ _ _ .tenant hwords).trans ?_
  rw [tenant_type, layoutFor, hname]
  simp only [getHash, hashTypedDataV4, typedData, domainSeparator, sponsorshipEncoding, gasLimitsWord,
    List.append_assoc]

theorem controller_digest (tenant : Bytes32) (controller : Address) (nonce : Uint256) (deadline : Uint48) :
    controllerAssignmentDigest viem
        ⟨chainId.toNat, hexOf self, hexOf tenant, hexOf controller, nonce.toNat, deadline.toNat⟩ =
      .ok (controllerAssignmentHash ⟨viem.keccak256, tryRecover, chainId, self⟩ tenant controller nonce deadline) := by
  have hname : utf8 tenantLayout.domainName = ascii "TenantPaymaster" := by decide
  have hwords : encodeFields viem.keccak256 (controllerAssignmentMessage
      ⟨chainId.toNat, hexOf self, hexOf tenant, hexOf controller, nonce.toNat, deadline.toNat⟩)
      controllerAssignmentTypes = some (word tenant ++ word controller ++ word nonce ++ word deadline) := by
    simp only [controllerAssignmentTypes, encodeFields, controllerAssignmentMessage, List.lookup]
    simp [encodeField_bytes32, encodeField_uint, encodeField_address]
  apply viem.hashTypedData_ok.mpr
  refine (@hashTypedData_eq _ ⟨viem.keccak256, tryRecover, chainId, self⟩ _ _ _ _ .tenant hwords).trans ?_
  rw [controller_type, layoutFor, hname]
  simp only [controllerAssignmentHash, hashTypedDataV4, typedData, domainSeparator, controllerAssignmentEncoding,
    List.append_assoc]

end

/-- **The digests agree.** What the backend signs for a chain and a paymaster
is what that deployment recovers a signer from: for an operation of either
kind, and for a controller assignment. -/
theorem digests_agree (viem : Viem) (tryRecover : Bytes32 → Data → Option Address) (chainId : Uint256)
    (paymaster : Address) :
    let dep : Deployment := ⟨viem.keccak256, tryRecover, chainId, paymaster⟩
    (∀ (op : PackedUserOperation) (validUntil validAfter : Uint48), 52 ≤ op.paymasterAndData.length →
      sponsorshipDigest viem
          (.verifying ⟨op, chainId.toNat, hexOf paymaster, validUntil.toNat, validAfter.toNat⟩) =
        .ok (VerifyingPaymaster.getHash dep op validUntil validAfter)) ∧
    (∀ (op : PackedUserOperation) (tenant : Bytes32) (validUntil validAfter : Uint48),
      52 ≤ op.paymasterAndData.length →
      sponsorshipDigest viem
          (.tenant ⟨op, chainId.toNat, hexOf paymaster, validUntil.toNat, validAfter.toNat⟩ (hexOf tenant)) =
        .ok (getHash dep op tenant validUntil validAfter)) ∧
    (∀ (tenant : Bytes32) (controller : Address) (nonce : Uint256) (deadline : Uint48),
      controllerAssignmentDigest viem
          ⟨chainId.toNat, hexOf paymaster, hexOf tenant, hexOf controller, nonce.toNat, deadline.toNat⟩ =
        .ok (controllerAssignmentHash dep tenant controller nonce deadline)) := by
  intro dep
  refine ⟨?_, ?_, ?_⟩
  · intro op validUntil validAfter h
    exact verifying_digest viem tryRecover chainId paymaster op validUntil validAfter h
  · intro op tenant validUntil validAfter h
    exact tenant_digest viem tryRecover chainId paymaster op validUntil validAfter tenant h
  · intro tenant controller nonce deadline
    exact controller_digest viem tryRecover chainId paymaster tenant controller nonce deadline

end Paymaster.Signature
