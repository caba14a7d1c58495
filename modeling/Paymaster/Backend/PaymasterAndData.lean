import Paymaster.Backend.PaymasterLayout
import Paymaster.Backend.Viem
import Paymaster.Contracts.VerifyingPaymaster

/-!
# The paymasterAndData codec

The backend writes and reads the bytes that the two contracts parse. Writing
and then reading gives the fields back, reading and then writing gives the
bytes back, and a buffer is rejected exactly when its contract rejects it.
-/

namespace Paymaster.Signature

open Bytes

/-! ## Encoding and decoding -/

def paymasterValidationGasOffset : Nat := 20
def paymasterPostOpGasOffset : Nat := 36
def paymasterDataOffset : Nat := 52
def validUntilOffset : Nat := 52
def validAfterOffset : Nat := 58
def tenantOffset : Nat := 64
def tenantSignatureOffset : Nat := 96

structure CommonFields where
  paymaster : Data
  paymasterVerificationGasLimit : Nat
  postOpGasLimit : Nat
  validUntil : Nat
  validAfter : Nat
deriving DecidableEq

/-- The tenant is there exactly if the kind is `tenant`. -/
inductive PaymasterAndDataFields
  | verifying (common : CommonFields)
  | tenant (common : CommonFields) (tenant : Data)
deriving DecidableEq

namespace PaymasterAndDataFields

def kind : PaymasterAndDataFields → PaymasterKind
  | verifying _ => .verifying
  | tenant .. => .tenant

def common : PaymasterAndDataFields → CommonFields
  | verifying common => common
  | tenant common _ => common

end PaymasterAndDataFields

def hexText (d : Data) : String :=
  "0x" ++ String.ofList (d.flatMap fun b => [Nat.digitChar (b.toNat / 16), Nat.digitChar (b.toNat % 16)])

def PaymasterKind.text : PaymasterKind → String
  | .verifying => "verifying"
  | .tenant => "tenant"

section
variable (viem : Viem)

def encodePaymasterAndDataPrefix (fields : PaymasterAndDataFields) : Except Thrown Data :=
  let common := fields.common
  if viem.isAddress common.paymaster = false then
    .error (.invalidPaymasterData ("invalid paymaster address: " ++ hexText common.paymaster))
  else do
    let validationGas ← viem.numberToHex common.paymasterVerificationGasLimit 16
    let postOpGas ← viem.numberToHex common.postOpGasLimit 16
    let validUntil ← viem.numberToHex common.validUntil 6
    let validAfter ← viem.numberToHex common.validAfter 6
    let head := viem.concatHex [common.paymaster, validationGas, postOpGas, validUntil, validAfter]
    match fields with
    | .verifying _ => .ok head
    | .tenant _ tenant =>
      if viem.size tenant ≠ 32 then
        .error (.invalidPaymasterData ("tenant must be a 32-byte hex value, got " ++ hexText tenant))
      else .ok (viem.concatHex [head, tenant])

def encodePaymasterAndData (fields : PaymasterAndDataFields) (signature : Data) : Except Thrown Data :=
  let sigLength := viem.size signature
  if sigLength ≠ 64 ∧ sigLength ≠ 65 then
    .error (.invalidPaymasterData ("signature must be 64 or 65 bytes, got " ++ toString sigLength))
  else do
    let head ← encodePaymasterAndDataPrefix viem fields
    .ok (viem.concatHex [head, signature])

def decodePaymasterAndData (data : Data) (kind : PaymasterKind) : Except Thrown (PaymasterAndDataFields × Data) :=
  let signatureOffset := (layoutFor kind).signatureOffset
  let length := viem.size data
  if length < signatureOffset then
    .error (.invalidPaymasterData ("paymasterAndData for a " ++ PaymasterKind.text kind ++ " paymaster must be >= " ++
      toString signatureOffset ++ " bytes, got " ++ toString length))
  else do
    let paymaster ← viem.slice data 0 (some paymasterValidationGasOffset)
    let validationGas ← viem.slice data paymasterValidationGasOffset (some paymasterPostOpGasOffset)
    let postOpGas ← viem.slice data paymasterPostOpGasOffset (some paymasterDataOffset)
    let validUntil ← viem.slice data validUntilOffset (some validAfterOffset)
    let validAfter ← viem.slice data validAfterOffset (some tenantOffset)
    -- A buffer that stops at the signature offset is a whole prefix, on which `slice` would throw.
    let signature ← (if length = signatureOffset then .ok [] else viem.slice data signatureOffset none : Except Thrown Data)
    let common : CommonFields :=
      ⟨paymaster, viem.hexToBigInt validationGas, viem.hexToBigInt postOpGas, viem.hexToBigInt validUntil,
        viem.hexToBigInt validAfter⟩
    match kind with
    | .verifying => .ok (.verifying common, signature)
    | .tenant =>
      let tenant ← viem.slice data tenantOffset (some tenantSignatureOffset)
      .ok (.tenant common tenant, signature)

end

/-! ## The layout as bytes -/

structure CommonFields.InRange (f : CommonFields) : Prop where
  paymaster : f.paymaster.length = 20
  paymasterVerificationGasLimit : f.paymasterVerificationGasLimit < 2 ^ 128
  postOpGasLimit : f.postOpGasLimit < 2 ^ 128
  validUntil : f.validUntil < 2 ^ 48
  validAfter : f.validAfter < 2 ^ 48

def PaymasterAndDataFields.InRange : PaymasterAndDataFields → Prop
  | .verifying common => common.InRange
  | .tenant common key => common.InRange ∧ key.length = 32

def CommonFields.bytes (f : CommonFields) : Data :=
  f.paymaster ++ beBytes 16 f.paymasterVerificationGasLimit ++ beBytes 16 f.postOpGasLimit ++
    beBytes 6 f.validUntil ++ beBytes 6 f.validAfter

def PaymasterAndDataFields.bytes : PaymasterAndDataFields → Data
  | .verifying common => common.bytes
  | .tenant common key => common.bytes ++ key

def commonFieldsOf (d : Data) : CommonFields :=
  ⟨d.take 20, wordAt d 20 36, wordAt d 36 52, wordAt d 52 58, wordAt d 58 64⟩

def fieldsOf (d : Data) : PaymasterKind → PaymasterAndDataFields
  | .verifying => .verifying (commonFieldsOf d)
  | .tenant => .tenant (commonFieldsOf d) ((d.drop 64).take 32)

section
variable {viem : Viem} {fields : PaymasterAndDataFields} {common : CommonFields} {kind : PaymasterKind}
  {d signature : Data}

theorem length_common_bytes (h : common.InRange) : common.bytes.length = 64 := by
  simp [CommonFields.bytes, h.paymaster]

theorem length_bytes (h : fields.InRange) : fields.bytes.length = (layoutFor fields.kind).signatureOffset := by
  cases fields with
  | verifying common => exact @length_common_bytes common h
  | tenant common key =>
    obtain ⟨hcommon, hkey⟩ := h
    show (common.bytes ++ key).length = 96
    rw [List.length_append, length_common_bytes hcommon, hkey]

theorem common_inRange (h : fields.InRange) : fields.common.InRange := by
  cases fields with
  | verifying common => exact h
  | tenant common key => exact h.1

theorem encodePrefix_ok :
    encodePaymasterAndDataPrefix viem fields = .ok d ↔ fields.InRange ∧ d = fields.bytes := by
  unfold encodePaymasterAndDataPrefix
  constructor
  · intro h
    by_cases haddress : viem.isAddress fields.common.paymaster = false
    · rw [if_pos haddress] at h
      cases h
    rw [if_neg haddress] at h
    obtain ⟨validationGas, h1, h⟩ := bind_ok h
    obtain ⟨postOpGas, h2, h⟩ := bind_ok h
    obtain ⟨validUntil, h3, h⟩ := bind_ok h
    obtain ⟨validAfter, h4, h⟩ := bind_ok h
    obtain ⟨hn1, hvalidationGas⟩ := viem.numberToHex_ok h1
    obtain ⟨hn2, hpostOpGas⟩ := viem.numberToHex_ok h2
    obtain ⟨hn3, hvalidUntil⟩ := viem.numberToHex_ok h3
    obtain ⟨hn4, hvalidAfter⟩ := viem.numberToHex_ok h4
    rw [hvalidationGas, hpostOpGas, hvalidUntil, hvalidAfter] at h
    have hrange : fields.common.InRange :=
      ⟨(viem.isAddress_iff _).mp (by simpa using haddress), hn1, hn2, hn3, hn4⟩
    cases fields with
    | verifying common =>
      refine ⟨hrange, ?_⟩
      rw [← Except.ok.inj h, viem.concatHex_eq]
      simp [PaymasterAndDataFields.bytes, CommonFields.bytes, PaymasterAndDataFields.common]
    | tenant common key =>
      by_cases hsize : viem.size key ≠ 32
      · simp only [if_pos hsize, reduceCtorEq] at h
      simp only [if_neg hsize, Except.ok.injEq] at h
      refine ⟨⟨hrange, by rwa [viem.size_eq, ne_eq, not_not] at hsize⟩, ?_⟩
      rw [← h, viem.concatHex_eq, viem.concatHex_eq]
      simp [PaymasterAndDataFields.bytes, CommonFields.bytes, PaymasterAndDataFields.common]
  · rintro ⟨hrange, rfl⟩
    have hcommon := common_inRange hrange
    have haddress : viem.isAddress fields.common.paymaster = true := (viem.isAddress_iff _).mpr hcommon.paymaster
    rw [if_neg (by simp [haddress]), viem.numberToHex_fits _ 16 hcommon.paymasterVerificationGasLimit,
      viem.numberToHex_fits _ 16 hcommon.postOpGasLimit, viem.numberToHex_fits _ 6 hcommon.validUntil,
      viem.numberToHex_fits _ 6 hcommon.validAfter]
    cases fields with
    | verifying common =>
      simp [bind, Except.bind, viem.concatHex_eq, PaymasterAndDataFields.bytes, CommonFields.bytes,
        PaymasterAndDataFields.common]
    | tenant common key =>
      simp [bind, Except.bind, viem.concatHex_eq, viem.size_eq, hrange.2, PaymasterAndDataFields.bytes,
        CommonFields.bytes, PaymasterAndDataFields.common]

theorem encode_ok :
    encodePaymasterAndData viem fields signature = .ok d ↔
      fields.InRange ∧ (signature.length = 64 ∨ signature.length = 65) ∧ d = fields.bytes ++ signature := by
  unfold encodePaymasterAndData
  rw [viem.size_eq]
  by_cases hlength : signature.length ≠ 64 ∧ signature.length ≠ 65
  · rw [if_pos hlength]
    constructor
    · intro h
      cases h
    · rintro ⟨-, h, -⟩
      omega
  rw [if_neg hlength]
  constructor
  · intro h
    obtain ⟨head, hhead, h⟩ := bind_ok h
    obtain ⟨hrange, rfl⟩ := encodePrefix_ok.mp hhead
    refine ⟨hrange, by omega, ?_⟩
    rw [← Except.ok.inj h, viem.concatHex_eq]
    simp
  · rintro ⟨hrange, -, rfl⟩
    have hhead : encodePaymasterAndDataPrefix viem fields = .ok fields.bytes := encodePrefix_ok.mpr ⟨hrange, rfl⟩
    rw [hhead]
    simp [bind, Except.bind, viem.concatHex_eq]

theorem hexToBigInt_word {i j : Nat} (hij : i < j) (hj : j ≤ d.length) :
    viem.hexToBigInt ((d.drop i).take (j - i)) = wordAt d i j := by
  apply viem.hexToBigInt_eq
  intro h
  have hlength := congrArg List.length h
  simp only [List.length_take, List.length_drop, List.length_nil] at hlength
  omega

theorem decode_eq (h : (layoutFor kind).signatureOffset ≤ d.length) :
    decodePaymasterAndData viem d kind = .ok (fieldsOf d kind, d.drop (layoutFor kind).signatureOffset) := by
  have hoffset : 64 ≤ (layoutFor kind).signatureOffset := by cases kind <;> decide
  have hsignature : (if d.length = (layoutFor kind).signatureOffset then .ok []
      else viem.slice d (layoutFor kind).signatureOffset none) = .ok (d.drop (layoutFor kind).signatureOffset) := by
    split
    · rw [List.drop_of_length_le (by omega)]
    · exact viem.slice_rest d _ (by omega)
  unfold decodePaymasterAndData
  simp only [viem.size_eq, if_neg (Nat.not_lt.mpr h), paymasterValidationGasOffset, paymasterPostOpGasOffset,
    paymasterDataOffset, validUntilOffset, validAfterOffset, tenantOffset, tenantSignatureOffset]
  rw [viem.slice_within d 0 20 (by omega) (by omega), viem.slice_within d 20 36 (by omega) (by omega),
    viem.slice_within d 36 52 (by omega) (by omega), viem.slice_within d 52 58 (by omega) (by omega),
    viem.slice_within d 58 64 (by omega) (by omega), hsignature]
  simp only [bind, Except.bind]
  rw [hexToBigInt_word (by decide) (by omega), hexToBigInt_word (by decide) (by omega),
    hexToBigInt_word (by decide) (by omega), hexToBigInt_word (by decide) (by omega)]
  cases kind with
  | verifying => rfl
  | tenant =>
    have h96 : 96 ≤ d.length := h
    rw [viem.slice_within d 64 96 (by omega) h96]
    rfl

theorem decode_error (h : d.length < (layoutFor kind).signatureOffset) :
    ∃ e, decodePaymasterAndData viem d kind = .error e := by
  unfold decodePaymasterAndData
  rw [viem.size_eq]
  exact ⟨_, if_pos h⟩

theorem decode_ok (h : decodePaymasterAndData viem d kind = .ok (fields, signature)) :
    (layoutFor kind).signatureOffset ≤ d.length ∧ fields = fieldsOf d kind ∧
      signature = d.drop (layoutFor kind).signatureOffset := by
  by_cases hlength : d.length < (layoutFor kind).signatureOffset
  · obtain ⟨e, he⟩ : ∃ e, decodePaymasterAndData viem d kind = .error e := decode_error hlength
    rw [he] at h
    cases h
  · rw [decode_eq (Nat.not_lt.mp hlength)] at h
    cases h
    exact ⟨Nat.not_lt.mp hlength, rfl, rfl⟩

theorem commonFieldsOf_bytes (h : common.InRange) (rest : Data) : commonFieldsOf (common.bytes ++ rest) = common := by
  obtain ⟨paymaster, validationGas, postOpGas, validUntil, validAfter⟩ := common
  obtain ⟨h1, h2, h3, h4, h5⟩ := h
  simp only at h1 h2 h3 h4 h5
  simp only [commonFieldsOf, CommonFields.bytes, CommonFields.mk.injEq]
  refine ⟨?_, ?_, ?_, ?_, ?_⟩
  · simp only [List.append_assoc]
    rw [← h1, List.take_left]
  · rw [List.append_assoc, List.append_assoc, List.append_assoc, wordAt_append h1 (by simp), ofBytes_beBytes _ _ h2]
  · rw [List.append_assoc, List.append_assoc, wordAt_append (by simp [h1]) (by simp), ofBytes_beBytes _ _ h3]
  · rw [List.append_assoc, wordAt_append (by simp [h1]) (by simp), ofBytes_beBytes _ _ h4]
  · rw [wordAt_append (by simp [h1]) (by simp), ofBytes_beBytes _ _ h5]

theorem fieldsOf_bytes (h : fields.InRange) (rest : Data) : fieldsOf (fields.bytes ++ rest) fields.kind = fields := by
  cases fields with
  | verifying common =>
    show PaymasterAndDataFields.verifying (commonFieldsOf (common.bytes ++ rest)) = _
    rw [@commonFieldsOf_bytes common h]
  | tenant common key =>
    obtain ⟨hcommon, hkey⟩ := h
    show PaymasterAndDataFields.tenant (commonFieldsOf (common.bytes ++ key ++ rest))
      (((common.bytes ++ key ++ rest).drop 64).take 32) = _
    rw [List.append_assoc, commonFieldsOf_bytes hcommon, ← length_common_bytes hcommon, List.drop_left, ← hkey,
      List.take_left]

theorem commonFieldsOf_inRange (h : 64 ≤ d.length) : (commonFieldsOf d).InRange where
  paymaster := by
    show (d.take 20).length = 20
    rw [List.length_take]
    omega
  paymasterVerificationGasLimit := wordAt_lt d 20 36
  postOpGasLimit := wordAt_lt d 36 52
  validUntil := wordAt_lt d 52 58
  validAfter := wordAt_lt d 58 64

theorem bytes_commonFieldsOf (h : 64 ≤ d.length) : (commonFieldsOf d).bytes = d.take 64 := by
  simp only [CommonFields.bytes, commonFieldsOf]
  rw [take_append_wordAt rfl (by omega), take_append_wordAt rfl (by omega), take_append_wordAt rfl (by omega),
    take_append_wordAt rfl h]

theorem fieldsOf_inRange (h : (layoutFor kind).signatureOffset ≤ d.length) : (fieldsOf d kind).InRange := by
  cases kind with
  | verifying => exact commonFieldsOf_inRange h
  | tenant =>
    have h96 : 96 ≤ d.length := h
    refine ⟨commonFieldsOf_inRange (by omega), ?_⟩
    simp only [List.length_take, List.length_drop]
    omega

theorem bytes_fieldsOf (h : (layoutFor kind).signatureOffset ≤ d.length) :
    (fieldsOf d kind).bytes = d.take (layoutFor kind).signatureOffset := by
  cases kind with
  | verifying => exact bytes_commonFieldsOf h
  | tenant =>
    have h96 : 96 ≤ d.length := h
    show (commonFieldsOf d).bytes ++ (d.drop 64).take 32 = d.take 96
    rw [bytes_commonFieldsOf (by omega), ← List.take_add]

theorem uint48_wordAt (d : Data) {i j : Nat} (hij : j - i = 6) : (BitVec.ofNat 48 (wordAt d i j)).toNat = wordAt d i j := by
  rw [BitVec.toNat_ofNat, Nat.mod_eq_of_lt]
  exact Nat.lt_of_lt_of_eq (wordAt_lt d i j) (by rw [hij]; decide)

theorem hexOf_tenantWord (h : 96 ≤ d.length) : hexOf (BitVec.ofNat 256 (wordAt d 64 96)) = (d.drop 64).take 32 := by
  have hword : beBytes 32 (wordAt d 64 96) = (d.drop 64).take 32 := @beBytes_wordAt d 64 96 h
  have hlt : wordAt d 64 96 < 2 ^ 256 := Nat.lt_of_lt_of_eq (wordAt_lt d 64 96) (by decide)
  rw [hexOf, BitVec.toNat_ofNat, Nat.mod_eq_of_lt hlt]
  exact hword

/-- **The codec.** What was encoded decodes to the same fields and signature;
what decodes with a signature of 64 or 65 bytes encodes to the same bytes; and
under each kind a buffer is rejected exactly when the contract of that kind
rejects it, and read as the contract reads it otherwise. -/
theorem paymasterAndData_codec (viem : Viem) :
    (∀ fields : PaymasterAndDataFields, fields.InRange →
      ∀ signature : Data, signature.length = 64 ∨ signature.length = 65 →
        ∃ d, encodePaymasterAndData viem fields signature = .ok d ∧
          decodePaymasterAndData viem d fields.kind = .ok (fields, signature)) ∧
    (∀ kind d fields signature, decodePaymasterAndData viem d kind = .ok (fields, signature) →
      signature.length = 64 ∨ signature.length = 65 → encodePaymasterAndData viem fields signature = .ok d) ∧
    (∀ d, match VerifyingPaymaster.parsePaymasterAndData d with
      | .error _ => ∃ e, decodePaymasterAndData viem d .verifying = .error e
      | .ok (validUntil, validAfter, signature) => decodePaymasterAndData viem d .verifying =
        .ok (.verifying ⟨d.take 20, wordAt d 20 36, wordAt d 36 52, validUntil.toNat, validAfter.toNat⟩, signature)) ∧
    (∀ d, match parsePaymasterAndData d with
      | .error _ => ∃ e, decodePaymasterAndData viem d .tenant = .error e
      | .ok (validUntil, validAfter, tenant, signature) => decodePaymasterAndData viem d .tenant =
        .ok (.tenant ⟨d.take 20, wordAt d 20 36, wordAt d 36 52, validUntil.toNat, validAfter.toNat⟩ (hexOf tenant),
          signature)) := by
  refine ⟨?_, ?_, ?_, ?_⟩
  · intro fields hrange signature hlength
    refine ⟨_, encode_ok.mpr ⟨hrange, hlength, rfl⟩, ?_⟩
    rw [decode_eq (by rw [List.length_append, length_bytes hrange]; omega), fieldsOf_bytes hrange,
      ← length_bytes hrange, List.drop_left]
  · intro kind d fields signature h hlength
    obtain ⟨hoffset, rfl, rfl⟩ := decode_ok h
    apply encode_ok.mpr
    refine ⟨fieldsOf_inRange hoffset, hlength, ?_⟩
    rw [bytes_fieldsOf hoffset, List.take_append_drop]
  · intro d
    by_cases h : d.length < 64
    · simp only [VerifyingPaymaster.parsePaymasterAndData, if_pos h]
      exact decode_error h
    · simp only [VerifyingPaymaster.parsePaymasterAndData, if_neg h]
      rw [uint48_wordAt d rfl, uint48_wordAt d rfl]
      exact decode_eq (Nat.not_lt.mp h)
  · intro d
    by_cases h : d.length < 96
    · simp only [parsePaymasterAndData, if_pos h]
      exact decode_error h
    · simp only [parsePaymasterAndData, if_neg h]
      rw [uint48_wordAt d rfl, uint48_wordAt d rfl, hexOf_tenantWord (Nat.not_lt.mp h)]
      exact decode_eq (Nat.not_lt.mp h)

end

end Paymaster.Signature
