import Paymaster.Backend.PaymasterAndData
import Paymaster.Lib.HexDigits

/-!
# The codec on hex strings

The codec runs on hex strings, whose letters may be in either case, and its
address check reads the case: a string with a capital letter has to be the
checksum spelling of its address. What is written and read is otherwise the
bytes, so this codec does on the strings what the one on bytes does.
-/

namespace Paymaster.Spelled

open Bytes HexDigits Signature

/-! ## What is used of viem -/

def checksumPair (pair : Pair) (hash : UInt8) : Pair where
  high := if 8 ≤ hash.toNat / 16 then pair.high.toUpperCase else pair.high
  low := if 8 ≤ hash.toNat % 16 then pair.low.toUpperCase else pair.low

/-- A digit of the lower-case spelling is capital where the hash of that text has a digit from 8 on (EIP-55). -/
def checksumAddress (keccak256 : Data → Bytes32) (address : Spelling) : Spelling :=
  let hash := beBytes 32 (keccak256 (address.toLowerCase.digits.map Digit.ascii)).toNat
  List.zipWith checksumPair address.toLowerCase hash

def AddressSpelling (keccak256 : Data → Bytes32) (address : Spelling) : Prop :=
  address.toLowerCase = address ∨ checksumAddress keccak256 address = address

instance (keccak256 : Data → Bytes32) (address : Spelling) : Decidable (AddressSpelling keccak256 address) :=
  inferInstanceAs (Decidable (_ ∨ _))

/-- The functions of viem on hex strings, as they are spelled. -/
structure ViemHex where
  keccak256 : Data → Bytes32
  isAddress : Spelling → Bool
  size : Spelling → Nat
  concatHex : List Spelling → Spelling
  slice : Spelling → Nat → Option Nat → Except Thrown Spelling
  hexToBigInt : Spelling → Nat
  numberToHex : Nat → Nat → Except Thrown Spelling
  isAddress_iff : ∀ s, isAddress s = true ↔ s.length = 20 ∧ AddressSpelling keccak256 s
  size_eq : ∀ s, size s = s.length
  concatHex_eq : ∀ ss, concatHex ss = ss.flatten
  slice_within : ∀ s i j, i < s.length → j ≤ s.length → slice s i (some j) = .ok ((s.drop i).take (j - i))
  slice_rest : ∀ s i, i < s.length → slice s i none = .ok (s.drop i)
  hexToBigInt_eq : ∀ s : Spelling, s ≠ [] → hexToBigInt s = Bytes.ofBytes s.bytes
  numberToHex_fits : ∀ n k, n < 256 ^ k → numberToHex n k = .ok (Spelling.ofBytes (beBytes k n))
  numberToHex_overflows : ∀ n k, 256 ^ k ≤ n → ∃ e, numberToHex n k = .error e

def viemHexOf (keccak256 : Data → Bytes32) : ViemHex where
  keccak256 := keccak256
  isAddress s := s.length = 20 ∧ AddressSpelling keccak256 s
  size := List.length
  concatHex := List.flatten
  slice s i
    | none => if 0 < i ∧ s.length ≤ i then .error .viem else .ok (s.drop i)
    | some j => if 0 < i ∧ s.length ≤ i then .error .viem else .ok ((s.drop i).take (j - i))
  hexToBigInt s := Bytes.ofBytes (Spelling.bytes s)
  numberToHex n k := if n < 256 ^ k then .ok (Spelling.ofBytes (beBytes k n)) else .error .viem
  isAddress_iff _ := decide_eq_true_iff
  size_eq _ := rfl
  concatHex_eq _ := rfl
  slice_within _ _ _ hi _ := if_neg (starts_within hi)
  slice_rest _ _ hi := if_neg (starts_within hi)
  hexToBigInt_eq _ _ := rfl
  numberToHex_fits _ _ h := if_pos h
  numberToHex_overflows _ _ h := ⟨.viem, if_neg (Nat.not_lt.mpr h)⟩

theorem ViemHex.numberToHex_ok (viem : ViemHex) {n k : Nat} {s : Spelling} (h : viem.numberToHex n k = .ok s) :
    n < 256 ^ k ∧ s = Spelling.ofBytes (beBytes k n) := by
  by_cases hn : n < 256 ^ k
  · rw [viem.numberToHex_fits n k hn] at h
    exact ⟨hn, (Except.ok.inj h).symm⟩
  · obtain ⟨e, he⟩ := viem.numberToHex_overflows n k (Nat.not_lt.mp hn)
    rw [he] at h
    cases h

/-! ## Encoding and decoding -/

structure CommonFields where
  paymaster : Spelling
  paymasterVerificationGasLimit : Nat
  postOpGasLimit : Nat
  validUntil : Nat
  validAfter : Nat
deriving DecidableEq

inductive PaymasterAndDataFields
  | verifying (common : CommonFields)
  | tenant (common : CommonFields) (tenant : Spelling)
deriving DecidableEq

namespace PaymasterAndDataFields

def kind : PaymasterAndDataFields → PaymasterKind
  | verifying _ => .verifying
  | tenant .. => .tenant

def common : PaymasterAndDataFields → CommonFields
  | verifying common => common
  | tenant common _ => common

end PaymasterAndDataFields

def hexText (s : Spelling) : String := String.ofList ('0' :: 'x' :: s.digits.map Digit.char)

section
variable (viem : ViemHex)

def encodePaymasterAndDataPrefix (fields : PaymasterAndDataFields) : Except Thrown Spelling :=
  let common := fields.common
  if viem.isAddress common.paymaster = false then
    .error (.invalidPaymasterData ("invalid paymaster address: " ++ hexText common.paymaster))
  else do
    let validationGas ← viem.numberToHex common.paymasterVerificationGasLimit 16
    let postOpGas ← viem.numberToHex common.postOpGasLimit 16
    let validUntil ← viem.numberToHex common.validUntil 6
    let validAfter ← viem.numberToHex common.validAfter 6
    let head := viem.concatHex [common.paymaster, validationGas, postOpGas, validUntil, validAfter]
    match fields with
    | .verifying _ => .ok head
    | .tenant _ tenant =>
      if viem.size tenant ≠ 32 then
        .error (.invalidPaymasterData ("tenant must be a 32-byte hex value, got " ++ hexText tenant))
      else .ok (viem.concatHex [head, tenant])

def encodePaymasterAndData (fields : PaymasterAndDataFields) (signature : Spelling) : Except Thrown Spelling :=
  let sigLength := viem.size signature
  if sigLength ≠ 64 ∧ sigLength ≠ 65 then
    .error (.invalidPaymasterData ("signature must be 64 or 65 bytes, got " ++ toString sigLength))
  else do
    let head ← encodePaymasterAndDataPrefix viem fields
    .ok (viem.concatHex [head, signature])

def decodePaymasterAndData (data : Spelling) (kind : PaymasterKind) :
    Except Thrown (PaymasterAndDataFields × Spelling) :=
  let signatureOffset := (layoutFor kind).signatureOffset
  let length := viem.size data
  if length < signatureOffset then
    .error (.invalidPaymasterData ("paymasterAndData for a " ++ PaymasterKind.text kind ++ " paymaster must be >= " ++
      toString signatureOffset ++ " bytes, got " ++ toString length))
  else do
    let paymaster ← viem.slice data 0 (some paymasterValidationGasOffset)
    let validationGas ← viem.slice data paymasterValidationGasOffset (some paymasterPostOpGasOffset)
    let postOpGas ← viem.slice data paymasterPostOpGasOffset (some paymasterDataOffset)
    let validUntil ← viem.slice data validUntilOffset (some validAfterOffset)
    let validAfter ← viem.slice data validAfterOffset (some tenantOffset)
    let signature ← (if length = signatureOffset then .ok [] else viem.slice data signatureOffset none : Except Thrown Spelling)
    let common : CommonFields :=
      ⟨paymaster, viem.hexToBigInt validationGas, viem.hexToBigInt postOpGas, viem.hexToBigInt validUntil,
        viem.hexToBigInt validAfter⟩
    match kind with
    | .verifying => .ok (.verifying common, signature)
    | .tenant =>
      let tenant ← viem.slice data tenantOffset (some tenantSignatureOffset)
      .ok (.tenant common tenant, signature)

end

/-! ## The bytes of the fields -/

def CommonFields.plain (common : CommonFields) : Signature.CommonFields :=
  ⟨common.paymaster.bytes, common.paymasterVerificationGasLimit, common.postOpGasLimit, common.validUntil, common.validAfter⟩

def PaymasterAndDataFields.plain : PaymasterAndDataFields → Signature.PaymasterAndDataFields
  | verifying common => .verifying common.plain
  | tenant common key => .tenant common.plain key.bytes

def CommonFields.spelling (common : CommonFields) : Spelling :=
  common.paymaster ++ Spelling.ofBytes (beBytes 16 common.paymasterVerificationGasLimit) ++
    Spelling.ofBytes (beBytes 16 common.postOpGasLimit) ++ Spelling.ofBytes (beBytes 6 common.validUntil) ++
    Spelling.ofBytes (beBytes 6 common.validAfter)

def PaymasterAndDataFields.spelling : PaymasterAndDataFields → Spelling
  | verifying common => common.spelling
  | tenant common key => common.spelling ++ key

def commonFieldsOf (s : Spelling) : CommonFields :=
  ⟨s.take 20, wordAt s.bytes 20 36, wordAt s.bytes 36 52, wordAt s.bytes 52 58, wordAt s.bytes 58 64⟩

def fieldsOf (s : Spelling) : PaymasterKind → PaymasterAndDataFields
  | .verifying => .verifying (commonFieldsOf s)
  | .tenant => .tenant (commonFieldsOf s) ((s.drop 64).take 32)

section
variable {viem : ViemHex} {fields : PaymasterAndDataFields} {kind : PaymasterKind} {s signature : Spelling}

theorem common_plain : fields.plain.common = fields.common.plain := by cases fields <;> rfl

theorem kind_plain : fields.plain.kind = fields.kind := by cases fields <;> rfl

theorem bytes_spelling : fields.spelling.bytes = fields.plain.bytes := by
  cases fields <;>
    simp [PaymasterAndDataFields.spelling, CommonFields.spelling, PaymasterAndDataFields.plain, CommonFields.plain,
      Signature.PaymasterAndDataFields.bytes, Signature.CommonFields.bytes]

theorem plain_fieldsOf : (fieldsOf s kind).plain = Signature.fieldsOf s.bytes kind := by
  cases kind <;>
    simp [fieldsOf, commonFieldsOf, PaymasterAndDataFields.plain, CommonFields.plain, Signature.fieldsOf,
      Signature.commonFieldsOf]

theorem encodePrefix_ok :
    encodePaymasterAndDataPrefix viem fields = .ok s ↔
      AddressSpelling viem.keccak256 fields.common.paymaster ∧ fields.plain.InRange ∧ s = fields.spelling := by
  unfold encodePaymasterAndDataPrefix
  constructor
  · intro h
    by_cases haddress : viem.isAddress fields.common.paymaster = false
    · rw [if_pos haddress] at h
      cases h
    rw [if_neg haddress] at h
    obtain ⟨validationGas, h1, h⟩ := bind_ok h
    obtain ⟨postOpGas, h2, h⟩ := bind_ok h
    obtain ⟨validUntil, h3, h⟩ := bind_ok h
    obtain ⟨validAfter, h4, h⟩ := bind_ok h
    obtain ⟨hn1, hvalidationGas⟩ := viem.numberToHex_ok h1
    obtain ⟨hn2, hpostOpGas⟩ := viem.numberToHex_ok h2
    obtain ⟨hn3, hvalidUntil⟩ := viem.numberToHex_ok h3
    obtain ⟨hn4, hvalidAfter⟩ := viem.numberToHex_ok h4
    rw [hvalidationGas, hpostOpGas, hvalidUntil, hvalidAfter] at h
    obtain ⟨hlength, hspelling⟩ := (viem.isAddress_iff _).mp (by simpa using haddress)
    have hrange : fields.common.plain.InRange := ⟨by simpa [CommonFields.plain] using hlength, hn1, hn2, hn3, hn4⟩
    refine ⟨hspelling, ?_⟩
    cases fields with
    | verifying common =>
      refine ⟨hrange, ?_⟩
      rw [← Except.ok.inj h, viem.concatHex_eq]
      simp [PaymasterAndDataFields.spelling, CommonFields.spelling, PaymasterAndDataFields.common]
    | tenant common key =>
      by_cases hsize : viem.size key ≠ 32
      · simp only [if_pos hsize, reduceCtorEq] at h
      simp only [if_neg hsize, Except.ok.injEq] at h
      refine ⟨⟨hrange, by rwa [Spelling.length_bytes, ← viem.size_eq, ← not_not (a := viem.size key = 32)]⟩, ?_⟩
      rw [← h, viem.concatHex_eq, viem.concatHex_eq]
      simp [PaymasterAndDataFields.spelling, CommonFields.spelling, PaymasterAndDataFields.common]
  · rintro ⟨hspelling, hrange, rfl⟩
    have hcommon : fields.common.plain.InRange := common_plain ▸ common_inRange hrange
    have hlength : fields.common.paymaster.length = 20 := by
      rw [← Spelling.length_bytes]
      exact hcommon.paymaster
    have haddress : viem.isAddress fields.common.paymaster = true := (viem.isAddress_iff _).mpr ⟨hlength, hspelling⟩
    rw [if_neg (by simp [haddress]),
      viem.numberToHex_fits fields.common.paymasterVerificationGasLimit 16 hcommon.paymasterVerificationGasLimit,
      viem.numberToHex_fits fields.common.postOpGasLimit 16 hcommon.postOpGasLimit,
      viem.numberToHex_fits fields.common.validUntil 6 hcommon.validUntil,
      viem.numberToHex_fits fields.common.validAfter 6 hcommon.validAfter]
    cases fields with
    | verifying common =>
      simp [bind, Except.bind, viem.concatHex_eq, PaymasterAndDataFields.spelling, CommonFields.spelling,
        PaymasterAndDataFields.common]
    | tenant common key =>
      have hkey : key.length = 32 := by
        rw [← Spelling.length_bytes]
        exact hrange.2
      simp [bind, Except.bind, viem.concatHex_eq, viem.size_eq, hkey, PaymasterAndDataFields.spelling,
        CommonFields.spelling, PaymasterAndDataFields.common]

theorem encode_ok :
    encodePaymasterAndData viem fields signature = .ok s ↔
      AddressSpelling viem.keccak256 fields.common.paymaster ∧ fields.plain.InRange ∧
        (signature.length = 64 ∨ signature.length = 65) ∧ s = fields.spelling ++ signature := by
  unfold encodePaymasterAndData
  rw [viem.size_eq]
  by_cases hlength : signature.length ≠ 64 ∧ signature.length ≠ 65
  · rw [if_pos hlength]
    constructor
    · intro h
      cases h
    · rintro ⟨-, -, h, -⟩
      omega
  rw [if_neg hlength]
  constructor
  · intro h
    obtain ⟨head, hhead, h⟩ := bind_ok h
    obtain ⟨hspelling, hrange, rfl⟩ := encodePrefix_ok.mp hhead
    refine ⟨hspelling, hrange, by omega, ?_⟩
    rw [← Except.ok.inj h, viem.concatHex_eq]
    simp
  · rintro ⟨hspelling, hrange, -, rfl⟩
    have hhead : encodePaymasterAndDataPrefix viem fields = .ok fields.spelling :=
      encodePrefix_ok.mpr ⟨hspelling, hrange, rfl⟩
    rw [hhead]
    simp [bind, Except.bind, viem.concatHex_eq]

theorem hexToBigInt_word {i j : Nat} (hij : i < j) (hj : j ≤ s.length) :
    viem.hexToBigInt ((s.drop i).take (j - i)) = wordAt s.bytes i j := by
  rw [viem.hexToBigInt_eq, wordAt, Spelling.bytes_take, Spelling.bytes_drop]
  intro h
  have hlength := congrArg List.length h
  simp only [List.length_take, List.length_drop, List.length_nil] at hlength
  omega

theorem decode_eq (h : (layoutFor kind).signatureOffset ≤ s.length) :
    decodePaymasterAndData viem s kind = .ok (fieldsOf s kind, s.drop (layoutFor kind).signatureOffset) := by
  have hoffset : 64 ≤ (layoutFor kind).signatureOffset := by cases kind <;> decide
  have hsignature : (if s.length = (layoutFor kind).signatureOffset then .ok []
      else viem.slice s (layoutFor kind).signatureOffset none) = .ok (s.drop (layoutFor kind).signatureOffset) := by
    split
    · rw [List.drop_of_length_le (by omega)]
    · exact viem.slice_rest s _ (by omega)
  unfold decodePaymasterAndData
  simp only [viem.size_eq, if_neg (Nat.not_lt.mpr h), paymasterValidationGasOffset, paymasterPostOpGasOffset,
    paymasterDataOffset, validUntilOffset, validAfterOffset, tenantOffset, tenantSignatureOffset]
  rw [viem.slice_within s 0 20 (by omega) (by omega), viem.slice_within s 20 36 (by omega) (by omega),
    viem.slice_within s 36 52 (by omega) (by omega), viem.slice_within s 52 58 (by omega) (by omega),
    viem.slice_within s 58 64 (by omega) (by omega), hsignature]
  simp only [bind, Except.bind]
  rw [hexToBigInt_word (by decide) (by omega), hexToBigInt_word (by decide) (by omega),
    hexToBigInt_word (by decide) (by omega), hexToBigInt_word (by decide) (by omega)]
  cases kind with
  | verifying => rfl
  | tenant =>
    have h96 : 96 ≤ s.length := h
    rw [viem.slice_within s 64 96 (by omega) h96]
    rfl

theorem decode_ok (h : decodePaymasterAndData viem s kind = .ok (fields, signature)) :
    (layoutFor kind).signatureOffset ≤ s.length ∧ fields = fieldsOf s kind ∧
      signature = s.drop (layoutFor kind).signatureOffset := by
  by_cases hlength : s.length < (layoutFor kind).signatureOffset
  · rw [decodePaymasterAndData, viem.size_eq, if_pos hlength] at h
    cases h
  · rw [decode_eq (Nat.not_lt.mp hlength)] at h
    cases h
    exact ⟨Nat.not_lt.mp hlength, rfl, rfl⟩

theorem decode_refused {bytewise : Viem} (h : ∃ e, Signature.decodePaymasterAndData bytewise s.bytes kind = .error e) :
    ∃ e, decodePaymasterAndData viem s kind = .error e := by
  obtain ⟨e, he⟩ := h
  by_cases hlength : s.length < (layoutFor kind).signatureOffset
  · rw [decodePaymasterAndData, viem.size_eq]
    exact ⟨_, if_pos hlength⟩
  · rw [Signature.decode_eq (by rw [Spelling.length_bytes]; exact Nat.not_lt.mp hlength)] at he
    cases he

/-- The codec on bytes reads from the bytes what this one reads from their spelling. -/
theorem decode_plain {bytewise : Viem} {fields : Signature.PaymasterAndDataFields} {signature : Data}
    (h : Signature.decodePaymasterAndData bytewise s.bytes kind = .ok (fields, signature)) :
    ∃ fieldsHex signatureHex, decodePaymasterAndData viem s kind = .ok (fieldsHex, signatureHex) ∧
      signatureHex.bytes = signature ∧ fieldsHex.plain = fields := by
  obtain ⟨hoffset, rfl, rfl⟩ := Signature.decode_ok h
  rw [Spelling.length_bytes] at hoffset
  exact ⟨_, _, decode_eq hoffset, Spelling.bytes_drop _, plain_fieldsOf⟩

theorem common_ext {a b : CommonFields} (hpaymaster : a.paymaster = b.paymaster) (hplain : a.plain = b.plain) : a = b := by
  obtain ⟨paymaster, validationGas, postOpGas, validUntil, validAfter⟩ := a
  simp only [CommonFields.plain, Signature.CommonFields.mk.injEq] at hplain
  obtain ⟨-, rfl, rfl, rfl, rfl⟩ := hplain
  subst hpaymaster
  rfl

theorem length_paymaster (h : fields.plain.InRange) : fields.common.paymaster.length = 20 := by
  have hcommon : fields.common.plain.InRange := common_plain ▸ common_inRange h
  rw [← Spelling.length_bytes]
  exact hcommon.paymaster

theorem length_spelling {common : CommonFields} (h : common.paymaster.length = 20) : common.spelling.length = 64 := by
  simp [CommonFields.spelling, h]

theorem take_spelling {common : CommonFields} (h : common.paymaster.length = 20) (rest : Spelling) :
    (common.spelling ++ rest).take 20 = common.paymaster := by
  simp only [CommonFields.spelling, List.append_assoc]
  rw [← h, List.take_left]

/-- The paymaster, the tenant and what follows come back as they were spelled. -/
theorem fieldsOf_spelling (h : fields.plain.InRange) (rest : Spelling) :
    fieldsOf (fields.spelling ++ rest) fields.kind = fields := by
  have hplain : (fieldsOf (fields.spelling ++ rest) fields.kind).plain = fields.plain := by
    rw [plain_fieldsOf, Spelling.bytes_append, bytes_spelling, ← kind_plain]
    exact Signature.fieldsOf_bytes h _
  have hpaymaster := length_paymaster h
  cases fields with
  | verifying common =>
    have hcommon := common_ext (take_spelling hpaymaster rest) (Signature.PaymasterAndDataFields.verifying.inj hplain)
    exact congrArg PaymasterAndDataFields.verifying hcommon
  | tenant common key =>
    have hkey : key.length = 32 := by
      rw [← Spelling.length_bytes]
      exact h.2
    have h64 : common.spelling.length = 64 := length_spelling hpaymaster
    have hread : fieldsOf (common.spelling ++ key ++ rest) .tenant =
        .tenant (commonFieldsOf (common.spelling ++ (key ++ rest))) key := by
      rw [List.append_assoc, fieldsOf, ← h64, List.drop_left, ← hkey, List.take_left]
    have hcommon : commonFieldsOf (common.spelling ++ (key ++ rest)) = common :=
      common_ext (take_spelling hpaymaster _)
        (Signature.PaymasterAndDataFields.tenant.inj ((congrArg PaymasterAndDataFields.plain hread).symm.trans hplain)).1
    exact hread.trans (congrArg (PaymasterAndDataFields.tenant · key) hcommon)

/-- **The codec, on hex strings.** What was encoded decodes to the same fields and signature, as they were
spelled; what decodes with a signature of 64 or 65 bytes encodes to the same bytes when the paymaster in it is
spelled as an address may be, and is refused otherwise; and a string is rejected exactly when the contract
rejects its bytes, and read as the contract reads them otherwise. -/
theorem spelled_codec (viem : ViemHex) :
    (∀ fields : PaymasterAndDataFields, fields.plain.InRange → AddressSpelling viem.keccak256 fields.common.paymaster →
      ∀ signature : Spelling, signature.length = 64 ∨ signature.length = 65 →
        ∃ s, encodePaymasterAndData viem fields signature = .ok s ∧
          decodePaymasterAndData viem s fields.kind = .ok (fields, signature)) ∧
    (∀ kind s fields signature, decodePaymasterAndData viem s kind = .ok (fields, signature) →
      signature.length = 64 ∨ signature.length = 65 →
        (AddressSpelling viem.keccak256 (s.take 20) →
          ∃ t, encodePaymasterAndData viem fields signature = .ok t ∧ t.bytes = s.bytes) ∧
        (¬ AddressSpelling viem.keccak256 (s.take 20) → ∃ e, encodePaymasterAndData viem fields signature = .error e)) ∧
    (∀ s, match VerifyingPaymaster.parsePaymasterAndData s.bytes with
      | .error _ => ∃ e, decodePaymasterAndData viem s .verifying = .error e
      | .ok (validUntil, validAfter, signature) => ∃ fields signatureHex,
        decodePaymasterAndData viem s .verifying = .ok (fields, signatureHex) ∧ signatureHex.bytes = signature ∧
          fields.plain = .verifying
            ⟨s.bytes.take 20, wordAt s.bytes 20 36, wordAt s.bytes 36 52, validUntil.toNat, validAfter.toNat⟩) ∧
    (∀ s, match parsePaymasterAndData s.bytes with
      | .error _ => ∃ e, decodePaymasterAndData viem s .tenant = .error e
      | .ok (validUntil, validAfter, tenant, signature) => ∃ fields signatureHex,
        decodePaymasterAndData viem s .tenant = .ok (fields, signatureHex) ∧ signatureHex.bytes = signature ∧
          fields.plain = .tenant
            ⟨s.bytes.take 20, wordAt s.bytes 20 36, wordAt s.bytes 36 52, validUntil.toNat, validAfter.toNat⟩
            (hexOf tenant)) := by
  obtain ⟨-, -, hverifying, htenant⟩ := paymasterAndData_codec (viemOf viem.keccak256)
  refine ⟨?_, ?_, ?_, ?_⟩
  · intro fields hrange hspelling signature hlength
    refine ⟨_, encode_ok.mpr ⟨hspelling, hrange, hlength, rfl⟩, ?_⟩
    have hbytes : fields.spelling.length = (layoutFor fields.kind).signatureOffset := by
      rw [← Spelling.length_bytes, bytes_spelling, ← kind_plain]
      exact Signature.length_bytes hrange
    rw [decode_eq (by rw [List.length_append, hbytes]; omega), fieldsOf_spelling hrange, ← hbytes, List.drop_left]
  · intro kind s fields signature h hlength
    obtain ⟨hoffset, rfl, rfl⟩ := decode_ok h
    have hpaymaster : (fieldsOf s kind).common.paymaster = s.take 20 := by cases kind <;> rfl
    have hbytes : (layoutFor kind).signatureOffset ≤ s.bytes.length := by rwa [Spelling.length_bytes]
    constructor
    · intro hspelling
      have hrange : (fieldsOf s kind).plain.InRange := plain_fieldsOf ▸ Signature.fieldsOf_inRange hbytes
      refine ⟨_, encode_ok.mpr ⟨hpaymaster ▸ hspelling, hrange, hlength, rfl⟩, ?_⟩
      rw [Spelling.bytes_append, bytes_spelling, plain_fieldsOf, Signature.bytes_fieldsOf hbytes, Spelling.bytes_drop,
        List.take_append_drop]
    · intro hspelling
      cases hencode : encodePaymasterAndData viem (fieldsOf s kind) (s.drop (layoutFor kind).signatureOffset) with
      | error e => exact ⟨e, rfl⟩
      | ok t => exact absurd (hpaymaster ▸ (encode_ok.mp hencode).1) hspelling
  · intro s
    have hbytewise := hverifying s.bytes
    cases hparse : VerifyingPaymaster.parsePaymasterAndData s.bytes with
    | error e =>
      rw [hparse] at hbytewise
      exact decode_refused hbytewise
    | ok parsed =>
      rw [hparse] at hbytewise
      exact decode_plain hbytewise
  · intro s
    have hbytewise := htenant s.bytes
    cases hparse : parsePaymasterAndData s.bytes with
    | error e =>
      rw [hparse] at hbytewise
      exact decode_refused hbytewise
    | ok parsed =>
      rw [hparse] at hbytewise
      exact decode_plain hbytewise

end

/-- Keccak-256 where it is asked here, on the forty letters `abab…ab`. -/
def keccakOfLetters (data : Data) : Bytes32 :=
  if data = (List.replicate 20 [97, 98]).flatten then
    0x8a1a4e6f8e56fe52a1d1baf3a93624563c3e9c7ca3f83324de4c7396d505025e#256
  else 0

/-- The address `0xABAB…AB` in capitals; its checksum spelling begins `0xABaBaBaBABab`. -/
def capitals : Spelling := List.replicate 20 ⟨.toUpperCase (.lower ⟨10, by decide⟩), .toUpperCase (.lower ⟨11, by decide⟩)⟩

def capitalData : Spelling :=
  capitals ++ Spelling.ofBytes (List.replicate 44 0) ++ Spelling.ofBytes (List.replicate 65 0x11)

theorem reencoding_refused : ∃ fields signature,
    decodePaymasterAndData (viemHexOf keccakOfLetters) capitalData .verifying = .ok (fields, signature) ∧
      signature.length = 65 ∧
      encodePaymasterAndData (viemHexOf keccakOfLetters) fields signature =
        .error (.invalidPaymasterData "invalid paymaster address: 0xABABABABABABABABABABABABABABABABABABABAB") := by
  refine ⟨_, _, decode_eq (by decide +kernel), by decide +kernel, ?_⟩
  decide +kernel

end Paymaster.Spelled
