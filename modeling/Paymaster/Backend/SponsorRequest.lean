import Paymaster.Backend.PolicyFactory
import Paymaster.Backend.UserOperation

/-!
# The sponsor request

What `POST /paymaster/sponsor` accepts: the unpacked operation, quantities as
hex or decimal text. It is packed once, and priced at the most it can cost.
-/

namespace Paymaster.Api

/-! ## The schema -/

structure WireUserOperation where
  sender : Data
  nonce : List Char
  factory : Option Data
  factoryData : Option Data
  callData : Data
  callGasLimit : List Char
  verificationGasLimit : List Char
  preVerificationGas : List Char
  maxFeePerGas : List Char
  maxPriorityFeePerGas : List Char
  signature : Option Data
deriving DecidableEq

structure WireRequest where
  chainId : Nat
  userOperation : WireUserOperation
  policyId : Option String
deriving DecidableEq

structure UnpackedUserOperation where
  sender : Data
  nonce : Nat
  factory : Option Data
  factoryData : Option Data
  callData : Data
  callGasLimit : Nat
  verificationGasLimit : Nat
  preVerificationGas : Nat
  maxFeePerGas : Nat
  maxPriorityFeePerGas : Nat
  signature : Option Data
deriving DecidableEq

structure SponsorRequest where
  chainId : Nat
  userOperation : UnpackedUserOperation
  policyId : Option String
deriving DecidableEq

def address (value : Data) : Option Data := if value.length = 20 then some value else none

/-- `BigInt` of hex or decimal text. It throws on a bare prefix. -/
def bigInt : List Char → Option Nat
  | '0' :: 'x' :: digits => if digits = [] then none else Numeral.read 16 digits
  | digits => if digits = [] then none else Numeral.read 10 digits

def quantity (value : List Char) : Option Nat := (bigInt value).filter fun n => n ≤ 2 ^ 256 - 1

def uint128 (value : List Char) : Option Nat := (quantity value).filter fun n => n ≤ uint128Max

def optional {α β : Type} (schema : α → Option β) : Option α → Option (Option β)
  | none => some none
  | some value => (schema value).map some

def policyId (value : String) : Option String :=
  if 1 ≤ Schema.utf16Length value ∧ Schema.utf16Length value ≤ 128 then some value else none

def sponsorRequestSchema (request : WireRequest) : Option SponsorRequest := do
  let op := request.userOperation
  let sender ← address op.sender
  let nonce ← quantity op.nonce
  let factory ← optional address op.factory
  let callGasLimit ← uint128 op.callGasLimit
  let verificationGasLimit ← uint128 op.verificationGasLimit
  let preVerificationGas ← quantity op.preVerificationGas
  let maxFeePerGas ← uint128 op.maxFeePerGas
  let maxPriorityFeePerGas ← uint128 op.maxPriorityFeePerGas
  let policyId ← optional policyId request.policyId
  if 0 < request.chainId ∧ request.chainId ≤ Schema.maxSafeInteger ∧ factory.isNone = op.factoryData.isNone ∧ maxPriorityFeePerGas ≤ maxFeePerGas then
    some ⟨request.chainId,
      ⟨sender, nonce, factory, op.factoryData, op.callData, callGasLimit, verificationGasLimit, preVerificationGas,
        maxFeePerGas, maxPriorityFeePerGas, op.signature⟩, policyId⟩
  else none

/-! ## Packing and pricing -/

/-- `toPackedUserOperation`: the caller has no say in `paymasterAndData`. -/
def toPackedUserOperation (op : UnpackedUserOperation) : Except Thrown PackedUserOperation := do
  let initCode ← (match op.factory, op.factoryData with
    | none, _ => .ok []
    | some factory, some factoryData => .ok (factory ++ factoryData)
    | some _, none => .error .typeError : Except Thrown Data)
  let accountGasLimits ← packUint128Pair op.verificationGasLimit op.callGasLimit "accountGasLimits"
  let gasFees ← packUint128Pair op.maxPriorityFeePerGas op.maxFeePerGas "gasFees"
  .ok
    { sender := BitVec.ofNat 160 (Bytes.ofBytes op.sender)
      nonce := BitVec.ofNat 256 op.nonce
      initCode := initCode
      callData := op.callData
      accountGasLimits := BitVec.ofNat 256 accountGasLimits
      preVerificationGas := BitVec.ofNat 256 op.preVerificationGas
      gasFees := BitVec.ofNat 256 gasFees
      paymasterAndData := []
      signature := op.signature.getD [] }

/-- `calculateMaxCost`: priced at the limits that are about to be committed to. -/
def calculateMaxCost (userOp : PackedUserOperation) (paymasterVerificationGasLimit postOpGasLimit : Nat) : Nat :=
  (verificationGasLimit userOp + callGasLimit userOp + paymasterVerificationGasLimit + postOpGasLimit +
    userOp.preVerificationGas.toNat) * maxFeePerGas userOp

/-! ## What is accepted -/

structure UnpackedUserOperation.InRange (op : UnpackedUserOperation) : Prop where
  sender : op.sender.length = 20
  nonce : op.nonce < 2 ^ 256
  factory : op.factory.isNone = op.factoryData.isNone
  callGasLimit : op.callGasLimit < 2 ^ 128
  verificationGasLimit : op.verificationGasLimit < 2 ^ 128
  preVerificationGas : op.preVerificationGas < 2 ^ 256
  maxFeePerGas : op.maxFeePerGas < 2 ^ 128
  maxPriorityFeePerGas : op.maxPriorityFeePerGas < 2 ^ 128

theorem quantity_lt {value : List Char} {n : Nat} (h : quantity value = some n) : n < 2 ^ 256 := by
  obtain ⟨-, h⟩ := Option.filter_eq_some_iff.mp h
  have hle : n ≤ 2 ^ 256 - 1 := by simpa using h
  omega

theorem uint128_lt {value : List Char} {n : Nat} (h : uint128 value = some n) : n < 2 ^ 128 := by
  obtain ⟨-, h⟩ := Option.filter_eq_some_iff.mp h
  have hle : n ≤ uint128Max := by simpa using h
  unfold uint128Max at hle
  omega

theorem bigInt_toDigits (n : Nat) : bigInt ('0' :: 'x' :: Nat.toDigits 16 n) = some n := by
  have hne : Nat.toDigits 16 n ≠ [] := Nat.toDigits_ne_nil
  rw [bigInt, if_neg hne, Numeral.read_toDigits (by decide) (by decide)]

theorem bigInt_of_second {first second : Char} {rest : List Char}
    (h : Numeral.read 10 (first :: second :: rest) = none) (hsecond : second ≠ 'x') :
    bigInt (first :: second :: rest) = none := by
  unfold bigInt
  split
  · rename_i heq
    injection heq with _ htail
    injection htail with hx
    exact absurd hx hsecond
  · rw [if_neg (List.cons_ne_nil _ _), h]

theorem bigInt_decimal (n : Nat) : bigInt (Nat.toDigits 10 n) = some n := by
  have hne : Nat.toDigits 10 n ≠ [] := Nat.toDigits_ne_nil
  have hread := @Numeral.read_toDigits 10 (by decide) (by decide) n
  unfold bigInt
  split
  · rename_i digits hdigits
    rw [hdigits] at hread
    have hletter : Numeral.read 10 ('0' :: 'x' :: digits) = none := by
      have hx : Numeral.readDigit 10 0 'x' = none := by decide
      have h0 : Numeral.readDigit 10 0 '0' = some 0 := by decide
      simp [Numeral.read, List.foldlM_cons, h0, hx]
    rw [hletter] at hread
    cases hread
  · rw [if_neg hne, hread]

structure ReadFrom (wire : WireRequest) (request : SponsorRequest) : Prop where
  chainId : request.chainId = wire.chainId
  sender : address wire.userOperation.sender = some request.userOperation.sender
  nonce : quantity wire.userOperation.nonce = some request.userOperation.nonce
  factory : optional address wire.userOperation.factory = some request.userOperation.factory
  factoryData : request.userOperation.factoryData = wire.userOperation.factoryData
  callData : request.userOperation.callData = wire.userOperation.callData
  callGasLimit : uint128 wire.userOperation.callGasLimit = some request.userOperation.callGasLimit
  verificationGasLimit : uint128 wire.userOperation.verificationGasLimit = some request.userOperation.verificationGasLimit
  preVerificationGas : quantity wire.userOperation.preVerificationGas = some request.userOperation.preVerificationGas
  maxFeePerGas : uint128 wire.userOperation.maxFeePerGas = some request.userOperation.maxFeePerGas
  maxPriorityFeePerGas : uint128 wire.userOperation.maxPriorityFeePerGas = some request.userOperation.maxPriorityFeePerGas
  signature : request.userOperation.signature = wire.userOperation.signature
  together : request.userOperation.factory.isNone = wire.userOperation.factoryData.isNone
  policyId : request.policyId = wire.policyId

theorem optional_some {α : Type} {schema : α → Option α} {o o' : Option α}
    (hschema : ∀ a b, schema a = some b → b = a) (h : optional schema o = some o') : o' = o := by
  cases o with
  | none => exact (Option.some.inj h).symm
  | some a =>
    obtain ⟨b, hb, rfl⟩ := Option.map_eq_some_iff.mp h
    rw [hschema a b hb]

theorem address_some {d d' : Data} (h : address d = some d') : d' = d ∧ d.length = 20 := by
  obtain ⟨hlength, heq⟩ := Option.ite_none_right_eq_some.mp h
  exact ⟨(Option.some.inj heq).symm, hlength⟩

theorem schema_readFrom {wire : WireRequest} {request : SponsorRequest}
    (h : sponsorRequestSchema wire = some request) : ReadFrom wire request := by
  simp only [sponsorRequestSchema, Option.bind_eq_bind, Option.bind_eq_some_iff, Option.ite_none_right_eq_some,
    Option.some.injEq] at h
  obtain ⟨sender, hsender, nonce, hnonce, factory, hfactory, callGas, hcall, verificationGas, hverification, preGas, hpre,
    maxFee, hfee, maxPriority, hpriority, policyId, hpolicy, ⟨-, -, htogether, -⟩, rfl⟩ := h
  have hpolicyId : policyId = wire.policyId := by
    apply optional_some _ hpolicy
    intro a b hab
    exact (Option.some.inj (Option.ite_none_right_eq_some.mp hab).2).symm
  exact ⟨rfl, hsender, hnonce, hfactory, rfl, rfl, hcall, hverification, hpre, hfee, hpriority, rfl, htogether, hpolicyId⟩

theorem schema_ok {wire : WireRequest} {request : SponsorRequest} (h : sponsorRequestSchema wire = some request) :
    request.userOperation.InRange := by
  have hread := schema_readFrom h
  constructor
  · obtain ⟨heq, hlength⟩ := address_some hread.sender
    rw [heq]
    exact hlength
  · exact quantity_lt hread.nonce
  · rw [hread.factoryData]
    exact hread.together
  · exact uint128_lt hread.callGasLimit
  · exact uint128_lt hread.verificationGasLimit
  · exact quantity_lt hread.preVerificationGas
  · exact uint128_lt hread.maxFeePerGas
  · exact uint128_lt hread.maxPriorityFeePerGas

/-- The gas values of an operation survive the packing, each in its place. -/
theorem toPackedUserOperation_gas {op : UnpackedUserOperation} {userOp : PackedUserOperation} (hr : op.InRange)
    (h : toPackedUserOperation op = .ok userOp) :
    verificationGasLimit userOp = op.verificationGasLimit ∧ callGasLimit userOp = op.callGasLimit ∧
      userOp.preVerificationGas.toNat = op.preVerificationGas ∧ maxFeePerGas userOp = op.maxFeePerGas ∧
      maxPriorityFeePerGas userOp = op.maxPriorityFeePerGas := by
  obtain ⟨initCode, -, h⟩ := bind_ok h
  obtain ⟨accountGasLimits, hlimits, h⟩ := bind_ok h
  obtain ⟨gasFees, hfees, h⟩ := bind_ok h
  obtain rfl := (Except.ok.inj h).symm
  have hl := unpackUint128Pair_pack hlimits
  have hf := unpackUint128Pair_pack hfees
  refine ⟨?_, ?_, ?_, ?_, ?_⟩
  · exact congrArg Prod.fst hl
  · exact congrArg Prod.snd hl
  · exact (BitVec.toNat_ofNat _ _).trans (Nat.mod_eq_of_lt hr.preVerificationGas)
  · exact congrArg Prod.snd hf
  · exact congrArg Prod.fst hf

theorem calculateMaxCost_packed {op : UnpackedUserOperation} {userOp : PackedUserOperation} (hr : op.InRange)
    (h : toPackedUserOperation op = .ok userOp) (paymasterVerificationGasLimit postOpGasLimit : Nat) :
    calculateMaxCost userOp paymasterVerificationGasLimit postOpGasLimit =
      (op.verificationGasLimit + op.callGasLimit + paymasterVerificationGasLimit + postOpGasLimit +
        op.preVerificationGas) * op.maxFeePerGas := by
  obtain ⟨hverification, hcall, hpre, hfee, -⟩ := toPackedUserOperation_gas hr h
  rw [calculateMaxCost, hverification, hcall, hpre, hfee]

end Paymaster.Api
