import Paymaster.Backend.TypedData
import Paymaster.Contracts.PackedOperation

/-!
# The operation as the SDK packs and hashes it

The SDK keeps an operation unpacked. It packs it inside the hash that the
account signs, which is the hash by which EntryPoint v0.7 knows the operation.
-/

namespace Paymaster.Sdk

open Bytes Eip712 Signature

/-- A `UserOperation` of the SDK: byte strings and numbers, the paymaster's fields not there before a sponsorship. -/
structure UserOperation where
  sender : Data
  nonce : Nat
  factory : Option Data
  factoryData : Option Data
  callData : Data
  callGasLimit : Nat
  verificationGasLimit : Nat
  preVerificationGas : Nat
  maxFeePerGas : Nat
  maxPriorityFeePerGas : Nat
  paymaster : Option Data
  paymasterVerificationGasLimit : Option Nat
  paymasterPostOpGasLimit : Option Nat
  paymasterData : Option Data
  signature : Data
deriving DecidableEq

section
variable (viem : Viem)

def packUint128Pair (high low : Nat) (label : String) : Except Thrown Data :=
  let max := 2 ^ 128 - 1
  if max < high then .error (.valueOutOfRange (label ++ " high half") high)
  else if max < low then .error (.valueOutOfRange (label ++ " low half") low)
  else viem.numberToHex (high <<< 128 ||| low) 32

def encodeInitCode (op : UserOperation) : Data :=
  match op.factory with
  | none => []
  | some factory => viem.concatHex [factory, op.factoryData.getD []]

def encodePaymasterAndData (op : UserOperation) : Except Thrown Data :=
  match op.paymaster with
  | none => .ok []
  | some paymaster => do
    let verificationGas ← viem.numberToHex (op.paymasterVerificationGasLimit.getD 0) 16
    let postOpGas ← viem.numberToHex (op.paymasterPostOpGasLimit.getD 0) 16
    .ok (viem.concatHex [paymaster, verificationGas, postOpGas, op.paymasterData.getD []])

def packed (op : UserOperation) : Except Thrown PackedUserOperation := do
  let accountGasLimits ← packUint128Pair viem op.verificationGasLimit op.callGasLimit "accountGasLimits"
  let gasFees ← packUint128Pair viem op.maxPriorityFeePerGas op.maxFeePerGas "gasFees"
  let paymasterAndData ← encodePaymasterAndData viem op
  .ok
    { sender := BitVec.ofNat 160 (ofBytes op.sender)
      nonce := BitVec.ofNat 256 op.nonce
      initCode := encodeInitCode viem op
      callData := op.callData
      accountGasLimits := BitVec.ofNat 256 (ofBytes accountGasLimits)
      preVerificationGas := BitVec.ofNat 256 op.preVerificationGas
      gasFees := BitVec.ofNat 256 (ofBytes gasFees)
      paymasterAndData := paymasterAndData
      signature := op.signature }

def getUserOperationHash (op : UserOperation) (entryPoint : Data) (chainId : Nat) : Except Thrown Bytes32 := do
  let accountGasLimits ← packUint128Pair viem op.verificationGasLimit op.callGasLimit "accountGasLimits"
  let gasFees ← packUint128Pair viem op.maxPriorityFeePerGas op.maxFeePerGas "gasFees"
  let paymasterAndData ← encodePaymasterAndData viem op
  let encoded ← viem.encodeAbiParameters
    [(.address, .hex op.sender), (.uint 256, .number op.nonce),
      (.bytes32, .hex (hexOf (viem.keccak256 (encodeInitCode viem op)))),
      (.bytes32, .hex (hexOf (viem.keccak256 op.callData))), (.bytes32, .hex accountGasLimits),
      (.uint 256, .number op.preVerificationGas), (.bytes32, .hex gasFees),
      (.bytes32, .hex (hexOf (viem.keccak256 paymasterAndData)))]
  let outer ← viem.encodeAbiParameters
    [(.bytes32, .hex (hexOf (viem.keccak256 encoded))), (.address, .hex entryPoint), (.uint 256, .number chainId)]
  .ok (viem.keccak256 outer)

end

section
variable {viem : Viem} {op : UserOperation}

theorem packUint128Pair_ok {high low : Nat} {label : String} (hhigh : high < 2 ^ 128) (hlow : low < 2 ^ 128) :
    packUint128Pair viem high low label = .ok (hexOf (BitVec.ofNat 256 (high * 2 ^ 128 + low))) := by
  have hlt : high * 2 ^ 128 + low < 2 ^ 256 := by omega
  have hor : high <<< 128 ||| low = high * 2 ^ 128 + low := by
    rw [← Nat.shiftLeft_add_eq_or_of_lt hlow, Nat.shiftLeft_eq]
  have hfits : viem.numberToHex (high * 2 ^ 128 + low) 32 = .ok (beBytes 32 (high * 2 ^ 128 + low)) :=
    viem.numberToHex_fits _ 32 (Nat.lt_of_lt_of_eq hlt (by decide))
  unfold packUint128Pair
  rw [if_neg (by omega), if_neg (by omega), hor, hfits, hexOf, BitVec.toNat_ofNat, Nat.mod_eq_of_lt hlt]

theorem ofNat_hexOf {w : Nat} (hw : 8 * (w / 8) = w) (x : BitVec w) : BitVec.ofNat w (ofBytes (hexOf x)) = x := by
  have hpow : 256 ^ (w / 8) = 2 ^ w := by
    conv_rhs => rw [← hw, Nat.pow_mul]
  rw [hexOf, ofBytes_beBytes _ _ (hpow ▸ x.isLt), BitVec.ofNat_toNat, BitVec.setWidth_eq]

theorem hexOf_ofNat {d : Data} (h : d.length = 20) : hexOf (BitVec.ofNat 160 (ofBytes d)) = d := by
  have hlt : ofBytes d < 2 ^ 160 := Nat.lt_of_lt_of_eq (ofBytes_lt d) (by rw [h]; decide)
  have hbytes : beBytes 20 (ofBytes d) = d := h ▸ beBytes_ofBytes d
  rw [hexOf, BitVec.toNat_ofNat, Nat.mod_eq_of_lt hlt]
  exact hbytes

theorem abiEncode_cons {type : FieldType} {value : Value} {w : Data} {rest : List (FieldType × Value)} {ws : Data}
    (htype : type ≠ .string) (hfield : encodeField (fun _ => 0) type value = some w) (hrest : abiEncode rest = some ws) :
    abiEncode ((type, value) :: rest) = some (w ++ ws) := by
  cases type with
  | string => exact absurd rfl htype
  | address => simp only [abiEncode, hfield, hrest, Option.bind_eq_bind, Option.bind_some]
  | bytes32 => simp only [abiEncode, hfield, hrest, Option.bind_eq_bind, Option.bind_some]
  | uint bits => simp only [abiEncode, hfield, hrest, Option.bind_eq_bind, Option.bind_some]

structure UserOperation.InRange (op : UserOperation) : Prop where
  sender : op.sender.length = 20
  nonce : op.nonce < 2 ^ 256
  callGasLimit : op.callGasLimit < 2 ^ 128
  verificationGasLimit : op.verificationGasLimit < 2 ^ 128
  preVerificationGas : op.preVerificationGas < 2 ^ 256
  maxFeePerGas : op.maxFeePerGas < 2 ^ 128
  maxPriorityFeePerGas : op.maxPriorityFeePerGas < 2 ^ 128

/-- The packed form of an operation in range. -/
theorem packed_eq (hr : op.InRange) {paymasterAndData : Data}
    (hdata : encodePaymasterAndData viem op = .ok paymasterAndData) :
    packed viem op = .ok
      { sender := BitVec.ofNat 160 (ofBytes op.sender)
        nonce := BitVec.ofNat 256 op.nonce
        initCode := encodeInitCode viem op
        callData := op.callData
        accountGasLimits := BitVec.ofNat 256 (op.verificationGasLimit * 2 ^ 128 + op.callGasLimit)
        preVerificationGas := BitVec.ofNat 256 op.preVerificationGas
        gasFees := BitVec.ofNat 256 (op.maxPriorityFeePerGas * 2 ^ 128 + op.maxFeePerGas)
        paymasterAndData := paymasterAndData
        signature := op.signature } := by
  unfold packed
  rw [packUint128Pair_ok hr.verificationGasLimit hr.callGasLimit,
    packUint128Pair_ok hr.maxPriorityFeePerGas hr.maxFeePerGas, hdata]
  simp only [bind, Except.bind]
  rw [ofNat_hexOf rfl, ofNat_hexOf rfl]

theorem encodeAbiParameters_inner (hr : op.InRange) (initCodeHash callDataHash accountGasLimits gasFees dataHash : Bytes32) :
    viem.encodeAbiParameters
        [(.address, .hex op.sender), (.uint 256, .number op.nonce), (.bytes32, .hex (hexOf initCodeHash)),
          (.bytes32, .hex (hexOf callDataHash)), (.bytes32, .hex (hexOf accountGasLimits)),
          (.uint 256, .number op.preVerificationGas), (.bytes32, .hex (hexOf gasFees)),
          (.bytes32, .hex (hexOf dataHash))] =
      .ok (word (BitVec.ofNat 160 (ofBytes op.sender)) ++ word (BitVec.ofNat 256 op.nonce) ++ word initCodeHash ++
        word callDataHash ++ word accountGasLimits ++ word (BitVec.ofNat 256 op.preVerificationGas) ++ word gasFees ++
        word dataHash) := by
  have hsender := @encodeField_address (fun _ => 0) (BitVec.ofNat 160 (ofBytes op.sender))
  have hnonce := @encodeField_uint (fun _ => 0) 256 (Nat.le_refl _) (BitVec.ofNat 256 op.nonce)
  have hpre := @encodeField_uint (fun _ => 0) 256 (Nat.le_refl _) (BitVec.ofNat 256 op.preVerificationGas)
  rw [hexOf_ofNat hr.sender] at hsender
  rw [BitVec.toNat_ofNat, Nat.mod_eq_of_lt hr.nonce] at hnonce
  rw [BitVec.toNat_ofNat, Nat.mod_eq_of_lt hr.preVerificationGas] at hpre
  apply viem.encodeAbiParameters_some
  rw [abiEncode_cons (by simp) hsender (abiEncode_cons (by simp) hnonce (abiEncode_cons (by simp)
    (encodeField_bytes32 _) (abiEncode_cons (by simp) (encodeField_bytes32 _) (abiEncode_cons (by simp)
      (encodeField_bytes32 _) (abiEncode_cons (by simp) hpre (abiEncode_cons (by simp) (encodeField_bytes32 _)
        (abiEncode_cons (by simp) (encodeField_bytes32 _) rfl)))))))]
  simp only [List.append_assoc, List.append_nil]

theorem encodeAbiParameters_outer (inner : Bytes32) (entryPoint : Address) (chainId : Uint256) :
    viem.encodeAbiParameters [(.bytes32, .hex (hexOf inner)), (.address, .hex (hexOf entryPoint)),
        (.uint 256, .number chainId.toNat)] =
      .ok (word inner ++ word entryPoint ++ word chainId) := by
  apply viem.encodeAbiParameters_some
  rw [abiEncode_cons (by simp) (encodeField_bytes32 _) (abiEncode_cons (by simp) (encodeField_address _)
    (abiEncode_cons (by simp) (encodeField_uint (Nat.le_refl _) _) rfl))]
  simp only [List.append_assoc, List.append_nil]

/-- The hash that the account signs is the EntryPoint's hash of the packed form. -/
theorem getUserOperationHash_eq (hr : op.InRange) {p : PackedUserOperation} (hp : packed viem op = .ok p)
    (entryPoint : Address) (chainId : Uint256) :
    getUserOperationHash viem op (hexOf entryPoint) chainId.toNat =
      .ok (userOpHash viem.keccak256 p entryPoint chainId) := by
  cases hdata : encodePaymasterAndData viem op with
  | error e =>
    unfold packed at hp
    rw [packUint128Pair_ok hr.verificationGasLimit hr.callGasLimit,
      packUint128Pair_ok hr.maxPriorityFeePerGas hr.maxFeePerGas, hdata] at hp
    cases hp
  | ok paymasterAndData =>
    rw [packed_eq hr hdata, Except.ok.injEq] at hp
    subst hp
    unfold getUserOperationHash
    rw [packUint128Pair_ok hr.verificationGasLimit hr.callGasLimit,
      packUint128Pair_ok hr.maxPriorityFeePerGas hr.maxFeePerGas, hdata]
    simp only [bind, Except.bind]
    rw [encodeAbiParameters_inner hr]
    simp only
    rw [encodeAbiParameters_outer]
    rfl

end

end Paymaster.Sdk
