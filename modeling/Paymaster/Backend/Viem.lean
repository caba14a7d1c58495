import Paymaster.Contracts.Types
import Paymaster.Lib.Eip712

/-!
# What is used of viem

The backend and the SDK hold byte strings as hex strings and leave it to viem
to cut, join, number and hash them. `Viem` is that part of the library, with
the documented behaviour that is relied on; `viemOf` has it, over any hash.
Bytes stand for their spelling in lower case, and those of an address also for
its checksum spelling: viem takes an address in these two and no other, and
does not read the case of a letter anywhere else.
-/

namespace Paymaster

open Bytes Eip712

inductive Thrown
  | viem
  | valueOutOfRange (label : String) (value : Nat)
  | invalidPaymasterData (message : String)
  | invalidSponsorshipRequest (message : String)
  | signer
  | typeError
deriving DecidableEq

structure Viem where
  keccak256 : Data → Bytes32
  isAddress : Data → Bool
  size : Data → Nat
  concatHex : List Data → Data
  /-- `slice(value, start, end)`. -/
  slice : Data → Nat → Option Nat → Except Thrown Data
  hexToBigInt : Data → Nat
  /-- `numberToHex(value, {size})`, and `toHex` of a number. -/
  numberToHex : Nat → Nat → Except Thrown Data
  /-- `numberToHex(value)`, as text. -/
  numberToText : Nat → List Char
  encodeAbiParameters : List (FieldType × Value) → Except Thrown Data
  hashTypedData : Domain → String → List Field → Message → Except Thrown Bytes32
  isAddress_iff : ∀ d, isAddress d = true ↔ d.length = 20
  size_eq : ∀ d, size d = d.length
  concatHex_eq : ∀ ds, concatHex ds = ds.flatten
  slice_within : ∀ d i j, i < d.length → j ≤ d.length → slice d i (some j) = .ok ((d.drop i).take (j - i))
  slice_rest : ∀ d i, i < d.length → slice d i none = .ok (d.drop i)
  hexToBigInt_eq : ∀ d, d ≠ [] → hexToBigInt d = ofBytes d
  numberToHex_fits : ∀ n k, n < 256 ^ k → numberToHex n k = .ok (beBytes k n)
  numberToHex_overflows : ∀ n k, 256 ^ k ≤ n → ∃ e, numberToHex n k = .error e
  numberToText_eq : ∀ n, numberToText n = '0' :: 'x' :: Nat.toDigits 16 n
  encodeAbiParameters_some : ∀ ps data, abiEncode ps = some data → encodeAbiParameters ps = .ok data
  hashTypedData_some : ∀ domain type fields message digest,
    Eip712.hashTypedData keccak256 domain type fields message = some digest →
      hashTypedData domain type fields message = .ok digest
  hashTypedData_none : ∀ domain type fields message,
    Eip712.hashTypedData keccak256 domain type fields message = none →
      ∃ e, hashTypedData domain type fields message = .error e

theorem starts_within {i n : Nat} (hi : i < n) : ¬ (0 < i ∧ n ≤ i) := by omega

def viemOf (keccak256 : Data → Bytes32) : Viem where
  keccak256 := keccak256
  isAddress d := d.length == 20
  size := List.length
  concatHex := List.flatten
  slice d i
    | none => if 0 < i ∧ d.length ≤ i then .error .viem else .ok (d.drop i)
    | some j => if 0 < i ∧ d.length ≤ i then .error .viem else .ok ((d.drop i).take (j - i))
  hexToBigInt := ofBytes
  numberToHex n k := if n < 256 ^ k then .ok (beBytes k n) else .error .viem
  numberToText n := '0' :: 'x' :: Nat.toDigits 16 n
  encodeAbiParameters ps :=
    match abiEncode ps with
    | some data => .ok data
    | none => .error .viem
  hashTypedData domain type fields message :=
    match Eip712.hashTypedData keccak256 domain type fields message with
    | some digest => .ok digest
    | none => .error .viem
  isAddress_iff d := beq_iff_eq
  size_eq d := rfl
  concatHex_eq ds := rfl
  slice_within d i j hi _ := if_neg (starts_within hi)
  slice_rest d i hi := if_neg (starts_within hi)
  hexToBigInt_eq d _ := rfl
  numberToHex_fits n k h := if_pos h
  numberToHex_overflows n k h := ⟨.viem, if_neg (Nat.not_lt.mpr h)⟩
  numberToText_eq n := rfl
  encodeAbiParameters_some ps data h := by simp only [h]
  hashTypedData_some domain type fields message digest h := by simp only [h]
  hashTypedData_none domain type fields message h := ⟨.viem, by simp only [h]⟩

def hexOf {w : Nat} (x : BitVec w) : Data := beBytes (w / 8) x.toNat

@[simp] theorem length_hexOf {w : Nat} (x : BitVec w) : (hexOf x).length = w / 8 := length_beBytes ..

theorem Viem.hashTypedData_ok (viem : Viem) {domain : Domain} {type : String} {fields : List Field} {message : Message}
    {digest : Bytes32} :
    viem.hashTypedData domain type fields message = .ok digest ↔
      Eip712.hashTypedData viem.keccak256 domain type fields message = some digest := by
  refine ⟨fun h => ?_, viem.hashTypedData_some _ _ _ _ _⟩
  cases hsome : Eip712.hashTypedData viem.keccak256 domain type fields message with
  | none =>
    obtain ⟨e, he⟩ := viem.hashTypedData_none _ _ _ _ hsome
    rw [he] at h
    cases h
  | some digest' =>
    rw [viem.hashTypedData_some _ _ _ _ _ hsome] at h
    rw [Except.ok.inj h]

theorem Viem.numberToHex_ok (viem : Viem) {n k : Nat} {d : Data} (h : viem.numberToHex n k = .ok d) :
    n < 256 ^ k ∧ d = beBytes k n := by
  by_cases hn : n < 256 ^ k
  · rw [viem.numberToHex_fits n k hn] at h
    exact ⟨hn, (Except.ok.inj h).symm⟩
  · obtain ⟨e, he⟩ := viem.numberToHex_overflows n k (Nat.not_lt.mp hn)
    rw [he] at h
    cases h

end Paymaster
