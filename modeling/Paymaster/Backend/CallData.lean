import Paymaster.Backend.Viem
import Paymaster.Lib.Abi
import Paymaster.Lib.Traverse

/-!
# The calls of an operation

What an account will call is read off the call data it is handed, for the two
functions that the backend knows. Data that is no call of these two, or a batch
whose arrays are not parallel, is unknown; it is never an empty list of calls.
-/

namespace Paymaster

open Bytes Abi

structure AccountCall where
  dest : Address
  value : Uint256
  func : Data
deriving DecidableEq

inductive AccountExecution
  | execute (dest : Address) (value : Uint256) (func : Data)
  | executeBatch (dest : List Address) (value : List Uint256) (func : List Data)
deriving DecidableEq

namespace AccountExecution

def executeSelector : Data := [0xb6, 0x1d, 0x27, 0xf6]

def executeBatchSelector : Data := [0x47, 0xe1, 0xda, 0x2a]

def executeInputs : List AbiType := [.address, .uint256, .bytes]

def executeBatchInputs : List AbiType := [.array .address, .array .uint256, .array .bytes]

def encode : AccountExecution → Data
  | .execute dest value func => executeSelector ++ encodeArgs executeInputs (dest, value, func, ())
  | .executeBatch dest value func => executeBatchSelector ++ encodeArgs executeBatchInputs (dest, value, func, ())

/-- What call data says by the rules of the ABI. -/
def read (callData : Data) : Option AccountExecution :=
  if callData.take 4 = executeSelector then
    (readArgs (callData.drop 4) executeInputs).map fun (dest, value, func, _) => .execute dest value func
  else if callData.take 4 = executeBatchSelector then
    (readArgs (callData.drop 4) executeBatchInputs).map fun (dest, value, func, _) => .executeBatch dest value func
  else none

/-- The calls in their order, if the arrays of a batch are parallel. -/
def calls : AccountExecution → Option (List AccountCall)
  | .execute dest value func => some [⟨dest, value, func⟩]
  | .executeBatch dest value func =>
    if dest.length ≠ value.length ∨ dest.length ≠ func.length then none
    else some ((dest.zip (value.zip func)).map fun (dest, value, func) => ⟨dest, value, func⟩)

theorem read_encode {e : AccountExecution} (h : e.encode.length < 2 ^ 256) : read e.encode = some e := by
  cases e with
  | execute dest value func =>
    have hsize : (encodeArgs executeInputs (dest, value, func, ())).length < 2 ^ 256 := by
      simp only [encode, List.length_append] at h
      omega
    have hargs := readArgs_encodeArgs hsize []
    rw [List.append_nil] at hargs
    have htake : (encode (.execute dest value func)).take 4 = executeSelector := List.take_left' rfl
    have hdrop : (encode (.execute dest value func)).drop 4 = encodeArgs executeInputs (dest, value, func, ()) :=
      List.drop_left' rfl
    rw [read, if_pos htake, hdrop, hargs]
    rfl
  | executeBatch dest value func =>
    have hsize : (encodeArgs executeBatchInputs (dest, value, func, ())).length < 2 ^ 256 := by
      simp only [encode, List.length_append] at h
      omega
    have hargs := readArgs_encodeArgs hsize []
    rw [List.append_nil] at hargs
    have htake : (encode (.executeBatch dest value func)).take 4 = executeBatchSelector := List.take_left' rfl
    have hdrop : (encode (.executeBatch dest value func)).drop 4 =
        encodeArgs executeBatchInputs (dest, value, func, ()) := List.drop_left' rfl
    have hne : (encode (.executeBatch dest value func)).take 4 ≠ executeSelector := by
      rw [htake]
      decide
    rw [read, if_neg hne, if_pos htake, hdrop, hargs]
    rfl

theorem selector_of_read {callData : Data} {e : AccountExecution} (h : read callData = some e) :
    4 ≤ callData.length := by
  have hlength : (callData.take 4).length = 4 := by
    by_cases h1 : callData.take 4 = executeSelector
    · rw [h1]
      rfl
    by_cases h2 : callData.take 4 = executeBatchSelector
    · rw [h2]
      rfl
    simp [read, h1, h2] at h
  rw [List.length_take] at hlength
  omega

end AccountExecution

/-- viem, with `decodeFunctionData` over `ACCOUNT_EXECUTION_ABI`: what it
returns is what the data says, and it returns what was encoded, as long as the
lengths are numbers it can count with. -/
structure AbiDecoder extends Viem where
  decodeFunctionData : Data → Except Thrown AccountExecution
  decodeFunctionData_read : ∀ d e, decodeFunctionData d = .ok e → AccountExecution.read d = some e
  decodeFunctionData_encode : ∀ e : AccountExecution, e.encode.length < 2 ^ 53 → decodeFunctionData e.encode = .ok e

def abiDecoderOf (keccak256 : Data → Bytes32) : AbiDecoder where
  toViem := viemOf keccak256
  decodeFunctionData d :=
    match AccountExecution.read d with
    | some e => .ok e
    | none => .error .viem
  decodeFunctionData_read d e h := by
    cases hread : AccountExecution.read d with
    | none => simp [hread] at h
    | some e' => simpa [hread] using h
  decodeFunctionData_encode e h := by
    rw [AccountExecution.read_encode (by omega)]

/-! ## decodeCallTargets -/

structure DecodedCall where
  target : Address
  value : Uint256
  selector : Option Data
  data : Data
deriving DecidableEq

def selectorSize : Nat := 4

section
variable (viem : AbiDecoder)

def toCall (target : Address) (value : Uint256) (data : Data) : Except Thrown DecodedCall :=
  if selectorSize ≤ viem.size data then do
    let selector ← viem.slice data 0 (some selectorSize)
    .ok ⟨target, value, some selector, data⟩
  else .ok ⟨target, value, none, data⟩

def decodeCallTargets (callData : Data) : Except Thrown (Option (List DecodedCall)) :=
  if viem.size callData < selectorSize then .ok none
  else
    match viem.decodeFunctionData callData with
    | .error _ => .ok none
    | .ok (.execute dest value func) => do
      let call ← toCall viem dest value func
      .ok (some [call])
    | .ok (.executeBatch dests values funcs) =>
      if dests.length ≠ values.length ∨ dests.length ≠ funcs.length then .ok none
      else do
        let calls ← (dests.zip (values.zip funcs)).mapM fun (dest, value, func) => toCall viem dest value func
        .ok (some calls)

end

def AccountCall.decoded (call : AccountCall) : DecodedCall :=
  ⟨call.dest, call.value, if 4 ≤ call.func.length then some (call.func.take 4) else none, call.func⟩

section
variable {viem : AbiDecoder} {callData : Data}

theorem toCall_eq (call : AccountCall) : toCall viem call.dest call.value call.func = .ok call.decoded := by
  unfold toCall AccountCall.decoded selectorSize
  rw [viem.size_eq]
  by_cases h : 4 ≤ call.func.length
  · have hslice : viem.slice call.func 0 (some 4) = .ok (call.func.take 4) := by
      simpa using viem.slice_within call.func 0 4 (by omega) h
    simp [h, hslice, bind, Except.bind]
  · simp [h]

theorem toCall_mapM (calls : List AccountCall) :
    (calls.mapM fun call => toCall viem call.dest call.value call.func) = .ok (calls.map AccountCall.decoded) := by
  induction calls with
  | nil => rfl
  | cons call calls ih =>
    rw [List.mapM_cons, toCall_eq, ih]
    rfl

/-- Nothing is thrown, and the calls are those of the execution that viem decodes. -/
theorem decodeCallTargets_eq : decodeCallTargets viem callData = .ok
    (match viem.decodeFunctionData callData with
    | .error _ => none
    | .ok e => e.calls.map (List.map AccountCall.decoded)) := by
  unfold decodeCallTargets selectorSize
  rw [viem.size_eq]
  cases hdecoded : viem.decodeFunctionData callData with
  | error thrown =>
    by_cases h : callData.length < 4 <;> simp [h]
  | ok e =>
    have hsize := AccountExecution.selector_of_read (viem.decodeFunctionData_read _ _ hdecoded)
    have hnot : ¬ callData.length < 4 := by omega
    cases e with
    | execute dest value func =>
      have hcall := @toCall_eq viem ⟨dest, value, func⟩
      simp only at hcall
      simp [hnot, hcall, AccountExecution.calls, bind, Except.bind]
    | executeBatch dest value func =>
      by_cases hragged : dest.length ≠ value.length ∨ dest.length ≠ func.length
      · simp only [if_neg hnot, if_pos hragged, AccountExecution.calls, Option.map_none]
      · have hcalls := @toCall_mapM viem
          ((dest.zip (value.zip func)).map fun (dest, value, func) => ⟨dest, value, func⟩)
        rw [List.mapM_map] at hcalls
        simp only [if_neg hnot, if_neg hragged, AccountExecution.calls, Option.map_some]
        simp only [Function.comp_def] at hcalls
        rw [hcalls]
        rfl

theorem decodeCallTargets_some {decoded : List DecodedCall} (h : decodeCallTargets viem callData = .ok (some decoded)) :
    ∃ e calls, AccountExecution.read callData = some e ∧ e.calls = some calls ∧ decoded = calls.map AccountCall.decoded := by
  rw [decodeCallTargets_eq] at h
  cases hdecoded : viem.decodeFunctionData callData with
  | error thrown => simp [hdecoded] at h
  | ok e =>
    simp only [hdecoded, Except.ok.injEq] at h
    obtain ⟨calls, hcalls, hmap⟩ := Option.map_eq_some_iff.mp h
    exact ⟨e, calls, viem.decodeFunctionData_read _ _ hdecoded, hcalls, hmap.symm⟩

theorem decodeCallTargets_encode {e : AccountExecution} (h : e.encode.length < 2 ^ 53) :
    decodeCallTargets viem e.encode = .ok (e.calls.map (List.map AccountCall.decoded)) := by
  rw [decodeCallTargets_eq, viem.decodeFunctionData_encode e h]

end

end Paymaster
