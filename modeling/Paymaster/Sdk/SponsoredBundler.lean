import Paymaster.Lib.Dialogue
import Paymaster.Sdk.PaymasterClient

/-!
# The sponsored operation, from the request to the receipt

What the SDK asks of the paymaster's API, of the bundler, of the wallet and of
the clock to sponsor an operation, submit it and wait for its receipt, in the
order of the source, as a dialogue with all of them.
-/

namespace Paymaster.Sdk

open Bytes Signature Dialogue

/-! ## What is asked, and answered -/

structure TransportOptions where
  timeoutMs : Option Nat

def defaultTimeoutMs : Nat := 30000

def TransportOptions.limit (options : TransportOptions) : Nat := options.timeoutMs.getD defaultTimeoutMs

inductive SdkError
  | sdk (message : String)
  | jsonRpc (code : Int) (message : String)
  | httpApi (status : Nat) (errorCode message : String)
  | notMined (userOpHash : Data) (timeoutMs : Nat)
  /-- Thrown by `BigInt`. -/
  | notANumber
  | thrown (e : Thrown)
  | signer

structure HttpErrorBody where
  error : Option String
  message : Option String
  code : Option String

inductive HttpReply (β : Type)
  | timedOut
  | failed
  | refused (status : Nat) (body : Option HttpErrorBody)
  | ok (body : β)

inductive RpcReply (β : Type)
  | timedOut
  | failed
  | error (code : Int) (message : String)
  | malformed
  | result (value : β)

structure RpcUserOperation where
  sender : Data
  nonce : List Char
  callData : Data
  callGasLimit : List Char
  verificationGasLimit : List Char
  preVerificationGas : List Char
  maxFeePerGas : List Char
  maxPriorityFeePerGas : List Char
  signature : Data
  factory : Option Data
  factoryData : Option Data
  paymaster : Option Data
  paymasterVerificationGasLimit : Option (List Char)
  paymasterPostOpGasLimit : Option (List Char)
  paymasterData : Option Data

structure EstimateResponse where
  preVerificationGas : Option (List Char)
  verificationGasLimit : Option (List Char)
  callGasLimit : Option (List Char)
  paymasterVerificationGasLimit : Option (List Char)
  paymasterPostOpGasLimit : Option (List Char)

structure RpcTransaction where
  transactionHash : Data
  blockNumber : List Char

structure RpcReceipt where
  userOpHash : Data
  sender : Data
  success : Bool
  actualGasCost : List Char
  actualGasUsed : List Char
  receipt : RpcTransaction

inductive Question
  | sponsor (url : String) (authorization : Option String) (body : Api.WireRequest)
  | estimate (endpoint : String) (op : RpcUserOperation) (entryPoint : Data)
  | sign (userOpHash : Bytes32)
  | send (endpoint : String) (op : RpcUserOperation) (entryPoint : Data)
  | receipt (endpoint : String) (userOpHash : Data)
  | now
  | sleep (ms : Nat)

@[reducible] def Answer : Question → Type
  | .sponsor .. => HttpReply Api.SponsorResponse
  | .estimate .. => RpcReply EstimateResponse
  | .sign _ => Option Data
  | .send .. => RpcReply Data
  | .receipt .. => RpcReply (Option RpcReceipt)
  | .now => Nat
  | .sleep _ => Unit

abbrev Client (α : Type) : Type := Dialogue Question Answer SdkError α

abbrev Log : Type := List (Exchange Question Answer)

/-! ## The transport -/

def httpApi {β : Type} (url : String) (options : TransportOptions) : HttpReply β → Except SdkError β
  | .timedOut => .error (.sdk ("request to " ++ url ++ " timed out after " ++ toString options.limit ++ "ms"))
  | .failed => .error (.sdk ("request to " ++ url ++ " failed"))
  | .refused status body =>
    let errorCode := (body.bind HttpErrorBody.code <|> body.bind HttpErrorBody.error).getD "ERROR"
    .error (.httpApi status errorCode ((body.bind HttpErrorBody.message).getD (toString status ++ " from " ++ url)))
  | .ok body => .ok body

def jsonRpc {β : Type} (url method : String) (options : TransportOptions) : RpcReply β → Except SdkError β
  | .timedOut => .error (.sdk ("request to " ++ url ++ " timed out after " ++ toString options.limit ++ "ms"))
  | .failed => .error (.sdk ("request to " ++ url ++ " failed"))
  | .error code message => .error (.jsonRpc code message)
  | .malformed => .error (.sdk ("malformed JSON-RPC response from " ++ url ++ " for " ++ method))
  | .result value => .ok value

section
variable {β : Type} {url method : String} {options : TransportOptions}

theorem httpApi_ok {reply : HttpReply β} {body : β} (h : httpApi url options reply = .ok body) : reply = .ok body := by
  cases reply with
  | timedOut => cases h
  | failed => cases h
  | refused status errorBody => cases h
  | ok body' => exact congrArg HttpReply.ok (Except.ok.inj h)

theorem jsonRpc_ok {reply : RpcReply β} {value : β} (h : jsonRpc url method options reply = .ok value) :
    reply = .result value := by
  cases reply with
  | timedOut => cases h
  | failed => cases h
  | error code message => cases h
  | malformed => cases h
  | result value' => exact congrArg RpcReply.result (Except.ok.inj h)

end

/-! ## The paymaster's API -/

structure PaymasterConfig where
  endpoint : String
  chainId : Nat
  apiKey : Option String
  policyId : Option String
  transport : TransportOptions

def trimTrailingSlash (url : String) : String :=
  if url.toList.getLast? = some '/' then String.ofList url.toList.dropLast else url

namespace PaymasterConfig

variable (config : PaymasterConfig)

def url : String := trimTrailingSlash config.endpoint ++ "/paymaster/sponsor"

def authorization : Option String := config.apiKey.map fun key => "Bearer " ++ key

def client : PaymasterClientConfig := ⟨config.chainId, config.policyId⟩

end PaymasterConfig

namespace PaymasterClient

variable (viem : Viem) (config : PaymasterConfig) (op : UserOperation)

def sponsor : Client Sponsorship :=
  .ask (.sponsor config.url config.authorization (sponsorBody viem config.client op)) fun reply => do
    let response ← ofExcept (httpApi config.url config.transport reply)
    ofOption .notANumber (sponsorshipOf response)

def applySponsorshipTo : Client UserOperation := do
  let sponsorship ← sponsor viem config op
  .answer
    { op with
      paymaster := some sponsorship.paymaster
      paymasterVerificationGasLimit := some sponsorship.paymasterVerificationGasLimit
      paymasterPostOpGasLimit := some sponsorship.paymasterPostOpGasLimit
      paymasterData := some sponsorship.paymasterData }

end PaymasterClient

/-! ## The bundler -/

def toRpcUserOperation (viem : Viem) (op : UserOperation) : RpcUserOperation where
  sender := op.sender
  nonce := viem.numberToText op.nonce
  callData := op.callData
  callGasLimit := viem.numberToText op.callGasLimit
  verificationGasLimit := viem.numberToText op.verificationGasLimit
  preVerificationGas := viem.numberToText op.preVerificationGas
  maxFeePerGas := viem.numberToText op.maxFeePerGas
  maxPriorityFeePerGas := viem.numberToText op.maxPriorityFeePerGas
  signature := op.signature
  factory := op.factory
  factoryData := op.factory.map fun _ => op.factoryData.getD []
  paymaster := op.paymaster
  paymasterVerificationGasLimit :=
    op.paymaster.map fun _ => viem.numberToText (op.paymasterVerificationGasLimit.getD 0)
  paymasterPostOpGasLimit := op.paymaster.map fun _ => viem.numberToText (op.paymasterPostOpGasLimit.getD 0)
  paymasterData := op.paymaster.map fun _ => op.paymasterData.getD []

structure GasEstimate where
  preVerificationGas : Nat
  verificationGasLimit : Nat
  callGasLimit : Nat
  paymasterVerificationGasLimit : Option Nat
  paymasterPostOpGasLimit : Option Nat
deriving DecidableEq

structure UserOperationReceipt where
  userOpHash : Data
  sender : Data
  success : Bool
  actualGasCost : Nat
  actualGasUsed : Nat
  transactionHash : Data
  blockNumber : Nat

structure BundlerClient where
  endpoint : String
  transport : TransportOptions

namespace BundlerClient

variable (viem : Viem) (client : BundlerClient)

/-- The numbers of an estimate; a limit that is not there is 0. -/
def gasEstimate (result : EstimateResponse) : Option GasEstimate := do
  let preVerificationGas ← Api.bigInt (result.preVerificationGas.getD ['0', 'x', '0'])
  let verificationGasLimit ← Api.bigInt (result.verificationGasLimit.getD ['0', 'x', '0'])
  let callGasLimit ← Api.bigInt (result.callGasLimit.getD ['0', 'x', '0'])
  let paymasterVerificationGasLimit ← Api.optional Api.bigInt result.paymasterVerificationGasLimit
  let paymasterPostOpGasLimit ← Api.optional Api.bigInt result.paymasterPostOpGasLimit
  some ⟨preVerificationGas, verificationGasLimit, callGasLimit, paymasterVerificationGasLimit, paymasterPostOpGasLimit⟩

def estimateUserOperationGas (op : RpcUserOperation) (entryPoint : Data) : Client GasEstimate :=
  .ask (.estimate client.endpoint op entryPoint) fun reply => do
    let result ← ofExcept (jsonRpc client.endpoint "eth_estimateUserOperationGas" client.transport reply)
    ofOption .notANumber (gasEstimate result)

def sendUserOperation (op : UserOperation) (entryPoint : Data) : Client Data :=
  .ask (.send client.endpoint (toRpcUserOperation viem op) entryPoint) fun reply =>
    ofExcept (jsonRpc client.endpoint "eth_sendUserOperation" client.transport reply)

def receiptOf (raw : RpcReceipt) : Option UserOperationReceipt := do
  let actualGasCost ← Api.bigInt raw.actualGasCost
  let actualGasUsed ← Api.bigInt raw.actualGasUsed
  let blockNumber ← Api.bigInt raw.receipt.blockNumber
  some ⟨raw.userOpHash, raw.sender, raw.success, actualGasCost, actualGasUsed, raw.receipt.transactionHash, blockNumber⟩

/-- `none` is `null`: not mined yet. -/
def getUserOperationReceipt (userOpHash : Data) : Client (Option UserOperationReceipt) :=
  .ask (.receipt client.endpoint userOpHash) fun reply => do
    let raw ← ofExcept (jsonRpc client.endpoint "eth_getUserOperationReceipt" client.transport reply)
    match raw with
    | none => .answer none
    | some raw => do
      let receipt ← ofOption .notANumber (receiptOf raw)
      .answer (some receipt)

def poll (userOpHash : Data) (timeoutMs pollIntervalMs deadline : Nat) : Nat → Client UserOperationReceipt
  | 0 => .cut
  | fuel + 1 => .ask .now fun now =>
    if now < deadline then do
      let receipt ← getUserOperationReceipt client userOpHash
      match receipt with
      | some receipt => .answer receipt
      | none => .ask (.sleep pollIntervalMs) fun () => poll userOpHash timeoutMs pollIntervalMs deadline fuel
    else .throw (.notMined userOpHash timeoutMs)

def waitForUserOperationReceipt (userOpHash : Data) (timeoutMs pollIntervalMs : Option Nat) (fuel : Nat) :
    Client UserOperationReceipt :=
  let timeout := timeoutMs.getD 60000
  let interval := pollIntervalMs.getD 1000
  .ask .now fun now => poll client userOpHash timeout interval (now + timeout) fuel

end BundlerClient

/-! ## The pipeline -/

structure UserOperationRequest where
  sender : Data
  nonce : Nat
  factory : Option Data
  factoryData : Option Data
  callData : Data
  callGasLimit : Option Nat
  verificationGasLimit : Option Nat
  preVerificationGas : Option Nat
  maxFeePerGas : Option Nat
  maxPriorityFeePerGas : Option Nat

structure SendOptions where
  maxFeePerGas : Option Nat
  maxPriorityFeePerGas : Option Nat
  waitTimeoutMs : Option Nat

structure SponsoredBundlerConfig where
  entryPoint : Data
  chainId : Nat
  bundlerEndpoint : String
  bundlerTransport : Option TransportOptions
  paymasterEndpoint : String
  apiKey : Option String
  policyId : Option String
  paymasterTransport : Option TransportOptions
  defaultMaxFeePerGas : Option Nat
  defaultMaxPriorityFeePerGas : Option Nat

def dummySignature : Data :=
  List.replicate 15 0xff ++ [0xf0] ++ List.replicate 16 0x00 ++ [0x7a] ++ List.replicate 31 0xaa ++ [0x1c]

namespace SponsoredBundlerClient

section
variable (viem : Viem) (config : SponsoredBundlerConfig) (request : UserOperationRequest) (options : SendOptions)

def bundler : BundlerClient := ⟨config.bundlerEndpoint, config.bundlerTransport.getD ⟨none⟩⟩

def paymaster : PaymasterConfig :=
  ⟨config.paymasterEndpoint, config.chainId, config.apiKey, config.policyId, config.paymasterTransport.getD ⟨none⟩⟩

def feeOf : Option Nat := options.maxFeePerGas <|> request.maxFeePerGas <|> config.defaultMaxFeePerGas

def priorityFeeOf : Option Nat :=
  options.maxPriorityFeePerGas <|> request.maxPriorityFeePerGas <|> config.defaultMaxPriorityFeePerGas

def draftOf (maxFeePerGas maxPriorityFeePerGas : Nat) : UserOperation where
  sender := request.sender
  nonce := request.nonce
  factory := request.factory
  factoryData := request.factory.bind fun _ => request.factoryData
  callData := request.callData
  callGasLimit := request.callGasLimit.getD 1000000
  verificationGasLimit := request.verificationGasLimit.getD 1000000
  preVerificationGas := request.preVerificationGas.getD 100000
  maxFeePerGas := maxFeePerGas
  maxPriorityFeePerGas := maxPriorityFeePerGas
  paymaster := none
  paymasterVerificationGasLimit := none
  paymasterPostOpGasLimit := none
  paymasterData := none
  signature := dummySignature

def estimatedOf (draft : UserOperation) (estimate : GasEstimate) : UserOperation :=
  { draft with
    callGasLimit := estimate.callGasLimit
    verificationGasLimit := estimate.verificationGasLimit
    preVerificationGas := estimate.preVerificationGas }

def signUserOperationHash (userOpHash : Bytes32) : Client Data := .ask (.sign userOpHash) (ofOption .signer)

def prepareWith (maxFeePerGas maxPriorityFeePerGas : Nat) : Client UserOperation := do
  let draft := draftOf request maxFeePerGas maxPriorityFeePerGas
  let stubbed ← PaymasterClient.applySponsorshipTo viem (paymaster config) draft
  let estimate ← (bundler config).estimateUserOperationGas (toRpcUserOperation viem stubbed) config.entryPoint
  let sponsored ← PaymasterClient.applySponsorshipTo viem (paymaster config) (estimatedOf draft estimate)
  -- The hash covers the paymaster's fields, and so comes after them.
  let userOpHash ← ofExcept ((getUserOperationHash viem sponsored config.entryPoint config.chainId).mapError .thrown)
  let signature ← signUserOperationHash userOpHash
  .answer { sponsored with signature := signature }

def prepareUserOperation : Client UserOperation :=
  match feeOf config request options, priorityFeeOf config request options with
  | some maxFeePerGas, some maxPriorityFeePerGas => prepareWith viem config request maxFeePerGas maxPriorityFeePerGas
  | _, _ => .throw (.sdk "maxFeePerGas and maxPriorityFeePerGas are required (pass them or set defaults)")

def sendUserOperation (fuel : Nat) : Client UserOperationReceipt := do
  let op ← prepareUserOperation viem config request options
  let userOpHash ← (bundler config).sendUserOperation viem op config.entryPoint
  (bundler config).waitForUserOperationReceipt userOpHash options.waitTimeoutMs none fuel

end

end SponsoredBundlerClient

end Paymaster.Sdk
