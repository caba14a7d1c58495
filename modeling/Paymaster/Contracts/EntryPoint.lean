import Paymaster.Contracts.TenantPaymaster
import Paymaster.Lib.CallStack
import Paymaster.Lib.Run

/-!
# The paymaster under an EntryPoint

The contract in its environment: transactions of arbitrary outside code that
call the paymaster, and an EntryPoint that holds the paymaster's deposit and
drives `handleOps` bundles through it. Outside code runs wherever the
EntryPoint or the paymaster calls out: in the receiver of a withdrawal, in the
validation and the execution of an operation, in the beneficiary of a bundle.
Every call in progress is a frame, which saves the world to return to if it
reverts.

The EntryPoint takes `maxCost` from the deposit before it validates, reverts
the whole bundle if validation reverts or reports a signature failure, and at
settlement keeps at most `min(maxCost, actualGasCost + postOpGasLimit * fee)`,
or at most `maxCost` if `postOp` reverted, and returns the rest.
-/

namespace Paymaster

open CallStack

/-- What happened and was not rolled back. Besides the emitted events, the
journal records what the chain does not log: which call succeeded at which
time, each debit and reservation, and each reservation that was never settled. -/
inductive Entry
  | call (sender : Address) (timestamp : Nat) (c : Call)
  | debit (sender : Address) (timestamp : Nat) (tenant : Bytes32) (amount : Nat)
  | reserve (op : PackedUserOperation) (signer : Address) (amount : Nat)
  | forfeit (op : PackedUserOperation) (amount : Nat)
  | event (e : Event)
deriving DecidableEq

/-- The chain's state as far as the paymaster is concerned. The journal is
newest first. -/
structure World where
  timestamp : Nat
  paymaster : State
  deposit : Nat
  journal : List Entry

/-- An operation that the EntryPoint validated: what it took for it and, if
this paymaster pays for it, the context that validation returned. -/
structure OpInfo where
  op : PackedUserOperation
  prefund : Nat
  context : Option Context
  carried : ∀ ctx, context = some ctx → ctx = ⟨tenantOf op, prefund, postOpGasLimitOf op⟩

/-- The calls in progress: outside code; the EntryPoint's `withdrawTo` paying
out for one of the two withdrawal functions; a bundle in its first and in its
second loop; and `innerHandleOp` of the first operation still to be executed. -/
inductive Kind
  | code
  | withdrawFor (tenant : Bytes32) (receiver : Address) (amount : Nat)
  | withdrawTo
  | validating (validated : List OpInfo)
  | executing (queue : List OpInfo)
  | inner

structure Config where
  world : World
  stack : List (Frame Kind World)

/-- How the post-op of an operation went, with the amounts the EntryPoint
reported to it and what it kept of the prefund. -/
inductive Outcome
  | ran (actualGasCost actualUserOpFeePerGas kept : Nat)
  | postOpReverted (kept : Nat)
deriving DecidableEq

inductive Label
  /-- An account sends a transaction in a block of the given time. -/
  | transaction (timestamp : Nat)
  /-- Outside code calls other outside code. -/
  | enter
  /-- Outside code calls the paymaster. -/
  | call (sender : Address) (c : Call)
  /-- `BasePaymaster.deposit`, or `EntryPoint.depositTo` for the paymaster. -/
  | depositTo (value : Nat)
  | withdrawFor (sender : Address) (tenant : Bytes32) (receiver : Address) (amount : Nat)
  | withdrawTo (sender : Address) (amount : Nat)
  | handleOps
  /-- The EntryPoint validates the next operation of the bundle. -/
  | validate (op : PackedUserOperation) (maxCost : Nat)
  /-- The bundle goes over to its second loop. -/
  | execute
  /-- The EntryPoint enters `innerHandleOp`. -/
  | start
  /-- The operation's execution ended, reverted or not, and it is settled. -/
  | settle (reverted : Bool) (outcome : Outcome)
  /-- The top frame returns. -/
  | returned
  /-- The top frame reverts. -/
  | reverted
deriving DecidableEq

/-! ## The world's transitions -/

namespace World

section
variable (dep : Deployment) (w : World)

/-- A call of the paymaster. The wei it carries end up in the deposit. -/
def call (sender : Address) (c : Call) : Except Revert World := do
  let (s, events) ← w.paymaster.call dep w.timestamp sender c
  let deposit ← checkedAdd w.deposit c.value
  .ok { w with
    paymaster := s
    deposit := deposit
    journal := events.map Entry.event ++ .call sender w.timestamp c :: w.journal }

def depositTo (value : Nat) : Except Revert World := do
  let deposit ← checkedAdd w.deposit value
  .ok { w with deposit := deposit }

def withdrawFor (sender : Address) (tenant : Bytes32) (receiver : Address) (amount : Nat) :
    Except Revert World := do
  let s ← withdrawForDebit w.paymaster w.timestamp sender tenant receiver amount
  if w.deposit < amount then .error .withdrawAmountTooLarge
  else .ok { w with
    paymaster := s
    deposit := w.deposit - amount
    journal := .debit sender w.timestamp tenant amount :: w.journal }

def withdrawn (tenant : Bytes32) (receiver : Address) (amount : Nat) : World :=
  { w with journal := .event (withdrawForEvent w.paymaster tenant receiver amount) :: w.journal }

/-- The inherited `withdrawTo`: the owner takes from the deposit, no tenant is debited. -/
def withdrawTo (sender : Address) (amount : Nat) : Except Revert World :=
  if sender ≠ w.paymaster.owner then .error (.ownableUnauthorizedAccount sender)
  else if w.deposit < amount then .error .withdrawAmountTooLarge
  else .ok { w with deposit := w.deposit - amount }

end

theorem carried_of_accepted {dep : Deployment} {s s' : State} {op : PackedUserOperation} {maxCost : Nat}
    {ctx : Context} {signer : Address} {vu va : Uint48}
    (h : validatePaymasterUserOp dep s op maxCost = .ok (.accepted s' ctx signer vu va)) :
    ctx = ⟨tenantOf op, maxCost, postOpGasLimitOf op⟩ := by
  unfold validatePaymasterUserOp at h
  split at h
  · cases h
  obtain ⟨⟨vu', va', tenant, signature⟩, hp, h⟩ := bind_ok h
  unfold parsePaymasterAndData at hp
  split at hp
  · cases hp
  cases hp
  simp only at h
  split at h
  · cases h
  split at h
  · cases h
  split at h
  · cases h
  cases h
  rfl

/-- Prepayment: an operation that names this paymaster is validated by it,
after `maxCost` was taken from the deposit. `none`: the bundle reverts. -/
def validate (dep : Deployment) (w : World) (op : PackedUserOperation) (maxCost : Nat) :
    Option (World × OpInfo) :=
  if paymasterOf op ≠ dep.self then some (w, ⟨op, 0, none, fun _ h => nomatch h⟩)
  else if w.deposit < maxCost then none
  else match h : validatePaymasterUserOp dep w.paymaster op maxCost with
    | .ok (.accepted s context signer _ _) =>
      some ({ w with
          paymaster := s
          deposit := w.deposit - maxCost
          journal := .reserve op signer maxCost :: w.journal },
        ⟨op, maxCost, some context, fun _ hc => Option.some.inj hc ▸ carried_of_accepted h⟩)
    | _ => none

def charge (w : World) (info : OpInfo) (actualGasCost actualUserOpFeePerGas kept : Nat) : Option World :=
  match info.context with
  | none => some w
  | some context =>
    match postOp w.paymaster context actualGasCost actualUserOpFeePerGas with
    | .error _ => none
    | .ok (s, events) =>
      if kept ≤ min info.prefund (actualGasCost + postOpGasLimitOf info.op * actualUserOpFeePerGas) ∧
          w.deposit + (info.prefund - kept) < uint256Size then
        some { w with
          paymaster := s
          deposit := w.deposit + (info.prefund - kept)
          journal := events.map Entry.event ++ w.journal }
      else none

def forfeit (w : World) (info : OpInfo) (kept : Nat) : Option World :=
  match info.context with
  | none => some w
  | some _ =>
    if kept ≤ info.prefund ∧ w.deposit + (info.prefund - kept) < uint256Size then
      some { w with
        deposit := w.deposit + (info.prefund - kept)
        journal := .forfeit info.op info.prefund :: w.journal }
    else none

end World

/-! ## The machine -/

/-- Whether outside code runs in a frame of this kind. It does in a bundle
while an operation is validated, and again once all are executed. -/
def Kind.outside : Kind → Bool
  | .executing (_ :: _) => false
  | _ => true

def Kind.isBundle : Kind → Bool
  | .validating _ | .executing _ => true
  | _ => false

namespace Config

def outside (c : Config) : Bool :=
  match c.stack with
  | [] => false
  | f :: _ => f.kind.outside

/-- The EntryPoint's `nonReentrant` guard on `handleOps`. -/
def inBundle (c : Config) : Bool := c.stack.any fun f => f.kind.isBundle

def push (c : Config) (k : Kind) (w : World) : Config := ⟨w, ⟨k, c.world⟩ :: c.stack⟩

/-- A call that reverts leaves everything as it was, for its caller to handle. -/
def attempt (c : Config) : Except Revert World → Config
  | .ok w => { c with world := w }
  | .error _ => c

def attemptPush (c : Config) (k : Kind) : Except Revert World → Config
  | .ok w => c.push k w
  | .error _ => c

end Config

def step (dep : Deployment) (c : Config) : Label → Option Config
  | .transaction timestamp =>
    match c.stack with
    | [] => some ({ c with world := { c.world with timestamp } }.push .code { c.world with timestamp })
    | _ :: _ => none
  | .enter => if c.outside then some (c.push .code c.world) else none
  | .call sender call => if c.outside then some (c.attempt (c.world.call dep sender call)) else none
  | .depositTo value => if c.outside then some (c.attempt (c.world.depositTo value)) else none
  | .withdrawFor sender tenant receiver amount =>
    if c.outside then
      some (c.attemptPush (.withdrawFor tenant receiver amount)
        (c.world.withdrawFor sender tenant receiver amount))
    else none
  | .withdrawTo sender amount =>
    if c.outside then some (c.attemptPush .withdrawTo (c.world.withdrawTo sender amount)) else none
  | .handleOps =>
    if c.outside then some (if c.inBundle then c else c.push (.validating []) c.world) else none
  | .validate op maxCost =>
    match c.stack with
    | ⟨.validating validated, saved⟩ :: rest =>
      match c.world.validate dep op maxCost with
      | some (w, info) => some ⟨w, ⟨.validating (validated ++ [info]), saved⟩ :: rest⟩
      | none => some ⟨saved, rest⟩
    | _ => none
  | .execute =>
    match c.stack with
    | ⟨.validating validated, saved⟩ :: rest => some ⟨c.world, ⟨.executing validated, saved⟩ :: rest⟩
    | _ => none
  | .start =>
    match c.stack with
    | ⟨.executing (_ :: _), _⟩ :: _ => some (c.push .inner c.world)
    | _ => none
  | .settle reverted outcome =>
    match c.stack with
    | ⟨.inner, began⟩ :: ⟨.executing (info :: queue), saved⟩ :: rest =>
      let settled := match outcome with
        | .ran actualGasCost fee kept =>
          World.charge (if reverted then began else c.world) info actualGasCost fee kept
        | .postOpReverted kept => began.forfeit info kept
      settled.map fun w => ⟨w, ⟨.executing queue, saved⟩ :: rest⟩
    | _ => none
  | .returned =>
    match c.stack with
    | ⟨.code, _⟩ :: rest => some ⟨c.world, rest⟩
    | ⟨.withdrawFor tenant receiver amount, _⟩ :: rest =>
      some ⟨c.world.withdrawn tenant receiver amount, rest⟩
    | ⟨.withdrawTo, _⟩ :: rest => some ⟨c.world, rest⟩
    | ⟨.executing [], _⟩ :: rest => some ⟨c.world, rest⟩
    | _ => none
  | .reverted =>
    match c.stack with
    | [] => none
    | ⟨.inner, _⟩ :: f :: rest => some ⟨f.saved, rest⟩
    | f :: rest => some ⟨f.saved, rest⟩

def Deployed (s : State) : Prop := ∃ deployer owner signer, constructor deployer owner signer = .ok s

/-- Before the first transaction. Someone may have deposited for the address beforehand. -/
def launch (s : State) (deposit : Nat) : Config := ⟨⟨0, s, deposit, []⟩, []⟩

end Paymaster
