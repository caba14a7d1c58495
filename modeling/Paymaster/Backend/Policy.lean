import Mathlib
import Paymaster.Backend.QuotaStore
import Paymaster.Contracts.Types

/-!
# Policies and their rules

A policy is a list of rules that all have to allow a request. The rules are
the quota rules, which reserve budget as they allow, and checks without side
effects. Which chains are enabled is checked here; the verdicts of the other
checks are left to the environment.
-/

namespace Paymaster

/-- An address as the backend writes it into keys, `toLowerCase`. -/
def lowerHex (a : Address) : String :=
  let digits := Nat.toDigits 16 a.toNat
  "0x" ++ String.ofList (List.replicate (40 - digits.length) '0' ++ digits)

/-! ## Decisions -/

inductive PolicyDenialCode
  | chainDisabled
  | senderNotAllowed
  | senderBlocked
  | targetNotAllowed
  | methodNotAllowed
  | callDataUndecodable
  | quotaExceeded
  | spendCapExceeded
  | valueNotAllowed
  | tokenBalanceInsufficient
  | tenantBalanceInsufficient
  | subscriptionLapsed
  | ruleError
deriving DecidableEq

structure PolicyDenial where
  rule : String
  code : PolicyDenialCode
  reason : String
deriving DecidableEq

inductive PolicyDecision
  | allow
  | deny (denial : PolicyDenial)
deriving DecidableEq

/-- The request fields a quota keys on. Of the calls of an operation only the targets matter. -/
structure QuotaSubjectFields where
  chainId : Nat
  sender : Address
  clientIp : Option String
  apiKeyId : Option String
  calls : Option (List Address)
deriving DecidableEq

structure PolicyContext extends QuotaSubjectFields where
  maxCost : Nat
  now : Nat
deriving DecidableEq

/-! ## Quota rules -/

inductive QuotaSubject
  | wallet
  | ip
  | apiKey
  | chain
  | target
  | global
deriving DecidableEq

inductive QuotaUnit
  | operations
  | wei
deriving DecidableEq

inductive OnMissingSubject
  | deny
  | skip
deriving DecidableEq

def QuotaSubject.text : QuotaSubject → String
  | .wallet => "wallet"
  | .ip => "ip"
  | .apiKey => "apiKey"
  | .chain => "chain"
  | .target => "target"
  | .global => "global"

def QuotaUnit.text : QuotaUnit → String
  | .operations => "operations"
  | .wei => "wei"

/-- A quota rule's options. The constructor throws on an empty window. -/
structure QuotaRule where
  name : String
  subject : QuotaSubject
  unit : QuotaUnit
  limit : Nat
  windowSeconds : Nat
  onMissingSubject : OnMissingSubject
  tenantNamespace : String
  windowSeconds_pos : 0 < windowSeconds
deriving DecidableEq

def weiPerGwei : Nat := 1000000000

def ceilDivGwei (wei : Nat) : Nat := (wei + weiPerGwei - 1) / weiPerGwei

structure SpendTrueUp where
  chainId : Nat
  sender : Address
  apiKeyId : Option String
  reservedMaxCostWei : Nat
  actualCostWei : Nat
  reservedAt : Nat
deriving DecidableEq

namespace QuotaRule

variable (rule : QuotaRule)

/-- The limit in counting units: spend is counted in gwei. -/
def countedLimit : Nat :=
  match rule.unit with
  | .wei => rule.limit / weiPerGwei
  | .operations => rule.limit

def keyPrefix : String :=
  if rule.tenantNamespace = "" then "quota:" ++ rule.name
  else "quota:" ++ rule.tenantNamespace ++ "/" ++ rule.name

def keyFor (fields : QuotaSubjectFields) : Option String :=
  match rule.subject with
  | .wallet => some (rule.keyPrefix ++ ":" ++ toString fields.chainId ++ ":" ++ lowerHex fields.sender)
  | .chain => some (rule.keyPrefix ++ ":" ++ toString fields.chainId)
  | .global => some rule.keyPrefix
  | .ip => fields.clientIp.map fun ip => rule.keyPrefix ++ ":" ++ ip
  | .apiKey => fields.apiKeyId.map fun id => rule.keyPrefix ++ ":" ++ id
  | .target =>
    match fields.calls with
    | some [target] => some (rule.keyPrefix ++ ":" ++ toString fields.chainId ++ ":" ++ lowerHex target)
    | _ => none

def amountFor (context : PolicyContext) : Nat :=
  match rule.unit with
  | .wei => ceilDivGwei context.maxCost
  | .operations => 1

def report (counted : Nat) : Nat :=
  match rule.unit with
  | .wei => counted * weiPerGwei
  | .operations => counted

def evaluate (counters : Counters) (context : PolicyContext) : PolicyDecision × Counters :=
  match rule.keyFor context.toQuotaSubjectFields with
  | none =>
    match rule.onMissingSubject with
    | .skip => (.allow, counters)
    | .deny => (.deny ⟨rule.name, .quotaExceeded,
        "cannot enforce " ++ rule.subject.text ++ " quota: the request carries no " ++ rule.subject.text⟩, counters)
  | some key =>
    let (outcome, counters') :=
      tryConsume counters key (rule.amountFor context) rule.countedLimit rule.windowSeconds context.now
    if outcome.consumed then (.allow, counters')
    else (.deny ⟨rule.name, match rule.unit with | .wei => .spendCapExceeded | .operations => .quotaExceeded,
        rule.subject.text ++ " " ++ rule.unit.text ++ " quota exhausted: " ++ toString (rule.report outcome.usage) ++
          "/" ++ toString (rule.report outcome.limit) ++ ", resets at " ++ toString outcome.resetsAt⟩, counters')

def release (counters : Counters) (context : PolicyContext) : Counters :=
  match rule.keyFor context.toQuotaSubjectFields with
  | none => counters
  | some key => Paymaster.release counters key (rule.amountFor context) rule.windowSeconds context.now

def trueUpTarget (reservation : SpendTrueUp) : Option (String × Nat) :=
  match rule.unit with
  | .operations => none
  | .wei =>
    match rule.keyFor ⟨reservation.chainId, reservation.sender, none, reservation.apiKeyId, none⟩ with
    | none => none
    | some key =>
      if ceilDivGwei reservation.reservedMaxCostWei ≤ ceilDivGwei reservation.actualCostWei then none
      else some (windowedKey key rule.windowSeconds reservation.reservedAt,
        ceilDivGwei reservation.reservedMaxCostWei - ceilDivGwei reservation.actualCostWei)

def trueUp (counters : Counters) (reservation : SpendTrueUp) : Counters :=
  match rule.trueUpTarget reservation with
  | none => counters
  | some (slot, amount) => releaseSlot counters slot amount

def slotFor (context : PolicyContext) : Option String :=
  (rule.keyFor context.toQuotaSubjectFields).map fun key => windowedKey key rule.windowSeconds context.now

def chargeAt (context : PolicyContext) (slot : String) : Nat :=
  if rule.slotFor context = some slot then rule.amountFor context else 0

end QuotaRule

/-! ## Rules and policies -/

inductive RuleCost
  | pure
  | store
  | network
deriving DecidableEq

def RuleCost.order : RuleCost → Nat
  | .pure => 0
  | .store => 1
  | .network => 2

inductive PolicyRule
  | quota (rule : QuotaRule)
  | chainEnabled (chainIds : List Nat)
  | check (name : String) (cost : RuleCost)
deriving DecidableEq

namespace PolicyRule

def name : PolicyRule → String
  | .quota rule => rule.name
  | .chainEnabled _ => "chain-enabled"
  | .check name _ => name

def cost : PolicyRule → RuleCost
  | .quota _ => .store
  | .chainEnabled _ => .pure
  | .check _ cost => cost

/-- `isReserving`, with the rule it finds. -/
def reserving? : PolicyRule → Option QuotaRule
  | .quota rule => some rule
  | .chainEnabled _ => none
  | .check _ _ => none

end PolicyRule

def reservingOf (rules : List PolicyRule) : List QuotaRule := rules.filterMap PolicyRule.reserving?

structure Policy where
  tenantId : String
  id : String
  rules : List PolicyRule
deriving DecidableEq

inductive Verdict
  | decided (decision : PolicyDecision)
  | threw (message : String)
deriving DecidableEq

/-- `#evaluateRule`: a rule that throws denies. -/
def evaluateRule (counters : Counters) (rule : PolicyRule) (verdict : Verdict) (context : PolicyContext) :
    PolicyDecision × Counters :=
  match rule with
  | .quota rule => rule.evaluate counters context
  | .chainEnabled chainIds =>
    if context.chainId ∈ chainIds then (.allow, counters)
    else (.deny ⟨"chain-enabled", .chainDisabled, "chain " ++ toString context.chainId ++ " is not enabled"⟩, counters)
  | .check name _ =>
    match verdict with
    | .decided decision => (decision, counters)
    | .threw message => (.deny ⟨name, .ruleError, "rule " ++ name ++ " failed to evaluate: " ++ message⟩, counters)

def RuleBefore (a b : PolicyRule × Nat) : Prop :=
  a.1.cost.order < b.1.cost.order ∨ (a.1.cost.order = b.1.cost.order ∧ a.2 ≤ b.2)

instance : DecidableRel RuleBefore := fun _ _ =>
  inferInstanceAs (Decidable (_ ∨ _))

def orderRules (rules : List PolicyRule) : List PolicyRule :=
  (rules.zipIdx.insertionSort RuleBefore).map Prod.fst

/-! ## The policy source -/

def keyOf (tenantId policyId : String) : String := tenantId ++ "\x00" ++ policyId

structure PolicySource where
  policies : List Policy
  distinct : (policies.map fun p => keyOf p.tenantId p.id).Nodup

/-- `reload`: a set with a duplicate id is refused, and the previous one stays. -/
def PolicySource.reload (source : PolicySource) (loaded : List Policy) : PolicySource :=
  if h : (loaded.map fun p => keyOf p.tenantId p.id).Nodup then ⟨loaded, h⟩ else source

def PolicySource.get (source : PolicySource) (tenantId id : String) : Option Policy :=
  source.policies.find? fun p => keyOf p.tenantId p.id = keyOf tenantId id

/-! ## What rules do -/

section
variable {rule : QuotaRule} {counters counters' : Counters} {context : PolicyContext} {slot : String}

/-- What a quota rule does when it is evaluated: it denies and takes nothing, it
skips, or it takes its amount from its slot within its limit. -/
theorem QuotaRule.evaluate_cases {decision : PolicyDecision} (h : rule.evaluate counters context = (decision, counters')) :
    (∃ denial, decision = .deny denial ∧ counters' = counters) ∨
    (decision = .allow ∧ rule.slotFor context = none ∧ counters' = counters) ∨
    (∃ slot, decision = .allow ∧ rule.slotFor context = some slot ∧
      counters.at slot + rule.amountFor context ≤ rule.countedLimit ∧
      counters' = Function.update counters slot (some (counters.at slot + rule.amountFor context))) := by
  unfold QuotaRule.evaluate at h
  split at h
  · rename_i hk
    split at h
    · cases h
      exact .inr (.inl ⟨rfl, by simp only [slotFor, hk, Option.map_none], rfl⟩)
    · cases h
      exact .inl ⟨_, rfl, rfl⟩
  · rename_i key hk
    cases ht : tryConsume counters key (rule.amountFor context) rule.countedLimit rule.windowSeconds context.now with
    | mk outcome after =>
      rw [ht] at h
      rcases tryConsume_cases ht with ⟨hc, rfl⟩ | ⟨hc, hle, rfl⟩
      · simp only [hc, Bool.false_eq_true, ite_false] at h
        cases h
        exact .inl ⟨_, rfl, rfl⟩
      · simp only [hc, ite_true] at h
        cases h
        exact .inr (.inr ⟨_, rfl, by simp only [slotFor, hk, Option.map_some], hle, rfl⟩)

theorem QuotaRule.at_release : (rule.release counters context).at slot = counters.at slot - rule.chargeAt context slot := by
  unfold QuotaRule.release chargeAt slotFor
  cases hk : rule.keyFor context.toQuotaSubjectFields with
  | none => simp
  | some key =>
    simp only [Option.map_some, Option.some.injEq, Paymaster.release]
    by_cases hs : windowedKey key rule.windowSeconds context.now = slot
    · rw [if_pos hs, ← hs, at_releaseSlot_self]
    · rw [if_neg hs, at_releaseSlot_of_ne (Ne.symm hs)]
      rfl

theorem orderRules_perm (rules : List PolicyRule) : (orderRules rules).Perm rules := by
  have h := (List.perm_insertionSort RuleBefore rules.zipIdx).map Prod.fst
  rwa [List.zipIdx_map_fst] at h

instance : Std.Total RuleBefore := ⟨fun a b => by unfold RuleBefore; omega⟩

instance : IsTrans (PolicyRule × Nat) RuleBefore := ⟨fun a b c hab hbc => by unfold RuleBefore at *; omega⟩

theorem orderRules_sorted (rules : List PolicyRule) :
    (orderRules rules).Pairwise fun a b => a.cost.order ≤ b.cost.order := by
  unfold orderRules
  rw [List.pairwise_map]
  refine (List.pairwise_insertionSort RuleBefore rules.zipIdx).imp fun h => ?_
  unfold RuleBefore at h
  omega

end

end Paymaster
