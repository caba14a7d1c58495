import Paymaster.Backend.Database
import Paymaster.Lib.Pool
import Paymaster.Lib.Run
import Paymaster.Lib.Serial

/-!
# Subscriptions

A payment extends a subscription in one transaction: it locks the row of the
subscription, computes the interval that is paid for, inserts the payment and
writes the row. The statements of any number of transactions interleave at READ
COMMITTED: a statement sees what was committed before it, and waits for locks. A
row that is not there cannot be locked.
-/

namespace Paymaster

open Function

structure RecordPaymentRequest where
  tenantId : String
  plan : String
  periodSeconds : Nat
  amountWei : Option Nat
  chainId : Option Nat
  txHash : Option String
  recordedBy : String
  note : Option String
  now : Nat
deriving DecidableEq

structure Subscription where
  tenantId : String
  plan : String
  paidThrough : Nat
  graceSeconds : Nat
deriving DecidableEq

/-- A row of `subscription_payments`, with the request that it was inserted for:
its plan, its period and its time are not among the columns. -/
structure SubscriptionPayment where
  request : RecordPaymentRequest
  extendedFrom : Nat
  extendedTo : Nat
deriving DecidableEq

def RecordPaymentRequest.key (request : RecordPaymentRequest) : Option (Nat × String) :=
  match request.chainId, request.txHash with
  | some chainId, some txHash => some (chainId, txHash)
  | _, _ => none

def defaultGraceSeconds : Nat := 259200

structure BillingTables where
  tenants : List String
  subscriptions : String → Option Subscription
  payments : List SubscriptionPayment

def SubscriptionPayment.accepted (payment : SubscriptionPayment) : Bool :=
  payment.request.amountWei.all (· < 10 ^ 78) && payment.request.chainId.all (· < 2 ^ 31) &&
    payment.extendedFrom < payment.extendedTo && payment.request.chainId.isNone = payment.request.txHash.isNone

def RecordPaymentRequest.payment (request : RecordPaymentRequest) (paidThrough : Option Nat) : SubscriptionPayment :=
  let extendedFrom := max request.now (paidThrough.getD 0)
  ⟨request, extendedFrom, extendedFrom + request.periodSeconds⟩

namespace BillingTables

variable (tables : BillingTables)

def paidThrough (tenantId : String) : Option Nat := (tables.subscriptions tenantId).map Subscription.paidThrough

def paymentsOf (tenantId : String) : List SubscriptionPayment :=
  tables.payments.filter fun payment => payment.request.tenantId = tenantId

/-- What the transaction of a payment leaves. The grace of a row that is there stays. -/
def publish (payment : SubscriptionPayment) : BillingTables :=
  { tables with
    payments := tables.payments ++ [payment]
    subscriptions := update tables.subscriptions payment.request.tenantId
      (some ⟨payment.request.tenantId, payment.request.plan, payment.extendedTo,
        ((tables.subscriptions payment.request.tenantId).map Subscription.graceSeconds).getD defaultGraceSeconds⟩) }

/-- `recordPayment`, when no other transaction is in progress and it does not fail. -/
def record (request : RecordPaymentRequest) : BillingTables :=
  tables.publish (request.payment (tables.paidThrough request.tenantId))

/-- What has been paid for is consecutive: the intervals of a tenant's payments
are disjoint and as long as was paid for, and the subscription goes on to the end
of the last. -/
structure Honoured (tenantId : String) : Prop where
  lengths : ∀ p ∈ tables.paymentsOf tenantId, p.extendedTo = p.extendedFrom + p.request.periodSeconds
  disjoint : (tables.paymentsOf tenantId).Pairwise fun p q => p.extendedTo ≤ q.extendedFrom ∨ q.extendedTo ≤ p.extendedFrom
  paid : ∀ paidThrough ∈ tables.paidThrough tenantId,
    (∃ p ∈ tables.paymentsOf tenantId, p.extendedTo = paidThrough) ∧
      ∀ p ∈ tables.paymentsOf tenantId, p.extendedTo ≤ paidThrough
  unpaid : tables.paidThrough tenantId = none → tables.paymentsOf tenantId = []

end BillingTables

/-! ## Transactions -/

inductive PaymentPhase
  | begun
  | selected (paidThrough : Option Nat)
  | inserted (paidThrough : Option Nat)
  | upserted (paidThrough : Option Nat)
  | committed
  | rolledBack
deriving DecidableEq

structure PaymentTransaction where
  request : RecordPaymentRequest
  phase : PaymentPhase
deriving DecidableEq

namespace PaymentTransaction

/-- It holds the row of its tenant's subscription: one that it found, or one that it wrote. -/
def locksRow (t : PaymentTransaction) : Bool :=
  match t.phase with
  | .selected paidThrough | .inserted paidThrough => paidThrough.isSome
  | .upserted _ => true
  | _ => false

def holdsKey (t : PaymentTransaction) : Bool :=
  match t.phase with
  | .inserted _ | .upserted _ => true
  | _ => false

def finished (t : PaymentTransaction) : Bool :=
  match t.phase with
  | .committed | .rolledBack => true
  | _ => false

def committed (t : PaymentTransaction) : Option RecordPaymentRequest :=
  match t.phase with
  | .committed => some t.request
  | _ => none

end PaymentTransaction

structure Billing where
  tables : BillingTables
  transactions : List PaymentTransaction

inductive BillingLabel
  | begin (request : RecordPaymentRequest)
  /-- `SELECT … FOR UPDATE`. -/
  | select (i : Nat)
  /-- The insertion of the payment. -/
  | insert (i : Nat)
  /-- `INSERT … ON CONFLICT DO UPDATE` of the subscription. -/
  | upsert (i : Nat)
  | commit (i : Nat)
  /-- The call fails, wherever it is. -/
  | rollback (i : Nat)
deriving DecidableEq

namespace Billing

variable (s : Billing)

def setPhase (i : Nat) (request : RecordPaymentRequest) (phase : PaymentPhase) : Billing :=
  { s with transactions := s.transactions.set i ⟨request, phase⟩ }

def rowFree (i : Nat) (tenantId : String) : Bool :=
  (s.transactions.eraseIdx i).all fun t => !(t.locksRow && t.request.tenantId = tenantId)

def keyFree (i : Nat) (key : Option (Nat × String)) : Bool :=
  key.isNone || (s.transactions.eraseIdx i).all fun t => !(t.holdsKey && t.request.key = key)

def recorded (key : Option (Nat × String)) : Bool :=
  key.isSome && s.tables.payments.any fun p => p.request.key = key

def insert (i : Nat) (request : RecordPaymentRequest) (paidThrough : Option Nat) : Option Billing :=
  if (request.payment paidThrough).accepted = false ∨ s.recorded request.key = true then
    some (s.setPhase i request .rolledBack)
  else if s.keyFree i request.key = false then none
  else if request.tenantId ∉ s.tables.tenants then some (s.setPhase i request .rolledBack)
  else some (s.setPhase i request (.inserted paidThrough))

def commit (i : Nat) (request : RecordPaymentRequest) (paidThrough : Option Nat) : Billing :=
  { s.setPhase i request .committed with tables := s.tables.publish (request.payment paidThrough) }

/-- A statement that has to wait is not enabled. -/
def step : BillingLabel → Option Billing
  | .begin request => some { s with transactions := s.transactions ++ [⟨request, .begun⟩] }
  | .select i =>
    match s.transactions[i]? with
    | some ⟨request, .begun⟩ =>
      match s.tables.paidThrough request.tenantId with
      -- There is no row to lock, and none to wait for.
      | none => some (s.setPhase i request (.selected none))
      | some paidThrough =>
        if s.rowFree i request.tenantId then some (s.setPhase i request (.selected (some paidThrough))) else none
    | _ => none
  | .insert i =>
    match s.transactions[i]? with
    | some ⟨request, .selected paidThrough⟩ => s.insert i request paidThrough
    | _ => none
  | .upsert i =>
    match s.transactions[i]? with
    | some ⟨request, .inserted paidThrough⟩ =>
      if s.rowFree i request.tenantId then some (s.setPhase i request (.upserted paidThrough)) else none
    | _ => none
  | .commit i =>
    match s.transactions[i]? with
    | some ⟨request, .upserted paidThrough⟩ => some (s.commit i request paidThrough)
    | _ => none
  | .rollback i =>
    match s.transactions[i]? with
    | some t => if t.finished then none else some (s.setPhase i t.request .rolledBack)
    | none => none

def committed : List RecordPaymentRequest := s.transactions.filterMap PaymentTransaction.committed

end Billing

/-! ## What a step can do -/

inductive BillingStep (s : Billing) : BillingLabel → Billing → Prop
  | begin (request : RecordPaymentRequest) :
    BillingStep s (.begin request) { s with transactions := s.transactions ++ [⟨request, .begun⟩] }
  | selectNone {i : Nat} {request : RecordPaymentRequest} :
    s.transactions[i]? = some ⟨request, .begun⟩ → s.tables.paidThrough request.tenantId = none →
    BillingStep s (.select i) (s.setPhase i request (.selected none))
  | select {i paidThrough : Nat} {request : RecordPaymentRequest} :
    s.transactions[i]? = some ⟨request, .begun⟩ → s.tables.paidThrough request.tenantId = some paidThrough →
    s.rowFree i request.tenantId = true →
    BillingStep s (.select i) (s.setPhase i request (.selected (some paidThrough)))
  | insert {i : Nat} {request : RecordPaymentRequest} {paidThrough : Option Nat} :
    s.transactions[i]? = some ⟨request, .selected paidThrough⟩ → (request.payment paidThrough).accepted = true →
    s.recorded request.key = false → s.keyFree i request.key = true →
    BillingStep s (.insert i) (s.setPhase i request (.inserted paidThrough))
  | upsert {i : Nat} {request : RecordPaymentRequest} {paidThrough : Option Nat} :
    s.transactions[i]? = some ⟨request, .inserted paidThrough⟩ → s.rowFree i request.tenantId = true →
    BillingStep s (.upsert i) (s.setPhase i request (.upserted paidThrough))
  | commit {i : Nat} {request : RecordPaymentRequest} {paidThrough : Option Nat} :
    s.transactions[i]? = some ⟨request, .upserted paidThrough⟩ → BillingStep s (.commit i) (s.commit i request paidThrough)
  /-- The call fails, of itself or by a constraint. -/
  | rollback {l : BillingLabel} {i : Nat} {request : RecordPaymentRequest} {phase : PaymentPhase} :
    s.transactions[i]? = some ⟨request, phase⟩ → phase ≠ .committed →
    BillingStep s l (s.setPhase i request .rolledBack)

theorem billingStep_cases {s s' : Billing} {l : BillingLabel} (h : s.step l = some s') : BillingStep s l s' := by
  cases l with
  | begin request =>
    cases h
    exact .begin request
  | select i =>
    simp only [Billing.step] at h
    split at h
    · rename_i request hi
      split at h
      · rename_i hnone
        cases h
        exact .selectNone hi hnone
      · rename_i paidThrough hsome
        split at h
        · rename_i hfree
          cases h
          exact .select hi hsome hfree
        · cases h
    · cases h
  | insert i =>
    simp only [Billing.step] at h
    split at h
    · rename_i request paidThrough hi
      unfold Billing.insert at h
      split at h
      · cases h
        exact .rollback hi (by simp)
      · rename_i hchecks
        split at h
        · cases h
        · rename_i hkey
          split at h
          · cases h
            exact .rollback hi (by simp)
          · cases h
            obtain ⟨haccepted, hnew⟩ := not_or.mp hchecks
            exact .insert hi (by simpa using haccepted) (by simpa using hnew) (by simpa using hkey)
    · cases h
  | upsert i =>
    simp only [Billing.step] at h
    split at h
    · rename_i request paidThrough hi
      split at h
      · rename_i hfree
        cases h
        exact .upsert hi hfree
      · cases h
    · cases h
  | commit i =>
    simp only [Billing.step] at h
    split at h
    · rename_i request paidThrough hi
      cases h
      exact .commit hi
    · cases h
  | rollback i =>
    simp only [Billing.step] at h
    split at h
    · rename_i t hi
      split at h
      · cases h
      · rename_i hfinished
        cases h
        refine .rollback hi ?_
        intro hphase
        exact hfinished (by simp [PaymentTransaction.finished, hphase])
    · cases h

end Paymaster
