import Paymaster.Backend.AdminService
import Paymaster.Backend.Payments
import Paymaster.Lib.LuaNumber

/-!
# Payments by transaction

The operator records a payment under the hash that it is given; a customer
claims one, and the chain decides what it paid for. The index over `(chain_id,
tx_hash)` is over text: it keeps a transaction from being recorded twice under
one spelling of its hash.
-/

namespace Paymaster

/-- The body of `POST /admin/subscriptions/payments`, as `recordPaymentSchema` lets it through. -/
structure RecordPaymentDto where
  tenantId : String
  plan : String
  periodSeconds : Nat
  amountWei : Option Nat
  chainId : Option Nat
  txHash : Option String
  note : Option String
  tenantId_length : 1 ≤ Schema.utf16Length tenantId ∧ Schema.utf16Length tenantId ≤ 64
  plan_length : 1 ≤ Schema.utf16Length plan ∧ Schema.utf16Length plan ≤ 64
  period_range : 60 ≤ periodSeconds ∧ periodSeconds ≤ 63072000
  chainId_range : ∀ chainId' ∈ chainId, 0 < chainId' ∧ chainId' ≤ Schema.maxSafeInteger
  txHash_hex : ∀ hash ∈ txHash, (Schema.hexNumber 64 hash).isSome = true
  note_length : ∀ text ∈ note, Schema.utf16Length text ≤ 500

/-- The body of `POST /admin/subscription/claim`, as `claimPaymentSchema` lets it through. -/
structure ClaimPaymentDto where
  chainId : Nat
  txHash : String
  planId : String
  chainId_range : 0 < chainId ∧ chainId ≤ Schema.maxSafeInteger
  txHash_hex : (Schema.hexNumber 64 txHash).isSome = true
  planId_length : 1 ≤ Schema.utf16Length planId ∧ Schema.utf16Length planId ≤ 64

structure NativeTransfer where
  sender : Address
  recipient : Option Address
  valueWei : Nat
  input : String
  blockNumber : Nat
  success : Bool
deriving DecidableEq

inductive PaymentVerificationCode
  | notSoldOnChain
  | notFound
  | reverted
  | wrongRecipient
  | wrongAccount
  | underpaid
  | unconfirmed
deriving DecidableEq

inductive BillingError
  | roleEscalation (permissions : List Permission)
  | invalidTenantId
  | unknownPlan (id : String)
  | unknownChain (chainId : Nat)
  | verification (code : PaymentVerificationCode)
deriving DecidableEq

/-- `paymentData` is the tenant's key, and `chains` those that are configured. -/
structure PaymentVerifier where
  treasury : Address
  confirmations : Nat
  maxPeriodsPerPayment : Nat
  paymentData : String → String
  chains : List Nat

structure VerifiedPayment where
  chainId : Nat
  txHash : String
  sender : Address
  amountWei : Nat
  periods : Nat
deriving DecidableEq

def toLowerCase (s : String) : String := String.ofList (s.toList.map Char.toLower)

/-- `Math.min(Number(n), bound)`: a bigint becomes the nearest double. -/
def minNumber (n bound : Nat) : Nat :=
  match Lua.Number.ofNat n with
  | .finite x => min x bound
  | .infinite => bound

def PaymentVerifier.verify (verifier : PaymentVerifier) (request : ClaimPaymentDto) (tenantId : String) (plan : Plan)
    (transfer : Option NativeTransfer) (head : Nat) : Except BillingError VerifiedPayment :=
  match plan.priceWei.lookup request.chainId with
  | none => .error (.verification .notSoldOnChain)
  | some price =>
    if request.chainId ∉ verifier.chains then .error (.unknownChain request.chainId)
    else
      match transfer with
      | none => .error (.verification .notFound)
      | some transfer =>
        if transfer.success = false then .error (.verification .reverted)
        else if transfer.recipient ≠ some verifier.treasury then .error (.verification .wrongRecipient)
        else if toLowerCase transfer.input ≠ toLowerCase (verifier.paymentData tenantId) then
          .error (.verification .wrongAccount)
        else if transfer.valueWei < price then .error (.verification .underpaid)
        else if (head : Int) - transfer.blockNumber + 1 < verifier.confirmations then .error (.verification .unconfirmed)
        else .ok ⟨request.chainId, request.txHash, transfer.sender, transfer.valueWei,
          max 1 (minNumber (transfer.valueWei / price) verifier.maxPeriodsPerPayment)⟩

def maxClaimExtensionSeconds : Nat := 63072000

structure BillingDeps where
  verifier : PaymentVerifier
  plans : PlanCatalogue
  /-- The note that a claim is recorded with. -/
  note : VerifiedPayment → Nat → Plan → String

namespace BillingDeps

variable (deps : BillingDeps) (context : ActorContext)

def recordSubscriptionPayment (request : RecordPaymentDto) (now : Nat) : Except BillingError RecordPaymentRequest :=
  if .billingWrite ∉ context.permissions then .error (.roleEscalation [.billingWrite])
  else if tenantIdPattern request.tenantId = false then .error .invalidTenantId
  else .ok ⟨request.tenantId, request.plan, request.periodSeconds, request.amountWei, request.chainId, request.txHash,
    context.actor, request.note, now⟩

def claimSubscriptionPayment (request : ClaimPaymentDto) (transfer : Option NativeTransfer) (head now : Nat) :
    Except BillingError RecordPaymentRequest :=
  match deps.plans.find (some request.planId) with
  | none => .error (.unknownPlan request.planId)
  | some plan => do
    let verified ← deps.verifier.verify request context.writeScope plan transfer head
    let periods := min verified.periods (max 1 (maxClaimExtensionSeconds / plan.periodSeconds))
    .ok ⟨context.writeScope, plan.id, plan.periodSeconds * periods, some verified.amountWei, some verified.chainId,
      some (toLowerCase verified.txHash), "chain-verified:" ++ context.actor, some (deps.note verified periods plan), now⟩

end BillingDeps

/-! ## Calls -/

inductive PaymentLabel
  | record (context : ActorContext) (request : RecordPaymentDto) (now : Nat)
  /-- With what the chain answers. -/
  | claim (context : ActorContext) (request : ClaimPaymentDto) (transfer : Option NativeTransfer) (head now : Nat)
  /-- A statement of a transaction in progress. -/
  | statement (l : BillingLabel)

def PaymentLabel.request (deps : BillingDeps) : PaymentLabel → Option RecordPaymentRequest
  | .record context request now => (BillingDeps.recordSubscriptionPayment context request now).toOption
  | .claim context request transfer head now => (deps.claimSubscriptionPayment context request transfer head now).toOption
  | .statement _ => none

namespace Billing

variable (deps : BillingDeps) (s : Billing)

/-- A call that is refused changes nothing. -/
def payStep : PaymentLabel → Option Billing
  | .statement (.begin _) => none
  | .statement l => s.step l
  | l =>
    match l.request deps with
    | some request => s.step (.begin request)
    | none => some s

def requests : List RecordPaymentRequest :=
  s.tables.payments.map SubscriptionPayment.request ++ s.transactions.map PaymentTransaction.request

end Billing

def RecordPaymentRequest.transaction (request : RecordPaymentRequest) : Option (Nat × Nat) := do
  let chainId ← request.chainId
  let txHash ← request.txHash
  let hash ← Schema.hexNumber 64 txHash
  some (chainId, hash)

namespace BillingTables

def paymentsBy (tables : BillingTables) (transaction : Nat × Nat) : List SubscriptionPayment :=
  tables.payments.filter fun payment => payment.request.transaction = some transaction

end BillingTables

def RecordPaymentRequest.spelledLike (request other : RecordPaymentRequest) : Bool :=
  request.transaction.isNone || request.transaction ≠ other.transaction || request.txHash = other.txHash

namespace Billing

/-- A call spells its transaction as every call before it, and every payment, does. -/
def keepsSpelling (deps : BillingDeps) (s : Billing) (l : PaymentLabel) : Bool :=
  (l.request deps).all fun request => s.requests.all request.spelledLike

def heldKey (t : PaymentTransaction) : Option (Nat × String) := if t.holdsKey then t.request.key else none

def index (s : Billing) : List (Nat × String) :=
  s.tables.payments.filterMap (fun payment => payment.request.key) ++ s.transactions.filterMap heldKey

/-- The invariant: no key is in the index twice, and a transaction has one spelling. -/
structure Spelled (s : Billing) : Prop where
  indexed : s.index.Nodup
  alike : ∀ r ∈ s.requests, ∀ r' ∈ s.requests, r.spelledLike r' = true

end Billing

/-! ## Steps -/

section
variable {deps : BillingDeps} {s s' : Billing} {i : Nat} {t : PaymentTransaction} {request : RecordPaymentRequest}

open Billing

theorem spelledLike_refl (r : RecordPaymentRequest) : r.spelledLike r = true := by
  simp [RecordPaymentRequest.spelledLike]

theorem spelledLike_symm {r r' : RecordPaymentRequest} (h : r.spelledLike r' = true) : r'.spelledLike r = true := by
  unfold RecordPaymentRequest.spelledLike at h ⊢
  by_cases heq : r.transaction = r'.transaction
  · rw [heq] at h
    simp only [ne_eq, not_true, decide_false, Bool.or_false, Bool.or_eq_true, decide_eq_true_eq] at h
    rcases h with hnone | hhash
    · simp [hnone]
    · simp [hhash]
  · simp [Ne.symm heq]

theorem key_of_spelledLike {r r' : RecordPaymentRequest} {transaction : Nat × Nat} (h : r.spelledLike r' = true)
    (hr : r.transaction = some transaction) (hr' : r'.transaction = some transaction) :
    r.key = r'.key ∧ r.key ≠ none := by
  have hhash : r.txHash = r'.txHash := by
    unfold RecordPaymentRequest.spelledLike at h
    simpa [hr, hr'] using h
  unfold RecordPaymentRequest.transaction at hr hr'
  simp only [Option.bind_eq_bind, Option.bind_eq_some_iff, Option.some.injEq] at hr hr'
  obtain ⟨chainId, hchain, hash, htx, number, -, rfl⟩ := hr
  obtain ⟨chainId', hchain', hash', htx', number', -, heq⟩ := hr'
  have hchains : chainId' = chainId := congrArg Prod.fst heq
  unfold RecordPaymentRequest.key
  rw [hchain, htx, hchain', ← hhash, htx, hchains]
  simp

/-- A key that is free and not recorded is not in the index without the transaction. -/
theorem notMem_index (hnew : s.recorded request.key = false) (hkey : s.keyFree i request.key = true)
    {key : Nat × String} (hrequest : request.key = some key) :
    key ∉ s.tables.payments.filterMap (fun payment => payment.request.key) ++
      (s.transactions.eraseIdx i).filterMap heldKey := by
  intro hmem
  rcases List.mem_append.mp hmem with hcommitted | hheld
  · obtain ⟨payment, hpayment, hsame⟩ := List.mem_filterMap.mp hcommitted
    unfold recorded at hnew
    rw [hrequest, Option.isSome_some, Bool.true_and, List.any_eq_false] at hnew
    exact hnew payment hpayment (by simp [hsame])
  · obtain ⟨u, hu, hsame⟩ := List.mem_filterMap.mp hheld
    unfold heldKey at hsame
    split at hsame
    · rename_i hholds
      unfold keyFree at hkey
      rw [hrequest, Option.isNone_some, Bool.false_or, List.all_eq_true] at hkey
      have hfree := hkey u hu
      rw [hholds, hsame] at hfree
      simp at hfree
    · cases hsame

theorem requests_set {phase : PaymentPhase} (hi : s.transactions[i]? = some ⟨request, phase⟩) (phase' : PaymentPhase) :
    (s.transactions.set i ⟨request, phase'⟩).map PaymentTransaction.request =
      s.transactions.map PaymentTransaction.request := by
  rw [List.map_set]
  exact Pool.set_of_getElem? (by rw [List.getElem?_map, hi]; rfl)

theorem spelled_set {phase phase' : PaymentPhase} (hs : s.Spelled) (hi : s.transactions[i]? = some ⟨request, phase⟩)
    (hheld : heldKey ⟨request, phase'⟩ = heldKey ⟨request, phase⟩ ∨ heldKey ⟨request, phase'⟩ = none) :
    (s.setPhase i request phase').Spelled := by
  refine ⟨?_, ?_⟩
  · have hold := (Serial.filterMap_eraseIdx_perm (f := heldKey) hi).append_left
      (s.tables.payments.filterMap fun payment => payment.request.key)
    have hnew := (Serial.filterMap_set_perm (f := heldKey) (q := ⟨request, phase'⟩) hi).append_left
      (s.tables.payments.filterMap fun payment => payment.request.key)
    refine hnew.nodup_iff.mpr ?_
    have hbefore := hold.nodup_iff.mp hs.indexed
    rcases hheld with hsame | hnone
    · rw [hsame]
      exact hbefore
    · rw [hnone]
      exact hbefore.sublist ((List.sublist_append_right _ _).append_left _)
  · have hrequests : (s.setPhase i request phase').requests = s.requests :=
      congrArg (_ ++ ·) (requests_set hi phase')
    rw [hrequests]
    exact hs.alike

theorem spelled_insert {paidThrough : Option Nat} (hs : s.Spelled)
    (hi : s.transactions[i]? = some ⟨request, .selected paidThrough⟩) (hnew : s.recorded request.key = false)
    (hkey : s.keyFree i request.key = true) : (s.setPhase i request (.inserted paidThrough)).Spelled := by
  cases hrequest : request.key with
  | none => exact spelled_set hs hi (.inr hrequest)
  | some key =>
    refine ⟨?_, ?_⟩
    · have hold := (Serial.filterMap_eraseIdx_perm (f := heldKey) hi).append_left
        (s.tables.payments.filterMap fun payment => payment.request.key)
      have hinserted := (Serial.filterMap_set_perm (f := heldKey) (q := ⟨request, .inserted paidThrough⟩) hi).append_left
        (s.tables.payments.filterMap fun payment => payment.request.key)
      have hheld : heldKey ⟨request, .inserted paidThrough⟩ = some key := hrequest
      rw [hheld] at hinserted
      refine hinserted.nodup_iff.mpr (List.perm_middle.nodup_iff.mpr (List.nodup_cons.mpr ⟨?_, ?_⟩))
      · exact notMem_index hnew hkey hrequest
      · exact hold.nodup_iff.mp hs.indexed
    · have hrequests : (s.setPhase i request (.inserted paidThrough)).requests = s.requests :=
        congrArg (_ ++ ·) (requests_set hi _)
      rw [hrequests]
      exact hs.alike

theorem spelled_commit {paidThrough : Option Nat} (hs : s.Spelled)
    (hi : s.transactions[i]? = some ⟨request, .upserted paidThrough⟩) : (s.commit i request paidThrough).Spelled := by
  refine ⟨?_, ?_⟩
  · have hold := (Serial.filterMap_eraseIdx_perm (f := heldKey) hi).append_left
      (s.tables.payments.filterMap fun payment => payment.request.key)
    have hnew := (Serial.filterMap_set_perm (f := heldKey) (q := ⟨request, .committed⟩) hi).append_left
      ((s.tables.payments ++ [request.payment paidThrough]).filterMap fun payment => payment.request.key)
    refine hnew.nodup_iff.mpr ?_
    have hbefore := hold.nodup_iff.mp hs.indexed
    rw [List.filterMap_append, List.append_assoc]
    exact hbefore
  · intro r hr r' hr'
    have hsame : ∀ r ∈ (s.commit i request paidThrough).requests, r ∈ s.requests := by
      intro r hr
      rcases List.mem_append.mp hr with hpayment | htransaction
      · obtain ⟨payment, hmem, rfl⟩ := List.mem_map.mp hpayment
        rcases List.mem_append.mp hmem with hold | hnew
        · exact List.mem_append_left _ (List.mem_map_of_mem hold)
        · rw [List.mem_singleton.mp hnew]
          exact List.mem_append_right _ (List.mem_map_of_mem (List.mem_of_getElem? hi))
      · have hpool : r ∈ s.transactions.map PaymentTransaction.request := requests_set hi .committed ▸ htransaction
        exact List.mem_append_right _ hpool
    exact hs.alike r (hsame r hr) r' (hsame r' hr')

theorem spelled_begin (hs : s.Spelled) (hl : s.requests.all request.spelledLike = true) :
    ({ s with transactions := s.transactions ++ [⟨request, .begun⟩] } : Billing).Spelled := by
  refine ⟨?_, ?_⟩
  · show (_ ++ List.filterMap heldKey (s.transactions ++ [⟨request, .begun⟩])).Nodup
    have hnone : List.filterMap heldKey [⟨request, .begun⟩] = [] := rfl
    rw [List.filterMap_append, hnone, List.append_nil]
    exact hs.indexed
  · have hcases : ∀ r ∈ ({ s with transactions := s.transactions ++ [⟨request, .begun⟩] } : Billing).requests,
        r ∈ s.requests ∨ r = request := by
      intro r hr
      rcases List.mem_append.mp hr with hpayment | htransaction
      · exact .inl (List.mem_append_left _ hpayment)
      · rw [List.map_append] at htransaction
        rcases List.mem_append.mp htransaction with hold | hnew
        · exact .inl (List.mem_append_right _ hold)
        · exact .inr (List.mem_singleton.mp hnew)
    have hlike := List.all_eq_true.mp hl
    intro r hr r' hr'
    rcases hcases r hr with hold | rfl
    · rcases hcases r' hr' with hold' | rfl
      · exact hs.alike r hold r' hold'
      · exact spelledLike_symm (hlike _ hold)
    · rcases hcases r' hr' with hold' | rfl
      · exact hlike _ hold'
      · exact spelledLike_refl _

theorem spelled_step {l : BillingLabel} (hs : s.Spelled)
    (hl : ∀ request, l = .begin request → s.requests.all request.spelledLike = true) (h : BillingStep s l s') :
    s'.Spelled := by
  cases h with
  | begin request => exact spelled_begin hs (hl request rfl)
  | selectNone hi hnone => exact spelled_set hs hi (.inl rfl)
  | select hi hsome hfree => exact spelled_set hs hi (.inl rfl)
  | insert hi haccepted hnew hkey => exact spelled_insert hs hi hnew hkey
  | upsert hi hfree => exact spelled_set hs hi (.inl rfl)
  | commit hi => exact spelled_commit hs hi
  | rollback hi hphase => exact spelled_set hs hi (.inr rfl)

theorem spelled_payStep {l : PaymentLabel} (hs : s.Spelled) (hl : s.keepsSpelling deps l = true)
    (h : s.payStep deps l = some s') : s'.Spelled := by
  have hcall : ∀ request, (l.request deps = some request ∧ s.step (.begin request) = some s') → s'.Spelled := by
    rintro request ⟨hrequest, hstep⟩
    refine spelled_step hs ?_ (billingStep_cases hstep)
    rintro request' ⟨⟩
    unfold keepsSpelling at hl
    rw [hrequest, Option.all_some] at hl
    exact hl
  cases l with
  | statement l =>
    cases l with
    | begin request => cases h
    | _ =>
      simp only [payStep] at h
      exact spelled_step hs (by intro _ heq; cases heq) (billingStep_cases h)
  | record context request now =>
    simp only [payStep] at h
    split at h
    · rename_i request' hrequest
      exact hcall request' ⟨hrequest, h⟩
    · cases h
      exact hs
  | claim context request transfer head now =>
    simp only [payStep] at h
    split at h
    · rename_i request' hrequest
      exact hcall request' ⟨hrequest, h⟩
    · cases h
      exact hs

/-- A transaction with one spelling is in the index once. -/
theorem paymentsBy_length (hs : s.Spelled) (transaction : Nat × Nat) :
    (s.tables.paymentsBy transaction).length ≤ 1 := by
  have hkeys : ((s.tables.paymentsBy transaction).filterMap fun payment => payment.request.key).Nodup :=
    (List.nodup_append.mp hs.indexed).1.sublist (List.filter_sublist.filterMap _)
  cases hpayments : s.tables.paymentsBy transaction with
  | nil => exact Nat.zero_le 1
  | cons first rest =>
    have hmem : ∀ payment ∈ s.tables.paymentsBy transaction,
        payment.request ∈ s.requests ∧ payment.request.transaction = some transaction := by
      intro payment hpayment
      obtain ⟨hstored, hnames⟩ := List.mem_filter.mp hpayment
      exact ⟨List.mem_append_left _ (List.mem_map_of_mem hstored), of_decide_eq_true hnames⟩
    obtain ⟨hfirst, hnames⟩ := hmem first (by rw [hpayments]; exact List.mem_cons_self)
    obtain ⟨key, hkey⟩ := Option.ne_none_iff_exists'.mp
      (key_of_spelledLike (hs.alike _ hfirst _ hfirst) hnames hnames).2
    cases hrest : rest with
    | nil => exact Nat.le_refl 1
    | cons second others =>
      have hsecond : second ∈ s.tables.paymentsBy transaction := by
        rw [hpayments, hrest]
        exact List.mem_cons_of_mem _ List.mem_cons_self
      obtain ⟨hrequest, hnames'⟩ := hmem second hsecond
      have hsame := (key_of_spelledLike (hs.alike _ hfirst _ hrequest) hnames hnames').1
      have hpair : (s.tables.paymentsBy transaction).filterMap (fun payment => payment.request.key) =
          key :: key :: others.filterMap fun payment => payment.request.key := by
        rw [hpayments, hrest]
        simp only [List.filterMap_cons, hkey, hsame ▸ hkey]
      rw [hpair] at hkeys
      exact absurd List.mem_cons_self (List.nodup_cons.mp hkeys).1

/-- In every run in which no transaction is spelled in two ways, it buys time at most once. -/
theorem transaction_pays_once {ls : List PaymentLabel} (hstart : s.Spelled)
    (hls : Runs.Meets (payStep deps) (fun s l => s.keepsSpelling deps l = true) s ls)
    (hrun : Runs.run (payStep deps) s ls = some s') (transaction : Nat × Nat) :
    (s'.tables.paymentsBy transaction).length ≤ 1 :=
  paymentsBy_length (Runs.invariant_of_meets (fun hs hl h => spelled_payStep hs hl h) hstart hls hrun) transaction

end

/-! ## A hash in two spellings -/

def upperHash : String := "0xABABABABABABABABABABABABABABABABABABABABABABABABABABABABABABABAB"

def lowerHash : String := "0xabababababababababababababababababababababababababababababababab"

theorem upperHash_hex : ∀ hash ∈ some upperHash, (Schema.hexNumber 64 hash).isSome = true := by
  rintro hash ⟨⟩
  decide +kernel

theorem lowerHash_hex : ∀ hash ∈ some lowerHash, (Schema.hexNumber 64 hash).isSome = true := by
  rintro hash ⟨⟩
  decide +kernel

theorem acme_length : 1 ≤ Schema.utf16Length "acme" ∧ Schema.utf16Length "acme" ≤ 64 := by decide +kernel

theorem growth_length : 1 ≤ Schema.utf16Length "growth" ∧ Schema.utf16Length "growth" ≤ 64 := by decide +kernel

theorem month_range : 60 ≤ 2592000 ∧ 2592000 ≤ 63072000 := by decide

theorem one_range : 0 < 1 ∧ 1 ≤ Schema.maxSafeInteger := by decide

theorem someOne_range : ∀ chainId ∈ some 1, 0 < chainId ∧ chainId ≤ Schema.maxSafeInteger := by
  rintro chainId ⟨⟩
  exact one_range

theorem noNote_length : ∀ text ∈ (none : Option String), Schema.utf16Length text ≤ 500 := by
  rintro text ⟨⟩

def operatorRecord (hash : String) (h : ∀ hash' ∈ some hash, (Schema.hexNumber 64 hash').isSome = true) :
    RecordPaymentDto :=
  ⟨"acme", "growth", 2592000, some 100, some 1, some hash, none, acme_length, growth_length, month_range,
    someOne_range, h, noNote_length⟩

def acmePaymentClaim : ClaimPaymentDto :=
  ⟨1, lowerHash, "growth", one_range, lowerHash_hex _ rfl, growth_length⟩

def growthPlan : Plan := ⟨"growth", 2592000, [(1, 100)], ⟨none, none⟩, none⟩

theorem growthPlan_distinct : ([growthPlan].map Plan.id).Nodup := List.nodup_singleton _

theorem growthPlan_default : ∀ id ∈ (none : Option String), id ∈ [growthPlan].map Plan.id := by
  rintro id ⟨⟩

def claimDeps : BillingDeps where
  verifier := ⟨7, 1, 12, fun _ => "0x61636d65", [1]⟩
  plans := ⟨[growthPlan], none, growthPlan_distinct, growthPlan_default⟩
  note _ _ _ := "verified on chain"

def platformContext : ActorContext := ⟨"platform-key", none, .platform, "default", [.billingWrite]⟩

def acmeContext : ActorContext := ⟨"key-1", none, .tenant "acme", "acme", [.fundingWrite]⟩

def acmeTransfer : NativeTransfer := ⟨9, some 7, 100, "0x61636d65", 5, true⟩

def recordAndClaim (hash : String) (h : ∀ hash' ∈ some hash, (Schema.hexNumber 64 hash').isSome = true) :
    List PaymentLabel :=
  [.record platformContext (operatorRecord hash h) 1800000000] ++
    ([.select 0, .insert 0, .upsert 0, .commit 0] : List BillingLabel).map .statement ++
    [.claim acmeContext acmePaymentClaim (some acmeTransfer) 5 1800000000, .statement (.select 1), .statement (.insert 1)]

def acmeTransaction : Nat × Nat := (1, (Schema.hexNumber 64 lowerHash).getD 0)

theorem spelled_unpaid : (⟨unpaidTables, []⟩ : Billing).Spelled :=
  ⟨List.nodup_nil, fun _ hr => (List.not_mem_nil hr).elim⟩

/-- In lower case, the claim is a duplicate. -/
theorem transaction_pays_once_acme : ∃ s,
    Runs.run (Billing.payStep claimDeps) ⟨unpaidTables, []⟩ (recordAndClaim lowerHash lowerHash_hex) = some s ∧
      (s.tables.payments.length = 1 ∧ s.transactions.map PaymentTransaction.phase = [.committed, .rolledBack]) ∧
      (s.tables.paymentsBy acmeTransaction).length ≤ 1 := by
  have hrun : (Runs.run (Billing.payStep claimDeps) ⟨unpaidTables, []⟩ (recordAndClaim lowerHash lowerHash_hex)).map
      (fun s => (s.tables.payments.length, s.transactions.map PaymentTransaction.phase)) =
      some (1, [.committed, .rolledBack]) := by
    decide +kernel
  obtain ⟨s, hs, heq⟩ := Option.map_eq_some_iff.mp hrun
  exact ⟨s, hs, Prod.mk.inj heq, transaction_pays_once spelled_unpaid (by decide +kernel) hs acmeTransaction⟩

/-- A hash that the operator wrote in upper case is no duplicate of the customer's. -/
theorem transaction_pays_twice : ¬ ∀ (deps : BillingDeps) (s s' : Billing) (ls : List PaymentLabel), s.Spelled →
    Runs.run (Billing.payStep deps) s ls = some s' → ∀ transaction, (s'.tables.paymentsBy transaction).length ≤ 1 := by
  intro hall
  have hrun : (Runs.run (Billing.payStep claimDeps) ⟨unpaidTables, []⟩
      (recordAndClaim upperHash upperHash_hex ++ [.statement (.upsert 1), .statement (.commit 1)])).map
      (fun s => (s.tables.paymentsBy acmeTransaction).length) = some 2 := by
    decide +kernel
  obtain ⟨s, hs, hlength⟩ := Option.map_eq_some_iff.mp hrun
  have hone := hall claimDeps _ s _ spelled_unpaid hs acmeTransaction
  rw [hlength] at hone
  exact absurd hone (by decide)

end Paymaster
