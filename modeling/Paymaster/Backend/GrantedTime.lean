import Paymaster.Backend.PaymentClaims
import Paymaster.Backend.Plans

/-!
# What a claim grants

A claim is checked against the chain before it becomes a payment, and what it
extends the subscription by is whole periods that were paid for: the quotient of
two bigints, as a double, within what a payment and what an extension may be.
-/

namespace Paymaster

/-- A transfer that pays the treasury at least the price on account of the
tenant, and is as deep as it has to be. -/
structure NativeTransfer.PaysFor (transfer : NativeTransfer) (verifier : PaymentVerifier) (tenantId : String)
    (price head : Nat) : Prop where
  mined : transfer.success = true
  treasury : transfer.recipient = some verifier.treasury
  reference : toLowerCase transfer.input = toLowerCase (verifier.paymentData tenantId)
  price : price ≤ transfer.valueWei
  depth : (verifier.confirmations : Int) ≤ head - transfer.blockNumber + 1

/-- Periods that were paid for, within the bounds of a payment and of an extension. -/
structure Plan.Granted (plan : Plan) (verifier : PaymentVerifier) (price valueWei periods : Nat) : Prop where
  some : 1 ≤ periods
  paid : periods * price ≤ valueWei
  perPayment : periods ≤ verifier.maxPeriodsPerPayment
  extension : periods * plan.periodSeconds ≤ maxClaimExtensionSeconds

/-- Up to a bound that a double can count to, a quotient is as good as its double. -/
theorem min_minNumber (n bound : Nat) {k : Nat} (hk : k < 2 ^ 53) : min (minNumber n bound) k = min (min n bound) k := by
  unfold minNumber
  rcases Nat.lt_or_ge n (2 ^ 53) with hn | hn
  · rw [Lua.ofNat_of_lt hn]
  · unfold Lua.Number.ofNat
    have hround : k ≤ Lua.round n := Lua.round_ge hk (hk.le.trans hn)
    split
    · rename_i x hx
      split at hx
      · obtain rfl := Lua.Number.finite.inj hx
        omega
      · cases hx
    · omega

section
variable {deps : BillingDeps} {context : ActorContext} {request : ClaimPaymentDto} {transfer : Option NativeTransfer}
  {head now : Nat}

theorem verify_ok {verifier : PaymentVerifier} {tenantId : String} {plan : Plan} {verified : VerifiedPayment}
    (h : verifier.verify request tenantId plan transfer head = .ok verified) :
    ∃ price paid, plan.priceWei.lookup request.chainId = some price ∧ transfer = some paid ∧
      paid.PaysFor verifier tenantId price head ∧
      verified = ⟨request.chainId, request.txHash, paid.sender, paid.valueWei,
        max 1 (minNumber (paid.valueWei / price) verifier.maxPeriodsPerPayment)⟩ := by
  unfold PaymentVerifier.verify at h
  split at h
  · cases h
  · rename_i price hprice
    split at h
    · cases h
    · split at h
      · cases h
      · rename_i paid
        split at h
        · cases h
        · rename_i hsuccess
          split at h
          · cases h
          · rename_i hrecipient
            split at h
            · cases h
            · rename_i hinput
              split at h
              · cases h
              · rename_i hvalue
                split at h
                · cases h
                · rename_i hdepth
                  cases h
                  refine ⟨price, paid, hprice, rfl, ⟨?_, ?_, ?_, ?_, ?_⟩, rfl⟩
                  · simpa using hsuccess
                  · simpa using hrecipient
                  · simpa using hinput
                  · exact Nat.not_lt.mp hvalue
                  · exact Int.not_lt.mp hdepth

/-- The periods of a claim, clamped twice, are paid for. -/
theorem granted_clamped {verifier : PaymentVerifier} {plan : Plan} {price valueWei : Nat} (hsold : plan.Sold)
    (hprice : 0 < price) (hvalue : price ≤ valueWei) (hmax : 1 ≤ verifier.maxPeriodsPerPayment) :
    plan.Granted verifier price valueWei
      (min (max 1 (minNumber (valueWei / price) verifier.maxPeriodsPerPayment))
        (max 1 (maxClaimExtensionSeconds / plan.periodSeconds))) := by
  obtain ⟨hday, hyears⟩ := hsold.period
  have hone : 1 ≤ valueWei / price := (Nat.one_le_div_iff hprice).mpr hvalue
  have hfits : 1 ≤ maxClaimExtensionSeconds / plan.periodSeconds :=
    (Nat.one_le_div_iff (by omega)).mpr hyears
  have hextension : maxClaimExtensionSeconds / plan.periodSeconds < 2 ^ 53 :=
    (Nat.div_le_self _ _).trans_lt (by decide)
  have hclamped : min (max 1 (minNumber (valueWei / price) verifier.maxPeriodsPerPayment))
      (max 1 (maxClaimExtensionSeconds / plan.periodSeconds)) =
      min (min (valueWei / price) verifier.maxPeriodsPerPayment) (maxClaimExtensionSeconds / plan.periodSeconds) := by
    have hdouble := min_minNumber (valueWei / price) verifier.maxPeriodsPerPayment hextension
    omega
  rw [hclamped]
  have hquotient := Nat.div_mul_le_self valueWei price
  have hperiods := Nat.div_mul_le_self maxClaimExtensionSeconds plan.periodSeconds
  refine ⟨?_, ?_, ?_, ?_⟩
  · omega
  · exact (Nat.mul_le_mul_right price ((min_le_left _ _).trans (min_le_left _ _))).trans hquotient
  · exact (min_le_left _ _).trans (min_le_right _ _)
  · exact (Nat.mul_le_mul_right plan.periodSeconds (min_le_right _ _)).trans hperiods

theorem find_ok {catalogue : PlanCatalogue} {id : String} {plan : Plan} (h : catalogue.find (some id) = some plan) :
    plan ∈ catalogue.plans ∧ plan.id = id := by
  have hfound : (catalogue.plans.find? fun plan => plan.id = id) = some plan := h
  exact ⟨List.mem_of_find?_eq_some hfound, by simpa using List.find?_some hfound⟩

theorem claimSubscriptionPayment_ok {payment : RecordPaymentRequest} (hsold : ∀ plan ∈ deps.plans.plans, plan.Sold)
    (hmax : 1 ≤ deps.verifier.maxPeriodsPerPayment)
    (h : deps.claimSubscriptionPayment context request transfer head now = .ok payment) :
    ∃ plan ∈ deps.plans.plans, ∃ price paid periods, plan.id = request.planId ∧
      plan.priceWei.lookup request.chainId = some price ∧ transfer = some paid ∧
      paid.PaysFor deps.verifier context.writeScope price head ∧
      plan.Granted deps.verifier price paid.valueWei periods ∧
      payment.tenantId = context.writeScope ∧ payment.plan = request.planId ∧
      payment.periodSeconds = periods * plan.periodSeconds ∧ payment.now = now := by
  unfold BillingDeps.claimSubscriptionPayment at h
  split at h
  · cases h
  · rename_i plan hplan
    obtain ⟨hmem, hid⟩ := find_ok hplan
    cases hverify : deps.verifier.verify request context.writeScope plan transfer head with
    | error e =>
      rw [hverify] at h
      cases h
    | ok verified =>
      rw [hverify] at h
      cases h
      obtain ⟨price, paid, hprice, htransfer, hpays, rfl⟩ := verify_ok hverify
      have hgranted := granted_clamped (hsold plan hmem) ((hsold plan hmem).price _ _ hprice) hpays.price hmax
      exact ⟨plan, hmem, price, paid, _, hid, hprice, htransfer, hpays, hgranted, rfl, hid, Nat.mul_comm _ _, rfl⟩

end

/-! ## The payment of a claim -/

section
variable {deps : BillingDeps} {s s' : Billing} {tables : BillingTables} {i : Nat} {request : RecordPaymentRequest}

open Billing

def PaymentPhase.goesBy (paidThrough : Option Nat) : PaymentPhase → Prop
  | .begun => True
  | .selected found | .inserted found | .upserted found => found = paidThrough
  | .committed => False
  | .rolledBack => True

/-- The invariant of a call: its transaction has committed nothing yet and goes by what it
found, or it has extended the subscription from there. -/
def Billing.Pays (unpaid paid : BillingTables → Prop) (found : Option Nat) (i : Nat) (request : RecordPaymentRequest)
    (s : Billing) : Prop :=
  (unpaid s.tables ∧ ∃ phase, s.transactions[i]? = some ⟨request, phase⟩ ∧ phase.goesBy found) ∨
  (paid s.tables ∧ s.transactions[i]? = some ⟨request, .committed⟩)

/-- A payment commits once the transaction has, or is of another tenant, or is the transaction itself. -/
def Billing.makesWay (i : Nat) (tenantId : String) (s : Billing) : PaymentLabel → Prop
  | .statement (.commit j) =>
    j = i ∨ (∃ r, s.transactions[i]? = some ⟨r, .committed⟩) ∨ ∀ t ∈ s.transactions[j]?, t.request.tenantId ≠ tenantId
  | _ => True

variable {unpaid paid : BillingTables → Prop} {found : Option Nat}

theorem pays_other {transactions : List PaymentTransaction} (hs : s.Pays unpaid paid found i request)
    (h : ∀ t, s.transactions[i]? = some t → transactions[i]? = some t) :
    ({ s with transactions := transactions } : Billing).Pays unpaid paid found i request := by
  rcases hs with ⟨htables, phase, hphase, hfound⟩ | ⟨htables, hphase⟩
  · exact .inl ⟨htables, phase, h _ hphase, hfound⟩
  · exact .inr ⟨htables, h _ hphase⟩

theorem pays_set {j : Nat} {r : RecordPaymentRequest} {phase phase' : PaymentPhase}
    (hs : s.Pays unpaid paid found i request) (hj : s.transactions[j]? = some ⟨r, phase⟩) (hprogress : phase ≠ .committed)
    (hgoes : unpaid s.tables → r = request → phase.goesBy found → phase'.goesBy found) :
    (s.setPhase j r phase').Pays unpaid paid found i request := by
  by_cases hji : j = i
  · subst hji
    rcases hs with ⟨htables, phase₀, hphase, hfound⟩ | ⟨-, hphase⟩
    · obtain ⟨rfl, rfl⟩ := PaymentTransaction.mk.inj (Option.some.inj (hphase.symm.trans hj))
      exact .inl ⟨htables, phase', Pool.getElem?_set_self_of_some hj, hgoes htables rfl hfound⟩
    · obtain ⟨-, rfl⟩ := PaymentTransaction.mk.inj (Option.some.inj (hphase.symm.trans hj))
      exact absurd rfl hprogress
  · refine pays_other hs fun t ht => ?_
    rw [List.getElem?_set_ne hji]
    exact ht

def Billing.CommitsKeep (unpaid paid : BillingTables → Prop) (found : Option Nat) (i : Nat) (request : RecordPaymentRequest)
    (s : Billing) (j : Nat) : Prop :=
  ∀ r paidThrough, s.transactions[j]? = some ⟨r, .upserted paidThrough⟩ →
    if j = i then unpaid s.tables → paid (s.tables.publish (request.payment found))
    else (unpaid s.tables → (∀ r, s.transactions[i]? ≠ some ⟨r, .committed⟩) →
        unpaid (s.tables.publish (r.payment paidThrough))) ∧
      (paid s.tables → paid (s.tables.publish (r.payment paidThrough)))

theorem pays_commit {j : Nat} {r : RecordPaymentRequest} {paidThrough : Option Nat}
    (hs : s.Pays unpaid paid found i request) (hj : s.transactions[j]? = some ⟨r, .upserted paidThrough⟩)
    (hkeep : s.CommitsKeep unpaid paid found i request j) : (s.commit j r paidThrough).Pays unpaid paid found i request := by
  have hcommit := hkeep r paidThrough hj
  by_cases hji : j = i
  · subst hji
    rcases hs with ⟨htables, phase, hphase, hfound⟩ | ⟨-, hphase⟩
    · obtain ⟨rfl, rfl⟩ := PaymentTransaction.mk.inj (Option.some.inj (hphase.symm.trans hj))
      refine .inr ⟨?_, Pool.getElem?_set_self_of_some hj⟩
      obtain rfl : paidThrough = found := hfound
      exact (if_pos rfl ▸ hcommit) htables
    · obtain ⟨-, hne⟩ := PaymentTransaction.mk.inj (Option.some.inj (hphase.symm.trans hj))
      cases hne
  · rw [if_neg hji] at hcommit
    have hi : ∀ t, s.transactions[i]? = some t → (s.transactions.set j ⟨r, .committed⟩)[i]? = some t := by
      intro t ht
      rw [List.getElem?_set_ne hji]
      exact ht
    rcases hs with ⟨htables, phase, hphase, hfound⟩ | ⟨htables, hphase⟩
    · refine .inl ⟨hcommit.1 htables ?_, phase, hi _ hphase, hfound⟩
      intro r' hcommitted
      obtain ⟨-, rfl⟩ := PaymentTransaction.mk.inj (Option.some.inj (hphase.symm.trans hcommitted))
      exact hfound
    · exact .inr ⟨hcommit.2 htables, hi _ hphase⟩

theorem pays_step {l : BillingLabel} (hs : s.Pays unpaid paid found i request)
    (hfound : unpaid s.tables → s.tables.paidThrough request.tenantId = found)
    (hkeep : ∀ j, l = .commit j → s.CommitsKeep unpaid paid found i request j) (h : BillingStep s l s') :
    s'.Pays unpaid paid found i request := by
  cases h with
  | begin r => exact pays_other hs fun t ht => Pool.getElem?_append_of_some ht
  | selectNone hj hnone =>
    refine pays_set hs hj (by decide) ?_
    rintro htables rfl -
    exact hnone.symm.trans (hfound htables)
  | select hj hsome hfree =>
    refine pays_set hs hj (by decide) ?_
    rintro htables rfl -
    exact hsome.symm.trans (hfound htables)
  | insert hj haccepted hnew hkey => exact pays_set hs hj (by simp) fun _ _ hgoes => hgoes
  | upsert hj hfree => exact pays_set hs hj (by simp) fun _ _ hgoes => hgoes
  | commit hj => exact pays_commit hs hj (hkeep _ rfl)
  | rollback hj hphase => exact pays_set hs hj hphase fun _ _ _ => trivial

theorem pays_payStep {l : PaymentLabel} (hs : s.Pays unpaid paid found i request)
    (hfound : unpaid s.tables → s.tables.paidThrough request.tenantId = found)
    (hkeep : ∀ j, l = .statement (.commit j) → s.CommitsKeep unpaid paid found i request j)
    (h : s.payStep deps l = some s') : s'.Pays unpaid paid found i request := by
  cases l with
  | statement l =>
    cases l with
    | begin request => cases h
    | _ =>
      simp only [payStep] at h
      exact pays_step hs hfound (fun j heq => hkeep j (congrArg PaymentLabel.statement heq)) (billingStep_cases h)
  | record context request now =>
    simp only [payStep] at h
    split at h
    · exact pays_step hs hfound (by rintro _ ⟨⟩) (billingStep_cases h)
    · cases h
      exact hs
  | claim context request transfer head now =>
    simp only [payStep] at h
    split at h
    · exact pays_step hs hfound (by rintro _ ⟨⟩) (billingStep_cases h)
    · cases h
      exact hs

/-- Among others none of which commits, the transaction is the only one to change the tables. -/
theorem pays_alone {ls : List PaymentLabel} (hs : s.Pays (· = tables) (· = tables.record request)
      (tables.paidThrough request.tenantId) i request) (hothers : ∀ j, .statement (.commit j) ∈ ls → j = i)
    (hrun : Runs.run (payStep deps) s ls = some s') :
    s'.Pays (· = tables) (· = tables.record request) (tables.paidThrough request.tenantId) i request := by
  refine Runs.invariant_on (C := fun l => ∀ j, l = PaymentLabel.statement (.commit j) → j = i) (fun hs hl h => ?_) hs
    (by rintro l hl j rfl; exact hothers j hl) hrun
  refine pays_payStep hs (fun h => congrArg (BillingTables.paidThrough · request.tenantId) h) ?_ h
  intro j hj r paidThrough hupserted
  rw [if_pos (hl j hj)]
  rintro rfl
  rfl

/-- Its payment is the next one of its tenant, and the last until another is committed. -/
def BillingTables.PaidNext (before : BillingTables) (payment : SubscriptionPayment) (tables : BillingTables) : Prop :=
  ∃ later, tables.paymentsOf payment.request.tenantId = before.paymentsOf payment.request.tenantId ++ payment :: later ∧
    (later = [] → tables.paidThrough payment.request.tenantId = some payment.extendedTo)

def BillingTables.SameFor (before : BillingTables) (tenantId : String) (tables : BillingTables) : Prop :=
  tables.paymentsOf tenantId = before.paymentsOf tenantId ∧ tables.paidThrough tenantId = before.paidThrough tenantId

theorem paidNext_publish {payment other : SubscriptionPayment} {before : BillingTables}
    (h : before.PaidNext payment tables) : before.PaidNext payment (tables.publish other) := by
  obtain ⟨later, hpayments, hpaid⟩ := h
  by_cases hne : payment.request.tenantId = other.request.tenantId
  · refine ⟨later ++ [other], ?_, fun hnil => by simp at hnil⟩
    rw [hne, BillingTables.paymentsOf_publish, ← hne, hpayments]
    simp
  · refine ⟨later, ?_, ?_⟩
    · rw [BillingTables.paymentsOf_publish_of_ne hne, hpayments]
    · rw [BillingTables.paidThrough_publish_of_ne hne]
      exact hpaid

/-- Among others that make way, the transaction pays from where the subscription was. -/
theorem pays_inWay {ls : List PaymentLabel} (hs : s.Pays (tables.SameFor request.tenantId)
      (tables.PaidNext (request.payment (tables.paidThrough request.tenantId))) (tables.paidThrough request.tenantId) i request)
    (hmeets : Runs.Meets (payStep deps) (makesWay i request.tenantId) s ls)
    (hrun : Runs.run (payStep deps) s ls = some s') :
    s'.Pays (tables.SameFor request.tenantId) (tables.PaidNext (request.payment (tables.paidThrough request.tenantId)))
      (tables.paidThrough request.tenantId) i request := by
  refine Runs.invariant_of_meets (fun hs hl h => ?_) hs hmeets hrun
  refine pays_payStep hs And.right ?_ h
  rintro j rfl r paidThrough hupserted
  split
  · rintro ⟨hpayments, -⟩
    refine ⟨[], ?_, fun _ => BillingTables.paidThrough_publish⟩
    rw [BillingTables.paymentsOf_publish]
    exact congrArg (· ++ _) hpayments
  · rename_i hji
    refine ⟨fun hsame hprogress => ?_, paidNext_publish⟩
    rcases hl with hown | ⟨r', hcommitted⟩ | hother
    · exact absurd hown hji
    · exact absurd hcommitted (hprogress r')
    · have hne : request.tenantId ≠ (r.payment paidThrough).request.tenantId := (hother _ hupserted).symm
      exact ⟨(BillingTables.paymentsOf_publish_of_ne hne).trans hsame.1,
        (BillingTables.paidThrough_publish_of_ne hne).trans hsame.2⟩

theorem record_extends (tenantId : String) {paidThrough : Nat} (h : tables.paidThrough tenantId = some paidThrough) :
    ∃ later, (tables.record request).paidThrough tenantId = some later ∧ paidThrough ≤ later := by
  by_cases hne : tenantId = request.tenantId
  · subst hne
    refine ⟨_, BillingTables.paidThrough_publish, ?_⟩
    show paidThrough ≤ max request.now ((tables.paidThrough request.tenantId).getD 0) + request.periodSeconds
    rw [h, Option.getD_some]
    omega
  · exact ⟨paidThrough, (BillingTables.paidThrough_publish_of_ne hne).trans h, Nat.le_refl _⟩

/-- A claim that is refused changes nothing. A claim that is not is paid for, by a
transfer on chain to the treasury on account of the tenant; and if no other payment
of the tenant is committed before its own, its own is, or nothing is, and the
subscription goes on from now or from where it was for the periods that were paid
for; and if none is committed at all, no time is lost to anyone. -/
theorem claim_grants_paid_time {json : Option Json} {defaultPlanId : Option String}
    (hplans : parsePlansJson json defaultPlanId = .ok deps.plans) (hmax : 1 ≤ deps.verifier.maxPeriodsPerPayment)
    (s : Billing) (context : ActorContext) (request : ClaimPaymentDto) (transfer : Option NativeTransfer) (head now : Nat) :
    (∀ e, deps.claimSubscriptionPayment context request transfer head now = .error e →
      s.payStep deps (.claim context request transfer head now) = some s) ∧
    ∀ payment, deps.claimSubscriptionPayment context request transfer head now = .ok payment →
      ∃ plan ∈ deps.plans.plans, ∃ price paid periods, plan.id = request.planId ∧
        plan.priceWei.lookup request.chainId = some price ∧ transfer = some paid ∧
        paid.PaysFor deps.verifier context.writeScope price head ∧
        plan.Granted deps.verifier price paid.valueWei periods ∧
        (∀ (ls : List PaymentLabel) (s' : Billing), (∀ j, .statement (.commit j) ∈ ls → j = s.transactions.length) →
          Runs.run (payStep deps) s (.claim context request transfer head now :: ls) = some s' →
          (s'.tables = s.tables ∨
            ∃ p : SubscriptionPayment, s'.tables = s.tables.publish p ∧ p.request = payment ∧
              p.request.tenantId = context.writeScope ∧
              p.extendedFrom = max now ((s.tables.paidThrough context.writeScope).getD 0) ∧
              p.extendedTo = p.extendedFrom + periods * plan.periodSeconds) ∧
          ∀ tenantId paidThrough, s.tables.paidThrough tenantId = some paidThrough →
            ∃ later, s'.tables.paidThrough tenantId = some later ∧ paidThrough ≤ later) ∧
        ∀ (ls : List PaymentLabel) (s' : Billing),
          Runs.Meets (payStep deps) (makesWay s.transactions.length context.writeScope) s
            (.claim context request transfer head now :: ls) →
          Runs.run (payStep deps) s (.claim context request transfer head now :: ls) = some s' →
          s.tables.SameFor context.writeScope s'.tables ∨
            ∃ p : SubscriptionPayment, s.tables.PaidNext p s'.tables ∧ p.request = payment ∧
              p.request.tenantId = context.writeScope ∧
              p.extendedFrom = max now ((s.tables.paidThrough context.writeScope).getD 0) ∧
              p.extendedTo = p.extendedFrom + periods * plan.periodSeconds := by
  refine ⟨fun e he => ?_, fun payment hpayment => ?_⟩
  · simp only [payStep, PaymentLabel.request, he, Except.toOption]
  obtain ⟨plan, hmem, price, paid, periods, hid, hprice, htransfer, hpays, hgranted, htenant, -, hperiod, hnow⟩ :=
    claimSubscriptionPayment_ok (parsePlansJson_sold hplans) hmax hpayment
  have hbegin : s.payStep deps (.claim context request transfer head now) =
      some { s with transactions := s.transactions ++ [⟨payment, .begun⟩] } := by
    simp only [payStep, PaymentLabel.request, hpayment, Except.toOption]
    rfl
  have hbegun : (s.transactions ++ [(⟨payment, .begun⟩ : PaymentTransaction)])[s.transactions.length]? =
      some ⟨payment, .begun⟩ := List.getElem?_concat_length
  have hfrom : (payment.payment (s.tables.paidThrough payment.tenantId)).extendedFrom =
      max now ((s.tables.paidThrough context.writeScope).getD 0) := by
    rw [← htenant, ← hnow]
    rfl
  have hto : (payment.payment (s.tables.paidThrough payment.tenantId)).extendedTo =
      (payment.payment (s.tables.paidThrough payment.tenantId)).extendedFrom + periods * plan.periodSeconds := by
    rw [← hperiod]
    rfl
  refine ⟨plan, hmem, price, paid, periods, hid, hprice, htransfer, hpays, hgranted, fun ls s' hothers hrun => ?_,
    fun ls s' hmeets hrun => ?_⟩
  · obtain ⟨m, hm, hrest⟩ := Runs.run_cons.mp hrun
    obtain rfl := Option.some.inj (hbegin.symm.trans hm)
    have hstart : ({ s with transactions := s.transactions ++ [⟨payment, .begun⟩] } : Billing).Pays (· = s.tables)
        (· = s.tables.record payment) (s.tables.paidThrough payment.tenantId) s.transactions.length payment :=
      .inl ⟨rfl, .begun, hbegun, trivial⟩
    rcases pays_alone hstart hothers hrest with ⟨htables, -⟩ | ⟨htables, -⟩
    · refine ⟨.inl htables, fun tenantId paidThrough h => ⟨paidThrough, ?_, Nat.le_refl _⟩⟩
      rw [htables]
      exact h
    · rw [htables]
      exact ⟨.inr ⟨_, rfl, rfl, htenant, hfrom, hto⟩, fun tenantId paidThrough h => record_extends tenantId h⟩
  · obtain ⟨m, hm, hrest⟩ := Runs.run_cons.mp hrun
    obtain rfl := Option.some.inj (hbegin.symm.trans hm)
    have hmeets := hmeets.2 _ hbegin
    rw [← htenant] at hmeets ⊢
    have hstart : ({ s with transactions := s.transactions ++ [⟨payment, .begun⟩] } : Billing).Pays
        (s.tables.SameFor payment.tenantId) (s.tables.PaidNext (payment.payment (s.tables.paidThrough payment.tenantId)))
        (s.tables.paidThrough payment.tenantId) s.transactions.length payment :=
      .inl ⟨⟨rfl, rfl⟩, .begun, hbegun, trivial⟩
    rcases pays_inWay hstart hmeets hrest with ⟨hsame, -⟩ | ⟨hnext, -⟩
    · exact .inl hsame
    · exact .inr ⟨_, hnext, rfl, rfl, hfrom.trans (by rw [htenant]), hto⟩

end

/-! ## Three months at once -/

def growthJson : Json :=
  .obj [("id", .str "growth"), ("name", .str "Growth"), ("periodSeconds", .num 2592000),
    ("priceWei", .obj [("1", .str "100")])]

theorem growthJson_parsed : parsePlansJson (some (.arr [growthJson])) none = .ok claimDeps.plans := by
  have hplans : [growthJson].mapM Schema.plan = some [growthPlan] := by decide +kernel
  simp only [parsePlansJson, hplans]
  rfl

def longTransfer : NativeTransfer := { acmeTransfer with valueWei := 350 }

def claimStatements : List PaymentLabel :=
  ([.select 0, .insert 0, .upsert 0, .commit 0] : List BillingLabel).map .statement

/-- Three months are granted. -/
theorem claim_grants_acme : ∃ s' p periods,
    Runs.run (Billing.payStep claimDeps) ⟨unpaidTables, []⟩
      (.claim acmeContext acmePaymentClaim (some longTransfer) 5 1800000000 :: claimStatements) = some s' ∧
    s'.tables = unpaidTables.publish p ∧ p.extendedFrom = 1800000000 ∧
    p.extendedTo = p.extendedFrom + periods * 2592000 ∧ periods * 100 ≤ 350 := by
  have hpaid : (Runs.run (Billing.payStep claimDeps) ⟨unpaidTables, []⟩
      (.claim acmeContext acmePaymentClaim (some longTransfer) 5 1800000000 :: claimStatements)).map
      (fun s => s.tables.paidThrough "acme") = some (some (1800000000 + 3 * 2592000)) := by
    decide +kernel
  obtain ⟨s', hs', hthrough⟩ := Option.map_eq_some_iff.mp hpaid
  obtain ⟨payment, hpayment⟩ : ∃ payment, claimDeps.claimSubscriptionPayment acmeContext acmePaymentClaim
      (some longTransfer) 5 1800000000 = .ok payment := ⟨_, rfl⟩
  obtain ⟨plan, hmem, price, paid, periods, -, hprice, htransfer, -, hgranted, hgrants⟩ :=
    (claim_grants_paid_time growthJson_parsed (by decide) ⟨unpaidTables, []⟩ acmeContext acmePaymentClaim
      (some longTransfer) 5 1800000000).2 payment hpayment
  obtain rfl := List.mem_singleton.mp hmem
  obtain rfl := Option.some.inj htransfer
  obtain rfl : 100 = price := Option.some.inj hprice
  have hown : ∀ j, .statement (.commit j) ∈ claimStatements → j = 0 := by
    intro j hj
    simpa [claimStatements] using hj
  rcases (hgrants.1 claimStatements s' hown hs').1 with hsame | ⟨p, hpublished, -, -, hfrom, hto⟩
  · rw [hsame] at hthrough
    cases hthrough
  · exact ⟨s', p, periods, hs', hpublished, hfrom, hto, hgranted.paid⟩

end Paymaster
