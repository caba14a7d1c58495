import Paymaster.Backend.Payments
import Paymaster.Backend.PlanCeilings

/-!
# Time on a plan

A payment buys a period on a plan, and periods follow one another; but the
subscription has one plan, that of the last payment, and its ceilings apply from
the next reload on. What was bought before is served on the new plan as well,
so a tenant is on what it paid for exactly as long as it changes its plan only
when nothing is left of the old.
-/

namespace Paymaster

open Function

def BillingTables.planIds (tables : BillingTables) (tenantId : String) : Option String :=
  (tables.subscriptions tenantId).map Subscription.plan

def PlanCatalogue.planNamed (catalogue : PlanCatalogue) (name : String) : Option Plan :=
  catalogue.planFor "" fun _ => some name

/-- The payments over time, one after the other. `seconds` are those that have
passed, with what was stored then. -/
structure PaidTime where
  time : Nat
  tables : BillingTables
  seconds : List (Nat × BillingTables)

inductive PaidTimeLabel
  | tick
  /-- A payment is committed that was requested now or before. -/
  | pay (request : RecordPaymentRequest)
deriving DecidableEq

namespace PaidTime

variable (catalogue : PlanCatalogue) (s : PaidTime)

def step : PaidTimeLabel → Option PaidTime
  | .tick => some { s with time := s.time + 1, seconds := s.seconds ++ [(s.time, s.tables)] }
  | .pay request =>
    if request.now ≤ s.time ∧ (request.payment (s.tables.paidThrough request.tenantId)).accepted then
      some { s with tables := s.tables.record request }
    else none

/-- At every instant from now on that a payment has bought, the plan that is
applied is the payment's. -/
def Entitled : Prop :=
  ∀ tenantId, ∀ p ∈ s.tables.paymentsOf tenantId, ∀ t, s.time ≤ t → p.extendedFrom ≤ t → t < p.extendedTo →
    catalogue.planFor tenantId s.tables.planIds = catalogue.planNamed p.request.plan

/-- A payment for another plan comes when nothing is left of what was paid for. -/
def changesPlanInTime : PaidTimeLabel → Bool
  | .tick => true
  | .pay request =>
    (s.tables.subscriptions request.tenantId).all fun subscription =>
      subscription.paidThrough ≤ s.time || catalogue.planNamed subscription.plan = catalogue.planNamed request.plan

def servedUnder (tenantId : String) (plan : Plan) : List Nat :=
  (s.seconds.filter fun (t, tables) =>
    (tables.paymentsOf tenantId).any (fun p => p.extendedFrom ≤ t ∧ t < p.extendedTo) ∧
      catalogue.planFor tenantId tables.planIds = some plan).map Prod.fst

def bought (tenantId : String) (plan : Plan) : Nat :=
  Pool.total (fun p => p.request.periodSeconds)
    ((s.tables.paymentsOf tenantId).filter fun p => catalogue.planNamed p.request.plan = some plan)

/-- The invariant of the tables: every tenant has what it paid for, and no payment is for nothing. -/
structure Ledger (s : PaidTime) : Prop where
  honoured : ∀ tenantId, s.tables.Honoured tenantId
  lasting : ∀ tenantId, ∀ p ∈ s.tables.paymentsOf tenantId, p.extendedFrom < p.extendedTo

/-- The invariant of the seconds: they are distinct, and each was served on a plan that was bought for it. -/
structure Served (s : PaidTime) : Prop where
  distinct : (s.seconds.map Prod.fst).Nodup
  past : ∀ t ∈ s.seconds.map Prod.fst, t < s.time
  bought : ∀ tenantId plan, ∀ t ∈ s.servedUnder catalogue tenantId plan, ∃ p ∈ s.tables.paymentsOf tenantId,
    catalogue.planNamed p.request.plan = some plan ∧ p.extendedFrom ≤ t ∧ t < p.extendedTo

end PaidTime

/-! ## Steps -/

section
variable {catalogue : PlanCatalogue} {s s' : PaidTime} {l : PaidTimeLabel} {tables : BillingTables}
  {request : RecordPaymentRequest} {tenantId : String}

open PaidTime

inductive PaidTimeStep (s : PaidTime) : PaidTimeLabel → PaidTime → Prop
  | tick : PaidTimeStep s .tick { s with time := s.time + 1, seconds := s.seconds ++ [(s.time, s.tables)] }
  | pay {request : RecordPaymentRequest} :
    request.now ≤ s.time → (request.payment (s.tables.paidThrough request.tenantId)).accepted = true →
    PaidTimeStep s (.pay request) { s with tables := s.tables.record request }

theorem paidTimeStep_cases (h : s.step l = some s') : PaidTimeStep s l s' := by
  cases l with
  | tick =>
    cases h
    exact .tick
  | pay request =>
    simp only [PaidTime.step] at h
    split at h
    · rename_i hchecks
      cases h
      exact .pay hchecks.1 hchecks.2
    · cases h

theorem planFor_planIds : catalogue.planFor tenantId tables.planIds =
    match tables.subscriptions tenantId with
    | some subscription => catalogue.planNamed subscription.plan
    | none => catalogue.find catalogue.defaultPlanId := by
  unfold PlanCatalogue.planNamed PlanCatalogue.planFor BillingTables.planIds
  cases tables.subscriptions tenantId with
  | none => rfl
  | some subscription => rfl

theorem planFor_record : catalogue.planFor request.tenantId (tables.record request).planIds =
    catalogue.planNamed request.plan := by
  rw [planFor_planIds]
  simp only [BillingTables.record, BillingTables.publish, RecordPaymentRequest.payment, update_self]

theorem planFor_record_of_ne (h : tenantId ≠ request.tenantId) :
    catalogue.planFor tenantId (tables.record request).planIds = catalogue.planFor tenantId tables.planIds := by
  rw [planFor_planIds, planFor_planIds]
  simp only [BillingTables.record, BillingTables.publish, RecordPaymentRequest.payment, update_of_ne h]

theorem paymentsOf_record : (tables.record request).paymentsOf request.tenantId =
    tables.paymentsOf request.tenantId ++ [request.payment (tables.paidThrough request.tenantId)] :=
  BillingTables.paymentsOf_publish

theorem paymentsOf_record_of_ne (h : tenantId ≠ request.tenantId) :
    (tables.record request).paymentsOf tenantId = tables.paymentsOf tenantId :=
  BillingTables.paymentsOf_publish_of_ne h

theorem mem_paymentsOf_record {p : SubscriptionPayment} (hp : p ∈ tables.paymentsOf tenantId) :
    p ∈ (tables.record request).paymentsOf tenantId := by
  by_cases hne : tenantId = request.tenantId
  · subst hne
    rw [paymentsOf_record]
    exact List.mem_append_left _ hp
  · rw [paymentsOf_record_of_ne hne]
    exact hp

theorem ledger_step (hs : s.Ledger) (h : PaidTimeStep s l s') : s'.Ledger := by
  cases h with
  | tick => exact ⟨hs.honoured, hs.lasting⟩
  | pay hnow haccepted =>
    rename_i request
    refine ⟨BillingTables.honoured_record hs.honoured, ?_⟩
    intro tenantId p hp
    by_cases hne : tenantId = request.tenantId
    · subst hne
      rcases List.mem_append.mp (paymentsOf_record ▸ hp) with hold | hnew
      · exact hs.lasting _ p hold
      · rw [List.mem_singleton.mp hnew]
        simp only [SubscriptionPayment.accepted, Bool.and_eq_true, decide_eq_true_eq] at haccepted
        exact haccepted.1.2
    · exact hs.lasting tenantId p (paymentsOf_record_of_ne hne ▸ hp)

/-- What a tenant has left of what it paid for is on one plan. -/
theorem plan_of_paidThrough (hs : s.Ledger) (hentitled : s.Entitled catalogue) {subscription : Subscription}
    (hsubscription : s.tables.subscriptions tenantId = some subscription) (hleft : s.time < subscription.paidThrough) :
    ∃ p ∈ s.tables.paymentsOf tenantId, s.time < p.extendedTo ∧
      catalogue.planNamed subscription.plan = catalogue.planNamed p.request.plan := by
  have hpaid : s.tables.paidThrough tenantId = some subscription.paidThrough := by
    unfold BillingTables.paidThrough
    rw [hsubscription]
    rfl
  obtain ⟨⟨p, hp, hend⟩, -⟩ := (hs.honoured tenantId).paid _ hpaid
  have hlasting := hs.lasting tenantId p hp
  have hplan := hentitled tenantId p hp (max s.time p.extendedFrom) (le_max_left _ _) (le_max_right _ _)
    (max_lt (by omega) hlasting)
  rw [planFor_planIds, hsubscription] at hplan
  exact ⟨p, hp, by omega, hplan⟩

/-- A payment keeps a tenant on what it paid for exactly if it is for the same
plan, or nothing is left. -/
theorem entitled_pay (hs : s.Ledger) (hentitled : s.Entitled catalogue) :
    ({ s with tables := s.tables.record request } : PaidTime).Entitled catalogue ↔
      s.changesPlanInTime catalogue (.pay request) = true := by
  simp only [changesPlanInTime]
  constructor
  · intro h
    cases hsubscription : s.tables.subscriptions request.tenantId with
    | none => rfl
    | some subscription =>
      rw [Option.all_some, Bool.or_eq_true, decide_eq_true_eq, decide_eq_true_eq]
      refine or_iff_not_imp_left.mpr fun hleft => ?_
      obtain ⟨p, hp, hend, hplan⟩ := plan_of_paidThrough hs hentitled hsubscription (Nat.lt_of_not_le hleft)
      have hlasting := hs.lasting request.tenantId p hp
      have hnow := h request.tenantId p (mem_paymentsOf_record hp) (max s.time p.extendedFrom) (le_max_left _ _)
        (le_max_right _ _) (max_lt hend hlasting)
      exact hplan.trans (hnow.symm.trans planFor_record)
  · intro hplan tenantId p hp t htime hfrom hto
    show catalogue.planFor tenantId (s.tables.record request).planIds = _
    by_cases hne : tenantId = request.tenantId
    · subst hne
      rw [planFor_record]
      rcases List.mem_append.mp (paymentsOf_record ▸ hp) with hold | hnew
      · have hbefore := hentitled _ p hold t htime hfrom hto
        rw [planFor_planIds] at hbefore
        cases hsubscription : s.tables.subscriptions request.tenantId with
        | none =>
          have hunpaid := (hs.honoured request.tenantId).unpaid (by
            unfold BillingTables.paidThrough
            rw [hsubscription]
            rfl)
          rw [hunpaid] at hold
          cases hold
        | some subscription =>
          simp only [hsubscription] at hbefore
          rw [hsubscription, Option.all_some, Bool.or_eq_true, decide_eq_true_eq, decide_eq_true_eq] at hplan
          have hpaid : s.tables.paidThrough request.tenantId = some subscription.paidThrough := by
            unfold BillingTables.paidThrough
            rw [hsubscription]
            rfl
          have hend := ((hs.honoured request.tenantId).paid _ hpaid).2 p hold
          rcases hplan with hover | hsame
          · change s.time ≤ t at htime
            omega
          · exact hsame.symm.trans hbefore
      · rw [List.mem_singleton.mp hnew]
        rfl
    · rw [planFor_record_of_ne hne]
      exact hentitled tenantId p (paymentsOf_record_of_ne hne ▸ hp) t htime hfrom hto

theorem entitled_step (hs : s.Ledger) (hentitled : s.Entitled catalogue) (h : PaidTimeStep s l s') :
    s'.Entitled catalogue ↔ s.changesPlanInTime catalogue l = true := by
  cases h with
  | tick =>
    refine iff_of_true ?_ rfl
    intro tenantId p hp t htime hfrom hto
    change s.time + 1 ≤ t at htime
    exact hentitled tenantId p hp t (by omega) hfrom hto
  | pay hnow haccepted => exact entitled_pay hs hentitled

/-- A second that passes was bought on the plan that it was served on. -/
theorem served_step (hs : s.Served catalogue) (hentitled : s.Entitled catalogue) (h : PaidTimeStep s l s') :
    s'.Served catalogue := by
  cases h with
  | tick =>
    refine ⟨?_, ?_, ?_⟩
    · rw [List.map_append, List.nodup_append]
      refine ⟨hs.distinct, List.nodup_singleton _, ?_⟩
      intro t ht t' ht'
      rw [List.mem_singleton.mp ht']
      exact (hs.past t ht).ne
    · intro t ht
      rw [List.map_append] at ht
      rcases List.mem_append.mp ht with hold | hnew
      · exact Nat.lt_succ_of_lt (hs.past t hold)
      · rw [List.mem_singleton.mp hnew]
        exact Nat.lt_succ_self _
    · intro tenantId plan t ht
      unfold servedUnder at ht
      rw [List.filter_append, List.map_append] at ht
      rcases List.mem_append.mp ht with hold | hnew
      · exact hs.bought tenantId plan t hold
      · obtain ⟨⟨t', tables⟩, hmem, rfl⟩ := List.mem_map.mp hnew
        obtain ⟨hlast, hserved⟩ := List.mem_filter.mp hmem
        obtain ⟨rfl, rfl⟩ := Prod.mk.inj (List.mem_singleton.mp hlast)
        obtain ⟨hcovered, hplan⟩ := of_decide_eq_true hserved
        obtain ⟨p, hp, hcovers⟩ := List.any_eq_true.mp hcovered
        obtain ⟨hfrom, hto⟩ := of_decide_eq_true hcovers
        exact ⟨p, hp, (hentitled tenantId p hp _ (Nat.le_refl _) hfrom hto).symm.trans hplan, hfrom, hto⟩
  | pay hnow haccepted =>
    refine ⟨hs.distinct, hs.past, ?_⟩
    intro tenantId plan t ht
    obtain ⟨p, hp, hrest⟩ := hs.bought tenantId plan t ht
    exact ⟨p, mem_paymentsOf_record hp, hrest⟩

theorem served_le_bought (hs : s.Served catalogue) (hledger : s.Ledger) (tenantId : String) (plan : Plan) :
    (s.servedUnder catalogue tenantId plan).length ≤ s.bought catalogue tenantId plan := by
  have hdistinct : (s.servedUnder catalogue tenantId plan).Nodup :=
    hs.distinct.sublist (List.filter_sublist.map _)
  have hcovered : (s.servedUnder catalogue tenantId plan).length ≤ Pool.total (fun p => p.extendedTo - p.extendedFrom)
      ((s.tables.paymentsOf tenantId).filter fun p => catalogue.planNamed p.request.plan = some plan) := by
    refine Pool.length_le_total_intervals _ _ hdistinct fun t ht => ?_
    obtain ⟨p, hp, hplan, hin⟩ := hs.bought tenantId plan t ht
    exact ⟨p, List.mem_filter.mpr ⟨hp, decide_eq_true hplan⟩, hin⟩
  refine hcovered.trans (Pool.total_le_total fun p hp => ?_)
  have hlength := (hledger.honoured tenantId).lengths p (List.mem_filter.mp hp).1
  omega

/-- A tenant is on the plans that it paid for, in every state of a run, exactly
if every payment for another plan comes when nothing is left of what was paid
for; and then it was served on no plan for longer than it bought. -/
theorem plan_entitled {ls : List PaidTimeLabel} (hledger : s.Ledger) (hentitled : s.Entitled catalogue)
    (hseconds : s.seconds = []) (hrun : Runs.run PaidTime.step s ls = some s') :
    (Runs.Always PaidTime.step (fun s => s.Entitled catalogue) s ls ↔
        Runs.Meets PaidTime.step (fun s l => s.changesPlanInTime catalogue l = true) s ls) ∧
      (Runs.Meets PaidTime.step (fun s l => s.changesPlanInTime catalogue l = true) s ls →
        ∀ tenantId plan, (s'.servedUnder catalogue tenantId plan).length ≤ s'.bought catalogue tenantId plan) := by
  have halways := Runs.always_iff_meets (I := Ledger) (P := fun s => s.Entitled catalogue)
    (C := fun s l => s.changesPlanInTime catalogue l = true)
    (fun hi h => ledger_step hi (paidTimeStep_cases h))
    (fun hi hp h => entitled_step hi hp (paidTimeStep_cases h)) hledger hentitled hrun
  refine ⟨halways, fun hmeets tenantId plan => ?_⟩
  have hserved : s.Served catalogue := by
    refine ⟨?_, ?_, ?_⟩
    · simp [hseconds]
    · simp [hseconds]
    · simp [servedUnder, hseconds]
  obtain ⟨hledger', -, hserved'⟩ := Runs.invariant_of_meets
    (P := fun m => m.Ledger ∧ m.Entitled catalogue ∧ m.Served catalogue)
    (fun ⟨hi, hp, hq⟩ hl h => ⟨ledger_step hi (paidTimeStep_cases h), (entitled_step hi hp (paidTimeStep_cases h)).mpr hl,
      served_step hq hp (paidTimeStep_cases h)⟩) ⟨hledger, hentitled, hserved⟩ hmeets hrun
  exact served_le_bought hserved' hledger' tenantId plan

end

/-! ## An early change of plan -/

def smallPlan : Plan := ⟨"small", 2592000, [(1, 100)], ⟨some 10, none⟩, none⟩

def largePlan : Plan := ⟨"large", 2592000, [(1, 10000)], ⟨some 10000, none⟩, none⟩

theorem sizes_distinct : ([smallPlan, largePlan].map Plan.id).Nodup := by decide

theorem sizes_default : ∀ id ∈ (none : Option String), id ∈ [smallPlan, largePlan].map Plan.id := by
  rintro id ⟨⟩

def sizesCatalogue : PlanCatalogue := ⟨[smallPlan, largePlan], none, sizes_distinct, sizes_default⟩

def unpaidTime : PaidTime := ⟨1800000000, unpaidTables, []⟩

theorem ledger_unpaid : unpaidTime.Ledger := ⟨honoured_unpaid, fun _ _ hp => (List.not_mem_nil hp).elim⟩

theorem entitled_unpaid : unpaidTime.Entitled sizesCatalogue := fun _ _ hp => (List.not_mem_nil hp).elim

def renewedEarly : List PaidTimeLabel :=
  [.pay (monthlyRequest "small" none 1800000000), .pay (monthlyRequest "small" none 1800000000), .tick]

theorem plan_entitled_acme : ∃ s, Runs.run PaidTime.step unpaidTime renewedEarly = some s ∧
    Runs.Always PaidTime.step (fun s => s.Entitled sizesCatalogue) unpaidTime renewedEarly ∧
    (s.servedUnder sizesCatalogue "acme" smallPlan).length = 1 ∧
    (s.servedUnder sizesCatalogue "acme" smallPlan).length ≤ s.bought sizesCatalogue "acme" smallPlan := by
  have hrun : (Runs.run PaidTime.step unpaidTime renewedEarly).map (fun s =>
      (s.servedUnder sizesCatalogue "acme" smallPlan).length) = some 1 := by
    decide +kernel
  obtain ⟨s, hs, hone⟩ := Option.map_eq_some_iff.mp hrun
  have hmeets : Runs.Meets PaidTime.step (fun s l => s.changesPlanInTime sizesCatalogue l = true) unpaidTime renewedEarly := by
    decide +kernel
  obtain ⟨halways, hbought⟩ := plan_entitled ledger_unpaid entitled_unpaid rfl hs
  exact ⟨s, hs, halways.mpr hmeets, hone, hbought hmeets "acme" smallPlan⟩

/-- A month of the small plan is served on the large one, once a month of that is paid for. -/
theorem plan_changed_early : ¬ ∀ (catalogue : PlanCatalogue) (s s' : PaidTime) (ls : List PaidTimeLabel), s.Ledger →
    s.Entitled catalogue → s.seconds = [] → Runs.run PaidTime.step s ls = some s' →
    Runs.Always PaidTime.step (fun s => s.Entitled catalogue) s ls := by
  intro hall
  have hrun : (Runs.run PaidTime.step unpaidTime
      [.pay (monthlyRequest "small" none 1800000000), .pay (monthlyRequest "large" none 1800000000)]).map (fun s =>
        (s.time, (sizesCatalogue.planFor "acme" s.tables.planIds).map Plan.id,
          (s.tables.paymentsOf "acme").map fun p => (p.request.plan, p.extendedFrom, p.extendedTo))) =
      some (1800000000, some "large", [("small", 1800000000, 1802592000), ("large", 1802592000, 1805184000)]) := by
    decide +kernel
  obtain ⟨s, hs, heq⟩ := Option.map_eq_some_iff.mp hrun
  simp only [Prod.mk.injEq] at heq
  obtain ⟨htime, hplan, hpayments⟩ := heq
  have hentitled := (hall sizesCatalogue unpaidTime s _ ledger_unpaid entitled_unpaid rfl hs).last hs
  obtain ⟨p, rest, hp, hfirst, -⟩ := List.map_eq_cons_iff.mp hpayments
  simp only [Prod.mk.injEq] at hfirst
  obtain ⟨hname, hfrom, hto⟩ := hfirst
  have hsmall := hentitled "acme" p (by rw [hp]; exact List.mem_cons_self) 1800000000 (by omega) (by omega) (by omega)
  rw [hname] at hsmall
  rw [hsmall] at hplan
  revert hplan
  decide +kernel

end Paymaster
