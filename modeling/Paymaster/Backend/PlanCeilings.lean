import Paymaster.Backend.PolicyFactory

/-!
# Plan ceilings

The plan of a tenant limits what its policies can spend: every policy that is
loaded gets the plan's rules appended.
-/

namespace Paymaster

structure PlanLimits where
  operationsPerDay : Option Nat
  weiPerDay : Option Nat
deriving DecidableEq

/-- `priceWei` is by the chain to pay on; `chainIds` are the chains to sponsor on. -/
structure Plan where
  id : String
  periodSeconds : Nat
  priceWei : List (Nat × Nat)
  limits : PlanLimits
  chainIds : Option (List Nat)
deriving DecidableEq

/-- The constructor refuses duplicates, and a default that is not there. -/
structure PlanCatalogue where
  plans : List Plan
  defaultPlanId : Option String
  distinct : (plans.map Plan.id).Nodup
  default_mem : ∀ id ∈ defaultPlanId, id ∈ plans.map Plan.id

def PlanCatalogue.find (catalogue : PlanCatalogue) (id : Option String) : Option Plan :=
  id.bind fun id => catalogue.plans.find? fun plan => plan.id = id

def daySeconds : Nat := 86400

def operationsCeiling (tenant : String) (limit : Nat) : QuotaRule where
  name := reservedQuotaPrefix ++ "operations-per-day"
  subject := .global
  unit := .operations
  limit := limit
  windowSeconds := daySeconds
  onMissingSubject := .deny
  tenantNamespace := tenant
  windowSeconds_pos := by decide

def weiCeiling (tenant : String) (limit : Nat) : QuotaRule where
  name := reservedQuotaPrefix ++ "wei-per-day"
  subject := .global
  unit := .wei
  limit := limit
  windowSeconds := daySeconds
  onMissingSubject := .deny
  tenantNamespace := tenant
  windowSeconds_pos := by decide

def ceilingRules (plan : Plan) (tenant : String) : List PolicyRule :=
  (plan.chainIds.map PolicyRule.chainEnabled).toList ++
    (plan.limits.operationsPerDay.map fun limit => PolicyRule.quota (operationsCeiling tenant limit)).toList ++
    (plan.limits.weiPerDay.map fun limit => PolicyRule.quota (weiCeiling tenant limit)).toList

/-- `planFor`: a plan that is gone gives way to the default one. -/
def PlanCatalogue.planFor (catalogue : PlanCatalogue) (tenant : String) (planIds : String → Option String) :
    Option Plan :=
  catalogue.find (planIds tenant) <|> catalogue.find catalogue.defaultPlanId

def PlanCatalogue.withCeilings (catalogue : PlanCatalogue) (planIds : String → Option String)
    (policies : List Policy) : List Policy :=
  if catalogue.plans.length = 0 then policies
  else policies.map fun policy =>
    match catalogue.planFor policy.tenantId planIds with
    | none => policy
    | some plan => { policy with rules := policy.rules ++ ceilingRules plan policy.tenantId }

section
variable {catalogue : PlanCatalogue} {planIds : String → Option String} {policies : List Policy} {policy : Policy}

/-- The quotas of a plan are its two ceilings. -/
theorem reservingOf_ceilingRules {plan : Plan} {tenant : String} {rule : QuotaRule}
    (h : rule ∈ reservingOf (ceilingRules plan tenant)) :
    (∃ limit, plan.limits.operationsPerDay = some limit ∧ rule = operationsCeiling tenant limit) ∨
      ∃ limit, plan.limits.weiPerDay = some limit ∧ rule = weiCeiling tenant limit := by
  unfold reservingOf at h
  obtain ⟨r, hr, hrule⟩ := List.mem_filterMap.mp h
  simp only [ceilingRules, List.mem_append, Option.mem_toList, Option.map_eq_some_iff] at hr
  rcases hr with (⟨chainIds, -, rfl⟩ | ⟨limit, hlimit, rfl⟩) | ⟨limit, hlimit, rfl⟩
  · cases hrule
  · exact .inl ⟨limit, hlimit, (Option.some.inj hrule).symm⟩
  · exact .inr ⟨limit, hlimit, (Option.some.inj hrule).symm⟩

/-- A loaded policy ends with the rules of its tenant's plan. -/
theorem mem_withCeilings {plan : Plan} (hplan : catalogue.planFor policy.tenantId planIds = some plan)
    (h : policy ∈ catalogue.withCeilings planIds policies) :
    ∃ rules, policy.rules = rules ++ ceilingRules plan policy.tenantId := by
  unfold PlanCatalogue.withCeilings at h
  split at h
  · rename_i hempty
    have hnil : catalogue.plans = [] := List.eq_nil_of_length_eq_zero hempty
    have hnone : ∀ id, catalogue.find id = none := by
      intro id
      unfold PlanCatalogue.find
      rw [hnil]
      cases id <;> rfl
    rw [PlanCatalogue.planFor, hnone, hnone] at hplan
    cases hplan
  · obtain ⟨inner, -, hinner⟩ := List.mem_map.mp h
    cases hfound : catalogue.planFor inner.tenantId planIds with
    | none =>
      simp only [hfound] at hinner
      subst hinner
      rw [hplan] at hfound
      cases hfound
    | some found =>
      simp only [hfound] at hinner
      subst hinner
      obtain rfl := Option.some.inj (hplan.symm.trans hfound)
      exact ⟨inner.rules, rfl⟩

end

end Paymaster
