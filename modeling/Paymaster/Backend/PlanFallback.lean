import Paymaster.Backend.Plans

/-!
# The plan of a tenant whose plan is gone

`tenant_subscriptions.plan` is free text. A tenant whose plan is not in the
catalogue is held to the default plan, and to none if there is no default.
-/

namespace Paymaster

def Plan.Unlimited (plan : Plan) : Prop := plan.chainIds = none ∧ plan.limits = ⟨none, none⟩

instance (plan : Plan) : Decidable plan.Unlimited := inferInstanceAs (Decidable (_ ∧ _))

def Policy.under (policy : Policy) (plan : Plan) : Policy :=
  { policy with rules := policy.rules ++ ceilingRules plan policy.tenantId }

def HeldTo (catalogue : PlanCatalogue) (policies loaded : List Policy) (tenant : String) : Prop :=
  ∃ plan ∈ catalogue.plans, List.Forall₂ (fun policy policy' => policy.tenantId = tenant → policy' = policy.under plan)
    policies loaded

/-- Whoever has a row of `tenant_subscriptions` is held to a plan. -/
def CeilingsKept (catalogue : PlanCatalogue) (planIds : String → Option String) (policies : List Policy) : Prop :=
  ∀ tenant, (planIds tenant).isSome → HeldTo catalogue policies (catalogue.withCeilings planIds policies) tenant

section
variable {catalogue : PlanCatalogue} {planIds : String → Option String} {policies : List Policy} {plan : Plan} {tenant : String}

theorem ceilingRules_eq_nil : ceilingRules plan tenant = [] ↔ plan.Unlimited := by
  obtain ⟨id, periodSeconds, priceWei, ⟨operationsPerDay, weiPerDay⟩, chainIds⟩ := plan
  unfold ceilingRules Plan.Unlimited
  cases operationsPerDay <;> cases weiPerDay <;> cases chainIds <;> simp

theorem under_of_unlimited {policy : Policy} (h : plan.Unlimited) : policy.under plan = policy := by
  unfold Policy.under
  rw [ceilingRules_eq_nil.mpr h, List.append_nil]

theorem unlimited_of_under {policy : Policy} (h : policy = policy.under plan) : plan.Unlimited := by
  have hrules : policy.rules = policy.rules ++ ceilingRules plan policy.tenantId := congrArg Policy.rules h
  exact ceilingRules_eq_nil.mp (List.self_eq_append_right.mp hrules)

theorem mem_of_find {id : Option String} (h : catalogue.find id = some plan) : plan ∈ catalogue.plans := by
  obtain ⟨id, -, hfound⟩ := Option.bind_eq_some_iff.mp h
  exact List.mem_of_find?_eq_some hfound

theorem mem_of_planFor (h : catalogue.planFor tenant planIds = some plan) : plan ∈ catalogue.plans := by
  unfold PlanCatalogue.planFor at h
  cases hfound : catalogue.find (planIds tenant) with
  | none =>
    rw [hfound] at h
    exact mem_of_find h
  | some named =>
    rw [hfound] at h
    cases h
    exact mem_of_find hfound

theorem find_default_isSome : (catalogue.find catalogue.defaultPlanId).isSome = catalogue.defaultPlanId.isSome := by
  cases hdefault : catalogue.defaultPlanId with
  | none => rfl
  | some id =>
    obtain ⟨plan, hplan, hid⟩ := List.mem_map.mp (catalogue.default_mem id hdefault)
    exact List.find?_isSome.mpr ⟨plan, hplan, decide_eq_true hid⟩

theorem planFor_isSome : (catalogue.planFor tenant planIds).isSome =
    ((catalogue.find (planIds tenant)).isSome || catalogue.defaultPlanId.isSome) := by
  rw [← find_default_isSome]
  unfold PlanCatalogue.planFor
  cases catalogue.find (planIds tenant) <;> rfl

/-- What `load` makes of each policy. -/
theorem withCeilings_eq (hplans : catalogue.plans ≠ []) : catalogue.withCeilings planIds policies = policies.map fun policy =>
    match catalogue.planFor policy.tenantId planIds with
    | none => policy
    | some plan => policy.under plan := by
  unfold PlanCatalogue.withCeilings
  rw [if_neg fun hlength => hplans (List.eq_nil_of_length_eq_zero hlength)]
  rfl

theorem heldTo_iff (hplans : catalogue.plans ≠ []) :
    HeldTo catalogue policies (catalogue.withCeilings planIds policies) tenant ↔
      ∃ plan ∈ catalogue.plans, ∀ policy ∈ policies, policy.tenantId = tenant →
        (match catalogue.planFor tenant planIds with
          | none => policy
          | some plan' => policy.under plan') = policy.under plan := by
  unfold HeldTo
  rw [withCeilings_eq hplans]
  refine exists_congr fun plan => and_congr_right fun _ => ?_
  rw [List.forall₂_map_right_iff, List.forall₂_same]
  refine forall₂_congr fun policy _ => ⟨?_, ?_⟩
  · rintro h rfl
    exact h rfl
  · rintro h rfl
    exact h rfl

/-- Everyone with a subscription is held to a plan exactly when each of them is on a plan
that is there, or there is a default plan (or a plan that limits nothing). -/
theorem ceilings_kept_iff (hplans : catalogue.plans ≠ []) :
    CeilingsKept catalogue planIds policies ↔
      ∀ policy ∈ policies, (planIds policy.tenantId).isSome → (catalogue.find (planIds policy.tenantId)).isSome ∨
        catalogue.defaultPlanId.isSome ∨ ∃ plan ∈ catalogue.plans, plan.Unlimited := by
  constructor
  · intro hkept policy hpolicy hrow
    obtain ⟨plan, hplan, hheld⟩ := (heldTo_iff hplans).mp (hkept policy.tenantId hrow)
    have hsame := hheld policy hpolicy rfl
    cases hfor : catalogue.planFor policy.tenantId planIds with
    | none =>
      rw [hfor] at hsame
      exact .inr (.inr ⟨plan, hplan, unlimited_of_under hsame⟩)
    | some plan' =>
      have hsome : (catalogue.planFor policy.tenantId planIds).isSome = true := by rw [hfor]; rfl
      rw [planFor_isSome, Bool.or_eq_true] at hsome
      exact hsome.imp_right .inl
  · intro hcovered tenant hrow
    rw [heldTo_iff hplans]
    cases hfor : catalogue.planFor tenant planIds with
    | some plan => exact ⟨plan, mem_of_planFor hfor, fun _ _ _ => rfl⟩
    | none =>
      -- The tenant is on no plan: it has no policies, or some plan limits nothing.
      by_cases hsome : ∃ policy ∈ policies, policy.tenantId = tenant
      · obtain ⟨policy, hpolicy, rfl⟩ := hsome
        have hplanless : ¬ ((catalogue.find (planIds policy.tenantId)).isSome = true ∨
            catalogue.defaultPlanId.isSome = true) := by
          rw [← Bool.or_eq_true, ← planFor_isSome, hfor]
          exact Bool.false_ne_true
        rcases hcovered policy hpolicy hrow with hfound | hdefault | ⟨plan, hplan, hunlimited⟩
        · exact absurd (.inl hfound) hplanless
        · exact absurd (.inr hdefault) hplanless
        · exact ⟨plan, hplan, fun policy' _ _ => (under_of_unlimited hunlimited).symm⟩
      · obtain ⟨plan, hplan⟩ := List.exists_mem_of_ne_nil _ hplans
        exact ⟨plan, hplan, fun policy hpolicy htenant => absurd ⟨policy, hpolicy, htenant⟩ hsome⟩

/-! ## A plan that is taken out of the configuration -/

def cappedPlan : Plan := ⟨"growth", 2592000, [(1, 100)], ⟨some 10000, none⟩, none⟩

def cappedJson : Json :=
  .obj [("id", .str "growth"), ("name", .str "Growth"), ("periodSeconds", .num 2592000),
    ("priceWei", .obj [("1", .str "100")]), ("limits", .obj [("operationsPerDay", .str "10000")])]

theorem cappedPlan_distinct : ([cappedPlan].map Plan.id).Nodup := by decide

theorem cappedPlan_default : ∀ id ∈ (none : Option String), id ∈ [cappedPlan].map Plan.id := by
  rintro id ⟨⟩

def cappedCatalogue : PlanCatalogue := ⟨[cappedPlan], none, cappedPlan_distinct, cappedPlan_default⟩

theorem cappedJson_parsed : parsePlansJson (some (.arr [cappedJson])) none = .ok cappedCatalogue := by
  have hplans : [cappedJson].mapM Schema.plan = some [cappedPlan] := by decide +kernel
  simp only [parsePlansJson, hplans]
  rfl

def formerPlans (tenant : String) : Option String := if tenant = "acme" then some "starter" else none

theorem ceilings_lifted : ¬ ∀ (json : Option Json) (defaultPlanId : Option String) (catalogue : PlanCatalogue)
    (planIds : String → Option String) (policies : List Policy), parsePlansJson json defaultPlanId = .ok catalogue →
    catalogue.plans ≠ [] → CeilingsKept catalogue planIds policies := by
  intro h
  have hkept := h _ _ _ formerPlans [⟨"acme", "default", []⟩] cappedJson_parsed (List.cons_ne_nil _ _)
  obtain ⟨plan, hplan, hheld⟩ := hkept "acme" rfl
  obtain rfl := List.mem_singleton.mp hplan
  have hloaded : (⟨"acme", "default", []⟩ : Policy) = (⟨"acme", "default", []⟩ : Policy).under cappedPlan :=
    (List.forall₂_cons.mp hheld).1 rfl
  have hunlimited : cappedPlan.Unlimited := unlimited_of_under hloaded
  revert hunlimited
  decide

/-- With the plan still there, everyone is held to it. -/
theorem ceilings_kept_capped : CeilingsKept cappedCatalogue (fun _ => some "growth") [⟨"acme", "default", []⟩] := by
  have hplans : cappedCatalogue.plans ≠ [] := List.cons_ne_nil _ _
  refine (ceilings_kept_iff hplans).mpr fun policy _ _ => .inl ?_
  rfl

end

end Paymaster
