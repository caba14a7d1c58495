import Paymaster.Backend.PlanCeilings
import Paymaster.Lib.Assoc
import Paymaster.Lib.LuaNumber
import Paymaster.Lib.Traverse

/-!
# The plans of a deployment

`PLANS` is parsed when the process starts. What is parsed has a period between a
day and two years and is not for free.
-/

namespace Paymaster

inductive InvalidPlansError
  | invalidPlans
  | defaultWithoutPlans
  | duplicatePlan
  | unknownDefault
deriving DecidableEq

namespace Schema

def intBetween (min max : Nat) : Json → Option Nat
  | .num x => if x.den = 1 ∧ (min : Int) ≤ x.num ∧ x.num ≤ max then some x.num.toNat else none
  | _ => none

def isSlugCharacter (c : Char) : Bool := c.isLower || c.isDigit

/-- `/^[a-z0-9][a-z0-9._-]{0,63}$/`. -/
def planId : Json → Option String
  | .str s =>
    match s.toList with
    | first :: rest =>
      if isSlugCharacter first ∧ rest.length ≤ 63 ∧
          rest.all fun c => isSlugCharacter c || c = '.' || c = '_' || c = '-' then some s
      else none
    | [] => none
  | _ => none

def planName : Json → Option String
  | .str s => if 1 ≤ utf16Length s ∧ utf16Length s ≤ 100 then some s else none
  | _ => none

def prices (json : Json) : Option (List (Nat × Nat)) :=
  (byChain bigint json).filter fun prices => prices.all fun (_, price) => 0 < price

def planLimits : Option Json → Option PlanLimits
  | none => some ⟨none, none⟩
  | some (.obj properties) => do
    let operationsPerDay ← optional bigint properties "operationsPerDay"
    let weiPerDay ← optional bigint properties "weiPerDay"
    some ⟨operationsPerDay, weiPerDay⟩
  | some _ => none

/-- An entry of `planJsonSchema`. Keys that are one number are one chain, and the last of them counts. -/
def plan : Json → Option Plan
  | .obj properties => do
    let id ← required planId properties "id"
    let _ ← required planName properties "name"
    let periodSeconds ← required (intBetween 86400 63072000) properties "periodSeconds"
    let priceWei ← required prices properties "priceWei"
    let limits ← planLimits (properties.lookup "limits")
    let chainIds ← optional (array (positiveInt maxSafeInteger)) properties "chainIds"
    some ⟨id, periodSeconds, priceWei.foldl (fun byChain (chainId, price) => Assoc.set byChain (Lua.round chainId) price) [],
      limits, chainIds⟩
  | _ => none

end Schema

theorem emptyCatalogue_distinct : (([] : List Plan).map Plan.id).Nodup := List.nodup_nil

theorem emptyCatalogue_default : ∀ id ∈ (none : Option String), id ∈ ([] : List Plan).map Plan.id := by
  rintro id ⟨⟩

def PlanCatalogue.empty : PlanCatalogue := ⟨[], none, emptyCatalogue_distinct, emptyCatalogue_default⟩

def PlanCatalogue.ofPlans (plans : List Plan) (defaultPlanId : Option String) : Except InvalidPlansError PlanCatalogue :=
  if hdistinct : (plans.map Plan.id).Nodup then
    if hdefault : ∀ id ∈ defaultPlanId, id ∈ plans.map Plan.id then .ok ⟨plans, defaultPlanId, hdistinct, hdefault⟩
    else .error .unknownDefault
  else .error .duplicatePlan

/-- `parsePlansJson`, of the JSON that the variable holds if it is not blank. -/
def parsePlansJson (json : Option Json) (defaultPlanId : Option String) : Except InvalidPlansError PlanCatalogue :=
  match json with
  | none => if defaultPlanId.isSome then .error .defaultWithoutPlans else .ok .empty
  | some (.arr items) =>
    match items.mapM Schema.plan with
    | some plans => PlanCatalogue.ofPlans plans defaultPlanId
    | none => .error .invalidPlans
  | some _ => .error .invalidPlans

structure Plan.Sold (plan : Plan) : Prop where
  period : 86400 ≤ plan.periodSeconds ∧ plan.periodSeconds ≤ 63072000
  price : ∀ chainId price, plan.priceWei.lookup chainId = some price → 0 < price

namespace Schema

theorem intBetween_ok {min max n : Nat} {json : Json} (h : intBetween min max json = some n) : min ≤ n ∧ n ≤ max := by
  unfold intBetween at h
  split at h
  · split at h
    · rename_i hrange
      cases h
      omega
    · cases h
  · cases h

/-- Every value of a map that is set entry by entry is that of an entry. -/
theorem get_foldl_set {entries : List (Nat × Nat)} {m : List (Nat × Nat)} {P : Nat → Prop}
    (hm : ∀ key value, Assoc.get m key = some value → P value) (hentries : ∀ entry ∈ entries, P entry.2) :
    ∀ key value, Assoc.get (entries.foldl (fun byChain (chainId, price) => Assoc.set byChain (Lua.round chainId) price) m)
      key = some value → P value := by
  induction entries generalizing m with
  | nil => exact hm
  | cons entry entries ih =>
    refine ih ?_ fun e he => hentries e (List.mem_cons_of_mem _ he)
    intro key value hget
    by_cases hkey : key = Lua.round entry.1
    · subst hkey
      rw [Assoc.get_set_self, Option.some.injEq] at hget
      exact hget ▸ hentries entry List.mem_cons_self
    · rw [Assoc.get_set_of_ne hkey] at hget
      exact hm key value hget

theorem plan_sold {json : Json} {plan : Plan} (h : Schema.plan json = some plan) : plan.Sold := by
  unfold Schema.plan at h
  split at h
  · simp only [Option.bind_eq_bind, Option.bind_eq_some_iff, Option.some.injEq] at h
    obtain ⟨id, -, name, -, periodSeconds, hperiod, priceWei, hprices, limits, -, chainIds, -, rfl⟩ := h
    obtain ⟨json, -, hperiod⟩ := Option.bind_eq_some_iff.mp hperiod
    obtain ⟨json', -, hprices⟩ := Option.bind_eq_some_iff.mp hprices
    refine ⟨intBetween_ok hperiod, ?_⟩
    have hpositive : ∀ entry ∈ priceWei, 0 < entry.2 := by
      have hall := (Option.filter_eq_some_iff.mp hprices).2
      intro entry hentry
      exact of_decide_eq_true (List.all_eq_true.mp hall entry hentry)
    intro chainId price hprice
    rw [Assoc.lookup_eq_get] at hprice
    exact get_foldl_set (m := []) (P := (0 < ·)) (fun _ _ h => by simp [Assoc.get] at h) hpositive chainId price hprice
  · cases h

end Schema

theorem ofPlans_ok {plans : List Plan} {defaultPlanId : Option String} {catalogue : PlanCatalogue}
    (h : PlanCatalogue.ofPlans plans defaultPlanId = .ok catalogue) : catalogue.plans = plans := by
  unfold PlanCatalogue.ofPlans at h
  split at h
  · split at h
    · cases h
      rfl
    · cases h
  · cases h

theorem parsePlansJson_sold {json : Option Json} {defaultPlanId : Option String} {catalogue : PlanCatalogue}
    (h : parsePlansJson json defaultPlanId = .ok catalogue) : ∀ plan ∈ catalogue.plans, plan.Sold := by
  unfold parsePlansJson at h
  split at h
  · split at h
    · cases h
    · cases h
      rintro plan ⟨⟩
  · split at h
    · rename_i items plans hplans
      rw [ofPlans_ok h]
      intro plan hplan
      obtain ⟨item, -, hitem⟩ := Traverse.exists_of_mapM hplans plan hplan
      exact Schema.plan_sold hitem
    · cases h
  · cases h

end Paymaster
