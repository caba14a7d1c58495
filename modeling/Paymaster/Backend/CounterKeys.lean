import Paymaster.Backend.PlanCeilings
import Paymaster.Lib.Separator

/-!
# Counter keys

A counter is found under its rule's namespace, its name and the values of its
subject. The namespace ends at a slash, which no tenant id contains; but the
default tenant has no namespace, and neither names nor the strings that a
request brings are without a slash or a colon.
-/

namespace Paymaster

open Separator

/-! ## The parts of a key -/

namespace QuotaRule

variable (rule : QuotaRule)

def text (fields : QuotaSubjectFields) : Option String :=
  match rule.subject with
  | .wallet => some (rule.name ++ ":" ++ toString fields.chainId ++ ":" ++ lowerHex fields.sender)
  | .chain => some (rule.name ++ ":" ++ toString fields.chainId)
  | .global => some rule.name
  | .ip => fields.clientIp.map fun ip => rule.name ++ ":" ++ ip
  | .apiKey => fields.apiKeyId.map fun id => rule.name ++ ":" ++ id
  | .target =>
    match fields.calls with
    | some [target] => some (rule.name ++ ":" ++ toString fields.chainId ++ ":" ++ lowerHex target)
    | _ => none

end QuotaRule

def keyIn (tenantNamespace text : String) : String :=
  if tenantNamespace = "" then "quota:" ++ text else "quota:" ++ tenantNamespace ++ "/" ++ text

/-- A text that some quota has in some request: a name, alone or before a colon. -/
def Storable (text : String) : Prop :=
  ∃ name, QuotaName name ∧ (text = name ∨ ∃ value, text = name ++ ":" ++ value)

section
variable {rule : QuotaRule} {fields : QuotaSubjectFields} {context : PolicyContext} {text key slot : String}

theorem keyFor_eq : rule.keyFor fields = (rule.text fields).map (keyIn rule.tenantNamespace) := by
  unfold QuotaRule.keyFor QuotaRule.text QuotaRule.keyPrefix keyIn
  by_cases hempty : rule.tenantNamespace = ""
  · simp only [if_pos hempty]
    cases rule.subject with
    | ip => cases fields.clientIp <;> simp [String.append_assoc]
    | apiKey => cases fields.apiKeyId <;> simp [String.append_assoc]
    | target =>
      rcases fields.calls with - | (- | ⟨target, - | ⟨second, rest⟩⟩)
      all_goals simp [String.append_assoc]
    | _ => simp [String.append_assoc]
  · simp only [if_neg hempty]
    cases rule.subject with
    | ip => cases fields.clientIp <;> simp [String.append_assoc]
    | apiKey => cases fields.apiKeyId <;> simp [String.append_assoc]
    | target =>
      rcases fields.calls with - | (- | ⟨target, - | ⟨second, rest⟩⟩)
      all_goals simp [String.append_assoc]
    | _ => simp [String.append_assoc]

theorem storable_text (hname : QuotaName rule.name) (h : rule.text fields = some text) : Storable text := by
  refine ⟨rule.name, hname, ?_⟩
  unfold QuotaRule.text at h
  cases hsubject : rule.subject with
  | global =>
    rw [hsubject] at h
    exact .inl (Option.some.inj h).symm
  | wallet =>
    rw [hsubject] at h
    exact .inr ⟨_, by rw [← Option.some.inj h, String.append_assoc, String.append_assoc, String.append_assoc]⟩
  | chain =>
    rw [hsubject] at h
    exact .inr ⟨_, (Option.some.inj h).symm⟩
  | ip =>
    simp only [hsubject] at h
    obtain ⟨ip, -, rfl⟩ := Option.map_eq_some_iff.mp h
    exact .inr ⟨ip, rfl⟩
  | apiKey =>
    simp only [hsubject] at h
    obtain ⟨id, -, rfl⟩ := Option.map_eq_some_iff.mp h
    exact .inr ⟨id, rfl⟩
  | target =>
    simp only [hsubject] at h
    split at h
    · exact .inr ⟨_, by rw [← Option.some.inj h, String.append_assoc, String.append_assoc, String.append_assoc]⟩
    · cases h

end

/-! ## Stored quotas -/

structure StoredQuota (factory : PolicyFactory) where
  tenant : TenantId
  policyId : String
  spec : PolicyRuleSpec
  rule : QuotaRule
  built : factory.build policyId spec (some tenant.value) = .ok (.quota rule)

def ceilingNames : List String := [reservedQuotaPrefix ++ "operations-per-day", reservedQuotaPrefix ++ "wei-per-day"]

namespace StoredQuota

variable {factory : PolicyFactory} (a : StoredQuota factory) (context : PolicyContext)

def Isolated : Prop :=
  ∀ slot, a.rule.slotFor context = some slot →
    (∀ b : StoredQuota factory, b.tenant ≠ a.tenant → ∀ context', b.rule.slotFor context' ≠ some slot) ∧
    ∀ (plan : Plan) (tenant : TenantId), ∀ ceiling ∈ reservingOf (ceilingRules plan tenant.value),
      ∀ context', ceiling.slotFor context' ≠ some slot

/-- The name and the values of the subject do not spell another counter: for
the default tenant, no tenant id, a slash and what that tenant may store or what
its ceilings are called; for any other tenant, no ceiling's name, nor, with the
tenant's id and the slash, what the default tenant may store. -/
def Apart : Prop :=
  ∀ text, a.rule.text context.toQuotaSubjectFields = some text →
    if a.tenant = .default then
      ∀ (tenant : TenantId) (rest : String), text = tenant.value ++ "/" ++ rest →
        (tenant ≠ .default → ¬ Storable rest) ∧ (a.rule.windowSeconds = daySeconds → rest ∉ ceilingNames)
    else
      ¬ Storable (a.tenant.value ++ "/" ++ text) ∧ (a.rule.windowSeconds = daySeconds → text ∉ ceilingNames)

end StoredQuota

section
variable {factory : PolicyFactory} {a b : StoredQuota factory} {context context' : PolicyContext}
  {text rest slot : String} {tenant : TenantId}

theorem slash_notMem (tenant : TenantId) : '/' ∉ tenant.value.toList := by
  intro hmem
  have hvalid := tenant.valid
  unfold tenantIdPattern at hvalid
  simp only [Bool.and_eq_true, List.all_eq_true] at hvalid
  have hslash := hvalid.2 '/' hmem
  revert hslash
  decide

theorem TenantId.value_inj {t u : TenantId} (h : t.value = u.value) : t = u := by
  cases t
  cases u
  cases h
  rfl

theorem keyIn_default : keyIn (PolicyFactory.namespaceOf (some TenantId.default.value)) text = "quota:" ++ text := by
  rfl

theorem keyIn_tenant (tenant : TenantId) : keyIn tenant.value text = "quota:" ++ (tenant.value ++ "/" ++ text) := by
  have hne : tenant.value ≠ "" := by
    intro hempty
    have hvalid := tenant.valid
    rw [hempty] at hvalid
    revert hvalid
    decide
  rw [keyIn, if_neg hne]
  simp [String.append_assoc]

theorem namespaceOf_tenant (hne : tenant ≠ .default) : PolicyFactory.namespaceOf (some tenant.value) = tenant.value :=
  if_neg fun h => hne (TenantId.value_inj h)

theorem StoredQuota.built_quota (a : StoredQuota factory) :
    QuotaName a.rule.name ∧ a.rule.tenantNamespace = PolicyFactory.namespaceOf (some a.tenant.value) ∧
      a.rule.windowSeconds ≤ 31536000 := by
  obtain ⟨properties, -, hparse⟩ := PolicyFactory.build_ok a.built
  exact PolicyFactory.quota_some (PolicyFactory.parse_quota hparse).2

/-- A stored quota's slot comes from a text that can be stored, in its tenant's namespace. -/
theorem StoredQuota.slotFor_cases (h : a.rule.slotFor context = some slot) :
    ∃ text, a.rule.text context.toQuotaSubjectFields = some text ∧ Storable text ∧
      slot = windowedKey (keyIn (PolicyFactory.namespaceOf (some a.tenant.value)) text) a.rule.windowSeconds context.now := by
  obtain ⟨hname, hnamespace, -⟩ := a.built_quota
  obtain ⟨key, hkey, rfl⟩ := Option.map_eq_some_iff.mp h
  rw [keyFor_eq, hnamespace] at hkey
  obtain ⟨text, htext, rfl⟩ := Option.map_eq_some_iff.mp hkey
  exact ⟨text, htext, storable_text hname htext, rfl⟩

/-- What can be stored, a tenant can store, and have counted in any window. -/
theorem exists_quota (factory : PolicyFactory) (tenant : TenantId) (h : Storable text) {windowSeconds : Nat}
    (hpos : 0 < windowSeconds) (hle : windowSeconds ≤ 31536000) (now : Nat) :
    ∃ (b : StoredQuota factory) (context : PolicyContext), b.tenant = tenant ∧
      b.rule.slotFor context =
        some (windowedKey (keyIn (PolicyFactory.namespaceOf (some tenant.value)) text) windowSeconds now) := by
  obtain ⟨name, hname, rfl | ⟨value, rfl⟩⟩ := h
  · refine ⟨⟨tenant, "p", _, _, PolicyFactory.build_quotaConfig _ "global" _ hname rfl hpos hle⟩,
      ⟨⟨1, 0, none, none, none⟩, 0, now⟩, rfl, ?_⟩
    simp only [QuotaRule.slotFor, keyFor_eq, QuotaRule.text, Option.map_some]
  · refine ⟨⟨tenant, "p", _, _, PolicyFactory.build_quotaConfig _ "ip" _ hname rfl hpos hle⟩,
      ⟨⟨1, 0, some value, none, none⟩, 0, now⟩, rfl, ?_⟩
    simp only [QuotaRule.slotFor, keyFor_eq, QuotaRule.text, Option.map_some]

theorem ceiling_slotFor {plan : Plan} {ceiling : QuotaRule} (h : ceiling ∈ reservingOf (ceilingRules plan tenant.value)) :
    ∃ name ∈ ceilingNames, ∀ context, ceiling.slotFor context =
      some (windowedKey (keyIn tenant.value name) daySeconds context.now) := by
  rcases reservingOf_ceilingRules h with ⟨limit, -, rfl⟩ | ⟨limit, -, rfl⟩
  · refine ⟨_, List.mem_cons_self, fun context => ?_⟩
    simp only [QuotaRule.slotFor, keyFor_eq, QuotaRule.text, operationsCeiling, Option.map_some]
  · refine ⟨_, List.mem_cons_of_mem _ List.mem_cons_self, fun context => ?_⟩
    simp only [QuotaRule.slotFor, keyFor_eq, QuotaRule.text, weiCeiling, Option.map_some]

theorem exists_ceiling {name : String} (hname : name ∈ ceilingNames) (tenant : TenantId) :
    ∃ plan, ∃ ceiling ∈ reservingOf (ceilingRules plan tenant.value), ∀ context,
      ceiling.slotFor context = some (windowedKey (keyIn tenant.value name) daySeconds context.now) := by
  refine ⟨⟨"", 0, [], ⟨some 0, some 0⟩, none⟩, ?_⟩
  rcases List.mem_cons.mp hname with rfl | hname
  · refine ⟨operationsCeiling tenant.value 0, by simp [ceilingRules, reservingOf, PolicyRule.reserving?], fun context => ?_⟩
    simp only [QuotaRule.slotFor, keyFor_eq, QuotaRule.text, operationsCeiling, Option.map_some]
  · obtain rfl := List.mem_singleton.mp hname
    refine ⟨weiCeiling tenant.value 0, by simp [ceilingRules, reservingOf, PolicyRule.reserving?], fun context => ?_⟩
    simp only [QuotaRule.slotFor, keyFor_eq, QuotaRule.text, weiCeiling, Option.map_some]

theorem keyIn_tenants {tenant' : TenantId} {text' : String} (h : keyIn tenant.value text = keyIn tenant'.value text') :
    tenant = tenant' ∧ text = text' := by
  rw [keyIn_tenant, keyIn_tenant, String.append_right_inj] at h
  obtain ⟨hvalue, htext⟩ := strings_first (slash_notMem tenant) (slash_notMem tenant') h
  exact ⟨TenantId.value_inj hvalue, htext⟩

theorem keyIn_default_iff {text' : String} :
    keyIn (PolicyFactory.namespaceOf (some TenantId.default.value)) text = keyIn tenant.value text' ↔
      text = tenant.value ++ "/" ++ text' := by
  rw [keyIn_default, keyIn_tenant, String.append_right_inj, String.append_assoc]

end

/-! ## Isolation -/

section
variable {factory : PolicyFactory} {a : StoredQuota factory} {context : PolicyContext}

theorem isolated_of_apart (h : a.Apart context) : a.Isolated context := by
  intro slot hslot
  obtain ⟨text, htext, hstorable, rfl⟩ := StoredQuota.slotFor_cases hslot
  have hapart := h text htext
  by_cases hdefault : a.tenant = .default
  · rw [if_pos hdefault] at hapart
    rw [hdefault]
    constructor
    · intro b hb context' hslot'
      obtain ⟨text', -, hstorable', hkeys⟩ := StoredQuota.slotFor_cases hslot'
      obtain ⟨hkey, -, -⟩ := windowedKey_inj hkeys
      rw [namespaceOf_tenant hb, keyIn_default_iff] at hkey
      exact (hapart b.tenant text' hkey).1 hb hstorable'
    · intro plan tenant ceiling hceiling context' hslot'
      obtain ⟨name, hname, hceilingSlot⟩ := ceiling_slotFor hceiling
      rw [hceilingSlot, Option.some.injEq] at hslot'
      obtain ⟨hkey, hwindow, -⟩ := windowedKey_inj hslot'.symm
      rw [keyIn_default_iff] at hkey
      exact (hapart tenant name hkey).2 hwindow hname
  · rw [if_neg hdefault] at hapart
    rw [namespaceOf_tenant hdefault]
    constructor
    · intro b hb context' hslot'
      obtain ⟨text', -, hstorable', hkeys⟩ := StoredQuota.slotFor_cases hslot'
      obtain ⟨hkey, -, -⟩ := windowedKey_inj hkeys
      by_cases hb' : b.tenant = .default
      · rw [hb'] at hkey
        rw [keyIn_default_iff.mp hkey.symm] at hstorable'
        exact hapart.1 hstorable'
      · rw [namespaceOf_tenant hb'] at hkey
        exact hb (keyIn_tenants hkey).1.symm
    · intro plan tenant ceiling hceiling context' hslot'
      obtain ⟨name, hname, hceilingSlot⟩ := ceiling_slotFor hceiling
      rw [hceilingSlot, Option.some.injEq] at hslot'
      obtain ⟨hkey, hwindow, -⟩ := windowedKey_inj hslot'.symm
      obtain ⟨-, rfl⟩ := keyIn_tenants hkey
      exact hapart.2 hwindow hname

theorem apart_of_isolated (h : a.Isolated context) : a.Apart context := by
  intro text htext
  obtain ⟨-, hnamespace, hle⟩ := a.built_quota
  have hslot : a.rule.slotFor context = some (windowedKey
      (keyIn (PolicyFactory.namespaceOf (some a.tenant.value)) text) a.rule.windowSeconds context.now) := by
    rw [QuotaRule.slotFor, keyFor_eq, htext, hnamespace]
    rfl
  obtain ⟨hothers, hceilings⟩ := h _ hslot
  by_cases hdefault : a.tenant = .default
  · rw [if_pos hdefault]
    rw [hdefault] at hothers hceilings
    rintro tenant rest rfl
    have hkey := keyIn_default_iff.mpr (rfl : tenant.value ++ "/" ++ rest = tenant.value ++ "/" ++ rest)
    rw [hkey] at hothers hceilings
    constructor
    · intro hne hstorable
      obtain ⟨b, context', hb, hsame⟩ :=
        exists_quota factory tenant hstorable a.rule.windowSeconds_pos hle context.now
      rw [namespaceOf_tenant hne] at hsame
      exact hothers b (by rw [hb]; exact hne) context' hsame
    · intro hday hname
      obtain ⟨plan, ceiling, hceiling, hsame⟩ := exists_ceiling hname tenant
      rw [hday] at hceilings
      exact hceilings plan tenant ceiling hceiling context (hsame context)
  · rw [if_neg hdefault]
    rw [namespaceOf_tenant hdefault] at hothers hceilings
    constructor
    · intro hstorable
      obtain ⟨b, context', hb, hsame⟩ :=
        exists_quota factory .default hstorable a.rule.windowSeconds_pos hle context.now
      rw [keyIn_default_iff.mpr rfl] at hsame
      exact hothers b (by rw [hb]; exact fun h => hdefault h.symm) context' hsame
    · intro hday hname
      obtain ⟨plan, ceiling, hceiling, hsame⟩ := exists_ceiling hname a.tenant
      rw [hday] at hceilings
      exact hceilings plan a.tenant ceiling hceiling context (hsame context)

end

/-- A counter is isolated exactly when its rule's name and its subject's values
do not spell another one. -/
theorem isolated_iff {factory : PolicyFactory} (a : StoredQuota factory) (context : PolicyContext) :
    a.Isolated context ↔ a.Apart context :=
  ⟨apart_of_isolated, isolated_of_apart⟩

theorem oneDay_pos : 0 < 86400 := by decide

def acmeDaily (factory : PolicyFactory) : StoredQuota factory :=
  ⟨.default, "p", _, _, PolicyFactory.build_quotaConfig "acme/daily" "global" 86400
    (by decide +kernel) rfl oneDay_pos (by decide)⟩

/-- It counts in the counter of tenant acme's quota `daily`. -/
theorem acmeDaily_not_isolated : ¬ ∀ (factory : PolicyFactory) (a : StoredQuota factory) (context : PolicyContext),
    a.Isolated context := by
  intro hall
  have hacme : tenantIdPattern "acme" = true := by decide +kernel
  have hapart := apart_of_isolated (hall ⟨fun _ => true, false⟩ (acmeDaily _) ⟨⟨1, 0, none, none, none⟩, 0, 0⟩)
  have hdaily := hapart "acme/daily" rfl
  rw [if_pos (show (acmeDaily ⟨fun _ => true, false⟩).tenant = .default from rfl)] at hdaily
  have hname : "acme" ≠ "default" := by decide
  have hspelled : "acme/daily" = "acme" ++ "/" ++ "daily" := by decide +kernel
  have hne : (⟨"acme", hacme⟩ : TenantId) ≠ .default := fun h => hname (congrArg TenantId.value h)
  exact (hdaily ⟨"acme", hacme⟩ "daily" hspelled).1 hne ⟨"daily", by decide +kernel, .inl rfl⟩

end Paymaster
