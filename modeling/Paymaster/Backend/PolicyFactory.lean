import Paymaster.Backend.Policy
import Paymaster.Lib.Numeral
import Paymaster.Lib.Separator

/-!
# The policy factory

Stored rules are JSON, and `build` turns one into a rule object or throws. An
object lists its properties in the order in which JavaScript enumerates them. A
number is a finite double.
-/

namespace Paymaster

inductive Json
  | null
  | bool (b : Bool)
  | num (x : ℚ)
  | str (s : String)
  | arr (items : List Json)
  | obj (properties : List (String × Json))

/-! ## Tenant ids -/

def tenantIdPattern (s : String) : Bool :=
  1 ≤ s.toList.length && s.toList.length ≤ 64 &&
    s.toList.all fun c => c.isAlphanum || c = '.' || c = '_' || c = ':' || c = '-'

structure TenantId where
  value : String
  valid : tenantIdPattern value = true
deriving DecidableEq

/-- Keys of policies come apart again, since no tenant id has the character between. -/
theorem keyOf_inj {tenantId tenantId' id id' : String} (ht : tenantIdPattern tenantId = true)
    (ht' : tenantIdPattern tenantId' = true) (h : keyOf tenantId id = keyOf tenantId' id') :
    tenantId = tenantId' ∧ id = id' := by
  have hnul : ∀ t, tenantIdPattern t = true → Char.ofNat 0 ∉ t.toList := by
    intro t hvalid hmem
    unfold tenantIdPattern at hvalid
    simp only [Bool.and_eq_true, List.all_eq_true] at hvalid
    have hchar := hvalid.2 _ hmem
    revert hchar
    decide
  exact Separator.strings_first (hnul _ ht) (hnul _ ht') h

def TenantId.default : TenantId := ⟨"default", by decide +kernel⟩

/-! ## Values of a configuration -/

namespace Schema

variable {α : Type}

def required (parse : Json → Option α) (properties : List (String × Json)) (name : String) : Option α :=
  (properties.lookup name).bind parse

def optional (parse : Json → Option α) (properties : List (String × Json)) (name : String) : Option (Option α) :=
  match properties.lookup name with
  | none => some none
  | some json => (parse json).map some

/-- `z.array(…).min(1)`. -/
def array (parse : Json → Option α) : Json → Option (List α)
  | .arr items => if items.isEmpty then none else items.mapM parse
  | _ => none

/-- `z.number().int().positive().max(…)`. -/
def positiveInt (max : Nat) : Json → Option Nat
  | .num x => if x.den = 1 ∧ 0 < x.num ∧ x.num ≤ max then some x.num.toNat else none
  | _ => none

def maxSafeInteger : Nat := 2 ^ 53 - 1

def boolean : Json → Option Bool
  | .bool b => some b
  | _ => none

def enum (values : List (String × α)) : Json → Option α
  | .str s => values.lookup s
  | _ => none

def hexNumber (length : Nat) (s : String) : Option Nat :=
  match s.toList with
  | '0' :: 'x' :: digits => if digits.length = length then Numeral.read 16 digits else none
  | _ => none

/-- `addressSchema`. Lower case is not checksummed; `checksummed` is viem's `checksumAddress(value) === value`. -/
def address (checksummed : String → Bool) : Json → Option Address
  | .str s => if s.toLower = s ∨ checksummed s = true then (hexNumber 40 s).map (BitVec.ofNat 160) else none
  | _ => none

def selector : Json → Option (BitVec 32)
  | .str s => (hexNumber 8 s).map (BitVec.ofNat 32)
  | _ => none

def decimal (s : String) : Option Nat := if s.toList.isEmpty then none else Numeral.read 10 s.toList

def bigint : Json → Option Nat
  | .str s => decimal s
  | _ => none

def byChain (parse : Json → Option α) : Json → Option (List (Nat × α))
  | .obj properties => properties.mapM fun (key, json) => do
    let chainId ← decimal key
    let value ← parse json
    some (chainId, value)
  | _ => none

def utf16Length (s : String) : Nat := (s.toList.map fun c => if c.toNat < 0x10000 then 1 else 2).sum

end Schema

/-! ## Rule objects -/

inductive TokenStandard
  | erc20
  | erc721
deriving DecidableEq

structure TokenOwnershipConfig where
  token : Option Address
  tokenByChain : List (Nat × Address)
  minBalance : Nat
  standard : TokenStandard
deriving DecidableEq

inductive BuiltRule
  | chainEnabled (chainIds : List Nat)
  | senderAllowlist (addresses : List Address)
  | senderBlocklist (addresses : List Address)
  | targetAllowlist (addresses : List Address)
  | methodAllowlist (selectors : List (BitVec 32)) (allowBareValueTransfer : Bool)
  | noValueTransfer
  | tokenOwnership (config : TokenOwnershipConfig)
  | quota (rule : QuotaRule)
deriving DecidableEq

def BuiltRule.toPolicyRule : BuiltRule → PolicyRule
  | .chainEnabled chainIds => .chainEnabled chainIds
  | .senderAllowlist _ => .check "sender-allowlist" .pure
  | .senderBlocklist _ => .check "sender-blocklist" .pure
  | .targetAllowlist _ => .check "target-allowlist" .pure
  | .methodAllowlist _ _ => .check "method-allowlist" .pure
  | .noValueTransfer => .check "no-value-transfer" .pure
  | .tokenOwnership _ => .check "token-ownership" .network
  | .quota rule => .quota rule

def BuiltRule.within (tenantNamespace : String) : BuiltRule → BuiltRule
  | .quota rule => .quota { rule with tenantNamespace := tenantNamespace }
  | rule => rule

/-! ## Schemas -/

def reservedQuotaPrefix : String := "platform:"

def QuotaName (name : String) : Prop :=
  1 ≤ Schema.utf16Length name ∧ Schema.utf16Length name ≤ 64 ∧ ¬ reservedQuotaPrefix.toList <+: name.toList

instance (name : String) : Decidable (QuotaName name) := inferInstanceAs (Decidable (_ ∧ _ ∧ ¬ _))

def quotaName : Json → Option String
  | .str s => if QuotaName s then some s else none
  | _ => none

def quotaSubjects : List (String × QuotaSubject) :=
  [("wallet", .wallet), ("ip", .ip), ("apiKey", .apiKey), ("chain", .chain), ("target", .target), ("global", .global)]

def quotaUnits : List (String × QuotaUnit) := [("operations", .operations), ("wei", .wei)]

def tokenStandards : List (String × TokenStandard) := [("erc20", .erc20), ("erc721", .erc721)]

def missingSubjects : List (String × OnMissingSubject) := [("deny", .deny), ("skip", .skip)]

structure PolicyRuleSpec where
  ruleType : String
  /-- `undefined` if absent. -/
  config : Option Json

def PolicyRuleSpec.configOrEmpty (spec : PolicyRuleSpec) : Json :=
  match spec.config with
  | none => .obj []
  | some .null => .obj []
  | some config => config

inductive FactoryError
  | invalidRuleConfig (policyId ruleType : String)
  | noTokenReader
deriving DecidableEq

structure PolicyFactory where
  checksummed : String → Bool
  tokenReader : Bool

namespace PolicyFactory

variable (factory : PolicyFactory)

/-- A quota rule of the constructor's arguments; the schema leaves it no window to throw at. -/
def quota (properties : List (String × Json)) (tenantNamespace : String) : Option QuotaRule := do
  let name ← Schema.required quotaName properties "name"
  let subject ← Schema.required (Schema.enum quotaSubjects) properties "subject"
  let unit ← Schema.required (Schema.enum quotaUnits) properties "unit"
  let limit ← Schema.required Schema.bigint properties "limit"
  let windowSeconds ← Schema.required (Schema.positiveInt 31536000) properties "windowSeconds"
  let onMissingSubject ← Schema.optional (Schema.enum missingSubjects) properties "onMissingSubject"
  if h : 0 < windowSeconds then
    some ⟨name, subject, unit, limit, windowSeconds, onMissingSubject.getD .deny, tenantNamespace, h⟩
  else none

def tokenOwnership (properties : List (String × Json)) : Option TokenOwnershipConfig := do
  let token ← Schema.optional (Schema.address factory.checksummed) properties "token"
  let tokenByChain ← Schema.optional (Schema.byChain (Schema.address factory.checksummed)) properties "tokenByChain"
  let minBalance ← Schema.optional Schema.bigint properties "minBalance"
  let standard ← Schema.optional (Schema.enum tokenStandards) properties "standard"
  if minBalance = some 0 then none
  else if token = none ∧ tokenByChain.getD [] = [] then none
  else some ⟨token, tokenByChain.getD [], minBalance.getD 1, standard.getD .erc20⟩

def addresses (properties : List (String × Json)) : Option (List Address) :=
  Schema.required (Schema.array (Schema.address factory.checksummed)) properties "addresses"

/-- A configuration that its schema accepts, constructed. `none` is a schema's refusal. -/
def parse (ruleType : String) (properties : List (String × Json)) (tenantNamespace : String) : Option BuiltRule :=
  match ruleType with
  | "chain-enabled" =>
    (Schema.required (Schema.array (Schema.positiveInt Schema.maxSafeInteger)) properties "chainIds").map .chainEnabled
  | "sender-allowlist" => (factory.addresses properties).map .senderAllowlist
  | "sender-blocklist" => (factory.addresses properties).map .senderBlocklist
  | "target-allowlist" => (factory.addresses properties).map .targetAllowlist
  | "method-allowlist" => do
    let selectors ← Schema.required (Schema.array Schema.selector) properties "selectors"
    let allowBareValueTransfer ← Schema.optional Schema.boolean properties "allowBareValueTransfer"
    some (.methodAllowlist selectors (allowBareValueTransfer.getD false))
  | "no-value-transfer" => some .noValueTransfer
  | "token-ownership" => (factory.tokenOwnership properties).map .tokenOwnership
  | "quota" => (quota properties tenantNamespace).map .quota
  | _ => none

def namespaceOf : Option String → String
  | none => ""
  | some tenant => if tenant = TenantId.default.value then "" else tenant

def build (policyId : String) (spec : PolicyRuleSpec) (tenant : Option String) : Except FactoryError BuiltRule :=
  match spec.configOrEmpty with
  | .obj properties =>
    match factory.parse spec.ruleType properties (namespaceOf tenant) with
    | none => .error (.invalidRuleConfig policyId spec.ruleType)
    | some (.tokenOwnership config) => if factory.tokenReader then .ok (.tokenOwnership config) else .error .noTokenReader
    | some rule => .ok rule
  | _ => .error (.invalidRuleConfig policyId spec.ruleType)

/-! ## What is built -/

section
variable {factory : PolicyFactory} {policyId ruleType tenantNamespace : String} {spec : PolicyRuleSpec}
  {tenant : Option String} {properties : List (String × Json)} {rule : QuotaRule} {built : BuiltRule}

/-- A build is a parse, with a reader for the tokens. -/
theorem build_ok (h : factory.build policyId spec tenant = .ok built) :
    ∃ properties, spec.configOrEmpty = .obj properties ∧
      factory.parse spec.ruleType properties (namespaceOf tenant) = some built := by
  unfold build at h
  split at h
  · rename_i properties hconfig
    refine ⟨properties, hconfig, ?_⟩
    split at h
    · cases h
    · rename_i config hparse
      split at h
      · cases h
        exact hparse
      · cases h
    · rename_i rule _ hparse
      cases h
      exact hparse
  · cases h

/-- Only the quota schema makes quota rules. -/
theorem parse_quota (h : factory.parse ruleType properties tenantNamespace = some (.quota rule)) :
    ruleType = "quota" ∧ quota properties tenantNamespace = some rule := by
  unfold parse at h
  split at h
  case h_8 =>
    obtain ⟨rule', hrule, heq⟩ := Option.map_eq_some_iff.mp h
    cases heq
    exact ⟨rfl, hrule⟩
  case h_5 =>
    simp only [Option.bind_eq_bind, Option.bind_eq_some_iff] at h
    obtain ⟨selectors, -, allow, -, heq⟩ := h
    cases heq
  all_goals simp at h

theorem positiveInt_le {max n : Nat} {json : Json} (h : Schema.positiveInt max json = some n) : 0 < n ∧ n ≤ max := by
  cases json with
  | num x =>
    simp only [Schema.positiveInt] at h
    split at h
    · rename_i hx
      obtain rfl := Option.some.inj h
      omega
    · cases h
  | _ => cases h

theorem quotaName_some {name : String} {json : Json} (h : quotaName json = some name) : QuotaName name := by
  cases json with
  | str s =>
    simp only [quotaName] at h
    split at h
    · rename_i hname
      obtain rfl := Option.some.inj h
      exact hname
    · cases h
  | _ => cases h

theorem quota_some (h : quota properties tenantNamespace = some rule) :
    QuotaName rule.name ∧ rule.tenantNamespace = tenantNamespace ∧ rule.windowSeconds ≤ 31536000 := by
  simp only [quota, Option.bind_eq_bind, Option.bind_eq_some_iff] at h
  obtain ⟨name, hname, subject, -, unit, -, limit, -, windowSeconds, hwindow, missing, -, h⟩ := h
  obtain ⟨_, -, hname⟩ := Option.bind_eq_some_iff.mp hname
  obtain ⟨_, -, hwindow⟩ := Option.bind_eq_some_iff.mp hwindow
  split at h
  · cases h
    exact ⟨quotaName_some hname, rfl, (positiveInt_le hwindow).2⟩
  · cases h

/-- The namespace decides nothing but where a quota counts. -/
theorem parse_within (tenantNamespace tenantNamespace' : String) :
    factory.parse ruleType properties tenantNamespace' =
      (factory.parse ruleType properties tenantNamespace).map (BuiltRule.within tenantNamespace') := by
  unfold parse
  split
  case h_5 =>
    simp only [Option.bind_eq_bind, Option.map_bind, Function.comp_def, Option.map_some, BuiltRule.within]
  case h_8 =>
    simp only [quota, Option.bind_eq_bind, Option.map_bind, Function.comp_def, Option.map_map]
    simp only [apply_dite (Option.map _), Option.map_some, Option.map_none, BuiltRule.within]
  all_goals simp only [Option.map_map, Function.comp_def, Option.map_some, Option.map_none, BuiltRule.within]

/-- What is built for one tenant is built for every tenant. -/
theorem build_within (tenant tenant' : Option String) :
    factory.build policyId spec tenant' =
      (factory.build policyId spec tenant).map (BuiltRule.within (namespaceOf tenant')) := by
  unfold build
  split
  · rename_i properties hconfig
    rw [parse_within (namespaceOf tenant) (namespaceOf tenant')]
    cases hparse : factory.parse spec.ruleType properties (namespaceOf tenant) with
    | none => rfl
    | some rule =>
      cases rule with
      | tokenOwnership config =>
        simp only [Option.map_some, BuiltRule.within]
        split <;> rfl
      | _ => rfl
  · rfl

/-- A stored configuration builds what the given one does. -/
theorem build_stored : factory.build policyId ⟨spec.ruleType, some spec.configOrEmpty⟩ tenant = factory.build policyId spec tenant := by
  have hstored : (⟨spec.ruleType, some spec.configOrEmpty⟩ : PolicyRuleSpec).configOrEmpty = spec.configOrEmpty := by
    obtain ⟨ruleType, config⟩ := spec
    cases config with
    | none => rfl
    | some json => cases json <;> rfl
  unfold build
  rw [hstored]

def quotaConfig (name subject : String) (windowSeconds : Nat) : List (String × Json) :=
  [("name", .str name), ("subject", .str subject), ("unit", .str "operations"), ("limit", .str "1"),
    ("windowSeconds", .num windowSeconds)]

/-- Every name, subject and window that the schema allows can be stored. -/
theorem build_quotaConfig (name subject : String) (windowSeconds : Nat) {subject' : QuotaSubject} (hname : QuotaName name)
    (hsubject : quotaSubjects.lookup subject = some subject') (hpos : 0 < windowSeconds) (hle : windowSeconds ≤ 31536000) :
    factory.build policyId ⟨"quota", some (.obj (quotaConfig name subject windowSeconds))⟩ tenant =
      .ok (.quota ⟨name, subject', .operations, 1, windowSeconds, .deny, namespaceOf tenant, hpos⟩) := by
  have hwindow : Schema.positiveInt 31536000 (.num windowSeconds) = some windowSeconds := by
    have hint : (windowSeconds : ℚ).den = 1 ∧ 0 < (windowSeconds : ℚ).num ∧ (windowSeconds : ℚ).num ≤ (31536000 : Nat) := by
      rw [Rat.den_natCast, Rat.num_natCast]
      omega
    rw [Schema.positiveInt, if_pos hint, Rat.num_natCast, Int.toNat_natCast]
  have hstored : quotaName (.str name) = some name := if_pos hname
  have hlimit : Schema.bigint (.str "1") = some 1 := by decide
  have hquota : quota (quotaConfig name subject windowSeconds) (namespaceOf tenant) =
      some ⟨name, subject', .operations, 1, windowSeconds, .deny, namespaceOf tenant, hpos⟩ := by
    simp [quota, quotaConfig, Schema.required, Schema.optional, Schema.enum, List.lookup, hstored, hsubject, hlimit, hwindow,
      quotaUnits, hpos]
  simp only [build, PolicyRuleSpec.configOrEmpty, parse, hquota, Option.map_some]

end

end PolicyFactory

end Paymaster
