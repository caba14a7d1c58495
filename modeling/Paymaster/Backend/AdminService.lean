import Paymaster.Backend.Auth
import Paymaster.Backend.PlanCeilings
import Paymaster.Lib.Procedure

/-!
# The admin service

The repositories of policies, sponsorships and audit entries, and the
operations on policies, keys and reports that go through them. An operation is
a procedure on the database and on the policy source of its replica; what it
generates (ids, secrets, times) is given to it.
-/

namespace Paymaster

/-! ## Repositories -/

structure PolicyDefinition where
  id : String
  name : String
  description : Option String
  enabled : Bool
  rules : List PolicyRuleSpec

structure StoredPolicy where
  tenantId : String
  definition : PolicyDefinition
  createdAt : Nat
  updatedAt : Nat

structure SponsorshipQuery where
  apiKeyId : Option String
  chainId : Option Nat
  sender : Option Address
  limit : Option Nat

structure AuditQuery where
  actor : Option String
  action : Option String
  since : Option Nat
  limit : Option Nat

def policyIdPattern (s : String) : Bool :=
  1 ≤ s.toList.length && s.toList.length ≤ 128 &&
    s.toList.all fun c => c.isAlphanum || c = '.' || c = '_' || c = ':' || c = '-'

namespace Database

variable (db : Database)

def byKey (a b : PolicyRow) : Prop := a.tenantId < b.tenantId ∨ a.tenantId = b.tenantId ∧ a.id ≤ b.id

instance : DecidableRel byKey := fun _ _ => inferInstanceAs (Decidable (_ ∨ _))

def rulesOf (policy : PolicyRow) : List PolicyRuleSpec :=
  ((db.policyRules.filter fun r => r.tenantId = policy.tenantId ∧ r.policyId = policy.id).insertionSort
    fun a b => a.ordinal ≤ b.ordinal).map fun r => ⟨r.ruleType, some r.config⟩

def toStored (policy : PolicyRow) : StoredPolicy :=
  ⟨policy.tenantId, ⟨policy.id, policy.name, policy.description, policy.enabled, db.rulesOf policy⟩, policy.createdAt,
    policy.updatedAt⟩

def listPolicies (scope : Scope) : List StoredPolicy :=
  ((db.policies.filter fun p => scope.includes p.tenantId).insertionSort byKey).map db.toStored

/-- `none` is a policy that is not there, or not in the scope. -/
def getPolicy (scope : Scope) (id : String) : Option StoredPolicy :=
  (db.listPolicies scope).find? fun p => p.definition.id = id

def loadPolicies (factory : PolicyFactory) (scope : Scope) : Except FactoryError (List Policy) :=
  ((db.policies.filter fun p => p.enabled ∧ scope.includes p.tenantId).insertionSort byKey).mapM fun p => do
    let rules ← (db.rulesOf p).mapM fun spec => factory.build p.id spec (some p.tenantId)
    .ok ⟨p.tenantId, p.id, rules.map BuiltRule.toPolicyRule⟩

def ruleRows (owner : String) (definition : PolicyDefinition) : List PolicyRuleRow :=
  definition.rules.zipIdx.map fun (rule, ordinal) => ⟨owner, definition.id, ordinal, rule.ruleType, rule.configOrEmpty⟩

def upsertRow (owner : String) (definition : PolicyDefinition) (now : Nat) : List PolicyRow :=
  if db.policies.any fun p => p.tenantId = owner ∧ p.id = definition.id then
    db.policies.map fun p =>
      if p.tenantId = owner ∧ p.id = definition.id then
        { p with
          name := definition.name
          description := definition.description
          enabled := definition.enabled
          updatedAt := now }
      else p
  else db.policies ++ [⟨owner, definition.id, definition.name, definition.description, definition.enabled, now, now⟩]

def upsertPolicy (owner : String) (definition : PolicyDefinition) (now : Nat) : Except DatabaseError Database :=
  if policyIdPattern definition.id = false then .error .checkViolation
  else if (db.tenant? owner).isNone then .error .foreignKeyViolation
  else .ok { db with
    policies := db.upsertRow owner definition now
    policyRules := (db.policyRules.filter fun r => ¬ (r.tenantId = owner ∧ r.policyId = definition.id)) ++
      ruleRows owner definition }

/-- Rules cascade; a key that is pinned to the policy keeps it. -/
def deletePolicy (owner id : String) : Except DatabaseError (Bool × Database) :=
  if db.policies.any fun p => p.tenantId = owner ∧ p.id = id then
    if db.apiKeys.any fun k => k.tenantId = owner ∧ k.policyId = some id then .error .foreignKeyViolation
    else .ok (true, { db with
      policies := db.policies.filter fun p => ¬ (p.tenantId = owner ∧ p.id = id)
      policyRules := db.policyRules.filter fun r => ¬ (r.tenantId = owner ∧ r.policyId = id) })
  else .ok (false, db)

/-! ## Reports -/

def listSponsorships (scope : Scope) (query : SponsorshipQuery) : List StoredSponsorship :=
  ((db.sponsorships.filter fun row => scope.includes row.tenantId && query.apiKeyId.all (row.apiKeyId = ·) &&
    query.chainId.all (row.chainId = ·) && query.sender.all (row.sender = ·)).insertionSort
      fun a b => b.createdAt ≤ a.createdAt).take (min (query.limit.getD 100) 1000)

def auditIncludes : Scope → AuditRow → Bool
  | .tenant tenantId, row => row.tenantId = some tenantId
  | .platform, _ => true

def listAudit (scope : Scope) (query : AuditQuery) : List AuditRow :=
  ((db.auditLogs.filter fun row => auditIncludes scope row && query.actor.all (row.actor = ·) &&
    query.action.all (row.action = ·) && query.since.all (· ≤ row.createdAt)).insertionSort
      fun a b => b.createdAt < a.createdAt ∨ b.createdAt = a.createdAt ∧ b.id ≤ a.id).take (min (query.limit.getD 100) 1000)

def recordAudit (row : AuditRow) : Except DatabaseError Database :=
  if ∃ tenantId ∈ row.tenantId, (db.tenant? tenantId).isNone then .error .foreignKeyViolation
  else .ok { db with auditLogs := db.auditLogs ++ [row] }

end Database

/-! ## Operations -/

inductive AdminError
  | factory (error : FactoryError)
  | database (error : DatabaseError)
  | policyNotFound (id : String)
  | policyInUse (id : String)
  | roleEscalation (permissions : List Permission)
  | duplicatePolicy
deriving DecidableEq

structure ActorContext where
  actor : String
  clientIp : Option String
  scope : Scope
  /-- The one tenant that the actor writes in. -/
  writeScope : String
  permissions : List Permission

def Principal.actorContext (principal : Principal) (clientIp : Option String) : ActorContext where
  actor := principal.apiKeyId
  clientIp := clientIp
  scope := if .platformRead ∈ principal.permissions then .platform else .tenant principal.tenantId
  writeScope := principal.tenantId
  permissions := principal.permissions

inductive KeyEnvironment
  | live
  | test
deriving DecidableEq

structure CreateKeyRequest where
  name : String
  roles : List Role
  policyId : Option String
  environment : KeyEnvironment
  expiresAt : Option Nat

structure Generated where
  now : Nat
  auditId : Nat
  keyId : String
  /-- `randomBytes(32)` in base64url. -/
  random : String

structure ApiKeyView where
  id : String
  name : String
  displayPrefix : String
  roles : List Role
  policyId : Option String
  enabled : Bool
  createdAt : Nat
  expiresAt : Option Nat
  lastUsedAt : Option Nat
deriving DecidableEq

def ApiKeyRow.toView (row : ApiKeyRow) : ApiKeyView :=
  ⟨row.id, row.name, row.displayPrefix, row.roles.filterMap Role.ofName?, row.policyId, row.enabled, row.createdAt,
    row.expiresAt, row.lastUsedAt⟩

structure AdminState where
  db : Database
  policySource : PolicySource
  generation : Nat

abbrev AdminProcedure := Procedure AdminState AdminError

structure AdminService where
  hashApiKey : String → String
  factory : PolicyFactory
  plans : PlanCatalogue
  /-- `planIdsByTenant`. -/
  planIds : String → Option String

def secretOf (environment : KeyEnvironment) (random : String) : String :=
  match environment with
  | .live => "pm_live_" ++ random
  | .test => "pm_test_" ++ random

def delegatable : List Permission := [.sponsorCreate]

def escalations (roles : List Role) (held : List Permission) : List Permission :=
  (permissionsFor roles).filter fun permission => permission ∉ held ∧ permission ∉ delegatable

namespace AdminService

variable (service : AdminService) (context : ActorContext) (generated : Generated)

def change {α : Type} (f : Database → Except AdminError (α × Database)) : AdminProcedure α :=
  .write fun s => (f s.db).map fun (a, db) => (a, { s with db := db })

def audit (action : String) (subject : Option String) (detail : Json) : AdminProcedure Unit :=
  change fun db => ((db.recordAudit ⟨generated.auditId, some context.writeScope, context.actor, action, subject, detail,
    context.clientIp, generated.now⟩).mapError .database).map ((), ·)

def reload : AdminProcedure (Nat × Nat) :=
  .write fun s =>
    match s.db.loadPolicies service.factory .platform with
    | .error error => .error (.factory error)
    | .ok policies =>
      let loaded := service.plans.withCeilings service.planIds policies
      if h : (loaded.map fun p => keyOf p.tenantId p.id).Nodup then
        .ok ((loaded.length, s.generation + 1), { s with policySource := ⟨loaded, h⟩, generation := s.generation + 1 })
      else .error .duplicatePolicy

def getPolicy (scope : Scope) (id : String) : AdminProcedure StoredPolicy :=
  .read fun s =>
    match s.db.getPolicy scope id with
    | some policy => .ok policy
    | none => .error (.policyNotFound id)

def upsertPolicy (definition : PolicyDefinition) : AdminProcedure StoredPolicy := do
  -- Every rule is built before anything is written.
  .read fun _ => (definition.rules.forM fun rule => do
    let _ ← service.factory.build definition.id rule none).mapError .factory
  change fun db => ((db.upsertPolicy context.writeScope definition generated.now).mapError .database).map ((), ·)
  let _ ← service.reload
  audit context generated "policy.upsert" (some ("policy:" ++ definition.id)) (.obj
    [("enabled", .bool definition.enabled), ("ruleCount", .num definition.rules.length),
      ("ruleTypes", .arr (definition.rules.map fun rule => .str rule.ruleType))])
  getPolicy (.tenant context.writeScope) definition.id

/-- `isForeignKeyViolation`. -/
def inUse (id : String) : DatabaseError → AdminError
  | .foreignKeyViolation => .policyInUse id
  | error => .database error

def deletePolicy (id : String) : AdminProcedure Bool := do
  let deleted ← change fun db => (db.deletePolicy context.writeScope id).mapError (inUse id)
  if deleted then
    let _ ← service.reload
    audit context generated "policy.delete" (some ("policy:" ++ id)) (.obj [])
  pure deleted

def reloadPolicies : AdminProcedure (Nat × Nat) := do
  let (count, generation) ← service.reload
  audit context generated "policy.reload" none (.obj [("count", .num count), ("generation", .num generation)])
  pure (count, generation)

def newKey (request : CreateKeyRequest) : ApiKeyRow where
  tenantId := context.writeScope
  id := generated.keyId
  name := request.name
  keyHash := service.hashApiKey (secretOf request.environment generated.random)
  displayPrefix := String.ofList ((secretOf request.environment generated.random).toList.take 16)
  roles := request.roles.map Role.name
  policyId := request.policyId
  enabled := true
  createdAt := generated.now
  expiresAt := request.expiresAt
  lastUsedAt := none
  revokedAt := none
  consistent := rfl

def createKey (request : CreateKeyRequest) : AdminProcedure (ApiKeyView × String) := do
  if escalations request.roles context.permissions ≠ [] then
    .throw (.roleEscalation (escalations request.roles context.permissions))
  else
    let row := service.newKey context generated request
    change fun db => ((db.createApiKey row).mapError .database).map ((), ·)
    audit context generated "key.create" (some ("api_key:" ++ row.id)) (.obj
      [("name", .str row.name), ("roles", .arr (row.roles.map .str)),
        ("policyId", (row.policyId.map Json.str).getD .null), ("displayPrefix", .str row.displayPrefix)])
    pure (row.toView, secretOf request.environment generated.random)

def revokeKey (id : String) : AdminProcedure Bool := do
  let revoked ← change fun db => .ok (db.revokeApiKey (.tenant context.writeScope) id generated.now)
  if revoked then audit context generated "key.revoke" (some ("api_key:" ++ id)) (.obj [])
  pure revoked

end AdminService

inductive AdminOperation
  | listPolicies
  | getPolicy (id : String)
  | upsertPolicy (definition : PolicyDefinition)
  | deletePolicy (id : String)
  | reloadPolicies
  | listKeys
  | createKey (request : CreateKeyRequest)
  | revokeKey (id : String)
  | listSponsorships (query : SponsorshipQuery)
  | listAudit (query : AuditQuery)

inductive AdminResponse
  | policies (policies : List StoredPolicy)
  | policy (policy : StoredPolicy)
  | deleted (deleted : Bool)
  | reloaded (count generation : Nat)
  | keys (keys : List ApiKeyView)
  | created (key : ApiKeyView) (secret : String)
  | revoked (revoked : Bool)
  | sponsorships (sponsorships : List StoredSponsorship)
  | audit (entries : List AuditRow)

def AdminService.perform (service : AdminService) (context : ActorContext) (generated : Generated) :
    AdminOperation → AdminProcedure AdminResponse
  | .listPolicies => .read fun s => .ok (.policies (s.db.listPolicies context.scope))
  | .getPolicy id => do
    let policy ← getPolicy context.scope id
    pure (.policy policy)
  | .upsertPolicy definition => do
    let policy ← service.upsertPolicy context generated definition
    pure (.policy policy)
  | .deletePolicy id => do
    let deleted ← service.deletePolicy context generated id
    pure (.deleted deleted)
  | .reloadPolicies => do
    let (count, generation) ← service.reloadPolicies context generated
    pure (.reloaded count generation)
  | .listKeys => .read fun s => .ok (.keys ((s.db.listApiKeys context.scope).map ApiKeyRow.toView))
  | .createKey request => do
    let (key, secret) ← service.createKey context generated request
    pure (.created key secret)
  | .revokeKey id => do
    let revoked ← revokeKey context generated id
    pure (.revoked revoked)
  | .listSponsorships query => .read fun s => .ok (.sponsorships (s.db.listSponsorships context.scope query))
  -- The tenant is not among the columns.
  | .listAudit query => .read fun s =>
    .ok (.audit ((s.db.listAudit context.scope query).map fun row => { row with tenantId := none }))

theorem change_ok {α : Type} {f : Database → Except AdminError (α × Database)} {s s' : AdminState} {a : α}
    (h : (AdminService.change f).run s = (.ok a, s')) : ∃ db, f s.db = .ok (a, db) ∧ s' = { s with db := db } := by
  simp only [AdminService.change, Procedure.run, Procedure.write] at h
  cases hchange : f s.db with
  | error e =>
    rw [hchange] at h
    cases h
  | ok result =>
    rw [hchange] at h
    cases h
    exact ⟨_, rfl, rfl⟩

/-- A reload writes no rows, whether it succeeds or not. -/
theorem reload_db {service : AdminService} (s : AdminState) : (service.reload.run s).2.db = s.db := by
  unfold AdminService.reload Procedure.run Procedure.write
  cases hload : s.db.loadPolicies service.factory .platform with
  | error e => simp only [hload]
  | ok policies =>
    by_cases hdistinct :
        ((service.plans.withCeilings service.planIds policies).map fun p => keyOf p.tenantId p.id).Nodup
    · simp only [hload, dif_pos hdistinct]
    · simp only [hload, dif_neg hdistinct]

end Paymaster
