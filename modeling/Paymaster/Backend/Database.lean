import Paymaster.Backend.PolicyFactory
import Paymaster.Contracts.Types

/-!
# Tables and scopes

The rows of the database that authentication and administration use, and what
the repositories of tenants and of keys do to them. A statement that violates a
constraint leaves the database as it was.
-/

namespace Paymaster

/-! ## Rows -/

inductive TenantStatus
  | active
  | suspended
deriving DecidableEq

inductive TenantRole
  | owner
  | admin
  | member
deriving DecidableEq

structure Tenant where
  id : String
  name : String
  status : TenantStatus
  createdAt : Nat
deriving DecidableEq

structure TenantMember where
  tenantId : String
  subject : String
  role : TenantRole
deriving DecidableEq

/-- Of a row of `api_keys`. Roles are text there. -/
structure ApiKeyRow where
  tenantId : String
  id : String
  name : String
  keyHash : String
  displayPrefix : String
  roles : List String
  policyId : Option String
  enabled : Bool
  createdAt : Nat
  expiresAt : Option Nat
  lastUsedAt : Option Nat
  revokedAt : Option Nat
  /-- `api_keys_revoked_consistency`. -/
  consistent : revokedAt.isNone = enabled
deriving DecidableEq

def ApiKeyRow.revoked (row : ApiKeyRow) (now : Nat) : ApiKeyRow :=
  { row with enabled := false, revokedAt := some now, consistent := rfl }

structure PolicyRow where
  tenantId : String
  id : String
  name : String
  description : Option String
  enabled : Bool
  createdAt : Nat
  updatedAt : Nat
deriving DecidableEq

structure PolicyRuleRow where
  tenantId : String
  policyId : String
  ordinal : Nat
  ruleType : String
  config : Json

structure StoredSponsorship where
  id : Nat
  tenantId : String
  chainId : Nat
  sender : Address
  nonce : Uint256
  paymaster : Address
  entryPoint : Address
  apiKeyId : String
  policyId : String
  signer : Address
  maxCostWei : Nat
  validAfter : Nat
  validUntil : Nat
  createdAt : Nat
deriving DecidableEq

/-- No tenant is the platform's own administration. -/
structure AuditRow where
  id : Nat
  tenantId : Option String
  actor : String
  action : String
  subject : Option String
  detail : Json
  clientIp : Option String
  createdAt : Nat

structure Database where
  tenants : List Tenant
  members : List TenantMember
  apiKeys : List ApiKeyRow
  policies : List PolicyRow
  policyRules : List PolicyRuleRow
  sponsorships : List StoredSponsorship
  auditLogs : List AuditRow

inductive DatabaseError
  | foreignKeyViolation
  | uniqueViolation
  | checkViolation
deriving DecidableEq

/-! ## Scopes -/

inductive Scope
  | tenant (tenantId : String)
  | platform
deriving DecidableEq

def Scope.includes : Scope → String → Bool
  | .tenant tenantId, owner => owner = tenantId
  | .platform, _ => true

namespace Database

variable (db : Database)

/-! ## Tenants -/

def tenant? (id : String) : Option Tenant := db.tenants.find? fun t => t.id = id

def membership (subject id : String) : Option (Tenant × TenantRole) := do
  let row ← db.members.find? fun m => m.subject = subject ∧ m.tenantId = id
  let tenant ← db.tenant? id
  some (tenant, row.role)

def membershipsFor (subject : String) : List (Tenant × TenantRole) :=
  (db.members.filterMap fun m =>
    if m.subject = subject then (db.tenant? m.tenantId).map fun tenant => (tenant, m.role) else none).insertionSort
      fun a b => a.1.createdAt ≤ b.1.createdAt

def createWithOwner (id name subject : String) (now : Nat) : Except DatabaseError Database :=
  if tenantIdPattern id = false then .error .checkViolation
  else if (db.tenant? id).isSome then .error .uniqueViolation
  else .ok { db with
    tenants := db.tenants ++ [⟨id, name, .active, now⟩]
    members := db.members ++ [⟨id, subject, .owner⟩] }

def addMember (id subject : String) (role : TenantRole) : Except DatabaseError Database :=
  if (db.tenant? id).isNone then .error .foreignKeyViolation
  else if db.members.any fun m => m.tenantId = id ∧ m.subject = subject then
    .ok { db with members := db.members.map fun m =>
      if m.tenantId = id ∧ m.subject = subject then { m with role := role } else m }
  else .ok { db with members := db.members ++ [⟨id, subject, role⟩] }

def setStatus (id : String) (status : TenantStatus) : Database :=
  { db with tenants := db.tenants.map fun t => if t.id = id then { t with status := status } else t }

def suspended (id : String) : Bool :=
  match db.tenant? id with
  | some t => t.status = .suspended
  | none => false

/-! ## Keys -/

def findByHash (hash : String) : Option ApiKeyRow := db.apiKeys.find? fun row => row.keyHash = hash

/-- A key may only be pinned to a policy of its own tenant. The `CHECK` on its roles is unknown, and passes, for none. -/
def createApiKey (row : ApiKeyRow) : Except DatabaseError Database :=
  if db.apiKeys.any fun k => k.id = row.id ∨ k.keyHash = row.keyHash then .error .uniqueViolation
  else if (db.tenant? row.tenantId).isNone then .error .foreignKeyViolation
  else if ∃ policyId ∈ row.policyId, ∀ p ∈ db.policies, ¬ (p.tenantId = row.tenantId ∧ p.id = policyId) then
    .error .foreignKeyViolation
  else .ok { db with apiKeys := db.apiKeys ++ [row] }

def revocable (scope : Scope) (id : String) (row : ApiKeyRow) : Bool :=
  row.id = id && row.enabled && scope.includes row.tenantId

def revokeApiKey (scope : Scope) (id : String) (now : Nat) : Bool × Database :=
  (db.apiKeys.any (revocable scope id),
    { db with apiKeys := db.apiKeys.map fun row =>
      if revocable scope id row then row.revoked now else row })

def listApiKeys (scope : Scope) : List ApiKeyRow :=
  (db.apiKeys.filter fun row => scope.includes row.tenantId).insertionSort fun a b => b.createdAt ≤ a.createdAt

/-! ## What is stored -/

variable {db} {db' : Database}

theorem createApiKey_ok {row : ApiKeyRow} (h : db.createApiKey row = .ok db') :
    db' = { db with apiKeys := db.apiKeys ++ [row] } ∧ (∀ k ∈ db.apiKeys, k.id ≠ row.id ∧ k.keyHash ≠ row.keyHash) ∧
      (db.tenant? row.tenantId).isSome = true := by
  unfold createApiKey at h
  split at h
  · cases h
  · rename_i hnew
    split at h
    · cases h
    · rename_i htenant
      split at h
      · cases h
      · cases h
        refine ⟨rfl, ?_, Option.isSome_iff_ne_none.mpr (by simpa using htenant)⟩
        intro k hk
        refine not_or.mp fun hclash => hnew (List.any_eq_true.mpr ⟨k, hk, ?_⟩)
        simpa using hclash

theorem findByHash_createApiKey {row : ApiKeyRow} (h : db.createApiKey row = .ok db') :
    db'.findByHash row.keyHash = some row := by
  obtain ⟨rfl, hnew, -⟩ := createApiKey_ok h
  unfold findByHash
  have hnone : db.apiKeys.find? (fun k => k.keyHash = row.keyHash) = none :=
    List.find?_eq_none.mpr fun k hk => by simpa using (hnew k hk).2
  rw [List.find?_append, hnone, Option.none_or]
  simp

/-! ## Keys over time -/

/-- A key that was there is there, as it was or revoked at the time. -/
def KeysKept (time : Nat) (db db' : Database) : Prop :=
  ∀ hash row, db.findByHash hash = some row →
    ∃ row', db'.findByHash hash = some row' ∧ (row' = row ∨ row.enabled = true ∧ row' = row.revoked time)

variable {time : Nat}

theorem keysKept_of_eq (h : db'.apiKeys = db.apiKeys) : KeysKept time db db' := by
  intro hash row hrow
  unfold findByHash at hrow ⊢
  rw [h]
  exact ⟨row, hrow, .inl rfl⟩

theorem KeysKept.trans {db'' : Database} (h : KeysKept time db db') (h' : KeysKept time db' db'') :
    KeysKept time db db'' := by
  intro hash row hrow
  obtain ⟨row', hrow', rfl | ⟨henabled, rfl⟩⟩ := h hash row hrow
  · exact h' hash _ hrow'
  · obtain ⟨row'', hrow'', rfl | ⟨hdisabled, -⟩⟩ := h' hash _ hrow'
    · exact ⟨_, hrow'', .inr ⟨henabled, rfl⟩⟩
    · cases hdisabled

theorem keysKept_createApiKey {row : ApiKeyRow} (h : db.createApiKey row = .ok db') : KeysKept time db db' := by
  obtain ⟨rfl, -, -⟩ := createApiKey_ok h
  intro hash old hold
  unfold findByHash at hold ⊢
  rw [List.find?_append, hold, Option.some_or]
  exact ⟨old, rfl, .inl rfl⟩

theorem keysKept_revokeApiKey (scope : Scope) (id : String) : KeysKept time db (db.revokeApiKey scope id time).2 := by
  intro hash row hrow
  unfold findByHash at hrow ⊢
  have hhash : (fun row : ApiKeyRow => decide (row.keyHash = hash)) ∘ (fun row =>
      if revocable scope id row then row.revoked time else row) = fun row => decide (row.keyHash = hash) := by
    funext row
    simp only [Function.comp]
    split <;> rfl
  unfold revokeApiKey
  rw [List.find?_map, hhash, hrow, Option.map_some]
  by_cases hrevocable : revocable scope id row = true
  · refine ⟨_, rfl, .inr ⟨?_, if_pos hrevocable⟩⟩
    simp only [revocable, Bool.and_eq_true] at hrevocable
    exact hrevocable.1.2
  · exact ⟨_, rfl, .inl (if_neg hrevocable)⟩

end Database

end Paymaster
