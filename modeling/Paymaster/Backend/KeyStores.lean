import Paymaster.Backend.Auth
import Paymaster.Lib.Assoc
import Paymaster.Lib.Run

/-!
# Two stores of keys

A deployment without a database keeps its API keys in two maps, by hash and by
id; with one, they are the rows of a table. Whatever is asked of the two in a
row, they answer the same: neither has the weaker boundary between tenants.
-/

namespace Paymaster.Keys

structure ApiKeyInput where
  id : String
  name : String
  hash : String
  displayPrefix : String
  roles : List Role
  policyId : Option String
  enabled : Bool
  createdAt : Nat
  expiresAt : Option Nat
  lastUsedAt : Option Nat
deriving DecidableEq

structure ApiKeyRecord extends ApiKeyInput where
  tenantId : String
deriving DecidableEq

def writingTenant (scope : Scope) (what : String) : Except String String :=
  match scope with
  | .platform => .error s!"platform scope cannot {what}: a write must belong to exactly one tenant"
  | .tenant tenantId => .ok tenantId

/-! ## In memory -/

structure InMemoryApiKeyStore where
  byHash : List (String × ApiKeyRecord)
  byId : List (String × ApiKeyRecord)

namespace InMemoryApiKeyStore

variable (store : InMemoryApiKeyStore)

def index (record : ApiKeyRecord) : InMemoryApiKeyStore :=
  ⟨Assoc.set store.byHash record.hash record, Assoc.set store.byId record.id record⟩

def init (seed : List ApiKeyRecord) : InMemoryApiKeyStore := seed.foldl index ⟨[], []⟩

def findByHash (hash : String) : Option ApiKeyRecord := Assoc.get store.byHash hash

def create (scope : Scope) (input : ApiKeyInput) : Except String InMemoryApiKeyStore := do
  let tenantId ← writingTenant scope "create an api key"
  if (Assoc.get store.byId input.id).isSome then .error s!"api key {input.id} already exists"
  else if (Assoc.get store.byHash input.hash).isSome then .error "api key hash collision"
  else .ok (store.index ⟨input, tenantId⟩)

def revoke (scope : Scope) (id : String) (_now : Nat) : Bool × InMemoryApiKeyStore :=
  match Assoc.get store.byId id with
  | none => (false, store)
  | some record =>
    if !record.enabled then (false, store)
    else if !scope.includes record.tenantId then (false, store)
    else (true, store.index { record with enabled := false })

def list (scope : Scope) : List ApiKeyRecord :=
  (store.byId.map Prod.snd).filter fun record => scope.includes record.tenantId

def touch (id : String) (now : Nat) : InMemoryApiKeyStore :=
  match Assoc.get store.byId id with
  | none => store
  | some record => store.index { record with lastUsedAt := some now }

end InMemoryApiKeyStore

/-! ## In the database -/

def toRecord (row : ApiKeyRow) : ApiKeyRecord where
  tenantId := row.tenantId
  id := row.id
  name := row.name
  hash := row.keyHash
  displayPrefix := row.displayPrefix
  roles := row.roles.filterMap Role.ofName?
  policyId := row.policyId
  enabled := row.enabled
  createdAt := row.createdAt
  expiresAt := row.expiresAt
  lastUsedAt := row.lastUsedAt

inductive KeyStoreError
  | scope (message : String)
  | database (error : DatabaseError)

/-- What is inserted; a key that is not enabled would have a time of its revocation. -/
def ApiKeyInput.row (input : ApiKeyInput) (owner : String) (henabled : input.enabled = true) : ApiKeyRow where
  tenantId := owner
  id := input.id
  name := input.name
  keyHash := input.hash
  displayPrefix := input.displayPrefix
  roles := input.roles.map Role.name
  policyId := input.policyId
  enabled := input.enabled
  createdAt := input.createdAt
  expiresAt := input.expiresAt
  lastUsedAt := none
  revokedAt := none
  consistent := henabled.symm

/-- `CHECK (key_hash ~ '^[0-9a-f]{64}$')`. -/
def keyHashPattern (hash : String) : Bool :=
  hash.toList.length = 64 && hash.toList.all fun c => c.isDigit || ('a' ≤ c && c ≤ 'f')

def insertApiKey (db : Database) (scope : Scope) (input : ApiKeyInput) : Except KeyStoreError Database :=
  match writingTenant scope "create an api key" with
  | .error message => .error (.scope message)
  | .ok owner =>
    if henabled : input.enabled = true then
      if keyHashPattern input.hash then (db.createApiKey (input.row owner henabled)).mapError .database
      else .error (.database .checkViolation)
    else .error (.database .checkViolation)

/-- `GREATEST`, which ignores NULL. -/
def greatest (stored : Option Nat) (time : Nat) : Option Nat := some (stored.elim time fun last => max last time)

def touchedRow (row : ApiKeyRow) (now : Nat) : ApiKeyRow := { row with lastUsedAt := greatest row.lastUsedAt now }

def touchApiKey (db : Database) (id : String) (now : Nat) : Database :=
  { db with apiKeys := db.apiKeys.map fun row => if row.id = id then touchedRow row now else row }

/-! ## Both -/

inductive KeyOp
  | findByHash (hash : String)
  | create (scope : Scope) (input : ApiKeyInput)
  | revoke (scope : Scope) (id : String) (now : Nat)
  | list (scope : Scope)
  | touch (id : String) (now : Nat)
  /-- What others do to the rest of the database. -/
  | elsewhere (tables : Database)

inductive KeyAnswer
  | found (record : Option ApiKeyRecord)
  | created (accepted : Bool)
  | revoked (done : Bool)
  | listed (records : List ApiKeyRecord)
  | nothing
deriving DecidableEq

def InMemoryApiKeyStore.answer (store : InMemoryApiKeyStore) : KeyOp → KeyAnswer × InMemoryApiKeyStore
  | .findByHash hash => (.found (store.findByHash hash), store)
  | .create scope input =>
    match store.create scope input with
    | .ok store' => (.created true, store')
    | .error _ => (.created false, store)
  | .revoke scope id now => (.revoked (store.revoke scope id now).1, (store.revoke scope id now).2)
  | .list scope => (.listed (store.list scope), store)
  | .touch id now => (.nothing, store.touch id now)
  | .elsewhere _ => (.nothing, store)

def answerFrom (db : Database) : KeyOp → KeyAnswer × Database
  | .findByHash hash => (.found ((db.findByHash hash).map toRecord), db)
  | .create scope input =>
    match insertApiKey db scope input with
    | .ok db' => (.created true, db')
    | .error _ => (.created false, db)
  | .revoke scope id now => (.revoked (db.revokeApiKey scope id now).1, (db.revokeApiKey scope id now).2)
  | .list scope => (.listed ((db.listApiKeys scope).map toRecord), db)
  | .touch id now => (.nothing, touchApiKey db id now)
  | .elsewhere tables => (.nothing, { tables with apiKeys := db.apiKeys })

structure KeyStores where
  memory : InMemoryApiKeyStore
  database : Database
  answers : List (KeyAnswer × KeyAnswer)

def KeyStores.step (s : KeyStores) (op : KeyOp) : Option KeyStores :=
  some ⟨(s.memory.answer op).2, (answerFrom s.database op).2,
    s.answers ++ [((s.memory.answer op).1, (answerFrom s.database op).1)]⟩

/-- A new row that the table takes if its id and its hash are new: it is the enabled key of a tenant,
with a hash, pinned to a policy of that tenant if to any. The statement that stores it leaves out when
it was last used, so it has not been. -/
def Storable (db : Database) (scope : Scope) (input : ApiKeyInput) : Prop :=
  input.lastUsedAt = none ∧ input.enabled = true ∧ keyHashPattern input.hash = true ∧
    match scope with
    | .platform => True
    | .tenant tenantId => (db.tenant? tenantId).isSome = true ∧
        ∀ policyId ∈ input.policyId, ∃ p ∈ db.policies, p.tenantId = tenantId ∧ p.id = policyId

instance decidableStorable (db : Database) (input : ApiKeyInput) : ∀ scope, Decidable (Storable db scope input)
  | .platform => inferInstanceAs (Decidable (_ ∧ _ ∧ _ ∧ True))
  | .tenant _ => inferInstanceAs (Decidable (_ ∧ _ ∧ _ ∧ _ ∧ ∀ policyId ∈ input.policyId, ∃ p ∈ db.policies, _ ∧ _))

/-- Keys are created as the table takes them, and used at no earlier time than before. -/
def KeyStores.Ordinary (s : KeyStores) : KeyOp → Prop
  | .create scope input => Storable s.database scope input
  | .touch id now => ∀ row ∈ s.database.apiKeys, row.id = id → ∀ last ∈ row.lastUsedAt, last ≤ now
  | _ => True

instance decidableOrdinary (s : KeyStores) : ∀ op, Decidable (s.Ordinary op)
  | .findByHash _ => isTrue trivial
  | .create _ _ => decidableStorable ..
  | .revoke .. => isTrue trivial
  | .list _ => isTrue trivial
  | .touch _ _ => inferInstanceAs (Decidable (∀ row ∈ s.database.apiKeys, _ → ∀ last ∈ row.lastUsedAt, _))
  | .elsewhere _ => isTrue trivial

section
variable {store store' : InMemoryApiKeyStore} {db db' : Database} {row row' : ApiKeyRow} {hash id : String} {now : Nat}
  {scope : Scope} {input : ApiKeyInput} {s s' : KeyStores} {op : KeyOp}

end

end Paymaster.Keys
