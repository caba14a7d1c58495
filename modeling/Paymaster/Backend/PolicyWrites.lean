import Paymaster.Backend.AdminService
import Paymaster.Lib.Run

/-!
# Policy writes

`upsert` and `delete` of the policy repository, statement by statement, in READ
COMMITTED. A statement sees what was committed when it began, and what its own
transaction has written. The row of the policy, once written, is locked until the
transaction ends; who wants to write it waits. A statement that has to wait is not
enabled. `load` is one statement.
-/

namespace Paymaster

/-! ## Loading -/

structure LoadedPolicy where
  tenantId : String
  id : String
  rules : List BuiltRule
deriving DecidableEq

def LoadedPolicy.toPolicy (p : LoadedPolicy) : Policy := ⟨p.tenantId, p.id, p.rules.map BuiltRule.toPolicyRule⟩

def Database.loadRules (db : Database) (factory : PolicyFactory) (scope : Scope) : Except FactoryError (List LoadedPolicy) :=
  ((db.policies.filter fun p => p.enabled ∧ scope.includes p.tenantId).insertionSort byKey).mapM fun p => do
    let rules ← (db.rulesOf p).mapM fun spec => factory.build p.id spec (some p.tenantId)
    .ok ⟨p.tenantId, p.id, rules⟩

/-! ## Transactions -/

/-- Where an `upsert` is after its validation. `row` is the policy's row as it was
written, `snapshot` what the deletion of the rules has seen, `added` the rules that
were inserted since, and `rest` those that are still to be, with their ordinals. -/
inductive UpsertPhase
  | begun
  | inserted (row : PolicyRow)
  | cleared (row : PolicyRow) (snapshot : Nat) (added : List PolicyRuleRow) (rest : List (PolicyRuleSpec × Nat))
  | ended

def UpsertPhase.row : UpsertPhase → Option PolicyRow
  | .inserted row | .cleared row _ _ _ => some row
  | _ => none

structure PolicyUpsert where
  owner : TenantId
  definition : PolicyDefinition
  phase : UpsertPhase

/-- What is committed, and the transactions. A rule is stored with the number of the
commit that it came with. `accepted` are the definitions that were committed. -/
structure PolicyWrites where
  tenants : List Tenant
  apiKeys : List ApiKeyRow
  policies : List PolicyRow
  rules : List (Nat × PolicyRuleRow)
  clock : Nat
  upserts : List PolicyUpsert
  accepted : List (TenantId × PolicyDefinition)

inductive PolicyWriteLabel
  | upsert (owner : TenantId) (definition : PolicyDefinition)
  | insertPolicy (i now : Nat)
  | deleteRules (i : Nat)
  | insertRule (i : Nat)
  | commit (i : Nat)
  /-- A statement fails, or the process does. -/
  | rollback (i : Nat)
  | delete (owner : TenantId) (id : String)
  /-- Tenants and keys are written by others. -/
  | others (tenants : List Tenant) (apiKeys : List ApiKeyRow)

def PolicyRow.HasKey (p : PolicyRow) (owner id : String) : Prop := p.tenantId = owner ∧ p.id = id

instance (p : PolicyRow) (owner id : String) : Decidable (p.HasKey owner id) := inferInstanceAs (Decidable (_ ∧ _))

def PolicyRuleRow.HasKey (r : PolicyRuleRow) (owner id : String) : Prop := r.tenantId = owner ∧ r.policyId = id

instance (r : PolicyRuleRow) (owner id : String) : Decidable (r.HasKey owner id) := inferInstanceAs (Decidable (_ ∧ _))

namespace PolicyWrites

variable (s : PolicyWrites)

def start (tenants : List Tenant) (apiKeys : List ApiKeyRow) : PolicyWrites := ⟨tenants, apiKeys, [], [], 0, [], []⟩

def database : Database := ⟨s.tenants, [], s.apiKeys, s.policies, s.rules.map Prod.snd, [], []⟩

def setPhase (i : Nat) (u : PolicyUpsert) (phase : UpsertPhase) : PolicyWrites :=
  { s with upserts := s.upserts.set i { u with phase := phase } }

def locked (owner id : String) : Bool := s.upserts.any fun u => u.phase.row.any fun row => row.HasKey owner id

/-- `INSERT INTO policies … ON CONFLICT (tenant_id, id) DO UPDATE`: the row that it leaves. -/
def upsertedRow (u : PolicyUpsert) (now : Nat) : PolicyRow :=
  match s.policies.find? fun p => p.HasKey u.owner.value u.definition.id with
  | some p =>
    { p with
      name := u.definition.name
      description := u.definition.description
      enabled := u.definition.enabled
      updatedAt := now }
  | none => ⟨u.owner.value, u.definition.id, u.definition.name, u.definition.description, u.definition.enabled, now, now⟩

def insertPolicy (i : Nat) (u : PolicyUpsert) (now : Nat) : Option PolicyWrites :=
  if policyIdPattern u.definition.id = false ∨ (s.database.tenant? u.owner.value).isNone then some (s.setPhase i u .ended)
  else if s.locked u.owner.value u.definition.id then none
  else some (s.setPhase i u (.inserted (s.upsertedRow u now)))

def seen (u : PolicyUpsert) (snapshot : Nat) (r : Nat × PolicyRuleRow) : Bool :=
  r.2.HasKey u.owner.value u.definition.id ∧ r.1 ≤ snapshot

def insertRule (i : Nat) (u : PolicyUpsert) (row : PolicyRow) (snapshot : Nat) (added : List PolicyRuleRow)
    (rule : PolicyRuleSpec) (ordinal : Nat) (rest : List (PolicyRuleSpec × Nat)) : PolicyWrites :=
  if s.rules.any fun r => ¬ seen u snapshot r ∧ r.2.HasKey u.owner.value u.definition.id ∧ r.2.ordinal = ordinal then
    s.setPhase i u .ended
  else
    s.setPhase i u (.cleared row snapshot
      (added ++ [⟨u.owner.value, u.definition.id, ordinal, rule.ruleType, rule.configOrEmpty⟩]) rest)

def commit (i : Nat) (u : PolicyUpsert) (row : PolicyRow) (snapshot : Nat) (added : List PolicyRuleRow) : PolicyWrites :=
  { s with
    policies :=
      if s.policies.any fun p => p.HasKey u.owner.value u.definition.id then
        s.policies.map fun p => if p.HasKey u.owner.value u.definition.id then row else p
      else s.policies ++ [row]
    rules := (s.rules.filter fun r => ¬ seen u snapshot r) ++ added.map fun r => (s.clock + 1, r)
    clock := s.clock + 1
    upserts := s.upserts.set i { u with phase := .ended }
    accepted := s.accepted ++ [(u.owner, u.definition)] }

/-- One statement, with the rules that go along. -/
def delete (owner id : String) : Option PolicyWrites :=
  if s.policies.any fun p => p.HasKey owner id then
    if s.locked owner id then none
    else if s.apiKeys.any fun k => k.tenantId = owner ∧ k.policyId = some id then some s
    else some { s with
      policies := s.policies.filter fun p => ¬ p.HasKey owner id
      rules := s.rules.filter fun r => ¬ r.2.HasKey owner id }
  else some s

def step (factory : PolicyFactory) (s : PolicyWrites) : PolicyWriteLabel → Option PolicyWrites
  | .upsert owner definition =>
    -- A rule that does not build is an error before anything is written.
    match definition.rules.mapM fun rule => factory.build definition.id rule none with
    | .error _ => some s
    | .ok _ => some { s with upserts := s.upserts ++ [⟨owner, definition, .begun⟩] }
  | .insertPolicy i now =>
    match s.upserts[i]? with
    | some u =>
      match u.phase with
      | .begun => s.insertPolicy i u now
      | _ => none
    | none => none
  | .deleteRules i =>
    match s.upserts[i]? with
    | some u =>
      match u.phase with
      | .inserted row => some (s.setPhase i u (.cleared row s.clock [] u.definition.rules.zipIdx))
      | _ => none
    | none => none
  | .insertRule i =>
    match s.upserts[i]? with
    | some u =>
      match u.phase with
      | .cleared row snapshot added ((rule, ordinal) :: rest) => some (s.insertRule i u row snapshot added rule ordinal rest)
      | _ => none
    | none => none
  | .commit i =>
    match s.upserts[i]? with
    | some u =>
      match u.phase with
      | .cleared row snapshot added [] => some (s.commit i u row snapshot added)
      | _ => none
    | none => none
  | .rollback i =>
    match s.upserts[i]? with
    | some u => some (s.setPhase i u .ended)
    | none => none
  | .delete owner id => s.delete owner.value id
  | .others tenants apiKeys => some { s with tenants := tenants, apiKeys := apiKeys }

end PolicyWrites

/-! ## What a step can do -/

inductive PolicyWriteStep (factory : PolicyFactory) (s : PolicyWrites) : PolicyWrites → Prop
  | same : PolicyWriteStep factory s s
  | upsert (owner : TenantId) {definition : PolicyDefinition} {built : List BuiltRule} :
    (definition.rules.mapM fun rule => factory.build definition.id rule none) = .ok built →
    PolicyWriteStep factory s { s with upserts := s.upserts ++ [⟨owner, definition, .begun⟩] }
  | insertPolicy {i : Nat} {u : PolicyUpsert} (now : Nat) :
    s.upserts[i]? = some u → u.phase = .begun → s.locked u.owner.value u.definition.id = false →
    PolicyWriteStep factory s (s.setPhase i u (.inserted (s.upsertedRow u now)))
  | deleteRules {i : Nat} {u : PolicyUpsert} {row : PolicyRow} :
    s.upserts[i]? = some u → u.phase = .inserted row →
    PolicyWriteStep factory s (s.setPhase i u (.cleared row s.clock [] u.definition.rules.zipIdx))
  | insertRule {i : Nat} {u : PolicyUpsert} {row : PolicyRow} {snapshot ordinal : Nat} {added : List PolicyRuleRow}
    {rule : PolicyRuleSpec} {rest : List (PolicyRuleSpec × Nat)} :
    s.upserts[i]? = some u → u.phase = .cleared row snapshot added ((rule, ordinal) :: rest) →
    PolicyWriteStep factory s (s.setPhase i u (.cleared row snapshot
      (added ++ [⟨u.owner.value, u.definition.id, ordinal, rule.ruleType, rule.configOrEmpty⟩]) rest))
  | commit {i : Nat} {u : PolicyUpsert} {row : PolicyRow} {snapshot : Nat} {added : List PolicyRuleRow} :
    s.upserts[i]? = some u → u.phase = .cleared row snapshot added [] →
    PolicyWriteStep factory s (s.commit i u row snapshot added)
  | ended {i : Nat} {u : PolicyUpsert} : s.upserts[i]? = some u → PolicyWriteStep factory s (s.setPhase i u .ended)
  | delete {owner id : String} : s.locked owner id = false →
    PolicyWriteStep factory s { s with
      policies := s.policies.filter fun p => ¬ p.HasKey owner id
      rules := s.rules.filter fun r => ¬ r.2.HasKey owner id }
  | others (tenants : List Tenant) (apiKeys : List ApiKeyRow) :
    PolicyWriteStep factory s { s with tenants := tenants, apiKeys := apiKeys }

theorem policyWriteStep_cases {factory : PolicyFactory} {s s' : PolicyWrites} {l : PolicyWriteLabel}
    (h : PolicyWrites.step factory s l = some s') : PolicyWriteStep factory s s' := by
  cases l with
  | upsert owner definition =>
    simp only [PolicyWrites.step] at h
    split at h
    · cases h
      exact .same
    · rename_i built hbuilt
      cases h
      exact .upsert owner hbuilt
  | insertPolicy i now =>
    simp only [PolicyWrites.step] at h
    split at h
    · rename_i u hi
      split at h
      · rename_i hphase
        unfold PolicyWrites.insertPolicy at h
        split at h
        · cases h
          exact .ended hi
        · split at h
          · cases h
          · rename_i hfree
            cases h
            exact .insertPolicy now hi hphase (by simpa using hfree)
      · cases h
    · cases h
  | deleteRules i =>
    simp only [PolicyWrites.step] at h
    split at h
    · rename_i u hi
      split at h
      · rename_i row hphase
        cases h
        exact .deleteRules hi hphase
      · cases h
    · cases h
  | insertRule i =>
    simp only [PolicyWrites.step] at h
    split at h
    · rename_i u hi
      split at h
      · rename_i row snapshot added rule ordinal rest hphase
        cases h
        unfold PolicyWrites.insertRule
        split
        · exact .ended hi
        · exact .insertRule hi hphase
      · cases h
    · cases h
  | commit i =>
    simp only [PolicyWrites.step] at h
    split at h
    · rename_i u hi
      split at h
      · rename_i row snapshot added hphase
        cases h
        exact .commit hi hphase
      · cases h
    · cases h
  | rollback i =>
    simp only [PolicyWrites.step] at h
    split at h
    · rename_i u hi
      cases h
      exact .ended hi
    · cases h
  | delete owner id =>
    simp only [PolicyWrites.step, PolicyWrites.delete] at h
    split at h
    · split at h
      · cases h
      · rename_i hfree
        split at h
        · cases h
          exact .same
        · cases h
          exact .delete (by simpa using hfree)
    · cases h
      exact .same
  | others tenants apiKeys =>
    cases h
    exact .others tenants apiKeys

end Paymaster
