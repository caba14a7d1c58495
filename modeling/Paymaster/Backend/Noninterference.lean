import Paymaster.Backend.AdminService
import Paymaster.Lib.Traverse

/-!
# Tenants do not interfere

What an operation answers a tenant depends on the tenant's own rows, and it
writes no others. Every read of a tenant's scope is a read of the rows of the
tenant, and every write commutes with leaving out the rows of the others. The
reload is the exception: it counts the policies of all.
-/

namespace Paymaster

/-! ## The rows of a tenant -/

namespace Database

variable (db : Database)

def rowsOf (t : String) : Database where
  tenants := db.tenants.filter fun row => row.id = t
  members := db.members.filter fun row => row.tenantId = t
  apiKeys := db.apiKeys.filter fun row => row.tenantId = t
  policies := db.policies.filter fun row => row.tenantId = t
  policyRules := db.policyRules.filter fun row => row.tenantId = t
  sponsorships := db.sponsorships.filter fun row => row.tenantId = t
  auditLogs := db.auditLogs.filter fun row => row.tenantId = some t

variable {db} {t t' : String}

@[simp] theorem tenant?_rowsOf : (db.rowsOf t).tenant? t = db.tenant? t := by
  unfold tenant? rowsOf
  rw [List.find?_filter]
  congr 1
  funext row
  simp

theorem rulesOf_rowsOf {policy : PolicyRow} (h : policy.tenantId = t) : (db.rowsOf t).rulesOf policy = db.rulesOf policy := by
  unfold rulesOf rowsOf
  rw [List.filter_filter]
  congr 2
  refine List.filter_congr fun row _ => ?_
  subst h
  simp only [Bool.decide_and, Bool.and_eq_left_iff_imp, Bool.and_eq_true, decide_eq_true_eq]
  exact fun hrow => by simp [hrow.1]

/-! ## Reads -/

theorem listPolicies_rowsOf : (db.rowsOf t).listPolicies (.tenant t) = db.listPolicies (.tenant t) := by
  have hfilter : ((db.rowsOf t).policies.filter fun p => Scope.includes (.tenant t) p.tenantId) =
      db.policies.filter fun p => Scope.includes (.tenant t) p.tenantId := by
    unfold rowsOf Scope.includes
    rw [List.filter_filter]
    exact List.filter_congr fun row _ => Bool.and_self _
  unfold listPolicies
  rw [hfilter]
  refine List.map_congr_left fun p hp => ?_
  have howner : p.tenantId = t := by
    have hmem := List.mem_filter.mp ((List.mem_insertionSort _).mp hp)
    simpa [Scope.includes] using hmem.2
  unfold toStored
  rw [rulesOf_rowsOf howner]

theorem getPolicy_rowsOf (id : String) : (db.rowsOf t).getPolicy (.tenant t) id = db.getPolicy (.tenant t) id := by
  unfold getPolicy
  rw [listPolicies_rowsOf]

theorem listApiKeys_rowsOf : (db.rowsOf t).listApiKeys (.tenant t) = db.listApiKeys (.tenant t) := by
  unfold listApiKeys rowsOf Scope.includes
  rw [List.filter_filter]
  congr 1
  exact List.filter_congr fun row _ => Bool.and_self _

theorem listSponsorships_rowsOf (query : SponsorshipQuery) :
    (db.rowsOf t).listSponsorships (.tenant t) query = db.listSponsorships (.tenant t) query := by
  unfold listSponsorships rowsOf Scope.includes
  rw [List.filter_filter]
  congr 2
  refine List.filter_congr fun row _ => ?_
  by_cases h : row.tenantId = t <;> simp [h]

theorem listAudit_rowsOf (query : AuditQuery) : (db.rowsOf t).listAudit (.tenant t) query = db.listAudit (.tenant t) query := by
  unfold listAudit rowsOf auditIncludes
  rw [List.filter_filter]
  congr 2
  refine List.filter_congr fun row _ => ?_
  by_cases h : row.tenantId = some t <;> simp [h]

/-! ## Writes -/

theorem filter_append_own {α : Type} {p : α → Bool} {rows : List α} {row : α} (h : p row = true) :
    (rows ++ [row]).filter p = rows.filter p ++ [row] := by
  rw [List.filter_append, List.filter_cons, if_pos h, List.filter_nil]

theorem filter_append_other {α : Type} {p : α → Bool} {rows : List α} {row : α} (h : p row = false) :
    (rows ++ [row]).filter p = rows.filter p := by
  rw [List.filter_append, List.filter_cons, if_neg (by simp [h]), List.filter_nil, List.append_nil]

structure Confined {ε α : Type} (t : String) (f : Database → Except ε (α × Database)) : Prop where
  commutes : ∀ db, f (db.rowsOf t) = (f db).map fun (a, db') => (a, db'.rowsOf t)
  frame : ∀ {db a db'}, f db = .ok (a, db') → ∀ t', t' ≠ t → db'.rowsOf t' = db.rowsOf t'

theorem recordAudit_confined {row : AuditRow} (hrow : row.tenantId = some t) :
    Confined t fun db => ((db.recordAudit row).mapError AdminError.database).map ((), ·) := by
  constructor
  · intro db
    unfold recordAudit
    simp only [hrow, Option.mem_def, Option.some.injEq, exists_eq_left', tenant?_rowsOf]
    split
    · rfl
    · simp only [Except.mapError, Except.map]
      unfold rowsOf
      rw [filter_append_own (by simp [hrow])]
  · intro db a db' h t' ht'
    unfold recordAudit at h
    split at h
    · cases h
    · cases h
      unfold rowsOf
      rw [filter_append_other (by simpa [hrow] using fun h => ht' h.symm)]

theorem any_rowsOf_policies {q : PolicyRow → Bool} (hq : ∀ p, q p = true → p.tenantId = t) :
    (db.rowsOf t).policies.any q = db.policies.any q := by
  unfold rowsOf
  rw [List.any_filter]
  congr 1
  funext p
  by_cases hp : q p = true
  · simp [hp, hq p hp]
  · simp [hp]

theorem upsertRow_rowsOf (definition : PolicyDefinition) (now : Nat) :
    (db.rowsOf t).upsertRow t definition now = (db.upsertRow t definition now).filter fun p => p.tenantId = t := by
  have hany : (db.rowsOf t).policies.any (fun p => p.tenantId = t ∧ p.id = definition.id) =
      db.policies.any fun p => p.tenantId = t ∧ p.id = definition.id :=
    any_rowsOf_policies fun p hp => (of_decide_eq_true hp).1
  unfold upsertRow
  rw [hany]
  split
  · rw [List.filter_map]
    unfold rowsOf
    congr 1
    refine List.filter_congr fun p _ => ?_
    simp only [Function.comp]
    split <;> rfl
  · rw [filter_append_own (by simp)]
    rfl

theorem upsertRow_other (definition : PolicyDefinition) (now : Nat) (h : t' ≠ t) :
    (db.upsertRow t definition now).filter (fun p => p.tenantId = t') = db.policies.filter fun p => p.tenantId = t' := by
  unfold upsertRow
  split
  · rw [List.filter_map]
    have hpreserved : ((fun p : PolicyRow => decide (p.tenantId = t')) ∘ fun p =>
        if p.tenantId = t ∧ p.id = definition.id then
          { p with name := definition.name, description := definition.description, enabled := definition.enabled,
                   updatedAt := now }
        else p) = fun p => decide (p.tenantId = t') := by
      funext p
      simp only [Function.comp]
      split <;> rfl
    rw [hpreserved]
    refine (List.map_congr_left fun p hp => ?_).trans (List.map_id _)
    have howner : p.tenantId = t' := by simpa using (List.mem_filter.mp hp).2
    rw [if_neg fun hupsert => h (howner.symm.trans hupsert.1)]
    rfl
  · exact filter_append_other (by simpa using fun h' => h h'.symm)

theorem ruleRows_owner {definition : PolicyDefinition} {row : PolicyRuleRow} (h : row ∈ ruleRows t definition) :
    row.tenantId = t := by
  obtain ⟨⟨rule, ordinal⟩, -, rfl⟩ := List.mem_map.mp h
  rfl

theorem filter_ruleRows (definition : PolicyDefinition) :
    ((ruleRows t definition).filter fun row => row.tenantId = t) = ruleRows t definition :=
  List.filter_eq_self.mpr fun row hrow => by simp [ruleRows_owner hrow]

theorem filter_ruleRows_other (definition : PolicyDefinition) (h : t' ≠ t) :
    ((ruleRows t definition).filter fun row => row.tenantId = t') = [] :=
  List.filter_eq_nil_iff.mpr fun row hrow => by simpa [ruleRows_owner hrow] using fun h' => h h'.symm

theorem filter_filter_other {α : Type} {rows : List α} {p q : α → Bool} (h : ∀ row, p row = true → q row = true) :
    ((rows.filter q).filter p) = rows.filter p := by
  rw [List.filter_filter]
  refine List.filter_congr fun row _ => ?_
  cases hp : p row with
  | false => rfl
  | true => rw [h row hp, Bool.and_true]

theorem upsertPolicy_confined (definition : PolicyDefinition) (now : Nat) :
    Confined t fun db => ((db.upsertPolicy t definition now).mapError AdminError.database).map ((), ·) := by
  constructor
  · intro db
    unfold upsertPolicy
    rw [tenant?_rowsOf, upsertRow_rowsOf]
    split
    · rfl
    · split
      · rfl
      · simp only [Except.mapError, Except.map]
        unfold rowsOf
        rw [List.filter_append, filter_ruleRows, List.filter_filter, List.filter_filter]
        congr 4
        refine List.filter_congr fun row _ => ?_
        rw [Bool.and_comm]
  · intro db a db' h t' ht'
    unfold upsertPolicy at h
    split at h
    · cases h
    · split at h
      · cases h
      · cases h
        unfold rowsOf
        rw [List.filter_append, filter_ruleRows_other _ ht', List.append_nil, upsertRow_other _ _ ht']
        congr 1
        refine filter_filter_other fun row hrow => ?_
        have howner : row.tenantId = t' := by simpa using hrow
        simp [howner, ht']

theorem any_rowsOf_apiKeys {q : ApiKeyRow → Bool} (hq : ∀ k ∈ db.apiKeys, q k = true → k.tenantId = t) :
    (db.rowsOf t).apiKeys.any q = db.apiKeys.any q := by
  unfold rowsOf
  rw [List.any_filter, Bool.eq_iff_iff]
  simp only [List.any_eq_true, Bool.and_eq_true, decide_eq_true_eq]
  constructor
  · rintro ⟨k, hk, -, hqk⟩
    exact ⟨k, hk, hqk⟩
  · rintro ⟨k, hk, hqk⟩
    exact ⟨k, hk, hq k hk hqk, hqk⟩

theorem deletePolicy_confined (id : String) :
    Confined t fun db => (db.deletePolicy t id).mapError (AdminService.inUse id) := by
  constructor
  · intro db
    have hpolicies : (db.rowsOf t).policies.any (fun p => p.tenantId = t ∧ p.id = id) =
        db.policies.any fun p => p.tenantId = t ∧ p.id = id :=
      any_rowsOf_policies fun p hp => (of_decide_eq_true hp).1
    have hkeys : (db.rowsOf t).apiKeys.any (fun k => k.tenantId = t ∧ k.policyId = some id) =
        db.apiKeys.any fun k => k.tenantId = t ∧ k.policyId = some id :=
      any_rowsOf_apiKeys fun k _ hk => (of_decide_eq_true hk).1
    unfold deletePolicy
    rw [hpolicies, hkeys]
    split
    · split
      · rfl
      · simp only [Except.mapError, Except.map]
        unfold rowsOf
        simp only [List.filter_filter, Bool.and_comm]
    · rfl
  · intro db a db' h t' ht'
    unfold deletePolicy at h
    split at h
    · split at h
      · cases h
      · cases h
        unfold rowsOf
        congr 1
        · refine filter_filter_other fun row hrow => ?_
          have howner : row.tenantId = t' := by simpa using hrow
          simp [howner, ht']
        · refine filter_filter_other fun row hrow => ?_
          have howner : row.tenantId = t' := by simpa using hrow
          simp [howner, ht']
    · cases h
      rfl

theorem revokeApiKey_confined (id : String) (now : Nat) :
    Confined t fun db => (.ok (db.revokeApiKey (.tenant t) id now) : Except AdminError (Bool × Database)) := by
  have hscope : ∀ row : ApiKeyRow, revocable (.tenant t) id row = true → row.tenantId = t := by
    intro row hrow
    simp only [revocable, Scope.includes, Bool.and_eq_true, decide_eq_true_eq] at hrow
    exact hrow.2
  have howner : ∀ (row : ApiKeyRow) (owner : String),
      decide ((if revocable (.tenant t) id row then row.revoked now else row).tenantId =
        owner) = decide (row.tenantId = owner) := by
    intro row owner
    split <;> rfl
  constructor
  · intro db
    unfold revokeApiKey
    simp only [Except.map]
    rw [any_rowsOf_apiKeys fun k _ hk => hscope k hk]
    unfold rowsOf
    rw [List.filter_map]
    congr 4
    exact List.filter_congr fun row _ => (howner row t).symm
  · intro db a db' h t' ht'
    cases h
    unfold rowsOf
    congr 1
    rw [List.filter_map]
    have hpreserved : ((fun row : ApiKeyRow => decide (row.tenantId = t')) ∘ fun row =>
        if revocable (.tenant t) id row then row.revoked now else row) =
        fun row => decide (row.tenantId = t') := funext fun row => howner row t'
    rw [hpreserved]
    refine (List.map_congr_left fun row hrow => ?_).trans (List.map_id _)
    have hother : row.tenantId = t' := by simpa using (List.mem_filter.mp hrow).2
    rw [if_neg fun hrevoked => ht' (hother.symm.trans (hscope row hrevoked))]
    rfl

def KeyIsNew (t keyId keyHash : String) (db : Database) : Prop :=
  ∀ k ∈ db.apiKeys, k.id = keyId ∨ k.keyHash = keyHash → k.tenantId = t

theorem createApiKey_commutes {row : ApiKeyRow} (hrow : row.tenantId = t) (hnew : db.KeyIsNew t row.id row.keyHash) :
    ((db.rowsOf t).createApiKey row).map (fun db' => ((), db')) =
      ((db.createApiKey row).map fun db' => ((), db'.rowsOf t)) := by
  have hkeys : (db.rowsOf t).apiKeys.any (fun k => k.id = row.id ∨ k.keyHash = row.keyHash) =
      db.apiKeys.any fun k => k.id = row.id ∨ k.keyHash = row.keyHash :=
    any_rowsOf_apiKeys fun k hk h => hnew k hk (of_decide_eq_true h)
  have hpolicy : (∃ policyId ∈ row.policyId, ∀ p ∈ (db.rowsOf t).policies, ¬ (p.tenantId = t ∧ p.id = policyId)) ↔
      ∃ policyId ∈ row.policyId, ∀ p ∈ db.policies, ¬ (p.tenantId = t ∧ p.id = policyId) := by
    unfold rowsOf
    simp only [List.mem_filter, decide_eq_true_eq, and_imp]
    refine exists_congr fun policyId => and_congr_right fun _ => forall_congr' fun p => ?_
    constructor
    · intro h hp hsame
      exact h hp hsame.1 hsame
    · intro h hp _
      exact h hp
  unfold createApiKey
  simp only [hrow, hkeys, hpolicy, tenant?_rowsOf]
  split
  · rfl
  · split
    · rfl
    · split
      · rfl
      · simp only [Except.map]
        unfold rowsOf
        rw [filter_append_own (by simp [hrow])]

theorem createApiKey_frame {row : ApiKeyRow} {db' : Database} (hrow : row.tenantId = t) (h : db.createApiKey row = .ok db')
    (ht' : t' ≠ t) : db'.rowsOf t' = db.rowsOf t' := by
  have hother : decide (row.tenantId = t') = false := by simpa [hrow] using fun h' => ht' h'.symm
  obtain ⟨rfl, -, -⟩ := createApiKey_ok h
  unfold rowsOf
  rw [filter_append_other (p := fun k : ApiKeyRow => decide (k.tenantId = t')) hother]

end Database

/-! ## States -/

structure AdminState.Sound (service : AdminService) (generated : Generated) (t : String) (s : AdminState) : Prop where
  builds : ∀ r ∈ s.db.policyRules,
    ∃ built, service.factory.build r.policyId ⟨r.ruleType, some r.config⟩ (some r.tenantId) = .ok built
  keys : (s.db.policies.map fun p => (p.tenantId, p.id)).Nodup
  tenants : ∀ row ∈ s.db.tenants, tenantIdPattern row.id = true
  owners : ∀ p ∈ s.db.policies, tenantIdPattern p.tenantId = true
  unused : ∀ environment, s.db.KeyIsNew t generated.keyId (service.hashApiKey (secretOf environment generated.random))

structure AdminState.Alike (service : AdminService) (generated : Generated) (t : String) (s₁ s₂ : AdminState) : Prop where
  rows : s₁.db.rowsOf t = s₂.db.rowsOf t
  generation : s₁.generation = s₂.generation
  left : s₁.Sound service generated t
  right : s₂.Sound service generated t

def AdminState.OthersKept (t : String) (s s' : AdminState) : Prop :=
  ∀ t', t' ≠ t → s'.db.rowsOf t' = s.db.rowsOf t'

section
variable {service : AdminService} {generated : Generated} {t : String} {s s' : AdminState}

open AdminState

theorem othersKept_refl (s : AdminState) : s.OthersKept t s := fun _ _ => rfl

theorem othersKept_trans (r s s' : AdminState) (h : r.OthersKept t s) (h' : s.OthersKept t s') : r.OthersKept t s' :=
  fun t' ht' => (h' t' ht').trans (h t' ht')

/-- A confined change, if the states stay sound, is secure. -/
theorem secure_change {α : Type} {f : Database → Except AdminError (α × Database)}
    (hcommutes : ∀ s : AdminState, s.Sound service generated t →
      f (s.db.rowsOf t) = (f s.db).map fun (a, db) => (a, db.rowsOf t))
    (hframe : ∀ {db a db'}, f db = .ok (a, db') → ∀ t', t' ≠ t → db'.rowsOf t' = db.rowsOf t')
    (hsound : ∀ {s : AdminState} {a db}, s.Sound service generated t → f s.db = .ok (a, db) →
      Sound service generated t { s with db := db }) :
    Procedure.Secure (Alike service generated t) (OthersKept t) (AdminService.change f) := by
  refine Procedure.secure_write othersKept_refl ?_ ?_
  · intro s₁ s₂ hlow
    have hsame : (f s₁.db).map (fun (a, db) => (a, db.rowsOf t)) = (f s₂.db).map fun (a, db) => (a, db.rowsOf t) := by
      rw [← hcommutes s₁ hlow.left, ← hcommutes s₂ hlow.right, hlow.rows]
    cases h₁ : f s₁.db with
    | error e =>
      cases h₂ : f s₂.db with
      | error e' =>
        rw [h₁, h₂] at hsame
        cases hsame
        exact .inl ⟨e, rfl, rfl⟩
      | ok result =>
        rw [h₁, h₂] at hsame
        cases hsame
    | ok result =>
      obtain ⟨a, db₁⟩ := result
      cases h₂ : f s₂.db with
      | error e =>
        rw [h₁, h₂] at hsame
        cases hsame
      | ok result =>
        obtain ⟨a', db₂⟩ := result
        rw [h₁, h₂] at hsame
        obtain ⟨rfl, hrows⟩ := Prod.mk.inj (Except.ok.inj hsame)
        exact .inr ⟨a, _, _, rfl, rfl, ⟨hrows, hlow.generation, hsound hlow.left h₁, hsound hlow.right h₂⟩⟩
  · intro s a s' h
    cases hf : f s.db with
    | error e =>
      rw [hf] at h
      cases h
    | ok result =>
      rw [hf] at h
      cases h
      exact hframe hf

/-! ## What keeps a state sound -/

theorem sound_of_audit {row : AuditRow} {db : Database} (hs : s.Sound service generated t)
    (h : s.db.recordAudit row = .ok db) : Sound service generated t { s with db := db } := by
  unfold Database.recordAudit at h
  split at h
  · cases h
  · cases h
    exact ⟨hs.builds, hs.keys, hs.tenants, hs.owners, hs.unused⟩

theorem sound_of_revoke {id : String} {now : Nat} (hs : s.Sound service generated t) :
    Sound service generated t { s with db := (s.db.revokeApiKey (.tenant t) id now).2 } := by
  refine ⟨hs.builds, hs.keys, hs.tenants, hs.owners, ?_⟩
  intro environment k hk hclash
  obtain ⟨row, hrow, rfl⟩ := List.mem_map.mp hk
  by_cases hrevoked : Database.revocable (.tenant t) id row = true
  · rw [if_pos hrevoked] at hclash ⊢
    exact hs.unused environment row hrow hclash
  · rw [if_neg hrevoked] at hclash ⊢
    exact hs.unused environment row hrow hclash

theorem sound_of_create {row : ApiKeyRow} {db : Database} (hrow : row.tenantId = t)
    (hs : s.Sound service generated t) (h : s.db.createApiKey row = .ok db) :
    Sound service generated t { s with db := db } := by
  obtain ⟨rfl, -, -⟩ := Database.createApiKey_ok h
  refine ⟨hs.builds, hs.keys, hs.tenants, hs.owners, ?_⟩
  intro environment k hk hclash
  rcases List.mem_append.mp hk with hk | hk
  · exact hs.unused environment k hk hclash
  · rw [List.mem_singleton.mp hk, hrow]

theorem sound_of_delete {id : String} {deleted : Bool} {db : Database} (hs : s.Sound service generated t)
    (h : s.db.deletePolicy t id = .ok (deleted, db)) : Sound service generated t { s with db := db } := by
  unfold Database.deletePolicy at h
  split at h
  · split at h
    · cases h
    · cases h
      refine ⟨fun r hr => hs.builds r (List.mem_filter.mp hr).1, ?_, hs.tenants,
        fun p hp => hs.owners p (List.mem_filter.mp hp).1, hs.unused⟩
      exact hs.keys.sublist (List.filter_sublist.map _)
  · cases h
    exact hs

theorem keys_upsertRow {db : Database} (definition : PolicyDefinition) (now : Nat)
    (hkeys : (db.policies.map fun p => (p.tenantId, p.id)).Nodup) :
    ((db.upsertRow t definition now).map fun p => (p.tenantId, p.id)).Nodup := by
  unfold Database.upsertRow
  split
  · rw [List.map_map]
    have hsame : ((fun p : PolicyRow => (p.tenantId, p.id)) ∘ fun p =>
        if p.tenantId = t ∧ p.id = definition.id then
          { p with name := definition.name, description := definition.description, enabled := definition.enabled,
                   updatedAt := now }
        else p) = fun p => (p.tenantId, p.id) := by
      funext p
      simp only [Function.comp]
      split <;> rfl
    rw [hsame]
    exact hkeys
  · rename_i hnew
    rw [List.map_append]
    refine List.nodup_append.mpr ⟨hkeys, List.nodup_singleton _, ?_⟩
    rintro key hkey _ hlast rfl
    obtain ⟨p, hp, rfl⟩ := List.mem_map.mp hkey
    obtain ⟨hown, hid⟩ := Prod.mk.inj (List.mem_singleton.mp hlast)
    exact hnew (List.any_eq_true.mpr ⟨p, hp, by simpa using ⟨hown, hid⟩⟩)

theorem sound_of_upsert {definition : PolicyDefinition} {now : Nat} {db : Database} (hs : s.Sound service generated t)
    (hdefinition : ∀ rule ∈ definition.rules, ∃ built, service.factory.build definition.id rule none = .ok built)
    (h : s.db.upsertPolicy t definition now = .ok db) : Sound service generated t { s with db := db } := by
  unfold Database.upsertPolicy at h
  split at h
  · cases h
  · split at h
    · cases h
    · rename_i htenant
      cases h
      have hpattern : tenantIdPattern t = true := by
        cases hrow : s.db.tenant? t with
        | none =>
          rw [hrow] at htenant
          exact absurd rfl htenant
        | some row =>
          have hid : row.id = t := by simpa using List.find?_some hrow
          exact hid ▸ hs.tenants row (List.mem_of_find?_eq_some hrow)
      refine ⟨?_, keys_upsertRow definition now hs.keys, hs.tenants, ?_, hs.unused⟩
      · intro r hr
        rcases List.mem_append.mp hr with hr | hr
        · exact hs.builds r (List.mem_filter.mp hr).1
        · obtain ⟨⟨rule, ordinal⟩, hrule, rfl⟩ := List.mem_map.mp hr
          obtain ⟨built, hbuilt⟩ := hdefinition rule (List.fst_mem_of_mem_zipIdx hrule)
          have hstored : service.factory.build definition.id ⟨rule.ruleType, some rule.configOrEmpty⟩ (some t) =
              .ok (built.within (PolicyFactory.namespaceOf (some t))) := by
            rw [PolicyFactory.build_stored, PolicyFactory.build_within none, hbuilt]
            rfl
          exact ⟨_, hstored⟩
      · intro p hp
        have hp : p ∈ s.db.upsertRow t definition now := hp
        unfold Database.upsertRow at hp
        split at hp
        · obtain ⟨q, hq, rfl⟩ := List.mem_map.mp hp
          split
          · exact hs.owners q hq
          · exact hs.owners q hq
        · rcases List.mem_append.mp hp with hp | hp
          · exact hs.owners p hp
          · rw [List.mem_singleton.mp hp]
            exact hpattern

/-! ## The reload -/

theorem rulesOf_mem {db : Database} {p : PolicyRow} {spec : PolicyRuleSpec} (h : spec ∈ db.rulesOf p) :
    ∃ r ∈ db.policyRules, r.tenantId = p.tenantId ∧ r.policyId = p.id ∧ spec = ⟨r.ruleType, some r.config⟩ := by
  obtain ⟨r, hr, rfl⟩ := List.mem_map.mp h
  obtain ⟨hrow, hkey⟩ := List.mem_filter.mp ((List.mem_insertionSort _).mp hr)
  obtain ⟨howner, hid⟩ := of_decide_eq_true hkey
  exact ⟨r, hrow, howner, hid, rfl⟩

theorem loadPolicies_ok {factory : PolicyFactory} {db : Database}
    (hbuilds : ∀ r ∈ db.policyRules,
      ∃ built, factory.build r.policyId ⟨r.ruleType, some r.config⟩ (some r.tenantId) = .ok built) (scope : Scope) :
    ∃ policies, db.loadPolicies factory scope = .ok policies ∧
      ((db.policies.filter fun p => p.enabled ∧ scope.includes p.tenantId).insertionSort Database.byKey).map
        (fun p => (p.tenantId, p.id)) = policies.map fun p => (p.tenantId, p.id) := by
  have hone : ∀ p : PolicyRow, ∃ policy : Policy,
      (do
        let rules ← (db.rulesOf p).mapM fun spec => factory.build p.id spec (some p.tenantId)
        (.ok ⟨p.tenantId, p.id, rules.map BuiltRule.toPolicyRule⟩ : Except FactoryError Policy)) = .ok policy ∧
        (p.tenantId, p.id) = (policy.tenantId, policy.id) := by
    intro p
    have hrules : ∀ spec ∈ db.rulesOf p, ∃ built, factory.build p.id spec (some p.tenantId) = .ok built ∧ True := by
      intro spec hspec
      obtain ⟨r, hr, howner, hid, rfl⟩ := rulesOf_mem hspec
      obtain ⟨built, hbuilt⟩ := hbuilds r hr
      rw [howner, hid] at hbuilt
      exact ⟨built, hbuilt, trivial⟩
    obtain ⟨rules, hbuilt, -⟩ := Traverse.mapM_ok hrules
    refine ⟨⟨p.tenantId, p.id, rules.map BuiltRule.toPolicyRule⟩, ?_, rfl⟩
    rw [hbuilt]
    rfl
  obtain ⟨policies, hload, hall⟩ := Traverse.mapM_ok fun p _ => hone p
  exact ⟨policies, hload, Traverse.map_eq_of_forall₂ hall⟩

theorem withCeilings_keys (plans : PlanCatalogue) (planIds : String → Option String) (policies : List Policy) :
    (plans.withCeilings planIds policies).map (fun p => (p.tenantId, p.id)) =
      policies.map fun p => (p.tenantId, p.id) := by
  unfold PlanCatalogue.withCeilings
  split
  · rfl
  · rw [List.map_map]
    refine List.map_congr_left fun p _ => ?_
    simp only [Function.comp]
    split <;> rfl

theorem nodup_keyOf {policies : List Policy} (hkeys : (policies.map fun p => (p.tenantId, p.id)).Nodup)
    (howners : ∀ p ∈ policies, tenantIdPattern p.tenantId = true) :
    (policies.map fun p => keyOf p.tenantId p.id).Nodup := by
  rw [List.nodup_map_iff_inj_on hkeys.of_map]
  intro p hp q hq hsame
  obtain ⟨howner, hid⟩ := keyOf_inj (howners p hp) (howners q hq) hsame
  exact List.inj_on_of_nodup_map hkeys hp hq (Prod.ext howner hid)

def enabledCount (db : Database) : Nat := (db.policies.filter fun p => p.enabled).length

/-- A reload installs the enabled policies of all tenants, and leaves the rows. -/
theorem reload_run (hs : s.Sound service generated t) :
    ∃ policySource, service.reload.run s =
      (.ok (enabledCount s.db, s.generation + 1),
        { s with policySource := policySource, generation := s.generation + 1 }) := by
  obtain ⟨policies, hload, hkeys⟩ := loadPolicies_ok hs.builds .platform
  have hceilings := withCeilings_keys service.plans service.planIds policies
  rw [← hkeys] at hceilings
  have hlength : (service.plans.withCeilings service.planIds policies).length = enabledCount s.db := by
    have := congrArg List.length hceilings
    simpa [enabledCount, Scope.includes] using this
  have hsorted : ∀ key ∈ ((s.db.policies.filter fun p => p.enabled ∧ Scope.platform.includes p.tenantId).insertionSort
      Database.byKey).map (fun p => (p.tenantId, p.id)), tenantIdPattern key.1 = true := by
    intro key hkey
    obtain ⟨p, hp, rfl⟩ := List.mem_map.mp hkey
    exact hs.owners p (List.mem_filter.mp ((List.mem_insertionSort _).mp hp)).1
  have hdistinct : ((service.plans.withCeilings service.planIds policies).map fun p => keyOf p.tenantId p.id).Nodup := by
    refine nodup_keyOf ?_ ?_
    · rw [hceilings]
      exact (hs.keys.sublist (List.filter_sublist.map _)).perm ((List.perm_insertionSort _ _).symm.map _)
    · intro p hp
      refine hsorted (p.tenantId, p.id) ?_
      rw [← hceilings]
      exact List.mem_map_of_mem hp
  refine ⟨⟨_, hdistinct⟩, ?_⟩
  unfold AdminService.reload Procedure.run Procedure.write
  simp only [hload, dif_pos hdistinct, hlength]

/-! ## Operations -/

open Procedure AdminService

variable {context : ActorContext}

theorem secure_audit (hwrite : context.writeScope = t) (action : String) (subject : Option String) (detail : Json) :
    Secure (Alike service generated t) (OthersKept t) (audit context generated action subject detail) := by
  have hconfined : Database.Confined t fun db => ((db.recordAudit ⟨generated.auditId, some context.writeScope, context.actor,
      action, subject, detail, context.clientIp, generated.now⟩).mapError AdminError.database).map ((), ·) :=
    Database.recordAudit_confined (by rw [hwrite])
  refine secure_change (fun s _ => hconfined.commutes s.db) hconfined.frame ?_
  intro s a db hs h
  cases hrecord : s.db.recordAudit ⟨generated.auditId, some context.writeScope, context.actor, action, subject, detail,
      context.clientIp, generated.now⟩ with
  | error e =>
    rw [hrecord] at h
    cases h
  | ok db' =>
    rw [hrecord] at h
    cases h
    exact sound_of_audit hs hrecord

/-- A reload before a part that does not use what it counted. -/
theorem secure_reload {β : Type} {y : AdminProcedure β} (hy : Secure (Alike service generated t) (OthersKept t) y) :
    Secure (Alike service generated t) (OthersKept t) (service.reload >>= fun _ => y) := by
  refine secure_bind_silent othersKept_trans ?_ ?_ hy
  · intro s t' _
    rw [reload_db]
  · intro s₁ s₂ hlow
    obtain ⟨source₁, h₁⟩ := reload_run hlow.left
    obtain ⟨source₂, h₂⟩ := reload_run hlow.right
    refine ⟨_, _, _, _, h₁, h₂, hlow.rows, ?_, ?_, ?_⟩
    · show s₁.generation + 1 = s₂.generation + 1
      rw [hlow.generation]
    · exact ⟨hlow.left.builds, hlow.left.keys, hlow.left.tenants, hlow.left.owners, hlow.left.unused⟩
    · exact ⟨hlow.right.builds, hlow.right.keys, hlow.right.tenants, hlow.right.owners, hlow.right.unused⟩

theorem secure_getPolicy (id : String) :
    Secure (Alike service generated t) (OthersKept t) (AdminService.getPolicy (.tenant t) id) := by
  refine secure_read othersKept_refl fun {s₁ s₂} hlow => ?_
  have hsame : s₁.db.getPolicy (.tenant t) id = s₂.db.getPolicy (.tenant t) id := by
    rw [← Database.getPolicy_rowsOf, hlow.rows, Database.getPolicy_rowsOf]
  rw [hsame]

theorem secure_upsertPolicy (hwrite : context.writeScope = t) (definition : PolicyDefinition) :
    Secure (Alike service generated t) (OthersKept t) (service.upsertPolicy context generated definition) := by
  unfold AdminService.upsertPolicy
  rw [hwrite]
  cases hcheck : (definition.rules.forM fun rule => do
      let _ ← service.factory.build definition.id rule none : Except FactoryError PUnit) with
  | error e =>
    have hthrow : ∀ {β : Type} (f : PUnit → AdminProcedure β),
        ((.read fun _ => (.error (.factory e) : Except AdminError PUnit)) >>= f) = .throw (.factory e) := by
      intro β f
      rfl
    simp only [Except.mapError, hthrow]
    exact secure_throw othersKept_refl _
  | ok _ =>
    have hdefinition := Traverse.forM_ok.mp hcheck
    have hconfined := Database.upsertPolicy_confined (t := t) definition generated.now
    refine secure_bind othersKept_trans (secure_read othersKept_refl fun _ => rfl) fun _ => ?_
    refine secure_bind othersKept_trans ?_ fun _ => ?_
    · refine secure_change (fun s _ => hconfined.commutes s.db) hconfined.frame ?_
      intro s a db hs h
      cases hupsert : s.db.upsertPolicy t definition generated.now with
      | error e =>
        rw [hupsert] at h
        cases h
      | ok db' =>
        rw [hupsert] at h
        cases h
        exact sound_of_upsert hs hdefinition hupsert
    · refine secure_reload (secure_bind othersKept_trans (secure_audit hwrite _ _ _) fun _ => ?_)
      exact secure_getPolicy definition.id

theorem secure_deletePolicy (hwrite : context.writeScope = t) (id : String) :
    Secure (Alike service generated t) (OthersKept t) (service.deletePolicy context generated id) := by
  have hconfined := Database.deletePolicy_confined (t := t) id
  unfold AdminService.deletePolicy
  rw [hwrite]
  refine secure_bind othersKept_trans ?_ fun deleted => ?_
  · refine secure_change (fun s _ => hconfined.commutes s.db) hconfined.frame ?_
    intro s a db hs h
    cases hdelete : s.db.deletePolicy t id with
    | error e =>
      rw [hdelete] at h
      cases h
    | ok result =>
      rw [hdelete] at h
      cases h
      exact sound_of_delete hs hdelete
  · cases deleted with
    | false => exact secure_pure othersKept_refl _
    | true =>
      refine secure_reload (secure_bind othersKept_trans (secure_audit hwrite _ _ _) fun _ => ?_)
      exact secure_pure othersKept_refl _

theorem secure_createKey (hwrite : context.writeScope = t) (request : CreateKeyRequest) :
    Secure (Alike service generated t) (OthersKept t) (service.createKey context generated request) := by
  have howner : (service.newKey context generated request).tenantId = t := hwrite
  unfold AdminService.createKey
  split
  · exact secure_throw othersKept_refl _
  · refine secure_bind othersKept_trans ?_ fun _ => ?_
    · refine secure_change ?_ ?_ ?_
      · intro s hs
        have hcommutes := Database.createApiKey_commutes howner (hs.unused request.environment)
        cases hown : (s.db.rowsOf t).createApiKey (service.newKey context generated request) with
        | error e =>
          cases hall : s.db.createApiKey (service.newKey context generated request) with
          | error e' =>
            rw [hown, hall] at hcommutes
            cases hcommutes
            rfl
          | ok db =>
            rw [hown, hall] at hcommutes
            cases hcommutes
        | ok db =>
          cases hall : s.db.createApiKey (service.newKey context generated request) with
          | error e' =>
            rw [hown, hall] at hcommutes
            cases hcommutes
          | ok db' =>
            rw [hown, hall] at hcommutes
            cases hcommutes
            rfl
      · intro db a db' h t' ht'
        cases hcreate : db.createApiKey (service.newKey context generated request) with
        | error e =>
          rw [hcreate] at h
          cases h
        | ok db'' =>
          rw [hcreate] at h
          cases h
          exact Database.createApiKey_frame howner hcreate ht'
      · intro s a db hs h
        cases hcreate : s.db.createApiKey (service.newKey context generated request) with
        | error e =>
          rw [hcreate] at h
          cases h
        | ok db' =>
          rw [hcreate] at h
          cases h
          exact sound_of_create howner hs hcreate
    · refine secure_bind othersKept_trans (secure_audit hwrite _ _ _) fun _ => ?_
      exact secure_pure othersKept_refl _

theorem secure_revokeKey (hwrite : context.writeScope = t) (id : String) :
    Secure (Alike service generated t) (OthersKept t) (AdminService.revokeKey context generated id) := by
  have hconfined := Database.revokeApiKey_confined (t := t) id generated.now
  unfold AdminService.revokeKey
  rw [hwrite]
  refine secure_bind othersKept_trans ?_ fun revoked => ?_
  · refine secure_change (fun s _ => hconfined.commutes s.db) hconfined.frame ?_
    intro s a db hs h
    cases h
    exact sound_of_revoke hs
  · cases revoked with
    | false => exact secure_pure othersKept_refl _
    | true =>
      refine secure_bind othersKept_trans (secure_audit hwrite _ _ _) fun _ => ?_
      exact secure_pure othersKept_refl _

theorem secure_perform (hscope : context.scope = .tenant t) (hwrite : context.writeScope = t) {operation : AdminOperation}
    (hreload : operation ≠ .reloadPolicies) :
    Secure (Alike service generated t) (OthersKept t) (service.perform context generated operation) := by
  have hpure : ∀ response : AdminResponse,
      Secure (Alike service generated t) (OthersKept t) (pure response : AdminProcedure AdminResponse) :=
    fun response => secure_pure othersKept_refl response
  cases operation with
  | listPolicies =>
    refine secure_read othersKept_refl fun {s₁ s₂} hlow => ?_
    rw [hscope, ← Database.listPolicies_rowsOf, hlow.rows, Database.listPolicies_rowsOf]
  | getPolicy id =>
    unfold AdminService.perform
    rw [hscope]
    exact secure_bind othersKept_trans (secure_getPolicy id) fun _ => hpure _
  | upsertPolicy definition =>
    exact secure_bind othersKept_trans (secure_upsertPolicy hwrite definition) fun _ => hpure _
  | deletePolicy id => exact secure_bind othersKept_trans (secure_deletePolicy hwrite id) fun _ => hpure _
  | reloadPolicies => exact absurd rfl hreload
  | listKeys =>
    refine secure_read othersKept_refl fun {s₁ s₂} hlow => ?_
    rw [hscope, ← Database.listApiKeys_rowsOf, hlow.rows, Database.listApiKeys_rowsOf]
  | createKey request => exact secure_bind othersKept_trans (secure_createKey hwrite request) fun _ => hpure _
  | revokeKey id => exact secure_bind othersKept_trans (secure_revokeKey hwrite id) fun _ => hpure _
  | listSponsorships query =>
    refine secure_read othersKept_refl fun {s₁ s₂} hlow => ?_
    rw [hscope, ← Database.listSponsorships_rowsOf, hlow.rows, Database.listSponsorships_rowsOf]
  | listAudit query =>
    refine secure_read othersKept_refl fun {s₁ s₂} hlow => ?_
    rw [hscope, ← Database.listAudit_rowsOf, hlow.rows, Database.listAudit_rowsOf]

theorem audit_run (htenant : (s.db.tenant? context.writeScope).isSome = true) (generated : Generated) (action : String) (subject : Option String)
    (detail : Json) :
    (audit context generated action subject detail).run s = (.ok (), { s with db := { s.db with
      auditLogs := s.db.auditLogs ++ [⟨generated.auditId, some context.writeScope, context.actor, action, subject, detail,
        context.clientIp, generated.now⟩] } }) := by
  have hthere : (s.db.tenant? context.writeScope).isNone = false := Option.isNone_eq_false_iff.mpr htenant
  unfold audit change run write Database.recordAudit
  simp only [Option.mem_def, Option.some.injEq, exists_eq_left', hthere, Bool.false_eq_true, if_false, Except.mapError,
    Except.map]

/-- What `POST /admin/policies/reload` answers, and that it writes nothing of others. -/
theorem reloadPolicies_run (context : ActorContext) (hwrite : context.writeScope = t) (hs : s.Sound service generated t)
    (htenant : (s.db.tenant? t).isSome = true) :
    ((service.perform context generated .reloadPolicies).run s).1 =
        .ok (.reloaded (enabledCount s.db) (s.generation + 1)) ∧
      s.OthersKept t ((service.perform context generated .reloadPolicies).run s).2 := by
  subst hwrite
  obtain ⟨source, hreload⟩ := reload_run hs
  have haudit := audit_run (s := { s with policySource := source, generation := s.generation + 1 }) htenant generated
    "policy.reload" none
  unfold AdminService.perform AdminService.reloadPolicies
  simp only [run_bind, hreload, haudit, run_pure, true_and]
  intro t' ht'
  unfold Database.rowsOf
  have hother : ∀ row : AuditRow, row.tenantId = some context.writeScope → decide (row.tenantId = some t') = false := by
    intro row hrow
    simpa [hrow] using fun h => ht' h.symm
  rw [Database.filter_append_other (p := fun row : AuditRow => decide (row.tenantId = some t')) (hother _ rfl)]

/-- The tenant is answered the same in both states, and the rows of others stay in each. -/
def NoInterference (service : AdminService) (context : ActorContext) (generated : Generated) (t : String)
    (operation : AdminOperation) (s₁ s₂ : AdminState) : Prop :=
  ((service.perform context generated operation).run s₁).1 = ((service.perform context generated operation).run s₂).1 ∧
    s₁.OthersKept t ((service.perform context generated operation).run s₁).2 ∧
    s₂.OthersKept t ((service.perform context generated operation).run s₂).2

/-- Tenants do not interfere, but for a reload when the numbers of all tenants' policies differ. -/
theorem noInterference_iff {principal : Principal} {clientIp : Option String} {operation : AdminOperation}
    {s₁ s₂ : AdminState} (hplatform : .platformRead ∉ principal.permissions)
    (htenant : (s₁.db.tenant? principal.tenantId).isSome = true)
    (halike : s₁.Alike service generated principal.tenantId s₂) :
    NoInterference service (principal.actorContext clientIp) generated principal.tenantId operation s₁ s₂ ↔
      (operation = .reloadPolicies → enabledCount s₁.db = enabledCount s₂.db) := by
  have hscope : (principal.actorContext clientIp).scope = .tenant principal.tenantId := if_neg hplatform
  have htenant' : (s₂.db.tenant? principal.tenantId).isSome = true := by
    rw [← Database.tenant?_rowsOf, ← halike.rows, Database.tenant?_rowsOf]
    exact htenant
  by_cases hreload : operation = .reloadPolicies
  · subst hreload
    obtain ⟨hanswer₁, hkept₁⟩ := reloadPolicies_run (principal.actorContext clientIp) rfl halike.left htenant
    obtain ⟨hanswer₂, hkept₂⟩ := reloadPolicies_run (principal.actorContext clientIp) rfl halike.right htenant'
    unfold NoInterference
    rw [hanswer₁, hanswer₂, halike.generation]
    constructor
    · rintro ⟨hsame, -⟩ -
      injection hsame with hsame
      injection hsame
    · intro hcount
      rw [hcount rfl]
      exact ⟨rfl, hkept₁, hkept₂⟩
  · have hsecure : Secure (Alike service generated principal.tenantId) (OthersKept principal.tenantId)
        (service.perform (principal.actorContext clientIp) generated operation) := secure_perform hscope rfl hreload
    exact ⟨fun _ h => absurd h hreload, fun _ => ⟨(hsecure.alike halike).1, hsecure.framed s₁, hsecure.framed s₂⟩⟩

/-! ## Two customers -/

theorem noPlans_distinct : (([] : List Plan).map Plan.id).Nodup := List.nodup_nil

theorem noPlans_default : ∀ id ∈ (none : Option String), id ∈ ([] : List Plan).map Plan.id := fun _ h => nomatch h

theorem noPolicies_distinct : (([] : List Policy).map fun p => keyOf p.tenantId p.id).Nodup := List.nodup_nil

def sampleAdmin : AdminService where
  hashApiKey secret := secret
  factory := ⟨fun _ => true, false⟩
  plans := ⟨[], none, noPlans_distinct, noPlans_default⟩
  planIds _ := none

def acmeAndGlobex (policies : List PolicyRow) : AdminState where
  db := ⟨[⟨"acme", "Acme", .active, 0⟩, ⟨"globex", "Globex", .active, 0⟩], [], [], policies, [], [], []⟩
  policySource := ⟨[], noPolicies_distinct⟩
  generation := 0

def globexPolicy : PolicyRow := ⟨"globex", "default", "Default", none, true, 0, 0⟩

def acmeAdmin : Principal := ⟨"acme", "key-1", "ops", [.tenantAdmin], none⟩

def sampleGenerated : Generated := ⟨0, 1, "key-2", "random"⟩

theorem acmeAndGlobex_alike :
    (acmeAndGlobex []).Alike sampleAdmin sampleGenerated "acme" (acmeAndGlobex [globexPolicy]) := by
  have htenants : ∀ row ∈ [(⟨"acme", "Acme", .active, 0⟩ : Tenant), ⟨"globex", "Globex", .active, 0⟩],
      tenantIdPattern row.id = true := by decide +kernel
  have hpattern : tenantIdPattern "globex" = true := by decide +kernel
  refine ⟨?_, rfl, ⟨?_, ?_, htenants, ?_, ?_⟩, ⟨?_, ?_, htenants, ?_, ?_⟩⟩
  · rfl
  · intro r hr
    cases hr
  · exact List.nodup_nil
  · intro p hp
    cases hp
  · intro environment k hk
    cases hk
  · intro r hr
    cases hr
  · exact List.nodup_singleton _
  · intro p hp
    obtain rfl := List.mem_singleton.mp hp
    exact hpattern
  · intro environment k hk
    cases hk

theorem noInterference_acme :
    NoInterference sampleAdmin (acmeAdmin.actorContext none) sampleGenerated "acme"
      (.createKey ⟨"dApp", [.sponsor], none, .live, none⟩) (acmeAndGlobex []) (acmeAndGlobex [globexPolicy]) :=
  (noInterference_iff (by decide) rfl acmeAndGlobex_alike).mpr fun h => nomatch h

/-- The number that a reload answers tells Acme whether Globex has a policy. -/
theorem reload_interferes : ¬ ∀ (service : AdminService) (generated : Generated) (principal : Principal)
    (clientIp : Option String) (operation : AdminOperation) (s₁ s₂ : AdminState),
    .platformRead ∉ principal.permissions → (s₁.db.tenant? principal.tenantId).isSome = true →
    s₁.Alike service generated principal.tenantId s₂ →
    NoInterference service (principal.actorContext clientIp) generated principal.tenantId operation s₁ s₂ := by
  intro hall
  have hplatform : .platformRead ∉ acmeAdmin.permissions := by decide
  have hsame := (hall sampleAdmin sampleGenerated acmeAdmin none .reloadPolicies (acmeAndGlobex [])
    (acmeAndGlobex [globexPolicy]) hplatform rfl acmeAndGlobex_alike).1
  obtain ⟨hnone, -⟩ := reloadPolicies_run (acmeAdmin.actorContext none) rfl acmeAndGlobex_alike.left rfl
  obtain ⟨hone, -⟩ := reloadPolicies_run (acmeAdmin.actorContext none) rfl acmeAndGlobex_alike.right rfl
  rw [hnone, hone] at hsame
  injection hsame with hsame
  injection hsame with hcount
  cases hcount

end

end Paymaster
