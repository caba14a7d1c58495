import Paymaster.Backend.AdminService
import Paymaster.Backend.SponsorService
import Paymaster.Lib.Run

/-!
# Accounts

Everything that a caller can do with a credential or obtain one by, as one
machine: sign-in, sign-up, token exchange, the admin operations, sponsorship,
and the operator's changes to tenants. A session is signed in a step of its
own, since its checks wait for the database before. Every credential that is
issued is recorded with the one that was presented for it.
-/

namespace Paymaster

variable {Text : Type}

def rolesFor : TenantRole → List Role
  | .owner | .admin => [.tenantAdmin]
  | .member => [.viewer]

structure AccountDeps (Text : Type) where
  admin : AdminService
  jwt : Option (JwtService Text)
  sponsor : SponsorServiceDeps
  allowSelfSignup : Bool

def AccountDeps.auth (deps : AccountDeps Text) : AuthDeps Text := ⟨deps.admin.hashApiKey, deps.jwt⟩

/-- A request for a session that has passed what it waits for. `origins` are the
hashes of the keys that the credential comes from by exchanges. -/
inductive Pending (Text : Type)
  | exchange (presented : Presented Text) (principal : Principal) (origins : List String)
  | signIn (subject : String) (tenant : Tenant) (role : TenantRole)

namespace Pending

def tenantId : Pending Text → String
  | .exchange _ principal _ => principal.tenantId
  | .signIn _ tenant _ => tenant.id

def presented : Pending Text → Option (Presented Text)
  | .exchange presented _ _ => some presented
  | .signIn _ _ _ => none

def origins : Pending Text → List String
  | .exchange _ _ origins => origins
  | .signIn _ _ _ => []

def token (deps : AccountDeps Text) (now : Nat) : Pending Text → Option (Token Text)
  | .exchange _ principal _ => deps.auth.issueToken principal now
  | .signIn subject tenant role =>
    if tenant.status = .suspended then none
    else deps.jwt.map fun jwt => jwt.sign ⟨subject, tenant.id, tenant.name, rolesFor role, none⟩ now

end Pending

/-- A credential that was handed out, and whether its tenant was suspended then. -/
structure Issue (Text : Type) where
  issued : Presented Text
  presented : Option (Presented Text)
  origins : List String
  tenantId : String
  issuedAt : Nat
  suspended : Bool
deriving DecidableEq

/-- `started` says of every sponsor call whether its tenant was suspended when it started. -/
structure Accounts (Text : Type) where
  time : Nat
  admin : AdminState
  service : Service
  pending : List (Pending Text)
  issues : List (Issue Text)
  started : List Bool

def AdminOperation.requires : AdminOperation → List Permission
  | .listPolicies | .getPolicy _ => [.policyRead]
  | .upsertPolicy _ | .deletePolicy _ | .reloadPolicies => [.policyWrite]
  | .listKeys => [.keyRead]
  | .createKey _ | .revokeKey _ => [.keyWrite]
  | .listSponsorships _ | .listAudit _ => [.metricsRead]

inductive AccountLabel (Text : Type)
  | wait (seconds : Nat)
  | setStatus (tenantId : String) (status : TenantStatus)
  | addMember (tenantId subject : String) (role : TenantRole)
  /-- The provider's token was verified, for the subject. -/
  | signIn (subject : String) (requested : Option String)
  | signUp (subject tenantId name : String)
  | exchange (presented : Presented Text)
  | mint (i : Nat)
  | admin (presented : Presented Text) (clientIp : Option String) (operation : AdminOperation) (generated : Generated)
  | sponsor (replica : Nat) (presented : Presented Text) (request : SponsorRequest) (clientIp : Option String)
  /-- A step of a call that has started, or a reload. -/
  | service (l : SponsorLabel)

namespace Accounts

variable [DecidableEq Text] (deps : AccountDeps Text) (s : Accounts Text)

def db : Database := s.admin.db

def setDb (db : Database) : Accounts Text := { s with admin := { s.admin with db := db } }

def originsOf : Presented Text → List String
  | .nothing => []
  | .text secret =>
    if (s.db.findByHash (deps.admin.hashApiKey secret)).isSome then [deps.admin.hashApiKey secret] else []
  | .token t => (s.issues.filter fun issue => issue.issued = .token t).flatMap Issue.origins

def membershipFor (subject : String) : Option String → Option (Tenant × TenantRole)
  | some requested => s.db.membership subject requested
  | none =>
    match s.db.membershipsFor subject with
    | [membership] => some membership
    | _ => none

def mint (i : Nat) (p : Pending Text) : Accounts Text :=
  { s with
    pending := s.pending.eraseIdx i
    issues := s.issues ++ ((p.token deps s.time).map fun token =>
      ⟨.token token, p.presented, p.origins, p.tenantId, s.time, s.db.suspended p.tenantId⟩).toList }

def secretIn : Except AdminError AdminResponse → Option String
  | .ok (.created _ secret) => some secret
  | _ => none

def perform (presented : Presented Text) (principal : Principal) (clientIp : Option String) (operation : AdminOperation)
    (generated : Generated) : Accounts Text :=
  let (response, admin) :=
    (deps.admin.perform (principal.actorContext clientIp) { generated with now := s.time } operation).run s.admin
  { s with
    admin := admin
    issues := s.issues ++ ((secretIn response).map fun secret =>
      ⟨.text secret, some presented, [], principal.tenantId, s.time, s.db.suspended principal.tenantId⟩).toList }

def scopedRequest (principal : Principal) (request : SponsorRequest) : SponsorRequest :=
  { request with policyId := principal.policyId <|> request.policyId }

def start (principal : Principal) (service : Service) : Accounts Text :=
  { s with
    service := service
    started :=
      if service.calls.length = s.service.calls.length then s.started
      else s.started ++ [s.db.suspended principal.tenantId] }

/-- A request that is refused changes nothing. -/
def step : AccountLabel Text → Option (Accounts Text)
  | .wait seconds => some { s with time := s.time + seconds }
  | .setStatus tenantId status => some (s.setDb (s.db.setStatus tenantId status))
  | .addMember tenantId subject role =>
    match s.db.addMember tenantId subject role with
    | .ok db => some (s.setDb db)
    | .error _ => some s
  | .signIn subject requested =>
    match deps.jwt, s.membershipFor subject requested with
    | some _, some (tenant, role) => some { s with pending := s.pending ++ [.signIn subject tenant role] }
    | _, _ => some s
  | .signUp subject tenantId name =>
    if deps.jwt.isSome ∧ deps.allowSelfSignup then
      match s.db.createWithOwner tenantId name subject s.time with
      | .ok db =>
        some { s.setDb db with pending := s.pending ++ [.signIn subject ⟨tenantId, name, .active, s.time⟩ .owner] }
      | .error _ => some s
    else some s
  | .exchange presented =>
    match deps.auth.guard s.db [] presented s.time with
    | .ok principal => some { s with pending := s.pending ++ [.exchange presented principal (s.originsOf deps presented)] }
    | .error _ => some s
  | .mint i => s.pending[i]?.map (s.mint deps i)
  | .admin presented clientIp operation generated =>
    match deps.auth.guard s.db operation.requires presented s.time with
    | .ok principal => some (s.perform deps presented principal clientIp operation generated)
    | .error _ => some s
  | .sponsor replica presented request clientIp =>
    match deps.auth.guard s.db [.sponsorCreate] presented s.time with
    | .ok principal =>
      (s.service.step deps.sponsor (.sponsor replica (scopedRequest principal request)
        ⟨principal.tenantId, clientIp, some principal.apiKeyId⟩)).map (s.start principal)
    | .error _ => some s
  | .service (.sponsor _ _ _) => none
  | .service l => (s.service.step deps.sponsor l).map fun service => { s with service := service }

end Accounts

/-! ## What the admin operations leave -/

/-- Keys may be revoked and come to be; tenants and their members stay. -/
structure AdminKept (time : Nat) (s s' : AdminState) : Prop where
  keys : Database.KeysKept time s.db s'.db
  tenants : s'.db.tenants = s.db.tenants
  members : s'.db.members = s.db.members

section
variable {service : AdminService} {context : ActorContext} {generated : Generated} {time : Nat}

open Procedure AdminService

theorem adminKept_refl (s : AdminState) : AdminKept time s s := ⟨Database.keysKept_of_eq rfl, rfl, rfl⟩

theorem adminKept_trans (r s t : AdminState) (h : AdminKept time r s) (h' : AdminKept time s t) : AdminKept time r t :=
  ⟨h.keys.trans h'.keys, h'.tenants.trans h.tenants, h'.members.trans h.members⟩

theorem framed_change {α : Type} {f : Database → Except AdminError (α × Database)}
    (hf : ∀ {db a db'}, f db = .ok (a, db') →
      Database.KeysKept time db db' ∧ db'.tenants = db.tenants ∧ db'.members = db.members) :
    Framed (AdminKept time) (change f) := by
  refine framed_write adminKept_refl ?_
  intro s a s' h
  cases hchange : f s.db with
  | error e =>
    rw [hchange] at h
    cases h
  | ok result =>
    rw [hchange] at h
    cases h
    obtain ⟨hkeys, htenants, hmembers⟩ := hf hchange
    exact ⟨hkeys, htenants, hmembers⟩

theorem framed_audit (action : String) (subject : Option String) (detail : Json) :
    Framed (AdminKept time) (audit context generated action subject detail) := by
  refine framed_change ?_
  intro db a db' h
  unfold Database.recordAudit at h
  split at h
  · cases h
  · cases h
    exact ⟨Database.keysKept_of_eq rfl, rfl, rfl⟩

theorem framed_reload : Framed (AdminKept time) service.reload := by
  intro s
  have hdb : (service.reload.run s).2.db = s.db := reload_db s
  exact ⟨Database.keysKept_of_eq (by rw [hdb]), by rw [hdb], by rw [hdb]⟩

theorem framed_upsertPolicy (definition : PolicyDefinition) :
    Framed (AdminKept time) (service.upsertPolicy context generated definition) := by
  unfold AdminService.upsertPolicy
  refine framed_bind adminKept_trans (framed_read adminKept_refl _) fun _ => ?_
  refine framed_bind adminKept_trans (framed_change ?_) fun _ => ?_
  · intro db a db' h
    unfold Database.upsertPolicy at h
    split at h
    · cases h
    · split at h
      · cases h
      · cases h
        exact ⟨Database.keysKept_of_eq rfl, rfl, rfl⟩
  · refine framed_bind adminKept_trans framed_reload fun _ => ?_
    exact framed_bind adminKept_trans (framed_audit _ _ _) fun _ => framed_read adminKept_refl _

theorem framed_deletePolicy (id : String) : Framed (AdminKept time) (service.deletePolicy context generated id) := by
  unfold AdminService.deletePolicy
  refine framed_bind adminKept_trans (framed_change ?_) fun deleted => ?_
  · intro db a db' h
    unfold Database.deletePolicy at h
    split at h
    · split at h
      · cases h
      · cases h
        exact ⟨Database.keysKept_of_eq rfl, rfl, rfl⟩
    · cases h
      exact ⟨Database.keysKept_of_eq rfl, rfl, rfl⟩
  · cases deleted with
    | false => exact framed_pure adminKept_refl _
    | true =>
      refine framed_bind adminKept_trans framed_reload fun _ => ?_
      exact framed_bind adminKept_trans (framed_audit _ _ _) fun _ => framed_pure adminKept_refl _

theorem framed_createKey (request : CreateKeyRequest) :
    Framed (AdminKept time) (service.createKey context generated request) := by
  unfold AdminService.createKey
  split
  · exact framed_throw adminKept_refl _
  · refine framed_bind adminKept_trans (framed_change ?_) fun _ => ?_
    · intro db a db' h
      cases hcreate : db.createApiKey (service.newKey context generated request) with
      | error e =>
        rw [hcreate] at h
        cases h
      | ok db'' =>
        rw [hcreate] at h
        cases h
        obtain ⟨rfl, -, -⟩ := Database.createApiKey_ok hcreate
        exact ⟨Database.keysKept_createApiKey hcreate, rfl, rfl⟩
    · exact framed_bind adminKept_trans (framed_audit _ _ _) fun _ => framed_pure adminKept_refl _

theorem framed_revokeKey (id : String) : Framed (AdminKept generated.now) (revokeKey context generated id) := by
  unfold AdminService.revokeKey
  refine framed_bind adminKept_trans (framed_change ?_) fun revoked => ?_
  · intro db a db' h
    cases h
    exact ⟨Database.keysKept_revokeApiKey _ id, rfl, rfl⟩
  · cases revoked with
    | false => exact framed_pure adminKept_refl _
    | true => exact framed_bind adminKept_trans (framed_audit _ _ _) fun _ => framed_pure adminKept_refl _

theorem framed_perform (service : AdminService) (context : ActorContext) (generated : Generated)
    (operation : AdminOperation) :
    Framed (AdminKept generated.now) (service.perform context generated operation) := by
  have hpure : ∀ {α : Type} (a : α), Framed (AdminKept generated.now) (pure a : AdminProcedure α) :=
    fun a => framed_pure adminKept_refl a
  cases operation with
  | listPolicies => exact framed_read adminKept_refl _
  | getPolicy id => exact framed_bind adminKept_trans (framed_read adminKept_refl _) fun _ => hpure _
  | upsertPolicy definition => exact framed_bind adminKept_trans (framed_upsertPolicy definition) fun _ => hpure _
  | deletePolicy id => exact framed_bind adminKept_trans (framed_deletePolicy id) fun _ => hpure _
  | reloadPolicies =>
    refine framed_bind adminKept_trans (framed_bind adminKept_trans framed_reload fun _ => ?_) fun _ => hpure _
    exact framed_bind adminKept_trans (framed_audit _ _ _) fun _ => hpure _
  | listKeys => exact framed_read adminKept_refl _
  | createKey request => exact framed_bind adminKept_trans (framed_createKey request) fun _ => hpure _
  | revokeKey id => exact framed_bind adminKept_trans (framed_revokeKey id) fun _ => hpure _
  | listSponsorships query => exact framed_read adminKept_refl _
  | listAudit query => exact framed_read adminKept_refl _

/-- A secret that is answered is that of a key within what its creator holds, and the key is stored. -/
theorem createKey_ok {s s' : AdminState} {request : CreateKeyRequest} {view : ApiKeyView} {secret : String}
    (h : (service.createKey context generated request).run s = (.ok (view, secret), s')) :
    escalations request.roles context.permissions = [] ∧
      s'.db.findByHash (service.hashApiKey secret) = some (service.newKey context generated request) := by
  unfold AdminService.createKey at h
  split at h
  · cases h
  · rename_i hescalations
    obtain ⟨_, s₁, hcreated, h⟩ := Procedure.bind_ok h
    obtain ⟨_, s₂, haudited, h⟩ := Procedure.bind_ok h
    cases h
    refine ⟨by simpa using hescalations, ?_⟩
    obtain ⟨db, hcreate, rfl⟩ := change_ok hcreated
    obtain ⟨db', haudit, rfl⟩ := change_ok haudited
    have hstored : db.findByHash (service.newKey context generated request).keyHash =
        some (service.newKey context generated request) := by
      cases hrow : s.db.createApiKey (service.newKey context generated request) with
      | error e =>
        rw [hrow] at hcreate
        cases hcreate
      | ok db =>
        rw [hrow] at hcreate
        cases hcreate
        exact Database.findByHash_createApiKey hrow
    have hkeys : db'.apiKeys = db.apiKeys := by
      unfold Database.recordAudit at haudit
      split at haudit
      · cases haudit
      · cases haudit
        rfl
    show db'.findByHash _ = _
    unfold Database.findByHash at hstored ⊢
    rw [hkeys]
    exact hstored

/-- Only the creation of a key answers with a secret. -/
theorem secretIn_ok {s : AdminState} {operation : AdminOperation} {secret : String}
    (h : Accounts.secretIn ((service.perform context generated operation).run s).1 = some secret) :
    ∃ request view, operation = .createKey request ∧ (service.createKey context generated request).run s =
      (.ok (view, secret), ((service.perform context generated operation).run s).2) := by
  generalize hrun : (service.perform context generated operation).run s = answered at h
  obtain ⟨response, s'⟩ := answered
  obtain ⟨key, rfl⟩ : ∃ key, response = .ok (.created key secret) := by
    simp only [Accounts.secretIn] at h
    split at h
    · rename_i key sec
      cases h
      exact ⟨key, rfl⟩
    · cases h
  cases operation with
  | createKey request =>
    obtain ⟨⟨view, secret'⟩, s'', hcreated, hanswer⟩ := Procedure.bind_ok hrun
    cases hanswer
    exact ⟨request, key, rfl, hcreated⟩
  | listPolicies => cases hrun
  | listKeys => cases hrun
  | listSponsorships query => cases hrun
  | listAudit query => cases hrun
  | _ =>
    obtain ⟨_, _, -, hanswer⟩ := Procedure.bind_ok hrun
    cases hanswer

end

theorem perform_kept (deps : AccountDeps Text) (s : Accounts Text) (presented : Presented Text) (principal : Principal)
    (clientIp : Option String) (operation : AdminOperation) (generated : Generated) :
    AdminKept s.time s.admin (s.perform deps presented principal clientIp operation generated).admin :=
  framed_perform deps.admin (principal.actorContext clientIp) { generated with now := s.time } operation s.admin

/-! ## What a step can do -/

section
variable [DecidableEq Text]

inductive AccountStep (deps : AccountDeps Text) (s : Accounts Text) : AccountLabel Text → Accounts Text → Prop
  /-- A request that is refused, or that is for nothing here. -/
  | refused (l : AccountLabel Text) : AccountStep deps s l s
  | wait (seconds : Nat) : AccountStep deps s (.wait seconds) { s with time := s.time + seconds }
  | setStatus (tenantId : String) (status : TenantStatus) :
    AccountStep deps s (.setStatus tenantId status) (s.setDb (s.db.setStatus tenantId status))
  | addMember {tenantId subject : String} {role : TenantRole} {db : Database} :
    s.db.addMember tenantId subject role = .ok db → AccountStep deps s (.addMember tenantId subject role) (s.setDb db)
  | signIn {subject : String} {requested : Option String} (tenant : Tenant) (role : TenantRole) :
    s.membershipFor subject requested = some (tenant, role) →
    AccountStep deps s (.signIn subject requested) { s with pending := s.pending ++ [.signIn subject tenant role] }
  | signUp {subject tenantId name : String} {db : Database} :
    s.db.createWithOwner tenantId name subject s.time = .ok db →
    AccountStep deps s (.signUp subject tenantId name)
      { s.setDb db with pending := s.pending ++ [.signIn subject ⟨tenantId, name, .active, s.time⟩ .owner] }
  | exchange {presented : Presented Text} {principal : Principal} :
    deps.auth.guard s.db [] presented s.time = .ok principal →
    AccountStep deps s (.exchange presented)
      { s with pending := s.pending ++ [.exchange presented principal (s.originsOf deps presented)] }
  | mint {i : Nat} {p : Pending Text} : s.pending[i]? = some p → AccountStep deps s (.mint i) (s.mint deps i p)
  | admin {presented : Presented Text} {principal : Principal} (clientIp : Option String) (operation : AdminOperation)
    (generated : Generated) :
    deps.auth.guard s.db operation.requires presented s.time = .ok principal →
    AccountStep deps s (.admin presented clientIp operation generated)
      (s.perform deps presented principal clientIp operation generated)
  | sponsor {presented : Presented Text} {principal : Principal} {service : Service} (replica : Nat)
    (request : SponsorRequest) (clientIp : Option String) :
    deps.auth.guard s.db [.sponsorCreate] presented s.time = .ok principal →
    SponsorStep deps.sponsor s.service (.sponsor replica (Accounts.scopedRequest principal request)
      ⟨principal.tenantId, clientIp, some principal.apiKeyId⟩) service →
    AccountStep deps s (.sponsor replica presented request clientIp) (s.start principal service)
  | service {l : SponsorLabel} {service : Service} :
    (∀ replica request caller, l ≠ .sponsor replica request caller) → SponsorStep deps.sponsor s.service l service →
    AccountStep deps s (.service l) { s with service := service }

theorem accountStep_cases {deps : AccountDeps Text} {s s' : Accounts Text} {l : AccountLabel Text}
    (h : s.step deps l = some s') : AccountStep deps s l s' := by
  cases l with
  | wait seconds =>
    cases h
    exact .wait seconds
  | setStatus tenantId status =>
    cases h
    exact .setStatus tenantId status
  | addMember tenantId subject role =>
    simp only [Accounts.step] at h
    split at h
    · rename_i db hdb
      cases h
      exact .addMember hdb
    · cases h
      exact .refused _
  | signIn subject requested =>
    simp only [Accounts.step] at h
    split at h
    · rename_i tenant role _ hmembership
      cases h
      exact .signIn tenant role hmembership
    · cases h
      exact .refused _
  | signUp subject tenantId name =>
    simp only [Accounts.step] at h
    split at h
    · split at h
      · rename_i db hdb
        cases h
        exact .signUp hdb
      · cases h
        exact .refused _
    · cases h
      exact .refused _
  | exchange presented =>
    simp only [Accounts.step] at h
    split at h
    · rename_i principal hguard
      cases h
      exact .exchange hguard
    · cases h
      exact .refused _
  | mint i =>
    obtain ⟨p, hp, rfl⟩ := Option.map_eq_some_iff.mp h
    exact .mint hp
  | admin presented clientIp operation generated =>
    simp only [Accounts.step] at h
    split at h
    · rename_i principal hguard
      cases h
      exact .admin clientIp operation generated hguard
    · cases h
      exact .refused _
  | sponsor replica presented request clientIp =>
    simp only [Accounts.step] at h
    split at h
    · rename_i principal hguard
      obtain ⟨service, hservice, rfl⟩ := Option.map_eq_some_iff.mp h
      exact .sponsor replica request clientIp hguard (sponsorStep_cases hservice)
    · cases h
      exact .refused _
  | service l =>
    cases l with
    | sponsor replica request caller => cases h
    | _ =>
      simp only [Accounts.step] at h
      obtain ⟨service, hservice, rfl⟩ := Option.map_eq_some_iff.mp h
      exact .service (by intro _ _ _ heq; cases heq) (sponsorStep_cases hservice)

variable {deps : AccountDeps Text} {s s' : Accounts Text} {l : AccountLabel Text}

theorem addMember_ok {db db' : Database} {tenantId subject : String} {role : TenantRole}
    (h : db.addMember tenantId subject role = .ok db') : db'.apiKeys = db.apiKeys ∧ db'.tenants = db.tenants := by
  unfold Database.addMember at h
  split at h
  · cases h
  · split at h
    · cases h
      exact ⟨rfl, rfl⟩
    · cases h
      exact ⟨rfl, rfl⟩

theorem createWithOwner_ok {db db' : Database} {id name subject : String} {now : Nat}
    (h : db.createWithOwner id name subject now = .ok db') :
    db'.apiKeys = db.apiKeys ∧ db'.tenants = db.tenants ++ [⟨id, name, .active, now⟩] ∧ db.tenant? id = none := by
  unfold Database.createWithOwner at h
  split at h
  · cases h
  · split at h
    · cases h
    · rename_i hnew
      cases h
      exact ⟨rfl, rfl, by simpa using hnew⟩

theorem accountStep_keys (h : AccountStep deps s l s') : Database.KeysKept s.time s.db s'.db := by
  cases h with
  | addMember hdb => exact Database.keysKept_of_eq (addMember_ok hdb).1
  | signUp hdb => exact Database.keysKept_of_eq (createWithOwner_ok hdb).1
  | admin clientIp operation generated hguard => exact (perform_kept deps s _ _ clientIp operation generated).keys
  | _ => exact Database.keysKept_of_eq rfl

theorem accountStep_time (h : AccountStep deps s l s') : s.time ≤ s'.time := by
  cases h with
  | wait seconds => exact Nat.le_add_right _ _
  | _ => exact Nat.le_refl _

/-- A request for a session that is new in a step is a sign-in, or an exchange that the guard lets through. -/
theorem accountStep_pending (h : AccountStep deps s l s') {p : Pending Text} (hp : p ∈ s'.pending) :
    p ∈ s.pending ∨ (∃ subject tenant role, p = .signIn subject tenant role) ∨
      ∃ presented principal, p = .exchange presented principal (s.originsOf deps presented) ∧
        deps.auth.guard s.db [] presented s.time = .ok principal := by
  cases h with
  | signIn tenant role hmembership =>
    rcases List.mem_append.mp hp with hold | hnew
    · exact .inl hold
    · exact .inr (.inl ⟨_, tenant, role, List.mem_singleton.mp hnew⟩)
  | signUp hdb =>
    rcases List.mem_append.mp hp with hold | hnew
    · exact .inl hold
    · exact .inr (.inl ⟨_, _, _, List.mem_singleton.mp hnew⟩)
  | exchange hguard =>
    rcases List.mem_append.mp hp with hold | hnew
    · exact .inl hold
    · exact .inr (.inr ⟨_, _, List.mem_singleton.mp hnew, hguard⟩)
  | mint hfound => exact .inl (List.mem_of_mem_eraseIdx hp)
  | _ => exact .inl hp

inductive IssuedBy (deps : AccountDeps Text) (s s' : Accounts Text) : AccountLabel Text → Issue Text → Prop
  | mint {i : Nat} {p : Pending Text} {token : Token Text} :
    s.pending[i]? = some p → p.token deps s.time = some token →
    IssuedBy deps s s' (.mint i) ⟨.token token, p.presented, p.origins, p.tenantId, s.time, s.db.suspended p.tenantId⟩
  | createKey {presented : Presented Text} {principal : Principal} {clientIp : Option String}
    {request : CreateKeyRequest} {generated : Generated} {secret : String} :
    deps.auth.guard s.db [.keyWrite] presented s.time = .ok principal →
    escalations request.roles principal.permissions = [] →
    s'.db.findByHash (deps.admin.hashApiKey secret) =
      some (deps.admin.newKey (principal.actorContext clientIp) { generated with now := s.time } request) →
    IssuedBy deps s s' (.admin presented clientIp (.createKey request) generated)
      ⟨.text secret, some presented, [], principal.tenantId, s.time, s.db.suspended principal.tenantId⟩

theorem accountStep_issues (h : AccountStep deps s l s') {issue : Issue Text} (hissue : issue ∈ s'.issues) :
    issue ∈ s.issues ∨ IssuedBy deps s s' l issue := by
  cases h with
  | mint hp =>
    refine (List.mem_append.mp hissue).imp_right fun hnew => ?_
    obtain ⟨token, htoken, rfl⟩ := Option.map_eq_some_iff.mp (Option.mem_toList.mp hnew)
    exact .mint hp htoken
  | admin clientIp operation generated hguard =>
    refine (List.mem_append.mp hissue).imp_right fun hnew => ?_
    obtain ⟨secret, hsecret, rfl⟩ := Option.map_eq_some_iff.mp (Option.mem_toList.mp hnew)
    obtain ⟨request, view, rfl, hcreated⟩ := secretIn_ok hsecret
    obtain ⟨hescalations, hstored⟩ := createKey_ok hcreated
    exact .createKey hguard hescalations hstored
  | _ => exact .inl hissue

end

end Paymaster
