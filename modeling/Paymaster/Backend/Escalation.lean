import Paymaster.Backend.SessionLifetime

/-!
# Chains of credentials

A credential hands out others: a session for itself, and keys with roles of its
choice. Each is of the tenant of the one that it was obtained by, and holds
nothing that that one does not hold, but for `sponsor:create`, which whoever may
create keys may give to them. So it is along any chain.
-/

namespace Paymaster

def Permission.reads : Permission → Bool
  | .policyRead | .chainRead | .keyRead | .metricsRead | .platformRead => true
  | _ => false

/-- What a caller may hand to another: its tenant, what it holds, and
`sponsor:create` if it may create keys at all. -/
structure Principal.Within (p q : Principal) : Prop where
  tenant : p.tenantId = q.tenantId
  permissions : ∀ permission ∈ p.permissions,
    permission ∈ q.permissions ∨ permission = .sponsorCreate ∧ .keyWrite ∈ q.permissions

theorem within_refl (p : Principal) : p.Within p := ⟨rfl, fun _ h => .inl h⟩

theorem within_trans {p q r : Principal} (h : p.Within q) (h' : q.Within r) : p.Within r := by
  refine ⟨h.tenant.trans h'.tenant, fun permission hp => ?_⟩
  rcases h.permissions permission hp with hq | ⟨rfl, hkeys⟩
  · exact h'.permissions permission hq
  · rcases h'.permissions .keyWrite hkeys with hr | ⟨hne, -⟩
    · exact .inr ⟨rfl, hr⟩
    · cases hne

theorem within_createKey {p q : Principal} (htenant : p.tenantId = q.tenantId) (hkeys : .keyWrite ∈ q.permissions)
    (h : escalations p.roles q.permissions = []) : p.Within q := by
  refine ⟨htenant, fun permission hp => ?_⟩
  by_cases hheld : permission ∈ q.permissions
  · exact .inl hheld
  · have hdelegatable : permission ∈ delegatable := by
      by_contra hnot
      have hmem : permission ∈ escalations p.roles q.permissions :=
        List.mem_filter.mpr ⟨hp, by simp [hheld, hnot]⟩
      rw [h] at hmem
      cases hmem
    exact .inr ⟨List.mem_singleton.mp hdelegatable, hkeys⟩

variable {Text : Type}

/-! ## Who a credential stands for -/

namespace JwtService

variable {jwt : JwtService Text} {t : Token Text} {payload : JwtPayload} {now later : Nat} {claims claims' : JwtClaims}

theorem claimsOf_ok (h : jwt.claimsOf payload now = .ok claims) :
    payload.sub = some claims.sub ∧ payload.tenantId = some claims.tenantId ∧ payload.name = some claims.name ∧
      (payload.roles.bind fun roles => roles.mapM fun role => role.bind Role.ofName?) = some claims.roles ∧
      payload.policyId = claims.policyId := by
  unfold claimsOf at h
  split at h
  · cases h
  · split at h
    · cases h
    · split at h
      · cases h
      · split at h
        · cases h
        · split at h
          · rename_i sub name roles tenantId hsub hname hroles htenant
            split at h
            · cases h
            · split at h
              · rename_i found hfound
                cases h
                exact ⟨hsub, htenant, hname, by rw [hroles, Option.bind_some, hfound], rfl⟩
              · cases h
          · cases h

theorem verify_payload (h : jwt.verify t now = .ok claims) :
    ∃ payload, jwt.decodePayload t.payload = some payload ∧ jwt.claimsOf payload now = .ok claims := by
  unfold verify at h
  split at h
  · cases h
  · split at h
    · cases h
    · split at h
      · cases h
      · rename_i payload hpayload
        exact ⟨payload, hpayload, h⟩

theorem verify_unique (h : jwt.verify t now = .ok claims) (h' : jwt.verify t later = .ok claims') : claims = claims' := by
  obtain ⟨payload, hpayload, hclaims⟩ := verify_payload h
  obtain ⟨payload', hpayload', hclaims'⟩ := verify_payload h'
  obtain rfl := Option.some.inj (hpayload.symm.trans hpayload')
  obtain ⟨hsub, htenant, hname, hroles, hpolicy⟩ := claimsOf_ok hclaims
  obtain ⟨hsub', htenant', hname', hroles', hpolicy'⟩ := claimsOf_ok hclaims'
  cases claims
  cases claims'
  simp_all

end JwtService

namespace AccountDeps

variable (deps : AccountDeps Text) (db : Database)

/-- A key is its row's, whether it is still good or not; a token is that of its claims. -/
def StandsFor (presented : Presented Text) (p : Principal) : Prop :=
  match presented with
  | .nothing => False
  | .text secret => ∃ row, db.findByHash (deps.admin.hashApiKey secret) = some row ∧ p = row.principal
  | .token t => ∃ jwt now claims, deps.jwt = some jwt ∧ jwt.verify t now = .ok claims ∧ p = claims.principal

def IssuedFor (presented : Presented Text) (p : Principal) : Prop :=
  match presented with
  | .nothing => False
  | .text secret => ∃ row, db.findByHash (deps.admin.hashApiKey secret) = some row ∧ p = row.principal
  | .token t => ∃ jwt now claims, deps.jwt = some jwt ∧ t = jwt.sign claims now ∧ p = claims.principal

end AccountDeps

section
variable {deps : AccountDeps Text} {db db' : Database} {presented : Presented Text} {p q : Principal} {time now : Nat}

open AccountDeps

theorem standsFor_unique (h : deps.StandsFor db presented p) (h' : deps.StandsFor db presented q) : p = q := by
  cases presented with
  | nothing => exact h.elim
  | text secret =>
    obtain ⟨row, hrow, rfl⟩ := h
    obtain ⟨row', hrow', rfl⟩ := h'
    rw [Option.some.inj (hrow.symm.trans hrow')]
  | token t =>
    obtain ⟨jwt, now, claims, hjwt, hverify, rfl⟩ := h
    obtain ⟨jwt', now', claims', hjwt', hverify', rfl⟩ := h'
    obtain rfl := Option.some.inj (hjwt.symm.trans hjwt')
    rw [JwtService.verify_unique hverify hverify']

theorem issuedFor_unique (h : deps.IssuedFor db presented p) (h' : deps.StandsFor db presented q) : q = p := by
  cases presented with
  | nothing => exact h.elim
  | text secret =>
    obtain ⟨row, hrow, rfl⟩ := h
    obtain ⟨row', hrow', rfl⟩ := h'
    rw [Option.some.inj (hrow.symm.trans hrow')]
  | token t =>
    obtain ⟨jwt, now, claims, hjwt, rfl, rfl⟩ := h
    obtain ⟨jwt', now', claims', hjwt', hverify, rfl⟩ := h'
    obtain rfl := Option.some.inj (hjwt.symm.trans hjwt')
    rw [jwt.verify_sign] at hverify
    split at hverify
    · cases hverify
    · split at hverify
      · cases hverify
      · split at hverify
        · cases hverify
        · rw [Except.ok.inj hverify]

theorem row_kept (hkeys : Database.KeysKept time db db') {hash : String}
    (h : ∃ row, db.findByHash hash = some row ∧ p = row.principal) :
    ∃ row, db'.findByHash hash = some row ∧ p = row.principal := by
  obtain ⟨row, hrow, rfl⟩ := h
  obtain ⟨row', hrow', rfl | ⟨-, rfl⟩⟩ := hkeys hash row hrow
  · exact ⟨_, hrow', rfl⟩
  · exact ⟨_, hrow', rfl⟩

theorem standsFor_kept (hkeys : Database.KeysKept time db db') (h : deps.StandsFor db presented p) :
    deps.StandsFor db' presented p := by
  cases presented with
  | nothing => exact h
  | text secret => exact row_kept hkeys h
  | token t => exact h

theorem issuedFor_kept (hkeys : Database.KeysKept time db db') (h : deps.IssuedFor db presented p) :
    deps.IssuedFor db' presented p := by
  cases presented with
  | nothing => exact h
  | text secret => exact row_kept hkeys h
  | token t => exact h

/-- Whom the guard lets through is who the credential stands for. -/
theorem standsFor_guard {required : List Permission} (h : deps.auth.guard db required presented now = .ok p) :
    deps.StandsFor db presented p := by
  rcases resolvePrincipal_cases (guard_ok h).1 with ⟨secret, row, rfl, hrow, -, -, rfl⟩ | ⟨t, jwt, claims, rfl, hjwt, hverify, rfl⟩
  · exact ⟨row, hrow, rfl⟩
  · exact ⟨jwt, now, claims, hjwt, hverify, rfl⟩

end

/-! ## Chains -/

def Obtained (issues : List (Issue Text)) (presented issued : Presented Text) : Prop :=
  ∃ issue ∈ issues, issue.presented = some presented ∧ issue.issued = issued

def Reaches (issues : List (Issue Text)) : Presented Text → Presented Text → Prop :=
  Relation.ReflTransGen (Obtained issues)

namespace Accounts

/-- The invariant: every credential that was handed out is related to the one that was presented for it. -/
structure Related (deps : AccountDeps Text) (R : Principal → Principal → Prop) (s : Accounts Text) : Prop where
  pending : ∀ presented principal origins, .exchange presented principal origins ∈ s.pending →
    deps.StandsFor s.db presented principal
  issues : ∀ issue ∈ s.issues, ∀ presented, issue.presented = some presented →
    ∃ p q, deps.StandsFor s.db presented q ∧ deps.IssuedFor s.db issue.issued p ∧ R p q

end Accounts

section
variable {deps : AccountDeps Text} {s s' : Accounts Text} {R : Principal → Principal → Prop}

open Accounts

theorem related_fresh (hfresh : s.Fresh) : s.Related deps R := by
  refine ⟨?_, ?_⟩
  · simp [hfresh.pending]
  · simp [hfresh.issues]

theorem mint_related (hrefl : ∀ p, R p p) {p : Pending Text} {token : Token Text} {presented : Presented Text}
    (hs : s.Related deps R) (hp : p ∈ s.pending) (htoken : p.token deps s.time = some token)
    (hpresented : p.presented = some presented) :
    ∃ p q, deps.StandsFor s.db presented q ∧ deps.IssuedFor s.db (.token token) p ∧ R p q := by
  cases p with
  | exchange presented' principal origins =>
    cases hpresented
    obtain ⟨jwt, hjwt, rfl⟩ := Option.map_eq_some_iff.mp htoken
    exact ⟨principal, principal, hs.pending _ _ _ hp, ⟨jwt, s.time, _, hjwt, rfl, rfl⟩, hrefl principal⟩
  | signIn subject tenant role => cases hpresented

/-- A created key stands for the roles that were asked for: they are stored by name and read back. -/
theorem newKey_principal (context : ActorContext) (generated : Generated) (request : CreateKeyRequest) :
    (deps.admin.newKey context generated request).principal =
      ⟨context.writeScope, generated.keyId, request.name, request.roles, request.policyId⟩ := by
  show (⟨_, _, _, (List.map Role.name _).filterMap Role.ofName?, _⟩ : Principal) = _
  rw [Role.filterMap_ofName?_name]
  rfl

theorem issued_related (hrefl : ∀ p, R p p) {l : AccountLabel Text} {issue : Issue Text} {presented : Presented Text}
    (hs : s.Related deps R) (hkeys : Database.KeysKept s.time s.db s'.db)
    (hcreate : ∀ presented clientIp request generated principal, l = .admin presented clientIp (.createKey request) generated →
      deps.auth.guard s.db [.keyWrite] presented s.time = .ok principal →
      escalations request.roles principal.permissions = [] →
      R ⟨principal.tenantId, generated.keyId, request.name, request.roles, request.policyId⟩ principal)
    (h : IssuedBy deps s s' l issue) (hpresented : issue.presented = some presented) :
    ∃ p q, deps.StandsFor s'.db presented q ∧ deps.IssuedFor s'.db issue.issued p ∧ R p q := by
  cases h with
  | mint hp htoken =>
    obtain ⟨p, q, hstands, hissued, hwithin⟩ := mint_related hrefl hs (List.mem_of_getElem? hp) htoken hpresented
    exact ⟨p, q, standsFor_kept hkeys hstands, issuedFor_kept hkeys hissued, hwithin⟩
  | @createKey _ principal clientIp request generated _ hguard hescalations hstored =>
    cases hpresented
    refine ⟨_, _, standsFor_kept hkeys (standsFor_guard hguard), ⟨_, hstored, rfl⟩, ?_⟩
    rw [newKey_principal]
    exact hcreate _ clientIp request generated principal rfl hguard hescalations

theorem reaches_related (hrefl : ∀ p, R p p) (htrans : ∀ {p q r}, R p q → R q r → R p r) (hs : s.Related deps R)
    {start presented : Presented Text} {p₀ p : Principal} (hstart : deps.StandsFor s.db start p₀)
    (h : Reaches s.issues start presented) (hp : deps.StandsFor s.db presented p) : R p p₀ := by
  induction h generalizing p with
  | refl =>
    rw [standsFor_unique hp hstart]
    exact hrefl p₀
  | tail _ hobtained ih =>
    obtain ⟨issue, hissue, hpresented, rfl⟩ := hobtained
    obtain ⟨p', q, hstands, hissued, hwithin⟩ := hs.issues issue hissue _ hpresented
    rw [issuedFor_unique hissued hp]
    exact htrans hwithin (ih hstands)

variable [DecidableEq Text]

theorem related_step (hrefl : ∀ p, R p p) {l : AccountLabel Text} (hs : s.Related deps R) (h : AccountStep deps s l s')
    (hcreate : ∀ presented clientIp request generated principal, l = .admin presented clientIp (.createKey request) generated →
      deps.auth.guard s.db [.keyWrite] presented s.time = .ok principal →
      escalations request.roles principal.permissions = [] →
      R ⟨principal.tenantId, generated.keyId, request.name, request.roles, request.policyId⟩ principal) :
    s'.Related deps R := by
  have hkeys := accountStep_keys h
  refine ⟨?_, ?_⟩
  · intro presented principal origins hp
    rcases accountStep_pending h hp with hold | ⟨_, _, _, heq⟩ | ⟨_, _, heq, hguard⟩
    · exact standsFor_kept hkeys (hs.pending _ _ _ hold)
    · cases heq
    · cases heq
      exact standsFor_kept hkeys (standsFor_guard hguard)
  · intro issue hissue presented hpresented
    rcases accountStep_issues h hissue with hold | hnew
    · obtain ⟨p, q, hstands, hissued, hwithin⟩ := hs.issues issue hold presented hpresented
      exact ⟨p, q, standsFor_kept hkeys hstands, issuedFor_kept hkeys hissued, hwithin⟩
    · exact issued_related hrefl hs hkeys hcreate hnew hpresented

theorem within_step {l : AccountLabel Text} (hs : s.Related deps Principal.Within) (h : AccountStep deps s l s') :
    s'.Related deps Principal.Within := by
  apply related_step within_refl hs h
  intro presented clientIp request generated principal _ hguard hescalations
  exact within_createKey rfl ((guard_ok hguard).2 .keyWrite (List.mem_singleton_self _)) hescalations

/-- In every run, a credential that a chain of exchanges and key creations
reaches is of the tenant that the chain starts from and holds what its start
holds, and `sponsor:create` at most if the start may create keys; a start that
is only a viewer reaches nothing that does more than read. -/
theorem no_escalation {ls : List (AccountLabel Text)} (hfresh : s.Fresh)
    (hrun : Runs.run (Accounts.step deps) s ls = some s') {start presented : Presented Text} {p₀ p : Principal}
    (hstart : deps.StandsFor s'.db start p₀) (hreach : Reaches s'.issues start presented)
    (hp : deps.StandsFor s'.db presented p) :
    p.tenantId = p₀.tenantId ∧
      (∀ permission ∈ p.permissions,
        permission ∈ p₀.permissions ∨ permission = .sponsorCreate ∧ .keyWrite ∈ p₀.permissions) ∧
      (.platformRead ∈ p.permissions → .platformRead ∈ p₀.permissions) ∧
      (.billingWrite ∈ p.permissions → .billingWrite ∈ p₀.permissions) ∧
      ((∀ role ∈ p₀.roles, role = .viewer) → ∀ permission ∈ p.permissions, permission.reads = true) := by
  have hs' : s'.Related deps Principal.Within :=
    Runs.invariant (fun hs h => within_step hs (accountStep_cases h)) (related_fresh hfresh) hrun
  have hwithin := reaches_related within_refl within_trans hs' hstart hreach hp
  have hkeeps : ∀ permission, permission ≠ .sponsorCreate → permission ∈ p.permissions → permission ∈ p₀.permissions :=
    fun permission hne hmem => (hwithin.permissions permission hmem).resolve_right fun h => hne h.1
  refine ⟨hwithin.tenant, hwithin.permissions, hkeeps .platformRead (by decide), hkeeps .billingWrite (by decide), ?_⟩
  intro hviewer permission hmem
  have hreads : ∀ permission ∈ Role.viewer.permissions, permission.reads = true := by decide
  have hread : ∀ permission ∈ p₀.permissions, permission.reads = true := by
    intro permission hmem
    obtain ⟨role, hrole, hgrants⟩ := mem_permissionsFor.mp hmem
    rw [hviewer role hrole] at hgrants
    exact hreads permission hgrants
  rcases hwithin.permissions permission hmem with hheld | ⟨-, hkeys⟩
  · exact hread permission hheld
  · cases hread .keyWrite hkeys

end

/-! ## A key for a dApp -/

def createByExchange : List (AccountLabel (JwtHeader ⊕ JwtPayload)) :=
  [.exchange (.text acmeSecret), .mint 0,
    .admin (keyedSession 1700000000) none (.createKey ⟨"dApp", [.sponsor], none, .live, none⟩) sampleGenerated]

/-- The key that the chain ends with sponsors, and does nothing else. -/
theorem no_escalation_acme : ∃ s, Runs.run (Accounts.step jwtDeps) keyedAccounts createByExchange = some s ∧
    Reaches s.issues (.text acmeSecret) (.text "pm_live_random") ∧
    ∃ p, jwtDeps.StandsFor s.db (.text "pm_live_random") p ∧ p.permissions = [.sponsorCreate] ∧ p.tenantId = "acme" := by
  have hrows : (Runs.run (Accounts.step jwtDeps) keyedAccounts createByExchange).map (fun s =>
      ((s.db.findByHash acmeSecret).map fun row => row.principal.tenantId,
        (s.db.findByHash "pm_live_random").map fun row => row.principal.permissions)) =
      some (some "acme", some [.sponsorCreate]) := by
    decide +kernel
  have hissues : (Runs.run (Accounts.step jwtDeps) keyedAccounts createByExchange).map (fun s =>
      s.issues.map fun issue => (issue.presented, issue.issued)) =
      some [(some (.text acmeSecret), keyedSession 1700000000), (some (keyedSession 1700000000), .text "pm_live_random")] := by
    decide +kernel
  obtain ⟨s, hs, heq⟩ := Option.map_eq_some_iff.mp hrows
  obtain ⟨hstart, hcreated⟩ := Prod.mk.inj heq
  rw [hs, Option.map_some, Option.some.injEq] at hissues
  obtain ⟨first, hfirst, hacme⟩ := Option.map_eq_some_iff.mp hstart
  obtain ⟨row, hrow, hpermissions⟩ := Option.map_eq_some_iff.mp hcreated
  have hobtained : ∀ presented issued, (some presented, issued) ∈ s.issues.map (fun issue => (issue.presented, issue.issued)) →
      Obtained s.issues presented issued := by
    intro presented issued hmem
    obtain ⟨issue, hissue, hpair⟩ := List.mem_map.mp hmem
    obtain ⟨hpresented, hissued⟩ := Prod.mk.inj hpair
    exact ⟨issue, hissue, hpresented, hissued⟩
  have hreach : Reaches s.issues (.text acmeSecret) (.text "pm_live_random") := by
    refine .tail (.single (hobtained _ (keyedSession 1700000000) ?_)) (hobtained _ _ ?_)
    · rw [hissues]
      exact List.mem_cons_self
    · rw [hissues]
      exact List.mem_cons_of_mem _ List.mem_cons_self
  have hstands : jwtDeps.StandsFor s.db (.text acmeSecret) first.principal := ⟨first, hfirst, rfl⟩
  have hsponsors : jwtDeps.StandsFor s.db (.text "pm_live_random") row.principal := ⟨row, hrow, rfl⟩
  have hwithin := no_escalation keyedAccounts_fresh hs hstands hreach hsponsors
  exact ⟨s, hs, hreach, row.principal, hsponsors, hpermissions, hwithin.1.trans hacme⟩

end Paymaster
