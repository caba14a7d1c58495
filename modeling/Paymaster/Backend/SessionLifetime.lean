import Paymaster.Backend.Accounts
import Paymaster.Backend.Suspension

/-!
# How long a session lives

A session expires `ttlSeconds` after it was signed, but the exchange accepts
sessions as well as keys, and signs a new one for a session that is about to
expire. A chain of exchanges ends with the key that it comes from if, and
because, none is signed after the key's end.
-/

namespace Paymaster

def ApiKeyRow.ends (row : ApiKeyRow) : List Nat := row.revokedAt.toList ++ row.expiresAt.toList

theorem ends_kept {row row' : ApiKeyRow} {time T : Nat} (h : row' = row ∨ row.enabled = true ∧ row' = row.revoked time)
    (hT : T ∈ row'.ends) : T ∈ row.ends ∨ T = time := by
  rcases h with rfl | ⟨-, rfl⟩
  · exact .inl hT
  · unfold ApiKeyRow.ends ApiKeyRow.revoked at hT
    rcases List.mem_append.mp hT with hrevoked | hexpires
    · exact .inr (Option.some.inj (Option.mem_toList.mp hrevoked)).symm
    · exact .inl (List.mem_append_right _ hexpires)

variable {Text : Type}

namespace Accounts

variable [DecidableEq Text] (deps : AccountDeps Text) (s : Accounts Text)

def ComesFrom (hash : String) (presented : Presented Text) : Prop :=
  (∃ secret, presented = .text secret ∧ deps.admin.hashApiKey secret = hash) ∨
    ∃ issue ∈ s.issues, issue.issued = presented ∧ hash ∈ issue.origins

/-- No session is signed after the end of a key that it comes from. -/
def signsBeforeEnds : AccountLabel Text → Bool
  | .mint i =>
    ((s.pending[i]?.map Pending.origins).getD []).all fun hash =>
      (s.db.findByHash hash).all fun row => row.ends.all fun T => s.time ≤ T
  | _ => true

structure SignedInTime (jwt : JwtService Text) (issue : Issue Text) (row : ApiKeyRow) : Prop where
  signed : ∃ claims, issue.issued = .token (jwt.sign claims issue.issuedAt)
  before : ∀ T ∈ row.ends, issue.issuedAt ≤ T

/-- The invariant: every key that something comes from is there, and the session
was signed before the key's end. -/
structure InTime (jwt : JwtService Text) (s : Accounts Text) : Prop where
  pending : ∀ p ∈ s.pending, ∀ hash ∈ p.origins, ∃ row, s.db.findByHash hash = some row
  issues : ∀ issue ∈ s.issues, ∀ hash ∈ issue.origins, ∃ row, s.db.findByHash hash = some row ∧ SignedInTime jwt issue row
  past : ∀ issue ∈ s.issues, issue.issuedAt ≤ s.time

end Accounts

/-! ## Steps -/

section
variable {deps : AccountDeps Text} {jwt : JwtService Text} {s s' : Accounts Text}

open Accounts

theorem token_signed (hjwt : deps.jwt = some jwt) {p : Pending Text} {token : Token Text}
    (h : p.token deps s.time = some token) : ∃ claims, token = jwt.sign claims s.time := by
  cases p with
  | exchange presented principal origins =>
    simp only [Pending.token, AuthDeps.issueToken, AccountDeps.auth, hjwt, Option.map_some, Option.some.injEq] at h
    exact ⟨_, h.symm⟩
  | signIn subject tenant role =>
    simp only [Pending.token, hjwt, Option.map_some] at h
    split at h
    · cases h
    · exact ⟨_, (Option.some.inj h).symm⟩

/-- What is signed is signed before the ends of the keys that it comes from. -/
theorem mint_inTime {i : Nat} {p : Pending Text} {token : Token Text} {hash : String} {suspended : Bool}
    (hjwt : deps.jwt = some jwt) (hs : s.InTime jwt) (hl : s.signsBeforeEnds (.mint i) = true)
    (hp : s.pending[i]? = some p) (htoken : p.token deps s.time = some token) (hhash : hash ∈ p.origins) :
    ∃ row, s.db.findByHash hash = some row ∧
      SignedInTime jwt ⟨.token token, p.presented, p.origins, p.tenantId, s.time, suspended⟩ row := by
  obtain ⟨row, hrow⟩ := hs.pending p (List.mem_of_getElem? hp) hash hhash
  obtain ⟨claims, rfl⟩ := token_signed hjwt htoken
  refine ⟨row, hrow, ⟨claims, rfl⟩, fun T hT => ?_⟩
  simp only [signsBeforeEnds, hp, Option.map_some, Option.getD_some, List.all_eq_true] at hl
  have hends := hl hash hhash
  rw [hrow, Option.all_some, List.all_eq_true] at hends
  exact of_decide_eq_true (hends T hT)

theorem key_refused (auth : AuthDeps Text) {db : Database} {secret : String} {row : ApiKeyRow} {T now : Nat}
    {principal : Principal} (hrow : db.findByHash (auth.hashApiKey secret) = some row) (hend : T ∈ row.ends)
    (hnow : T ≤ now) : auth.resolvePrincipal db (.text secret) now ≠ some principal := by
  intro h
  rcases resolvePrincipal_cases h with ⟨_, row', heq, hrow', henabled, hexpires, -⟩ | ⟨_, _, _, heq, -⟩
  · cases heq
    obtain rfl := Option.some.inj (hrow.symm.trans hrow')
    rcases List.mem_append.mp hend with hrevoked | hexpired
    · -- A key with a time of revocation is disabled.
      have hconsistent := row.consistent
      rw [Option.mem_toList.mp hrevoked, henabled] at hconsistent
      cases hconsistent
    · exact absurd (hexpires T (Option.mem_toList.mp hexpired)) (Nat.not_lt.mpr hnow)
  · cases heq

theorem session_refused (auth : AuthDeps Text) {db : Database} {claims : JwtClaims} {issuedAt now : Nat}
    {principal : Principal} (hjwt : auth.jwt = some jwt) (hnow : issuedAt + jwt.ttlSeconds ≤ now) :
    auth.resolvePrincipal db (.token (jwt.sign claims issuedAt)) now ≠ some principal := by
  intro h
  rcases resolvePrincipal_cases h with ⟨_, _, heq, -⟩ | ⟨t, jwt', claims', heq, hjwt', hverify, -⟩
  · cases heq
  · cases heq
    obtain rfl := Option.some.inj (hjwt.symm.trans hjwt')
    rw [jwt.verify_sign, if_pos hnow] at hverify
    cases hverify

section
variable [DecidableEq Text]

/-- An exchange knows the keys that it comes from. -/
theorem originsOf_found (hs : s.InTime jwt) {presented : Presented Text} {hash : String}
    (h : hash ∈ s.originsOf deps presented) : ∃ row, s.db.findByHash hash = some row := by
  cases presented with
  | nothing => cases h
  | text secret =>
    simp only [originsOf] at h
    split at h
    · rename_i hfound
      obtain rfl := List.mem_singleton.mp h
      exact Option.isSome_iff_exists.mp hfound
    · cases h
  | token t =>
    obtain ⟨issue, hissue, hhash⟩ := List.mem_flatMap.mp h
    obtain ⟨row, hrow, -⟩ := hs.issues issue (List.mem_filter.mp hissue).1 hash hhash
    exact ⟨row, hrow⟩

theorem inTime_step {l : AccountLabel Text} (hjwt : deps.jwt = some jwt) (hs : s.InTime jwt)
    (hl : s.signsBeforeEnds l = true) (h : AccountStep deps s l s') : s'.InTime jwt := by
  have hkeys := accountStep_keys h
  have htime := accountStep_time h
  refine ⟨?_, ?_, ?_⟩
  · intro p hp hash hhash
    have hfound : ∃ row, s.db.findByHash hash = some row := by
      rcases accountStep_pending h hp with hold | ⟨subject, tenant, role, rfl⟩ | ⟨presented, principal, rfl, -⟩
      · exact hs.pending p hold hash hhash
      · cases hhash
      · exact originsOf_found hs hhash
    obtain ⟨row, hrow⟩ := hfound
    obtain ⟨row', hrow', -⟩ := hkeys hash row hrow
    exact ⟨row', hrow'⟩
  · intro issue hissue hash hhash
    have hfound : ∃ row, s.db.findByHash hash = some row ∧ SignedInTime jwt issue row := by
      rcases accountStep_issues h hissue with hold | hnew
      · exact hs.issues issue hold hash hhash
      · cases hnew with
        | mint hp htoken => exact mint_inTime hjwt hs hl hp htoken hhash
        | createKey hguard hescalations hstored => cases hhash
    obtain ⟨row, hrow, hsigned⟩ := hfound
    obtain ⟨row', hrow', hkept⟩ := hkeys hash row hrow
    refine ⟨row', hrow', hsigned.signed, fun T hT => ?_⟩
    rcases ends_kept hkept hT with hbefore | rfl
    · exact hsigned.before T hbefore
    · rcases accountStep_issues h hissue with hold | hnew
      · exact hs.past issue hold
      · cases hnew <;> exact Nat.le_refl _
  · intro issue hissue
    rcases accountStep_issues h hissue with hold | hnew
    · exact (hs.past issue hold).trans htime
    · cases hnew <;> exact htime

/-- In every run in which no session is signed after the end of a key that it
comes from, the key and everything that comes from it is refused once
`ttlSeconds` have passed since the end of the key. -/
theorem session_ends_with_key {ls : List (AccountLabel Text)} (hjwt : deps.jwt = some jwt) (hstart : s.Fresh)
    (hls : Runs.Meets (Accounts.step deps) (fun s l => s.signsBeforeEnds l = true) s ls)
    (hrun : Runs.run (Accounts.step deps) s ls = some s') {hash : String} {row : ApiKeyRow} {T : Nat}
    {presented : Presented Text} (hrow : s'.db.findByHash hash = some row) (hend : T ∈ row.ends)
    (hcomes : s'.ComesFrom deps hash presented) (hlater : T + jwt.ttlSeconds < s'.time) (required : List Permission) :
    deps.auth.guard s'.db required presented s'.time = .error .unauthorized := by
  have hfresh : s.InTime jwt := by
    refine ⟨?_, ?_, ?_⟩
    · simp [hstart.pending]
    · simp [hstart.issues]
    · simp [hstart.issues]
  have hs' : s'.InTime jwt :=
    Runs.invariant_of_meets (fun hs hl h => inTime_step hjwt hs hl (accountStep_cases h)) hfresh hls hrun
  have hrefused : deps.auth.resolvePrincipal s'.db presented s'.time = none := by
    refine Option.eq_none_iff_forall_ne_some.mpr fun principal => ?_
    rcases hcomes with ⟨secret, rfl, rfl⟩ | ⟨issue, hissue, rfl, hhash⟩
    · exact key_refused deps.auth hrow hend (by omega)
    · obtain ⟨row', hrow', ⟨claims, hsigned⟩, hbefore⟩ := hs'.issues issue hissue hash hhash
      obtain rfl := Option.some.inj (hrow.symm.trans hrow')
      have hissued := hbefore T hend
      rw [hsigned]
      exact session_refused deps.auth hjwt (by omega)
  unfold AuthDeps.guard
  rw [hrefused]

end

end

/-! ## A key that is revoked -/

def sampleJwt : JwtService (JwtHeader ⊕ JwtPayload) where
  issuer := "paymaster"
  audience := "paymaster-admin"
  ttlSeconds := 3600
  encodeHeader := .inl
  decodeHeader := Sum.getLeft?
  encodePayload := .inr
  decodePayload := Sum.getRight?
  mac _ payload := ((Sum.getRight? payload).bind JwtPayload.sub).getD ""
  decode_header := rfl
  decode_payload _ _ := rfl

def jwtDeps : AccountDeps (JwtHeader ⊕ JwtPayload) := ⟨sampleAdmin, some sampleJwt, sampleDeps, false⟩

def keyedAccounts : Accounts (JwtHeader ⊕ JwtPayload) where
  time := 1700000000
  admin := { acmeAndGlobex [] with
    db := { (acmeAndGlobex []).db with apiKeys := [{ acmeKey with roles := ["tenant_admin"] }] } }
  service := .start (fun _ => ⟨[], noPolicies_distinct⟩) fun _ => none
  pending := []
  issues := []
  started := []

def keyedSession (issuedAt : Nat) : Presented (JwtHeader ⊕ JwtPayload) :=
  .token (sampleJwt.sign ⟨"key-1", "acme", "dApp", [.tenantAdmin], none⟩ issuedAt)

def exchangeAndRevoke : List (AccountLabel (JwtHeader ⊕ JwtPayload)) :=
  [.exchange (.text acmeSecret), .mint 0, .admin (.text acmeSecret) none (.revokeKey "key-1") sampleGenerated]

def exchangeAgain : List (AccountLabel (JwtHeader ⊕ JwtPayload)) :=
  [.wait 1800, .exchange (keyedSession 1700000000), .mint 0]

theorem sampleJwt_configured : jwtDeps.jwt = some sampleJwt := rfl

theorem keyedAccounts_fresh : keyedAccounts.Fresh := ⟨rfl, rfl, rfl, rfl⟩

def sessionView (issuedAt : Nat) (s : Accounts (JwtHeader ⊕ JwtPayload)) : List Nat × Nat × Bool × Bool :=
  (((s.db.findByHash acmeSecret).map ApiKeyRow.ends).getD [], s.time,
    s.issues.any fun issue => issue.issued = keyedSession issuedAt ∧ acmeSecret ∈ issue.origins,
    (jwtDeps.auth.guard s.db [] (keyedSession issuedAt) s.time).toOption.isSome)

theorem sessionView_eq {s : Accounts (JwtHeader ⊕ JwtPayload)} {issuedAt time T : Nat} {accepted : Bool}
    (h : sessionView issuedAt s = ([T], time, true, accepted)) :
    (∃ row, s.db.findByHash acmeSecret = some row ∧ T ∈ row.ends) ∧ s.time = time ∧
      s.ComesFrom jwtDeps acmeSecret (keyedSession issuedAt) ∧
      (jwtDeps.auth.guard s.db [] (keyedSession issuedAt) s.time).toOption.isSome = accepted := by
  simp only [sessionView, Prod.mk.injEq] at h
  obtain ⟨hends, htime, hissued, haccepted⟩ := h
  refine ⟨?_, htime, .inr ?_, haccepted⟩
  · cases hrow : s.db.findByHash acmeSecret with
    | none =>
      rw [hrow] at hends
      cases hends
    | some row =>
      rw [hrow, Option.map_some, Option.getD_some] at hends
      exact ⟨row, rfl, by simp [hends]⟩
  · obtain ⟨issue, hissue, heq⟩ := List.any_eq_true.mp hissued
    exact ⟨issue, hissue, of_decide_eq_true heq⟩

theorem session_ends_acme : ∃ s,
    Runs.run (Accounts.step jwtDeps) keyedAccounts (exchangeAndRevoke ++ [.wait 3601]) = some s ∧
      s.ComesFrom jwtDeps acmeSecret (keyedSession 1700000000) ∧
      jwtDeps.auth.guard s.db [] (keyedSession 1700000000) s.time = .error .unauthorized := by
  have hrun : (Runs.run (Accounts.step jwtDeps) keyedAccounts (exchangeAndRevoke ++ [.wait 3601])).map
      (sessionView 1700000000) = some ([1700000000], 1700003601, true, false) := by
    decide +kernel
  obtain ⟨s, hs, hview⟩ := Option.map_eq_some_iff.mp hrun
  obtain ⟨⟨row, hrow, hend⟩, htime, hcomes, -⟩ := sessionView_eq hview
  have hlater : 1700000000 + sampleJwt.ttlSeconds < s.time := by
    rw [htime]
    decide
  exact ⟨s, hs, hcomes, session_ends_with_key sampleJwt_configured keyedAccounts_fresh (by decide +kernel) hs hrow hend
    hcomes hlater []⟩

/-- A session that was exchanged for a session outlives the key by more than its time. -/
theorem session_outlives_key : ¬ ∀ (deps : AccountDeps (JwtHeader ⊕ JwtPayload)) (jwt : JwtService (JwtHeader ⊕ JwtPayload))
    (s t : Accounts (JwtHeader ⊕ JwtPayload)) (ls : List (AccountLabel (JwtHeader ⊕ JwtPayload))) (hash : String)
    (row : ApiKeyRow) (T : Nat) (presented : Presented (JwtHeader ⊕ JwtPayload)), deps.jwt = some jwt → s.Fresh →
    Runs.run (Accounts.step deps) s ls = some t → t.db.findByHash hash = some row → T ∈ row.ends →
    t.ComesFrom deps hash presented → T + jwt.ttlSeconds < t.time →
    ∀ required, deps.auth.guard t.db required presented t.time = .error .unauthorized := by
  intro hall
  have hrun : (Runs.run (Accounts.step jwtDeps) keyedAccounts (exchangeAndRevoke ++ exchangeAgain ++ [.wait 3000])).map
      (sessionView 1700001800) = some ([1700000000], 1700004800, true, true) := by
    decide +kernel
  obtain ⟨s, hs, hview⟩ := Option.map_eq_some_iff.mp hrun
  obtain ⟨⟨row, hrow, hend⟩, htime, hcomes, haccepted⟩ := sessionView_eq hview
  have hlater : 1700000000 + sampleJwt.ttlSeconds < s.time := by
    rw [htime]
    decide
  have hrefused := hall jwtDeps sampleJwt keyedAccounts s _ acmeSecret row 1700000000 _ sampleJwt_configured keyedAccounts_fresh hs hrow hend
    hcomes hlater []
  rw [hrefused] at haccepted
  cases haccepted

end Paymaster
