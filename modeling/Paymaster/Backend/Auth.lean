import Paymaster.Backend.Database

/-!
# Authentication

A request presents an API key or a session token, and the guard turns it into a
principal with permissions. The hash of keys and the MAC of tokens are
parameters. A token is its three parts, and JSON is the properties that
`verify` reads; the encoding of what is signed can be read back.
-/

namespace Paymaster

/-! ## Permissions -/

inductive Permission
  | sponsorCreate
  | policyRead
  | policyWrite
  | chainRead
  | chainWrite
  | keyRead
  | keyWrite
  | metricsRead
  | platformRead
  | billingWrite
  | fundingWrite
deriving DecidableEq

inductive Role
  | sponsor
  | viewer
  | admin
  | tenantAdmin
  | platform
deriving DecidableEq

namespace Role

def name : Role → String
  | .sponsor => "sponsor"
  | .viewer => "viewer"
  | .admin => "admin"
  | .tenantAdmin => "tenant_admin"
  | .platform => "platform"

def permissions : Role → List Permission
  | .sponsor => [.sponsorCreate]
  | .viewer => [.policyRead, .chainRead, .keyRead, .metricsRead]
  | .admin =>
    [.sponsorCreate, .policyRead, .policyWrite, .chainRead, .chainWrite, .keyRead, .keyWrite, .metricsRead, .fundingWrite]
  | .tenantAdmin => [.policyRead, .policyWrite, .chainRead, .keyRead, .keyWrite, .metricsRead, .fundingWrite]
  | .platform =>
    [.sponsorCreate, .policyRead, .policyWrite, .chainRead, .chainWrite, .keyRead, .keyWrite, .metricsRead,
      .platformRead, .billingWrite, .fundingWrite]

def ofName? : String → Option Role
  | "sponsor" => some .sponsor
  | "viewer" => some .viewer
  | "admin" => some .admin
  | "tenant_admin" => some .tenantAdmin
  | "platform" => some .platform
  | _ => none

@[simp] theorem ofName?_name (role : Role) : ofName? role.name = some role := by
  cases role <;> rfl

theorem mapM_ofName?_name (roles : List Role) :
    ((roles.map fun role => some role.name).mapM fun role => role.bind ofName?) = some roles := by
  induction roles with
  | nil => rfl
  | cons role roles ih =>
    rw [List.map_cons, List.mapM_cons, ih, Option.bind_some, ofName?_name]
    rfl

theorem filterMap_ofName?_name (roles : List Role) : (roles.map name).filterMap ofName? = roles := by
  rw [List.filterMap_map]
  have hsome : ofName? ∘ name = some := funext ofName?_name
  rw [hsome, List.filterMap_some]

end Role

def permissionsFor (roles : List Role) : List Permission := (roles.flatMap Role.permissions).eraseDups

@[simp] theorem mem_permissionsFor {roles : List Role} {permission : Permission} :
    permission ∈ permissionsFor roles ↔ ∃ role ∈ roles, permission ∈ role.permissions := by
  rw [permissionsFor, List.mem_eraseDups, List.mem_flatMap]

structure Principal where
  tenantId : String
  apiKeyId : String
  name : String
  roles : List Role
  policyId : Option String
deriving DecidableEq

def Principal.permissions (principal : Principal) : List Permission := permissionsFor principal.roles

/-! ## Session tokens -/

structure JwtClaims where
  sub : String
  tenantId : String
  name : String
  roles : List Role
  policyId : Option String
deriving DecidableEq

structure JwtHeader where
  alg : Option String
  typ : Option String
deriving DecidableEq

/-- Of the object in a token, the properties that are of the right type. -/
structure JwtPayload where
  iss : Option String
  aud : Option String
  sub : Option String
  tenantId : Option String
  name : Option String
  /-- Those items that are strings. -/
  roles : Option (List (Option String))
  policyId : Option String
  iat : Option ℚ
  exp : Option ℚ
deriving DecidableEq

structure Token (Text : Type) where
  header : Text
  payload : Text
  signature : String
deriving DecidableEq

def jwtHeader : JwtHeader := ⟨some "HS256", some "JWT"⟩

def payloadOf (issuer audience : String) (ttlSeconds : Nat) (claims : JwtClaims) (now : Nat) : JwtPayload where
  iss := some issuer
  aud := some audience
  sub := some claims.sub
  tenantId := some claims.tenantId
  name := some claims.name
  roles := some (claims.roles.map fun role => some role.name)
  policyId := claims.policyId
  iat := some now
  exp := some (now + ttlSeconds : Nat)

structure JwtService (Text : Type) where
  issuer : String
  audience : String
  ttlSeconds : Nat
  encodeHeader : JwtHeader → Text
  decodeHeader : Text → Option JwtHeader
  encodePayload : JwtPayload → Text
  /-- `none` is no JSON object. -/
  decodePayload : Text → Option JwtPayload
  mac : Text → Text → String
  decode_header : decodeHeader (encodeHeader jwtHeader) = some jwtHeader
  decode_payload : ∀ claims now,
    decodePayload (encodePayload (payloadOf issuer audience ttlSeconds claims now)) =
      some (payloadOf issuer audience ttlSeconds claims now)

inductive JwtVerifyReason
  | malformed
  | badSignature
  | expired
  | notYetValid
  | wrongIssuer
  | wrongAudience
  | badClaims
deriving DecidableEq

def clockSkewSeconds : Nat := 60

namespace JwtService

variable {Text : Type} (jwt : JwtService Text)

def sign (claims : JwtClaims) (now : Nat) : Token Text :=
  let header := jwt.encodeHeader jwtHeader
  let payload := jwt.encodePayload (payloadOf jwt.issuer jwt.audience jwt.ttlSeconds claims now)
  ⟨header, payload, jwt.mac header payload⟩

def claimsOf (payload : JwtPayload) (now : Nat) : Except JwtVerifyReason JwtClaims :=
  if payload.iss ≠ some jwt.issuer then .error .wrongIssuer
  else if payload.aud ≠ some jwt.audience then .error .wrongAudience
  else if payload.exp.all (· ≤ (now : ℚ)) then .error .expired
  else if payload.iat.any (((now + clockSkewSeconds : Nat) : ℚ) < ·) then .error .notYetValid
  else
    match payload.sub, payload.name, payload.roles, payload.tenantId with
    | some sub, some name, some roles, some tenantId =>
      if tenantIdPattern tenantId = false then .error .badClaims
      else
        match roles.mapM fun role => role.bind Role.ofName? with
        | some roles => .ok ⟨sub, tenantId, name, roles, payload.policyId⟩
        | none => .error .badClaims
    | _, _, _, _ => .error .badClaims

def verify (token : Token Text) (now : Nat) : Except JwtVerifyReason JwtClaims :=
  if jwt.decodeHeader token.header ≠ some jwtHeader then .error .malformed
  else if token.signature ≠ jwt.mac token.header token.payload then .error .badSignature
  else
    match jwt.decodePayload token.payload with
    | none => .error .malformed
    | some payload => jwt.claimsOf payload now

/-- A token is good for as long as it says, for what was signed. -/
theorem verify_sign (claims : JwtClaims) (issuedAt now : Nat) :
    jwt.verify (jwt.sign claims issuedAt) now =
      if issuedAt + jwt.ttlSeconds ≤ now then .error .expired
      else if now + clockSkewSeconds < issuedAt then .error .notYetValid
      else if tenantIdPattern claims.tenantId = false then .error .badClaims
      else .ok claims := by
  have hexp : ((issuedAt + jwt.ttlSeconds : Nat) : ℚ) ≤ (now : ℚ) ↔ issuedAt + jwt.ttlSeconds ≤ now := Nat.cast_le
  have hiat : ((now + clockSkewSeconds : Nat) : ℚ) < (issuedAt : ℚ) ↔ now + clockSkewSeconds < issuedAt := Nat.cast_lt
  unfold verify sign
  simp only [jwt.decode_header, jwt.decode_payload, ne_eq, not_true, if_false]
  unfold claimsOf payloadOf
  simp only [ne_eq, not_true, if_false, Option.all_some, Option.any_some, decide_eq_true_eq, hexp, hiat,
    Role.mapM_ofName?_name]

end JwtService

/-! ## The guard -/

/-- What a request presents, without the `Bearer`: a string of three parts is
one that the token service can take apart. -/
inductive Presented (Text : Type)
  | nothing
  | text (s : String)
  | token (t : Token Text)
deriving DecidableEq

def isKeyCharacter (c : Char) : Bool := c.isAlphanum || c = '_' || c = '-'

def isWellFormedApiKey (s : String) : Bool :=
  (s.toList.take 8 = "pm_live_".toList || s.toList.take 8 = "pm_test_".toList) &&
    40 ≤ (s.toList.drop 8).length && (s.toList.drop 8).all isKeyCharacter

inductive AuthFailureReason
  | missing
  | malformed
  | unknown
  | revoked
  | expired
deriving DecidableEq

/-- No token service means that `ADMIN_JWT_SECRET` is not configured. -/
structure AuthDeps (Text : Type) where
  hashApiKey : String → String
  jwt : Option (JwtService Text)

def ApiKeyRow.principal (row : ApiKeyRow) : Principal where
  tenantId := row.tenantId
  apiKeyId := row.id
  name := row.name
  roles := row.roles.filterMap Role.ofName?
  policyId := row.policyId

def JwtClaims.principal (claims : JwtClaims) : Principal where
  tenantId := claims.tenantId
  apiKeyId := claims.sub
  name := claims.name
  roles := claims.roles
  policyId := claims.policyId

inductive GuardFailure
  | unauthorized
  | forbidden (missing : List Permission)
deriving DecidableEq

namespace AuthDeps

variable {Text : Type} (deps : AuthDeps Text) (db : Database)

def authenticate (presented : Presented Text) (now : Nat) : Except AuthFailureReason Principal :=
  match presented with
  | .nothing => .error .missing
  | .token _ => .error .malformed
  | .text s =>
    if s = "" then .error .missing
    else if isWellFormedApiKey s = false then .error .malformed
    else
      match db.findByHash (deps.hashApiKey s) with
      | none => .error .unknown
      | some row =>
        if row.enabled = false then .error .revoked
        else if row.expiresAt.any (· ≤ now) then .error .expired
        else .ok row.principal

def resolvePrincipal (presented : Presented Text) (now : Nat) : Option Principal :=
  match deps.jwt, presented with
  | some jwt, .token t => (jwt.verify t now).toOption.map JwtClaims.principal
  | some _, .text s =>
    -- What is not of a key's form is for the token service, and it has not three parts.
    if isWellFormedApiKey s then (deps.authenticate db presented now).toOption else none
  | _, _ => (deps.authenticate db presented now).toOption

def guard (required : List Permission) (presented : Presented Text) (now : Nat) : Except GuardFailure Principal :=
  match deps.resolvePrincipal db presented now with
  | none => .error .unauthorized
  | some principal =>
    let missing := required.filter fun permission => permission ∉ principal.permissions
    if missing = [] then .ok principal else .error (.forbidden missing)

/-- `issueToken`. `none` is `JWT_DISABLED`. -/
def issueToken (principal : Principal) (now : Nat) : Option (Token Text) :=
  deps.jwt.map fun jwt => jwt.sign
    ⟨principal.apiKeyId, principal.tenantId, principal.name, principal.roles, principal.policyId⟩ now

end AuthDeps

/-! ## What the guard lets through -/

section
variable {Text : Type} {deps : AuthDeps Text} {db : Database} {required : List Permission} {presented : Presented Text}
  {now : Nat} {principal : Principal}

theorem guard_ok (h : deps.guard db required presented now = .ok principal) :
    deps.resolvePrincipal db presented now = some principal ∧ ∀ permission ∈ required, permission ∈ principal.permissions := by
  unfold AuthDeps.guard at h
  cases hresolved : deps.resolvePrincipal db presented now with
  | none =>
    rw [hresolved] at h
    cases h
  | some resolved =>
    simp only [hresolved] at h
    split at h
    · rename_i hmissing
      cases h
      refine ⟨rfl, ?_⟩
      intro permission hpermission
      by_contra hnot
      have hmem : permission ∈ required.filter fun p => p ∉ principal.permissions :=
        List.mem_filter.mpr ⟨hpermission, by simpa using hnot⟩
      rw [hmissing] at hmem
      cases hmem
    · cases h

theorem authenticate_ok {s : String} (h : deps.authenticate db (.text s) now = .ok principal) :
    ∃ row, db.findByHash (deps.hashApiKey s) = some row ∧ row.enabled = true ∧ (∀ t ∈ row.expiresAt, now < t) ∧
      principal = row.principal := by
  simp only [AuthDeps.authenticate] at h
  split at h
  · cases h
  · split at h
    · cases h
    · split at h
      · cases h
      · rename_i row hrow
        split at h
        · cases h
        · rename_i henabled
          split at h
          · cases h
          · rename_i hexpired
            cases h
            refine ⟨row, hrow, by simpa using henabled, ?_, rfl⟩
            intro t ht
            rw [Option.mem_def.mp ht, Option.any_some, decide_eq_true_eq] at hexpired
            exact Nat.lt_of_not_le hexpired

theorem toOption_eq_some {ε α : Type} {x : Except ε α} {a : α} (h : x.toOption = some a) : x = .ok a := by
  cases x with
  | error e => cases h
  | ok b => rw [Option.some.inj h]

theorem resolvePrincipal_cases (h : deps.resolvePrincipal db presented now = some principal) :
    (∃ s row, presented = .text s ∧ db.findByHash (deps.hashApiKey s) = some row ∧ row.enabled = true ∧
      (∀ t ∈ row.expiresAt, now < t) ∧ principal = row.principal) ∨
    (∃ t jwt claims, presented = .token t ∧ deps.jwt = some jwt ∧ jwt.verify t now = .ok claims ∧
      principal = claims.principal) := by
  cases presented with
  | nothing =>
    unfold AuthDeps.resolvePrincipal at h
    cases hjwt : deps.jwt <;> rw [hjwt] at h <;> cases h
  | text s =>
    have hkey : (deps.authenticate db (.text s) now).toOption = some principal := by
      unfold AuthDeps.resolvePrincipal at h
      cases hjwt : deps.jwt with
      | none =>
        rw [hjwt] at h
        exact h
      | some jwt =>
        simp only [hjwt] at h
        split at h
        · exact h
        · cases h
    obtain ⟨row, hrow⟩ := authenticate_ok (toOption_eq_some hkey)
    exact .inl ⟨s, row, rfl, hrow⟩
  | token t =>
    unfold AuthDeps.resolvePrincipal at h
    cases hjwt : deps.jwt with
    | none =>
      rw [hjwt] at h
      cases h
    | some jwt =>
      simp only [hjwt] at h
      obtain ⟨claims, hclaims, rfl⟩ := Option.map_eq_some_iff.mp h
      exact .inr ⟨t, jwt, claims, rfl, rfl, toOption_eq_some hclaims, rfl⟩

end

end Paymaster
