import Paymaster.Backend.Auth
import Paymaster.Backend.JsonText
import Paymaster.Lib.Base64

/-!
# Session tokens

What `sign` writes and `verify` reads are strings: three segments of base64url
between dots, the first two of them the UTF-8 of JSON. A token that was signed is
accepted while it is fresh. A token that is accepted bears the MAC of its first
two segments; if nobody else can make one, it was signed.
-/

namespace Paymaster

def encodeSegment (text : List Char) : List Char := Base64.encode (Utf8.encode text)

def decodeSegment (segment : List Char) : Option Json :=
  match Json.parse (Utf8.decode (Base64.decode segment)) with
  | some json => if json.isObject then some json else none
  | none => none

theorem decodeSegment_encodeSegment {text : List Char} {json : Json} (h : Json.Reads text json)
    (hobject : json.isObject = true) : decodeSegment (encodeSegment text) = some json := by
  unfold decodeSegment encodeSegment
  rw [Base64.decode_encode, Utf8.decode_encode, h.parse]
  exact if_pos hobject

theorem dot_not_mem_encode (bytes : List UInt8) : '.' ∉ Base64.encode bytes := Base64.not_mem_encode (by decide)

def JwtHeader.ofJson (json : Json) : JwtHeader :=
  ⟨(json.property "alg").bind Json.string?, (json.property "typ").bind Json.string?⟩

def JwtHeader.text (header : JwtHeader) : List Char :=
  Json.writeObject (header.alg.toList.map (fun alg => ("alg", Json.quote alg)) ++
    header.typ.toList.map fun typ => ("typ", Json.quote typ))

namespace JwtPayload

def ofJson (json : Json) : JwtPayload where
  iss := (json.property "iss").bind Json.string?
  aud := (json.property "aud").bind Json.string?
  sub := (json.property "sub").bind Json.string?
  tenantId := (json.property "tenantId").bind Json.string?
  name := (json.property "name").bind Json.string?
  roles := ((json.property "roles").bind Json.items?).map (List.map Json.string?)
  policyId := (json.property "policyId").bind Json.string?
  iat := (json.property "iat").bind Json.number?
  exp := (json.property "exp").bind Json.number?

def signed (issuer audience : String) (ttlSeconds : ℤ) (claims : JwtClaims) (now : ℤ) : JwtPayload where
  iss := some issuer
  aud := some audience
  sub := some claims.sub
  tenantId := some claims.tenantId
  name := some claims.name
  roles := some (claims.roles.map fun role => some role.name)
  policyId := claims.policyId
  iat := some now
  exp := some ((now + ttlSeconds : ℤ) : ℚ)

/-- `JSON.stringify`, which leaves out what is `undefined`. Times are integers. -/
def properties (payload : JwtPayload) : List (String × List Char) :=
  payload.iss.toList.map (fun iss => ("iss", Json.quote iss)) ++
  payload.aud.toList.map (fun aud => ("aud", Json.quote aud)) ++
  payload.sub.toList.map (fun sub => ("sub", Json.quote sub)) ++
  payload.tenantId.toList.map (fun tenantId => ("tenantId", Json.quote tenantId)) ++
  payload.name.toList.map (fun name => ("name", Json.quote name)) ++
  payload.roles.toList.map (fun roles => ("roles", Json.writeArray (roles.map fun role => (role.map Json.quote).getD "null".toList))) ++
  payload.policyId.toList.map (fun policyId => ("policyId", Json.quote policyId)) ++
  payload.iat.toList.map (fun iat => ("iat", Json.writeInteger iat.num)) ++
  payload.exp.toList.map (fun exp => ("exp", Json.writeInteger exp.num))

def text (payload : JwtPayload) : List Char := Json.writeObject payload.properties

end JwtPayload

structure VerifiedJwt where
  claims : JwtClaims
  iat : ℚ
  exp : ℚ
deriving DecidableEq

structure SignedJwt where
  token : String
  expiresAt : ℤ
deriving DecidableEq

/-- The class `JwtService`, with the secret that its constructor accepts. -/
structure HmacJwtService where
  secret : String
  issuer : String
  audience : String
  ttlSeconds : ℤ
  long : 32 ≤ Schema.utf16Length secret

namespace HmacJwtService

variable (jwt : HmacJwtService) (hmacSha256 : List UInt8 → List UInt8 → List UInt8)

def signingInput (claims : JwtClaims) (now : ℤ) : List Char :=
  encodeSegment jwtHeader.text ++ '.' :: encodeSegment (JwtPayload.signed jwt.issuer jwt.audience jwt.ttlSeconds claims now).text

def mac (signingInput : List Char) : List Char :=
  Base64.encode (hmacSha256 (Utf8.encode jwt.secret.toList) (Utf8.encode signingInput))

def sign (claims : JwtClaims) (now : ℤ) : SignedJwt :=
  let signingInput := jwt.signingInput claims now
  ⟨String.ofList (signingInput ++ '.' :: jwt.mac hmacSha256 signingInput), now + jwt.ttlSeconds⟩

def verifyPayload (payload : JwtPayload) (now : ℤ) : Except JwtVerifyReason VerifiedJwt :=
  if payload.iss ≠ some jwt.issuer then .error .wrongIssuer
  else if payload.aud ≠ some jwt.audience then .error .wrongAudience
  else
    match payload.exp with
    | none => .error .expired
    | some exp =>
      if exp ≤ now then .error .expired
      else if payload.iat.any (((now + clockSkewSeconds : ℤ) : ℚ) < ·) then .error .notYetValid
      else
        match payload.sub, payload.name, payload.roles, payload.tenantId with
        | some sub, some name, some roles, some tenantId =>
          if tenantIdPattern tenantId = false then .error .badClaims
          else
            match roles.mapM fun role => role.bind Role.ofName? with
            | some roles => .ok ⟨⟨sub, tenantId, name, roles, payload.policyId⟩, payload.iat.getD now, exp⟩
            | none => .error .badClaims
        | _, _, _, _ => .error .badClaims

def verify (token : String) (now : ℤ) : Except JwtVerifyReason VerifiedJwt :=
  match token.toList.splitOn '.' with
  | [headerB64, payloadB64, signatureB64] =>
    match decodeSegment headerB64 with
    | none => .error .malformed
    | some header =>
      if JwtHeader.ofJson header ≠ jwtHeader then .error .malformed
      -- `constantTimeEqual` compares the bytes of the two strings.
      else if Utf8.encode signatureB64 ≠ Utf8.encode (jwt.mac hmacSha256 (headerB64 ++ '.' :: payloadB64)) then
        .error .badSignature
      else
        match decodeSegment payloadB64 with
        | none => .error .malformed
        | some payload => jwt.verifyPayload (JwtPayload.ofJson payload) now
  | _ => .error .malformed

end HmacJwtService

/-! ## What is signed is read back -/

theorem readsProperty_quote (key s : String) : Json.ReadsProperty (key, Json.quote s) (key, .str s) :=
  ⟨rfl, Json.reads_quote s⟩

theorem readsProperty_writeInteger (key : String) (z : ℤ) : Json.ReadsProperty (key, Json.writeInteger z) (key, .num z) :=
  ⟨rfl, Json.reads_writeInteger z⟩

theorem reads_roles (roles : List Role) :
    Json.Reads (Json.writeArray (roles.map fun role => Json.quote role.name)) (.arr (roles.map fun role => .str role.name)) := by
  refine Json.reads_writeArray ?_
  induction roles with
  | nil => exact .nil
  | cons role roles ih => exact .cons (Json.reads_quote role.name) ih

section

variable {issuer audience : String} {ttlSeconds now : ℤ} {claims : JwtClaims}

def signedJson (issuer audience : String) (ttlSeconds : ℤ) (claims : JwtClaims) (now : ℤ) : Json :=
  .obj ([("iss", .str issuer), ("aud", .str audience), ("sub", .str claims.sub), ("tenantId", .str claims.tenantId),
    ("name", .str claims.name), ("roles", .arr (claims.roles.map fun role => .str role.name))] ++
    claims.policyId.toList.map (fun policyId => ("policyId", .str policyId)) ++
    [("iat", .num now), ("exp", .num ((now + ttlSeconds : ℤ) : ℚ))])

theorem reads_signed : Json.Reads (JwtPayload.signed issuer audience ttlSeconds claims now).text
    (signedJson issuer audience ttlSeconds claims now) := by
  have hroles : ((claims.roles.map fun role => some role.name).map fun role => (role.map Json.quote).getD "null".toList) =
      claims.roles.map fun role => Json.quote role.name := by
    rw [List.map_map]
    rfl
  have hiat : ((now : ℚ)).num = now := Rat.num_intCast now
  have hexp : (((now + ttlSeconds : ℤ) : ℚ)).num = now + ttlSeconds := Rat.num_intCast _
  refine Json.reads_writeObject ?_
  obtain ⟨sub, tenantId, name, roles, policyId⟩ := claims
  unfold JwtPayload.properties JwtPayload.signed
  dsimp only
  dsimp only at hroles
  simp only [Option.toList_some, List.map_cons, List.map_nil, hroles, hiat, hexp]
  refine .cons (readsProperty_quote _ _) (.cons (readsProperty_quote _ _) (.cons (readsProperty_quote _ _)
    (.cons (readsProperty_quote _ _) (.cons (readsProperty_quote _ _) (.cons ⟨rfl, reads_roles roles⟩ ?_)))))
  cases policyId with
  | none => exact .cons (readsProperty_writeInteger _ _) (.cons (readsProperty_writeInteger _ _) .nil)
  | some id =>
    exact .cons (readsProperty_quote _ _)
      (.cons (readsProperty_writeInteger _ _) (.cons (readsProperty_writeInteger _ _) .nil))

theorem ofJson_signedJson : JwtPayload.ofJson (signedJson issuer audience ttlSeconds claims now) =
    JwtPayload.signed issuer audience ttlSeconds claims now := by
  obtain ⟨sub, tenantId, name, roles, policyId⟩ := claims
  cases policyId <;>
    simp [JwtPayload.ofJson, JwtPayload.signed, signedJson, Json.property, Json.string?, Json.number?, Json.items?,
      List.lookup, Function.comp_def]

end

theorem decodeSegment_header : ∃ json, decodeSegment (encodeSegment jwtHeader.text) = some json ∧ JwtHeader.ofJson json = jwtHeader := by
  refine ⟨.obj [("alg", .str "HS256"), ("typ", .str "JWT")], decodeSegment_encodeSegment ?_ rfl, ?_⟩
  · exact Json.reads_writeObject (.cons (readsProperty_quote _ _) (.cons (readsProperty_quote _ _) .nil))
  · simp [JwtHeader.ofJson, jwtHeader, Json.property, Json.string?, List.lookup]

theorem splitOn_segments {header payload signature : List Char} (hheader : '.' ∉ header) (hpayload : '.' ∉ payload)
    (hsignature : '.' ∉ signature) :
    (header ++ '.' :: payload ++ '.' :: signature).splitOn '.' = [header, payload, signature] := by
  have hjoined : header ++ '.' :: payload ++ '.' :: signature = ['.'].intercalate [header, payload, signature] := by
    simp
  rw [hjoined]
  refine List.splitOn_intercalate '.' ?_ (List.cons_ne_nil _ _)
  intro l hl
  simp only [List.mem_cons, List.not_mem_nil, or_false] at hl
  rcases hl with rfl | rfl | rfl
  · exact hheader
  · exact hpayload
  · exact hsignature

theorem eq_of_encode_eq {a b : List Char} (h : Utf8.encode a = Utf8.encode b) : a = b := by
  rw [← Utf8.decode_encode a, h, Utf8.decode_encode]

namespace HmacJwtService

variable {jwt other : HmacJwtService} {hmacSha256 : List UInt8 → List UInt8 → List UInt8} {claims : JwtClaims}
  {issuedAt now : ℤ} {token : String} {verified : VerifiedJwt}

/-- What a service with the same secret has signed comes down to its payload. -/
theorem verify_sign (hsecret : other.secret = jwt.secret) :
    jwt.verify hmacSha256 (other.sign hmacSha256 claims issuedAt).token now =
      jwt.verifyPayload (JwtPayload.signed other.issuer other.audience other.ttlSeconds claims issuedAt) now := by
  obtain ⟨header, hdecode, hheader⟩ := decodeSegment_header
  have hpayload : decodeSegment (encodeSegment
      (JwtPayload.signed other.issuer other.audience other.ttlSeconds claims issuedAt).text) =
      some (signedJson other.issuer other.audience other.ttlSeconds claims issuedAt) :=
    decodeSegment_encodeSegment reads_signed rfl
  have hmac : ∀ input, other.mac hmacSha256 input = jwt.mac hmacSha256 input := by
    intro input
    unfold mac
    rw [hsecret]
  have hsplit := splitOn_segments (dot_not_mem_encode (Utf8.encode jwtHeader.text))
    (dot_not_mem_encode (Utf8.encode (JwtPayload.signed other.issuer other.audience other.ttlSeconds claims issuedAt).text))
    (dot_not_mem_encode (hmacSha256 (Utf8.encode other.secret.toList) (Utf8.encode (other.signingInput claims issuedAt))))
  unfold verify sign
  dsimp only
  rw [String.toList_ofList]
  unfold signingInput mac encodeSegment at *
  rw [hsplit]
  dsimp only
  rw [hdecode]
  dsimp only
  rw [if_neg (not_not.mpr hheader), hsecret, if_neg (not_not.mpr rfl), hpayload]
  dsimp only
  rw [ofJson_signedJson]

theorem verifyPayload_signed {ttlSeconds : ℤ} : jwt.verifyPayload
    (JwtPayload.signed jwt.issuer jwt.audience ttlSeconds claims issuedAt) now =
      if issuedAt + ttlSeconds ≤ now then .error .expired
      else if now + clockSkewSeconds < issuedAt then .error .notYetValid
      else if tenantIdPattern claims.tenantId = false then .error .badClaims
      else .ok ⟨claims, issuedAt, ((issuedAt + ttlSeconds : ℤ) : ℚ)⟩ := by
  have hexp : ((issuedAt + ttlSeconds : ℤ) : ℚ) ≤ (now : ℚ) ↔ issuedAt + ttlSeconds ≤ now := Int.cast_le
  have hiat : ((now + clockSkewSeconds : ℤ) : ℚ) < (issuedAt : ℚ) ↔ now + clockSkewSeconds < issuedAt := Int.cast_lt
  unfold verifyPayload JwtPayload.signed
  simp only [ne_eq, not_true, if_false, Option.any_some, decide_eq_true_eq, hexp, hiat, Role.mapM_ofName?_name,
    Option.getD_some]

/-- What is accepted was all checked. -/
theorem verifyPayload_ok {payload : JwtPayload} (h : jwt.verifyPayload payload now = .ok verified) :
    payload.iss = some jwt.issuer ∧ payload.aud = some jwt.audience ∧ (now : ℚ) < verified.exp := by
  unfold verifyPayload at h
  split at h
  · cases h
  rename_i hiss
  split at h
  · cases h
  rename_i haud
  split at h
  · cases h
  rename_i exp hexp
  split at h
  · cases h
  rename_i hfresh
  refine ⟨not_not.mp hiss, not_not.mp haud, ?_⟩
  split at h
  · cases h
  split at h
  · split at h
    · cases h
    · split at h
      · cases h
        exact not_le.mp hfresh
      · cases h
  · cases h

theorem verify_ok (h : jwt.verify hmacSha256 token now = .ok verified) :
    (∃ header payload, token.toList = header ++ '.' :: payload ++ '.' :: jwt.mac hmacSha256 (header ++ '.' :: payload)) ∧
      (now : ℚ) < verified.exp := by
  unfold verify at h
  split at h
  · rename_i header payload signature hsplit
    split at h
    · cases h
    split at h
    · cases h
    split at h
    · cases h
    rename_i hsignature
    split at h
    · cases h
    · have hmac := eq_of_encode_eq (not_not.mp hsignature)
      have hjoined : ['.'].intercalate (token.toList.splitOn '.') = token.toList := List.intercalate_splitOn '.'
      rw [hsplit] at hjoined
      refine ⟨⟨header, payload, ?_⟩, (verifyPayload_ok h).2.2⟩
      rw [← hjoined, hmac]
      simp
  · cases h

/-- What is accepted, and was signed with the same secret, was signed for the same issuer and audience. -/
theorem verified_of_signed (hsecret : other.secret = jwt.secret)
    (h : jwt.verify hmacSha256 (other.sign hmacSha256 claims issuedAt).token now = .ok verified) :
    other.issuer = jwt.issuer ∧ other.audience = jwt.audience ∧
      verified = ⟨claims, issuedAt, ((issuedAt + other.ttlSeconds : ℤ) : ℚ)⟩ := by
  rw [verify_sign hsecret] at h
  obtain ⟨hiss, haud, -⟩ := verifyPayload_ok h
  have hissuer : other.issuer = jwt.issuer := Option.some.inj hiss
  have haudience : other.audience = jwt.audience := Option.some.inj haud
  rw [hissuer, haudience, verifyPayload_signed] at h
  refine ⟨hissuer, haudience, ?_⟩
  split at h
  · cases h
  split at h
  · cases h
  split at h
  · cases h
  · exact (Except.ok.inj h).symm

theorem token_sign : (jwt.sign hmacSha256 claims issuedAt).token.toList =
    jwt.signingInput claims issuedAt ++ '.' :: jwt.mac hmacSha256 (jwt.signingInput claims issuedAt) := by
  unfold sign
  rw [String.toList_ofList]

/-- A token that was signed is accepted from a minute before until it expires, with
its claims. A token that is accepted bears the MAC and has not expired; if only
what was signed bears it, a service with the secret has signed it, for the same
issuer and audience. The numbers are exact, as a service's are at times below `2 ^ 53`. -/
theorem session_tokens_accepted_exactly (hmacSha256 : List UInt8 → List UInt8 → List UInt8) (jwt : HmacJwtService) :
    (∀ (claims : JwtClaims) (t₀ t : ℤ), tenantIdPattern claims.tenantId = true →
      ((∃ verified, jwt.verify hmacSha256 (jwt.sign hmacSha256 claims t₀).token t = .ok verified) ↔
        t₀ - clockSkewSeconds ≤ t ∧ t < t₀ + jwt.ttlSeconds) ∧
      ∀ verified, jwt.verify hmacSha256 (jwt.sign hmacSha256 claims t₀).token t = .ok verified →
        verified = ⟨claims, t₀, ((t₀ + jwt.ttlSeconds : ℤ) : ℚ)⟩) ∧
    ∀ (token : String) (t : ℤ) (verified : VerifiedJwt), jwt.verify hmacSha256 token t = .ok verified →
      (∃ header payload, token.toList = header ++ '.' :: payload ++ '.' :: jwt.mac hmacSha256 (header ++ '.' :: payload)) ∧
      (t : ℚ) < verified.exp ∧
      ∀ signed : List Char → Prop,
        (∀ input, signed input → ∃ (other : HmacJwtService) (claims : JwtClaims) (t₀ : ℤ),
          other.secret = jwt.secret ∧ input = other.signingInput claims t₀) →
        (∀ input, token.toList = input ++ '.' :: jwt.mac hmacSha256 input → signed input) →
        ∃ (other : HmacJwtService) (claims : JwtClaims) (t₀ : ℤ), other.secret = jwt.secret ∧
          other.issuer = jwt.issuer ∧ other.audience = jwt.audience ∧
          token = (other.sign hmacSha256 claims t₀).token ∧
          verified = ⟨claims, t₀, ((t₀ + other.ttlSeconds : ℤ) : ℚ)⟩ := by
  refine ⟨fun claims t₀ t htenant => ⟨?_, fun verified h => (verified_of_signed rfl h).2.2⟩, fun token t verified h => ?_⟩
  · rw [verify_sign rfl, verifyPayload_signed, htenant]
    constructor
    · rintro ⟨verified, h⟩
      split at h
      · cases h
      · split at h
        · cases h
        · omega
    · rintro ⟨hskew, hexp⟩
      rw [if_neg (by omega), if_neg (by omega)]
      exact ⟨_, rfl⟩
  · obtain ⟨⟨header, payload, htoken⟩, hexp⟩ := verify_ok h
    refine ⟨⟨header, payload, htoken⟩, hexp, fun signed hsigned hunforgeable => ?_⟩
    obtain ⟨other, claims, t₀, hsecret, hinput⟩ := hsigned _ (hunforgeable _ htoken)
    have hsame : token = (other.sign hmacSha256 claims t₀).token := by
      have hmac : other.mac hmacSha256 (other.signingInput claims t₀) =
          jwt.mac hmacSha256 (other.signingInput claims t₀) := by
        unfold mac
        rw [hsecret]
      rw [← String.toList_inj, token_sign, htoken, hinput, hmac]
    subst hsame
    obtain ⟨hissuer, haudience, hverified⟩ := verified_of_signed hsecret h
    exact ⟨other, claims, t₀, hsecret, hissuer, haudience, rfl, hverified⟩

theorem sampleSecret_long : 32 ≤ Schema.utf16Length "a session secret of 33 characters" := by decide +kernel

def sampleJwt : HmacJwtService := ⟨"a session secret of 33 characters", "paymaster", "admin", 900, sampleSecret_long⟩

def sampleClaims : JwtClaims := ⟨"key-1", "acme", "Ops", [.viewer], none⟩

/-- The HMAC of the sample's signing input at 1700000000. -/
def sampleHmac (_ _ : List UInt8) : List UInt8 :=
  [75, 115, 183, 45, 219, 254, 105, 45, 65, 255, 248, 147, 126, 251, 44, 88, 206, 225, 102, 170, 47, 170, 84, 191, 215,
    112, 58, 86, 98, 51, 220, 222]

theorem session_tokens_accepted_exactly_sample :
    ∃ verified, sampleJwt.verify sampleHmac (sampleJwt.sign sampleHmac sampleClaims 1700000000).token 1700000100 = .ok verified ∧
      ∃ (other : HmacJwtService) (claims : JwtClaims) (t₀ : ℤ), other.secret = sampleJwt.secret ∧
        verified = ⟨claims, t₀, ((t₀ + other.ttlSeconds : ℤ) : ℚ)⟩ := by
  have hfresh := (session_tokens_accepted_exactly sampleHmac sampleJwt).1 sampleClaims 1700000000 1700000100 (by decide +kernel)
  obtain ⟨verified, hverified⟩ := hfresh.1.mpr (by decide)
  refine ⟨verified, hverified, ?_⟩
  obtain ⟨-, -, hgenuine⟩ := (session_tokens_accepted_exactly sampleHmac sampleJwt).2 _ _ _ hverified
  obtain ⟨other, claims, t₀, hsecret, -, -, -, heq⟩ := hgenuine (· = sampleJwt.signingInput sampleClaims 1700000000)
    (fun input hinput => ⟨sampleJwt, sampleClaims, 1700000000, rfl, hinput⟩) (fun input htoken => by
      rw [token_sign] at htoken
      exact (Separator.split_last (dot_not_mem_encode _) (dot_not_mem_encode _) htoken).1.symm)
  exact ⟨other, claims, t₀, hsecret, heq⟩

end HmacJwtService

/-! ## Tokens of three parts -/

namespace HmacJwtService

variable (jwt : HmacJwtService) (hmacSha256 : List UInt8 → List UInt8 → List UInt8)

theorem decode_header_segment : (decodeSegment (encodeSegment jwtHeader.text)).map JwtHeader.ofJson = some jwtHeader := by
  obtain ⟨json, hdecode, hheader⟩ := decodeSegment_header
  rw [hdecode, Option.map_some, hheader]

theorem signed_eq_payloadOf (issuer audience : String) (ttlSeconds : Nat) (claims : JwtClaims) (now : Nat) :
    JwtPayload.signed issuer audience ttlSeconds claims now = payloadOf issuer audience ttlSeconds claims now := by
  unfold JwtPayload.signed payloadOf
  push_cast
  rfl

theorem decode_payload_segment (issuer audience : String) (ttlSeconds : Nat) (claims : JwtClaims) (now : Nat) :
    (decodeSegment (encodeSegment (payloadOf issuer audience ttlSeconds claims now).text)).map JwtPayload.ofJson =
      some (payloadOf issuer audience ttlSeconds claims now) := by
  rw [← signed_eq_payloadOf, decodeSegment_encodeSegment reads_signed rfl, Option.map_some, ofJson_signedJson]

def toJwtService (ttlSeconds : Nat) : JwtService (List Char) where
  issuer := jwt.issuer
  audience := jwt.audience
  ttlSeconds := ttlSeconds
  encodeHeader header := encodeSegment header.text
  decodeHeader segment := (decodeSegment segment).map JwtHeader.ofJson
  encodePayload payload := encodeSegment payload.text
  decodePayload segment := (decodeSegment segment).map JwtPayload.ofJson
  mac header payload := String.ofList (jwt.mac hmacSha256 (header ++ '.' :: payload))
  decode_header := decode_header_segment
  decode_payload := decode_payload_segment jwt.issuer jwt.audience ttlSeconds

variable {jwt hmacSha256} {ttlSeconds : Nat}

theorem claimsOf_toJwtService (payload : JwtPayload) (now : Nat) :
    (jwt.toJwtService hmacSha256 ttlSeconds).claimsOf payload now =
      (jwt.verifyPayload payload now).map VerifiedJwt.claims := by
  have hissuer : (jwt.toJwtService hmacSha256 ttlSeconds).issuer = jwt.issuer := rfl
  have haudience : (jwt.toJwtService hmacSha256 ttlSeconds).audience = jwt.audience := rfl
  have hskew : (((now : ℤ) + (clockSkewSeconds : ℤ) : ℤ) : ℚ) = ((now + clockSkewSeconds : Nat) : ℚ) := by
    push_cast
    rfl
  unfold JwtService.claimsOf verifyPayload
  rw [hissuer, haudience, hskew, Int.cast_natCast]
  by_cases hiss : payload.iss ≠ some jwt.issuer
  · rw [if_pos hiss, if_pos hiss]
    rfl
  rw [if_neg hiss, if_neg hiss]
  by_cases haud : payload.aud ≠ some jwt.audience
  · rw [if_pos haud, if_pos haud]
    rfl
  rw [if_neg haud, if_neg haud]
  cases payload.exp with
  | none => rfl
  | some exp =>
    simp only [Option.all_some, decide_eq_true_eq]
    by_cases hexp : exp ≤ (now : ℚ)
    · rw [if_pos hexp, if_pos hexp]
      rfl
    rw [if_neg hexp, if_neg hexp]
    by_cases hiat : payload.iat.any (((now + clockSkewSeconds : Nat) : ℚ) < ·) = true
    · rw [if_pos hiat, if_pos hiat]
      rfl
    rw [if_neg hiat, if_neg hiat]
    cases payload.sub with
    | none => rfl
    | some sub =>
      cases payload.name with
      | none => rfl
      | some name =>
        cases payload.roles with
        | none => rfl
        | some roles =>
          cases payload.tenantId with
          | none => rfl
          | some tenantId =>
            dsimp only
            by_cases htenant : tenantIdPattern tenantId = false
            · rw [if_pos htenant, if_pos htenant]
              rfl
            rw [if_neg htenant, if_neg htenant]
            cases roles.mapM fun role => role.bind Role.ofName? with
            | none => rfl
            | some roles => rfl

/-- A string is accepted when its three parts are, with the same claims. -/
theorem verify_toJwtService {token : String} {header payload signature : List Char} {now : Nat}
    (hsplit : token.toList.splitOn '.' = [header, payload, signature]) :
    (jwt.verify hmacSha256 token now).map VerifiedJwt.claims =
      (jwt.toJwtService hmacSha256 ttlSeconds).verify ⟨header, payload, String.ofList signature⟩ now := by
  have hsignature : Utf8.encode signature ≠ Utf8.encode (jwt.mac hmacSha256 (header ++ '.' :: payload)) ↔
      String.ofList signature ≠ (jwt.toJwtService hmacSha256 ttlSeconds).mac header payload := by
    refine not_congr ⟨fun h => congrArg String.ofList (eq_of_encode_eq h), fun h => congrArg Utf8.encode ?_⟩
    have hlists := congrArg String.toList h
    simpa only [toJwtService, String.toList_ofList] using hlists
  have hheader : (jwt.toJwtService hmacSha256 ttlSeconds).decodeHeader header =
      (decodeSegment header).map JwtHeader.ofJson := rfl
  have hpayload : (jwt.toJwtService hmacSha256 ttlSeconds).decodePayload payload =
      (decodeSegment payload).map JwtPayload.ofJson := rfl
  unfold verify JwtService.verify
  rw [hsplit]
  dsimp only
  rw [hheader, hpayload]
  cases decodeSegment header with
  | none => rfl
  | some json =>
    simp only [Option.map_some, ne_eq, Option.some.injEq]
    by_cases hjson : ¬ JwtHeader.ofJson json = jwtHeader
    · rw [if_pos hjson, if_pos hjson]
      rfl
    rw [if_neg hjson, if_neg hjson]
    by_cases hmac : Utf8.encode signature ≠ Utf8.encode (jwt.mac hmacSha256 (header ++ '.' :: payload))
    · rw [if_pos hmac, if_pos (hsignature.mp hmac)]
      rfl
    rw [if_neg hmac, if_neg (mt hsignature.mpr hmac)]
    cases decodeSegment payload with
    | none => rfl
    | some payload => exact (claimsOf_toJwtService _ _).symm

end HmacJwtService

end Paymaster
