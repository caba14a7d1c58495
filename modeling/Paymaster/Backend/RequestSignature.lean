import Paymaster.Lib.HexText
import Paymaster.Lib.Run
import Paymaster.Lib.Separator

/-!
# Signed requests

A request with a body is signed by its sender, over its time, method, path and
body. Who does not have the secret may repeat what was signed, or send anything
else; what the hook lets through has been signed as it is, and not long ago.
-/

namespace Paymaster.RequestSigning

open HexText

abbrev Text := List Char

/-- HMAC-SHA256, and the whole number that `Number` reads from a text, if it is one. -/
structure SigningPrimitives where
  hmac : Text → Text → List (Fin 256)
  hmac_length : ∀ secret text, (hmac secret text).length = 32
  number : Text → Option Int

structure SignedParts where
  method : Text
  path : Text
  timestamp : Text
  body : Text
deriving DecidableEq

structure SignedRequest extends SignedParts where
  signature : Text
deriving DecidableEq

inductive SignatureVerifyReason
  | missing
  | malformedTimestamp
  | stale
  | badSignature
deriving DecidableEq

def toUpperCase (c : Char) : Char := if 97 ≤ c.toNat ∧ c.toNat ≤ 122 then Char.ofNat (c.toNat - 32) else c

def canonical (parts : SignedParts) : Text :=
  parts.timestamp ++ '\n' :: parts.method.map toUpperCase ++ '\n' :: parts.path ++ '\n' :: parts.body

/-- `timingSafeEqual` of what is decoded; it throws, and is caught, if that is not of one length. -/
def constantTimeEqualHex (a b : Text) : Bool := a.length = b.length && toBytes a = toBytes b

structure RequestSignatureVerifier (primitives : SigningPrimitives) where
  secret : Text
  maxSkewSeconds : Nat
  secret_long : 32 ≤ secret.length

namespace RequestSignatureVerifier

variable {primitives : SigningPrimitives} (verifier : RequestSignatureVerifier primitives)

def sign (parts : SignedParts) : Text := ofBytes (primitives.hmac verifier.secret (canonical parts))

def verify (request : SignedRequest) (now : Int) : Except SignatureVerifyReason Unit :=
  if request.signature = [] ∨ request.timestamp = [] then .error .missing
  else
    match primitives.number request.timestamp with
    | none => .error .malformedTimestamp
    | some ts =>
      if (verifier.maxSkewSeconds : Int) < |now - ts| then .error .stale
      else if constantTimeEqualHex request.signature (verifier.sign request.toSignedParts) then .ok ()
      else .error .badSignature

end RequestSignatureVerifier

/-! ## The hook -/

/-- A request as Node hands it on: of a header that was sent twice the values are joined by `, `. -/
structure EdgeRequest where
  method : Text
  url : Text
  signatureHeader : Option Text
  timestampHeader : Option Text
  rawBody : Option Text
deriving DecidableEq

def exemptPrefixes : List String := ["/health", "/metrics"]

def isExempt (url : Text) : Bool :=
  let path := url.takeWhile (· ≠ '?')
  exemptPrefixes.any fun exempt => path = exempt.toList || (exempt.toList ++ ['/']).isPrefixOf path

def methodHasBody (method : Text) : Bool :=
  ["POST", "PUT", "PATCH", "DELETE"].any fun m => method.map toUpperCase = m.toList

def EdgeRequest.signed (request : EdgeRequest) : SignedRequest where
  method := request.method
  path := request.url
  timestamp := request.timestampHeader.getD []
  body := request.rawBody.getD []
  signature := request.signatureHeader.getD []

def preValidation {primitives : SigningPrimitives} (verifier : RequestSignatureVerifier primitives) (request : EdgeRequest)
    (now : Int) : Option SignatureVerifyReason :=
  if isExempt request.url || !methodHasBody request.method then none
  else
    match verifier.verify request.signed now with
    | .ok () => none
    | .error reason => some reason

/-! ## Senders and requests -/

/-- What the senders that have the secret have signed, and what was let through, and when. -/
structure Edge where
  signed : List SignedParts
  passed : List (EdgeRequest × Int)

inductive EdgeLabel
  | sign (parts : SignedParts)
  | request (request : EdgeRequest) (now : Int)

section
variable {primitives : SigningPrimitives} (verifier : RequestSignatureVerifier primitives)

def Edge.step (s : Edge) : EdgeLabel → Option Edge
  | .sign parts => some { s with signed := s.signed ++ [parts] }
  | .request request now =>
    match preValidation verifier request now with
    | none => some { s with passed := s.passed ++ [(request, now)] }
    | some _ => some s

structure SignedParts.Lined (parts : SignedParts) : Prop where
  timestamp : '\n' ∉ parts.timestamp
  method : '\n' ∉ parts.method
  path : '\n' ∉ parts.path

instance (parts : SignedParts) : Decidable parts.Lined :=
  decidable_of_iff ('\n' ∉ parts.timestamp ∧ '\n' ∉ parts.method ∧ '\n' ∉ parts.path)
    ⟨fun h => ⟨h.1, h.2.1, h.2.2⟩, fun h => ⟨h.timestamp, h.method, h.path⟩⟩

/-- The request line and the headers of a request have no line feed in them, and its signature is
the authentication code of its text only if a sender with the secret has computed that. -/
def Edge.Genuine (s : Edge) : EdgeLabel → Prop
  | .sign parts => parts.Lined
  | .request request _ => request.signed.Lined ∧
      (toBytes request.signed.signature = primitives.hmac verifier.secret (canonical request.signed.toSignedParts) →
        ∃ parts ∈ s.signed, canonical parts = canonical request.signed.toSignedParts)

instance decidableGenuine (s : Edge) : ∀ l, Decidable (s.Genuine verifier l)
  | .sign parts => inferInstanceAs (Decidable parts.Lined)
  | .request request _ => inferInstanceAs (Decidable (request.signed.Lined ∧ (_ → ∃ parts ∈ s.signed, _)))

/-- The request was signed as it is, but for the case of its method, at a time within the skew. -/
def SignedBy (parts : SignedParts) (request : EdgeRequest) (now : Int) : Prop :=
  parts.timestamp = request.signed.timestamp ∧ parts.method.map toUpperCase = request.method.map toUpperCase ∧
    parts.path = request.url ∧ parts.body = request.rawBody.getD [] ∧
    ∃ ts, primitives.number parts.timestamp = some ts ∧ |now - ts| ≤ verifier.maxSkewSeconds

end

section
variable {primitives : SigningPrimitives} {verifier : RequestSignatureVerifier primitives} {s s' : Edge} {l : EdgeLabel}
  {ls : List EdgeLabel} {parts parts' : SignedParts} {request : EdgeRequest} {now : Int}

def Covered (verifier : RequestSignatureVerifier primitives) (s : Edge) : Prop :=
  ∀ passed ∈ s.passed, isExempt passed.1.url = true ∨ methodHasBody passed.1.method = false ∨
    ∃ parts ∈ s.signed, SignedBy verifier parts passed.1 passed.2

def sampleTag : List (Fin 256) := toBytes "a7da5718b66afab9eeb21870b4c950e799ce2d047d38f45c3a2e19a378c1dae8".toList

def sampleSecret : Text := "0123456789abcdef0123456789abcdef".toList

def samplePrimitives : SigningPrimitives where
  hmac secret text :=
    if secret = sampleSecret ∧ text = "1700000000\nPOST\n/sponsor\n[1]".toList then sampleTag else List.replicate 32 (0#8).toFin
  hmac_length secret text := by split <;> rfl
  number text := (Numeral.read 10 text).map Int.ofNat

def sampleVerifier : RequestSignatureVerifier samplePrimitives := ⟨sampleSecret, 300, by decide⟩

def sampleParts : SignedParts := ⟨"post".toList, "/sponsor".toList, "1700000000".toList, "[1]".toList⟩

def sampleRequest : EdgeRequest :=
  ⟨"POST".toList, "/sponsor".toList, some (sampleVerifier.sign sampleParts), some "1700000000".toList, some "[1]".toList⟩

end

end Paymaster.RequestSigning
