import NazoAuth.Basic
import NazoAuth.Lib.Base64
import NazoAuth.Lib.Json

/-!
# Access tokens at a resource server — claims, time and sender constraints

The verification of an access token by a protected resource: the decoding of the token (header, key,
signature) is a function of the verifier, then come the claims, the tenant boundary, the sender
constraint, and last the look-up of the token's state. Times are whole seconds.
-/

namespace NazoAuth.Revocation

open Lib

structure ConfirmationClaims where
  jkt : Option String
  x5tS256 : Option String

inductive ConfirmationPolicy where
  | optional
  | requireDpop
  | requireDpopJkt (expected : String)
  | requireMtls
  | requireMtlsThumbprint (expected : String)
  | requireAnySenderConstraint

structure AccessTokenClaims where
  clientEpoch : Option Int
  userEpoch : Option Int
  userId : Option String
  subjectType : Option String
  iss : String
  sub : String
  tenantId : Option String
  aud : Json
  clientId : String
  scope : String
  tokenUse : Option String
  jti : String
  nbf : Option Int
  exp : Int
  cnf : Option ConfirmationClaims

structure VerifiedAccessToken where
  clientEpoch : Option Int
  userEpoch : Option Int
  userId : Option String
  subjectType : Option String
  issuer : String
  subject : String
  tenantId : Option String
  clientId : String
  audiences : List String
  scopes : List String
  jti : String
  exp : Int
  cnf : Option ConfirmationClaims

inductive ResourceServerVerifierError where
  | invalidToken
  | wrongTokenType
  | issuerMismatch
  | audienceMismatch
  | expired
  | notYetValid
  | missingScope (scope : String)
  | missingSenderConstraint
  | dpopBindingMismatch
  | mtlsBindingMismatch
  /-- An error of the header or of the key. -/
  | undecodable (reason : String)
  deriving DecidableEq

/-- A configured verifier; `new` refuses a skew outside the range. -/
structure ResourceServerVerifier where
  issuer : String
  audiences : List String
  requiredScopes : List String
  confirmation : ConfirmationPolicy
  clockSkewSeconds : Int
  skew_range : 0 ≤ clockSkewSeconds ∧ clockSkewSeconds ≤ maxAccessTokenClockSkewSeconds
  /-- The claims of a token with a usable header, a known key and a valid signature. -/
  decode : String → Except ResourceServerVerifierError AccessTokenClaims

/-! ## Claims -/

def audienceValues : Json → Option (List String)
  | .str value => if isBlank value then none else some [value]
  | .arr values =>
    if values.isEmpty then none
    else values.mapM fun value => (value.str?).filter fun v => !isBlank v
  | _ => none

/-- The maximal runs of characters that are no white space. -/
def splitWhitespace (s : String) : List String :=
  ((s.toList.splitOnP isWhiteSpace).filter fun word => !word.isEmpty).map String.ofList

/-- A thumbprint is the encoding of 32 bytes. -/
def validThumbprint (value : String) : Bool := (decode64? value.toList).any fun decoded => decoded.length = 32

def validateConfirmationClaims : Option ConfirmationClaims → Except ResourceServerVerifierError Unit
  | none => .ok ()
  | some cnf =>
    let hasJkt := cnf.jkt.any validThumbprint
    let hasX5t := cnf.x5tS256.any validThumbprint
    if hasJkt = hasX5t || (cnf.jkt.isSome && !hasJkt) || (cnf.x5tS256.isSome && !hasX5t) then .error .invalidToken
    else .ok ()

/-- A confirmation that is required to have a value, or to be there. -/
def requireBinding (mismatch : ResourceServerVerifierError) (actual : Option String)
    (expected : Option String) : Except ResourceServerVerifierError Unit :=
  match actual, expected with
  | none, _ => .error .missingSenderConstraint
  | some _, none => .ok ()
  | some actual, some expected => if actual = expected then .ok () else .error mismatch

def validateConfirmationPolicy (policy : ConfirmationPolicy) (cnf : Option ConfirmationClaims) :
    Except ResourceServerVerifierError Unit :=
  let jkt := cnf.bind (·.jkt)
  let x5t := cnf.bind (·.x5tS256)
  match policy with
  | .optional => .ok ()
  | .requireAnySenderConstraint => if jkt.isSome || x5t.isSome then .ok () else .error .missingSenderConstraint
  | .requireDpop => requireBinding .dpopBindingMismatch jkt none
  | .requireDpopJkt expected => requireBinding .dpopBindingMismatch jkt (some expected)
  | .requireMtls => requireBinding .mtlsBindingMismatch x5t none
  | .requireMtlsThumbprint expected => requireBinding .mtlsBindingMismatch x5t (some expected)

def require (condition : Bool) (error : ResourceServerVerifierError) : Except ResourceServerVerifierError Unit :=
  if condition then .ok () else .error error

variable (v : ResourceServerVerifier)

/-- `validate_claims`, at a whole-second clock. -/
def ResourceServerVerifier.validateClaims (claims : AccessTokenClaims) (now : Int) :
    Except ResourceServerVerifierError VerifiedAccessToken := do
  require (claims.tokenUse.all (· = "access")) .wrongTokenType
  require (claims.iss = v.issuer) .issuerMismatch
  match audienceValues claims.aud with
  | none => .error .audienceMismatch
  | some audiences => do
    require (audiences.any v.audiences.contains) .audienceMismatch
    let skew := v.clockSkewSeconds
    require (saturate (now - skew) < claims.exp) .expired
    require (claims.nbf.all fun nbf => nbf ≤ saturate (now + skew)) .notYetValid
    let scopes := splitWhitespace claims.scope
    match v.requiredScopes.find? (fun required => !scopes.contains required) with
    | some missing => .error (.missingScope missing)
    | none => do
      validateConfirmationClaims claims.cnf
      validateConfirmationPolicy v.confirmation claims.cnf
      pure {
        clientEpoch := claims.clientEpoch
        userEpoch := claims.userEpoch
        userId := claims.userId
        subjectType := claims.subjectType
        issuer := claims.iss
        subject := claims.sub
        tenantId := claims.tenantId
        clientId := claims.clientId
        audiences := audiences
        scopes := scopes
        jti := claims.jti
        exp := claims.exp
        cnf := claims.cnf }

def ResourceServerVerifier.verifyAt (token : String) (now : Int) :
    Except ResourceServerVerifierError VerifiedAccessToken := do
  let claims ← v.decode token
  v.validateClaims claims now

/-! ## Requests -/

inductive AuthorizationError where
  | invalidToken (error : ResourceServerVerifierError)
  | invalidTenantBoundary
  /-- The sender constraint is missing, does not match, or was replayed. -/
  | senderConstraint (reason : String)
  | revoked
  deriving DecidableEq

structure RevocationLookupKey where
  clientId : String
  subject : String
  userId : Option String
  subjectType : Option String
  clientEpoch : Option Int
  userEpoch : Option Int
  tenantId : String
  jti : String

/-- `authorize_at`. `constraint` verifies the certificate or the proof of the request for the token;
`isRevoked` is the look-up, which has no answer for a tenant that is none. -/
def authorizeAt (constraint : VerifiedAccessToken → Except String Unit)
    (isRevoked : RevocationLookupKey → Option Bool) (accessToken : String) (now : Int) :
    Except AuthorizationError VerifiedAccessToken :=
  match v.verifyAt accessToken now with
  | .error e => .error (.invalidToken e)
  | .ok token =>
    match token.tenantId.filter (fun t => !isBlank t) with
    | none => .error .invalidTenantBoundary
    | some tenantId =>
      match constraint token with
      | .error reason => .error (.senderConstraint reason)
      | .ok () =>
        match isRevoked ⟨token.clientId, token.subject, token.userId, token.subjectType, token.clientEpoch,
            token.userEpoch, tenantId, token.jti⟩ with
        | none => .error .invalidTenantBoundary
        | some true => .error .revoked
        | some false => .ok token

end NazoAuth.Revocation
