import Mathlib.Data.Finset.Card
import NazoAuth.DigitalCredentials

/-!
# OpenID4VP — verification of a presentation response

The wallet answers a DCQL query with a list of credentials under the identifier of each query.
Verification checks the form of all answers, hands each credential to the verifier of its format,
keeps those that match their query, and compares the answered queries with the credential sets. The
result completes the transaction in the store.

The verifier and the store are ports. Hashes and the CBOR encodings of the mdoc session transcript
are parameters.
-/

namespace NazoAuth.Openid4vp

open Lib DigitalCredentials

inductive ResponseMode where
  | directPost
  | directPostJwt
  deriving DecidableEq

structure ClientMetadata where
  jwks : Option Json

structure AuthorizationRequest where
  clientId : String
  responseMode : ResponseMode
  responseUri : String
  nonce : String
  state : String
  dcqlQuery : DcqlQuery
  clientMetadata : Option ClientMetadata
  transactionData : Option (List String)

structure PresentationTransaction where
  id : String
  request : AuthorizationRequest
  expiresAt : Instant

structure AuthorizationResponse where
  vpToken : Option Json
  state : Option String
  error : Option String

structure PresentationResult where
  transactionId : String
  credentials : List VerifiedCredential
  completedAt : Instant

inductive PresentationError where
  | invalidRequest
  | invalidDcql
  | invalidState
  | invalidResponse
  | dcqlUnsatisfied
  | untrustedPresentation

inductive PresentationStoreError where
  | unavailable
  | idempotencyConflict
  | invalidTransition

inductive PresentationServiceError where
  | presentation (error : PresentationError)
  | store (error : PresentationStoreError)
  | verifier (error : CredentialTrustError)

structure Formats where
  sha256 : List UInt8 → List UInt8
  /-- The hash of the state, in hexadecimal digits. -/
  blake3 : String → String
  serialize : Json → List UInt8
  /-- The client, the nonce, the thumbprint of the verifier's key and the response address. -/
  handoverInfo : String → String → Option (List UInt8) → String → List UInt8
  /-- The session transcript around the hash of the handover. -/
  sessionTranscript : List UInt8 → List UInt8

structure Ports where
  verify : PresentedCredential → Except CredentialTrustError VerifiedCredential
  /-- The transaction, the hash of its state, the result and the time. -/
  complete : String → String → PresentationResult → Instant → Except PresentationStoreError Bool

/-! ## Session transcript -/

variable (f : Formats)

def jwkSetThumbprint (jwks : Json) : Except PresentationServiceError (List UInt8) :=
  match jwks.get? "keys" with
  | some (.arr [key]) =>
    if key.get? "kty" ≠ some (.str "EC") then .error (.presentation .invalidRequest)
    else match (key.get? "crv").bind Json.str?, (key.get? "x").bind Json.str?, (key.get? "y").bind Json.str? with
      | some crv, some x, some y =>
        .ok (f.sha256 (f.serialize (.obj [("crv", .str crv), ("kty", .str "EC"), ("x", .str x), ("y", .str y)])))
      | _, _, _ => .error (.presentation .invalidRequest)
  | _ => .error (.presentation .invalidRequest)

def verifierKeyThumbprint (request : AuthorizationRequest) :
    Except PresentationServiceError (Option (List UInt8)) :=
  if request.responseMode = .directPostJwt then
    match request.clientMetadata.bind (·.jwks) with
    | some jwks => (jwkSetThumbprint f jwks).map some
    | none => .ok none
  else .ok none

def mdocSessionTranscript (transaction : PresentationTransaction) :
    Except PresentationServiceError (Option (List UInt8)) :=
  let request := transaction.request
  if request.dcqlQuery.credentials.all (·.format ≠ .msoMdoc) then .ok none
  else do
    let thumbprint ← verifierKeyThumbprint f request
    .ok (some (f.sessionTranscript (f.sha256 (f.handoverInfo request.clientId request.nonce thumbprint
      request.responseUri))))

/-! ## Matching -/

/-- One segment of a path, from one value; nothing if the value has another form. -/
def segmentValues (segment : ClaimPathSegment) (value : Json) : Option (List Json) :=
  match segment, value with
  | .name name, .obj members => some ((Json.obj members).get? name).toList
  | .index index, .arr items => some items[index]?.toList
  | .wildcard, .arr items => some items
  | _, _ => none

/-- One segment of a path, from all current values. -/
def advance (current : List Json) (segment : ClaimPathSegment) : Option (List Json) := do
  let next ← current.mapM (segmentValues segment)
  if next.flatten = [] then none else some next.flatten

def claimValues (value : Json) (path : ClaimPath) : Option (List Json) := path.foldlM advance [value]

def claimMatches (claims : Json) (claim : ClaimsQuery) : Bool :=
  (claimValues claims claim.path).any fun values => claim.values.all fun allowed => values.any fun v =>
    allowed.contains v

variable (credential : VerifiedCredential) (query : CredentialQuery)

def typeMatches : Bool :=
  match query.format with
  | .sdJwtVc =>
    match query.metadata.bind (·.get? "vct_values") with
    | some (.arr values) => values.any fun v => v.str? = some credential.credentialType
    | _ => true
  | .msoMdoc =>
    match query.metadata.bind (·.get? "doctype_value") with
    | some (.str name) => name = credential.credentialType
    | _ => true

def authorityMatches (authority : TrustedAuthority) : Bool :=
  if authority.authorityType = "issuer" then authority.values.any (· = credential.issuer)
  else if authority.authorityType = "aki" then authority.values.any credential.hasIssuerAuthorityKeyIdentifier
  else false

def claimsMatch (claims : List ClaimsQuery) : Bool :=
  match query.claimSets with
  | none => claims.all (claimMatches credential.claims)
  | some sets =>
    let available := ((claims.filter (claimMatches credential.claims)).filterMap (·.id)).toFinset
    sets.any fun set => set.all fun id => id ∈ available

def credentialMatchesQuery : Bool :=
  if query.requireCryptographicHolderBinding.getD true && credential.holderKey.isNone then false
  else if !typeMatches credential query then false
  else if query.trustedAuthorities.any fun authorities => !authorities.any (authorityMatches credential) then false
  else match query.claims with
    | none => true
    | some claims => claimsMatch credential query claims

/-! ## Answers -/

/-- The form of one answer. -/
def checkAnswer (q : DcqlQuery) (answer : String × Json) : Except PresentationServiceError Unit :=
  match q.credentials.find? fun query => query.id = answer.1 with
  | none => .error (.presentation .invalidResponse)
  | some query =>
    match answer.2 with
    | .arr values =>
      if values = [] || (!query.multiple && values.length ≠ 1) then .error (.presentation .dcqlUnsatisfied)
        else .ok ()
    | _ => .error (.presentation .invalidResponse)

/-- What the verifier is asked for a credential under a query. -/
def presentedCredential (transaction : PresentationTransaction) (anchors : List (List UInt8))
    (transcript : Option (List UInt8)) (query : CredentialQuery) (encoded : String) : PresentedCredential where
  format := query.format
  encoded := encoded
  expectedNonce := transaction.request.nonce
  expectedAudience := transaction.request.clientId
  mdocSessionTranscript := if query.format = .msoMdoc then transcript else none
  additionalTrustAnchors := anchors

/-- The credentials that were kept, and the queries that they answer. -/
structure Found where
  verified : List VerifiedCredential
  satisfied : Finset String

/-- One credential of an answer. Some refusals of the verifier end the verification, others skip the
credential. -/
def presentValue (verify : PresentedCredential → Except CredentialTrustError VerifiedCredential)
    (present : CredentialQuery → String → PresentedCredential) (query : CredentialQuery)
    (found : Found) (value : Json) : Except PresentationServiceError Found :=
  match value with
  | .str encoded =>
    match verify (present query encoded) with
    | .error .invalidNonce | .error .invalidSessionBinding => .error (.presentation .untrustedPresentation)
    | .error .unavailable => .error (.verifier .unavailable)
    | .error .revocationSnapshotUnavailable => .error (.verifier .revocationSnapshotUnavailable)
    | .error .revocationSnapshotStale => .error (.verifier .revocationSnapshotStale)
    | .error _ => .ok found
    | .ok credential =>
      if credential.format ≠ query.format || !credentialMatchesQuery credential query then .ok found
      else .ok ⟨found.verified ++ [credential], insert query.id found.satisfied⟩
  | _ => .error (.presentation .invalidResponse)

/-- The credentials that are presented for a query. -/
def answers (token : Json) (query : CredentialQuery) : List Json :=
  match token.get? query.id with
  | some (.arr values) => values
  | _ => []

def presentQuery (verify : PresentedCredential → Except CredentialTrustError VerifiedCredential)
    (present : CredentialQuery → String → PresentedCredential) (token : Json) (found : Found)
    (query : CredentialQuery) :
    Except PresentationServiceError Found := (answers token query).foldlM (presentValue verify present query) found

def satisfiesSets (q : DcqlQuery) (satisfied : Finset String) : Bool :=
  match q.credentialSets with
  | some sets => (sets.filter (·.required)).all fun set => set.options.any fun option => option.all fun id =>
    id ∈ satisfied
  | none => satisfied.card = q.credentials.length

def completeTransaction (ports : Ports) (transaction : PresentationTransaction) (result : PresentationResult)
    (now : Instant) : Except PresentationServiceError PresentationResult :=
  match ports.complete transaction.id (f.blake3 transaction.request.state) result now with
  | .error e => .error (.store e)
  | .ok false => .error (.presentation .invalidState)
  | .ok true => .ok result

/-- The transaction is over, or the response is for another one or an error, or the request binds
data that presentations do not prove. -/
def outdated (transaction : PresentationTransaction) (response : AuthorizationResponse) (now : Instant) : Bool :=
  now ≥ transaction.expiresAt || response.state ≠ some transaction.request.state || response.error.isSome
    || transaction.request.transactionData.isSome

def verifyResponse (ports : Ports) (transaction : PresentationTransaction) (response : AuthorizationResponse)
    (anchors : List (List UInt8)) (now : Instant) : Except PresentationServiceError PresentationResult :=
  let query := transaction.request.dcqlQuery
  if outdated transaction response now then .error (.presentation .invalidState)
  else match query.validate, response.vpToken with
    | .error _, _ => .error (.presentation .invalidDcql)
    | .ok (), some (.obj members) => do
      members.forM (checkAnswer query)
      let transcript ← mdocSessionTranscript f transaction
      let found ← query.credentials.foldlM
        (presentQuery ports.verify (presentedCredential transaction anchors transcript) (.obj members)) ⟨[], ∅⟩
      if !satisfiesSets query found.satisfied then .error (.presentation .dcqlUnsatisfied)
      else completeTransaction f ports transaction ⟨transaction.id, found.verified, now⟩ now
    | .ok (), _ => .error (.presentation .invalidResponse)

end NazoAuth.Openid4vp
