import NazoAuth.Basic
import NazoAuth.Lib.Json
import NazoAuth.Lib.Marker

/-!
# Replay — proofs and assertions that are used once

A request carries something that may be used once: an HTTP message signature, a DPoP proof, a client
assertion, a JWT-bearer assertion, a client attestation proof or a signed request object. A node
checks the times of what it is given, and then sets a marker in the replay store. The marker has a
lifetime; the one who sets it is served.

Lifetimes are relative to the clock of the store (`EX`) or absolute (`EXAT`). Scripts check an
absolute interval in the operation that sets the marker. The clock of the store counts milliseconds;
nodes read whole seconds.

Signatures, issuers and audiences of a request are checked before and are one condition here
(`authentic`).
-/

namespace NazoAuth.Replay

open Lib

/-- Markers under the keys of the store. -/
abbrev Store := Markers String

/-- The whole seconds of a clock in milliseconds. -/
def unixSeconds (now : Nat) : Int := (now / 1000 : Nat)

/-! ## Commands -/

inductive Expiration where
  /-- Seconds from now. -/
  | ex (seconds : Int)
  /-- An absolute second. -/
  | exat (seconds : Int)

/-- The last millisecond that the store can represent. -/
def maxMillis : Int := 2 ^ 63 - 1

/-- The deadline of a new key; the store refuses times that are over or out of its range. -/
def deadline (now : Nat) : Expiration → Option Int
  | .ex seconds =>
    if seconds ≤ 0 || seconds > maxMillis / 1000 || seconds * 1000 > maxMillis - now then none
      else some (now + seconds * 1000)
  | .exat seconds => if seconds ≤ 0 || seconds > maxMillis / 1000 then none else some (seconds * 1000)

/-- What becomes of a request. -/
inductive Outcome where
  /-- A check does not pass. -/
  | refused
  /-- The store answers with an error. -/
  | failed
  | replayed
  /-- The request is served; it has set the marker. -/
  | accepted (key : String) (deadline : Int)
  deriving DecidableEq

/-- `SET key 1 NX` with an expiration. -/
def setNx (store : Store) (key : String) (expiration : Expiration) (now : Nat) : Store × Outcome :=
  match deadline now expiration with
  | none => (store, .failed)
  | some d =>
    if (visible now (store key)).isSome then (store, .replayed)
    else (Function.update store key (some ⟨(), d⟩), .accepted key d)

/-- What a request asks of the store, if it comes to that. -/
inductive Consumption where
  | refused
  | failed
  | set (key : String) (expiration : Expiration)

structure Formats where
  /-- The BLAKE3 hash of a text, in hexadecimal digits. -/
  digest : String → String
  /-- The hash of an access token, as proofs have it. -/
  accessTokenHash : String → String
  /-- A target without its query and fragment; nothing if it is not a URL. -/
  normalizeHtu : String → Option String
  /-- The target is one that a resource server takes: HTTP with a host and without credentials. -/
  resourceTarget : String → Bool

/-! ## Keys -/

def fapiHttpSignatureReplay (tenantId fingerprint : String) : String :=
  "fapi_http_signature_replay:" ++ tenantId ++ ":" ++ fingerprint

variable (f : Formats)

def dpopReplay (jkt jti : String) : String := "oauth:dpop:jti:" ++ jkt ++ ":" ++ f.digest jti

def privateKeyJwtReplay (clientId jti : String) : String :=
  "oauth:client_assertion:jti:" ++ f.digest clientId ++ ":" ++ f.digest jti

def clientAttestationReplay (clientId jti : String) : String :=
  privateKeyJwtReplay f ("client-attestation:" ++ clientId) jti

def jarReplay (clientId jti : String) : String := "oauth:jar:jti:" ++ f.digest clientId ++ ":" ++ f.digest jti

def jwtBearerReplay (clientId jti : String) : String :=
  "oauth:jwt_bearer:jti:" ++ f.digest clientId ++ ":" ++ f.digest jti

def cibaRequestObjectReplay (clientId jti : String) : String :=
  "oauth:ciba:request_object:jti:" ++ f.digest clientId ++ ":" ++ f.digest jti

/-! ## HTTP message signatures -/

/-- A parameter of a signature. -/
inductive BareItem where
  | integer (n : Int)
  | other
  deriving DecidableEq

structure HttpSignature where
  created : Int
  expires : Option BareItem
  fingerprint : String
  deriving DecidableEq

structure VerificationPolicy where
  now : Int
  maxAgeSeconds : Int
  futureSkewSeconds : Int

/-- An expiry, if there is one, is a number, and neither over nor before the creation. -/
def validExpires (signature : HttpSignature) (now : Int) : Bool :=
  match signature.expires with
  | none => true
  | some .other => false
  | some (.integer expires) => !(expires < signature.created || expires < now)

def validateTime (signature : HttpSignature) (policy : VerificationPolicy) : Bool :=
  if policy.maxAgeSeconds < 0 || policy.futureSkewSeconds < 0
      || signature.created < saturate (policy.now - policy.maxAgeSeconds)
      || signature.created > saturate (policy.now + policy.futureSkewSeconds) then false
  else validExpires signature policy.now

def fapiHttpSignatureFutureSkewSeconds : Int := 5

/-- The largest 64-bit integer. -/
def maxI64 : Int := 2 ^ 63 - 1

def consumeFapiHttpSignature (tenantId fingerprint : String) (maxAgeSeconds : Int) : Consumption :=
  let ttl := maxAgeSeconds + fapiHttpSignatureFutureSkewSeconds
  if ttl < 0 || ttl > maxI64 then .failed else .set (fapiHttpSignatureReplay tenantId fingerprint) (.ex ttl)

/-! ## DPoP proofs at the authorization server -/

def dpopMaxProofAgeSeconds : Int := 300

def dpopClockSkewSeconds : Int := 30

def dpopReplayTtlSeconds : Int := dpopMaxProofAgeSeconds + dpopClockSkewSeconds + 1

structure DpopProof where
  /-- The thumbprint of the proof's key. -/
  jkt : String
  jti : String
  iat : Int
  htm : String
  htu : String
  ath : Option String
  nonce : Option String
  deriving DecidableEq

structure DpopProofRequest where
  proof : DpopProof
  method : String
  targetUri : String
  accessToken : Option String
  expectedJkt : Option String
  deriving DecidableEq

def iatWithinWindow (iat now : Int) : Bool :=
  if iat > saturate (now + dpopClockSkewSeconds) then false
  else iat > now || (now - iat ≤ maxI64 && now - iat ≤ dpopMaxProofAgeSeconds)

def maxJtiBytes : Nat := 128

def validJti (jti : String) : Bool := !isBlank jti && jti.utf8ByteSize ≤ maxJtiBytes

variable (request : DpopProofRequest)

def validateClaims (now : Int) : Bool :=
  (f.normalizeHtu request.proof.htu).isSome && f.normalizeHtu request.proof.htu = f.normalizeHtu request.targetUri
    && request.proof.htm = request.method && iatWithinWindow request.proof.iat now && validJti request.proof.jti
    && request.accessToken.all fun token => request.proof.ath = some (f.accessTokenHash token)

/-- Requests with an access token have a scope of their own. -/
def replayScope : Option String :=
  match request.accessToken with
  | none => some request.proof.jkt
  | some _ => (f.normalizeHtu request.targetUri).map fun target =>
    "resource:" ++ f.digest (request.method ++ ":" ++ target)

/-- `validate_authorization_server_dpop`, to the consumption. -/
def consumeDpop (now : Int) : Consumption :=
  if request.expectedJkt.any (· ≠ request.proof.jkt) || !validateClaims f request now then .refused
  else match replayScope f request with
    | none => .refused
    | some scope => .set (dpopReplay f scope request.proof.jti) (.ex dpopReplayTtlSeconds)

/-! ## DPoP proofs at a resource server -/

structure DpopProofVerifierConfig where
  clockSkewSeconds : Int
  maxAgeSeconds : Int
  requiredNonce : Option String

structure ResourceDpopRequest where
  proof : DpopProof
  method : String
  targetUri : String
  accessToken : String
  expectedJkt : String
  deriving DecidableEq

variable (config : DpopProofVerifierConfig)

def validateResourceClaims (request : ResourceDpopRequest) (now : Int) : Bool :=
  let skew := max config.clockSkewSeconds 0
  let maxAge := max config.maxAgeSeconds 1
  let proof := request.proof
  proof.htm = request.method && f.resourceTarget proof.htu && f.resourceTarget request.targetUri
    && (f.normalizeHtu proof.htu).isSome && f.normalizeHtu proof.htu = f.normalizeHtu request.targetUri
    && proof.ath = some (f.accessTokenHash request.accessToken) && validJti proof.jti
    && !(proof.iat < saturate (now - saturate (maxAge + skew))) && !(proof.iat > saturate (now + skew))
    && config.requiredNonce.all fun expected => proof.nonce = some expected

def resourceExpiresAt (proof : DpopProof) : Int :=
  saturate (saturate (saturate (proof.iat + max config.maxAgeSeconds 1) + max config.clockSkewSeconds 0) + 1)

/-- The proof is checked at `checkedAt`, and the lifetime is what is left of it at `now`. -/
def consumeResourceDpop (request : ResourceDpopRequest) (checkedAt now : Int) : Consumption :=
  if !validateResourceClaims f config request checkedAt || request.expectedJkt ≠ request.proof.jkt then .refused
  else .set (dpopReplay f request.proof.jkt request.proof.jti)
    (.ex (max (saturate (resourceExpiresAt config request.proof - now)) 1))

/-! ## Assertions -/

/-- The claims of a client assertion, and of a JWT-bearer assertion. -/
structure AssertionClaims where
  iss : String
  sub : String
  aud : Json
  exp : Int
  nbf : Option Int
  iat : Option Int
  jti : String
  deriving DecidableEq

def clientAssertionMaxTtlSeconds : Int := 300

def clientAssertionClockSkewSeconds : Int := 30

def validClientAssertionTimes (claims : AssertionClaims) (now : Int) : Bool :=
  if claims.exp ≤ now || claims.exp > saturate (now + clientAssertionMaxTtlSeconds) then false
  else if claims.nbf.any fun nbf => nbf > saturate (now + clientAssertionClockSkewSeconds) then false
  else if claims.iat.any fun iat => iat > saturate (now + clientAssertionClockSkewSeconds)
      || saturate (now - iat) > clientAssertionMaxTtlSeconds then false
  else true

def validClientAssertionJti (jti : String) : Bool :=
  !isBlank jti && trim jti = jti && jti.utf8ByteSize ≤ maxJtiBytes

def replayTtlSeconds (claims : AssertionClaims) (now : Int) : Int :=
  max 1 (min (saturate (claims.exp - now)) clientAssertionMaxTtlSeconds)

/-- A client assertion that is checked at `checkedAt` and consumed at `now`. -/
def consumePrivateKeyJwt (clientId : String) (claims : AssertionClaims) (authentic : Bool)
    (checkedAt now : Int) : Consumption :=
  if !authentic || claims.iss ≠ clientId || claims.sub ≠ clientId || !validClientAssertionTimes claims checkedAt
      || !validClientAssertionJti claims.jti then .refused
  else .set (privateKeyJwtReplay f clientId claims.jti) (.ex (replayTtlSeconds claims now))

def jwtBearerAssertionMaxTtlSeconds : Int := 300

def jwtBearerAssertionClockSkewSeconds : Int := 30

/-- The length of a text in bytes, without white space around it. -/
def trimmedBytes (s : String) : Nat := (trim s).utf8ByteSize

def validateJwtBearerAssertionClaims (claims : AssertionClaims) (clientId issuer : String) (now : Int) : Bool :=
  !(claims.iss ≠ clientId || claims.sub ≠ clientId || claims.aud.str? ≠ some issuer || claims.exp ≤ now
    || claims.exp > saturate (now + jwtBearerAssertionMaxTtlSeconds)
    || (claims.nbf.any fun nbf => nbf > saturate (now + jwtBearerAssertionClockSkewSeconds))
    || (claims.iat.any fun iat => iat > saturate (now + jwtBearerAssertionClockSkewSeconds)
      || saturate (now - iat) > jwtBearerAssertionMaxTtlSeconds))
  && !isBlank claims.jti && trimmedBytes claims.jti ≤ maxJtiBytes && (fromTimestamp claims.exp).isSome

/-- The lifetime is what is left of the assertion at its check. -/
def consumeJwtBearer (clientId issuer : String) (claims : AssertionClaims) (authentic : Bool)
    (checkedAt : Int) : Consumption :=
  if !authentic || !validateJwtBearerAssertionClaims claims clientId issuer checkedAt then .refused
  else .set (jwtBearerReplay f clientId claims.jti) (.ex (claims.exp - checkedAt))

/-! ## Client attestation proofs and request objects -/

/-- The interval in which a proof is accepted; the end is not part of it. -/
structure ClientAttestationProofWindow where
  notBefore : Int
  expiresAt : Int

/-- 64-bit arithmetic that fails when it overflows. -/
def checked (n : Int) : Option Int := if -2 ^ 63 ≤ n && n ≤ maxI64 then some n else none

def fromVerifiedIssuedAt (iat : Int) : Option ClientAttestationProofWindow := do
  let notBefore ← checked (iat - 60)
  let lastAccepted ← checked (iat + 300)
  let expiresAt ← checked (lastAccepted + 1)
  some ⟨notBefore, expiresAt⟩

def ClientAttestationProofWindow.accepts (window : ClientAttestationProofWindow) (now : Int) : Bool :=
  now ≥ window.notBefore && now < window.expiresAt

/-- `CLIENT_ATTESTATION_PROOF_SCRIPT`, at the time of the store. -/
def clientAttestationProofScript (key : String) (window : ClientAttestationProofWindow)
    (now : Int) : Consumption :=
  if now < window.notBefore || now ≥ window.expiresAt then .refused else .set key (.exat window.expiresAt)

/-- The node checks the proof at `checkedAt` by its own clock, the store at `now`. -/
def consumeClientAttestationProof (clientId jti : String) (iat : Int) (checkedAt now : Int) : Consumption :=
  match fromVerifiedIssuedAt iat with
  | none => .refused
  | some window =>
    if !window.accepts checkedAt then .refused
    else clientAttestationProofScript (clientAttestationReplay f clientId jti) window now

/-- `REQUEST_OBJECT_REPLAY_SCRIPT`, at the time of the store. -/
def requestObjectReplayScript (key : String) (expiresAt now : Int) : Consumption :=
  if now ≥ expiresAt then .refused else .set key (.exat expiresAt)

/-! ## The machine -/

/-- What a request carries. -/
inductive Request where
  | fapiHttpSignature (tenantId : String) (signature : HttpSignature)
  /-- The server's nonce policy takes the nonce of the proof, or not. -/
  | dpop (request : DpopProofRequest) (nonceAccepted : Bool)
  | resourceDpop (request : ResourceDpopRequest) (nonceAccepted : Bool)
  | privateKeyJwt (clientId : String) (claims : AssertionClaims) (authentic : Bool)
  | jwtBearer (clientId : String) (claims : AssertionClaims) (authentic : Bool)
  | clientAttestation (clientId jti : String) (iat : Int)
  | jar (clientId jti : String) (expiresAt : Int)
  | cibaRequestObject (clientId jti : String) (expiresAt : Int)
  deriving DecidableEq

structure Config where
  formats : Formats
  issuer : String
  fapiMaxAgeSeconds : Int
  dpop : DpopProofVerifierConfig

/-- A request that a node checks at `checkedAt` of its clock; its marker reaches the store at
`now`. -/
structure Op where
  request : Request
  checkedAt : Nat
  now : Nat

def consumption (cfg : Config) (op : Op) : Consumption :=
  let f := cfg.formats
  let checkedAt := unixSeconds op.checkedAt
  let now := unixSeconds op.now
  match op.request with
  | .fapiHttpSignature tenantId signature =>
    if validateTime signature ⟨checkedAt, cfg.fapiMaxAgeSeconds, fapiHttpSignatureFutureSkewSeconds⟩ then
      consumeFapiHttpSignature tenantId signature.fingerprint cfg.fapiMaxAgeSeconds
    else .refused
  | .dpop request nonceAccepted => if nonceAccepted then consumeDpop f request checkedAt else .refused
  | .resourceDpop request nonceAccepted =>
    if nonceAccepted then consumeResourceDpop f cfg.dpop request checkedAt now else .refused
  | .privateKeyJwt clientId claims authentic => consumePrivateKeyJwt f clientId claims authentic checkedAt now
  | .jwtBearer clientId claims authentic => consumeJwtBearer f clientId cfg.issuer claims authentic checkedAt
  | .clientAttestation clientId jti iat => consumeClientAttestationProof f clientId jti iat checkedAt now
  | .jar clientId jti expiresAt => requestObjectReplayScript (jarReplay f clientId jti) expiresAt now
  | .cibaRequestObject clientId jti expiresAt =>
    requestObjectReplayScript (cibaRequestObjectReplay f clientId jti) expiresAt now

def exec (cfg : Config) (store : Store) (op : Op) : Store × Outcome :=
  match consumption cfg op with
  | .refused => (store, .refused)
  | .failed => (store, .failed)
  | .set key expiration => setNx store key expiration op.now

end NazoAuth.Replay
