import NazoAuth.Lib.Except
import NazoAuth.Refresh.Commit

/-!
# Refresh families — the token request

The refresh grant of the token endpoint, from the presented token to the value it hands to the
durable commit: the look-up of the presented digest, the lost-response successor, the narrowing of
scopes and audiences, the rotation policy, and the comparison of everything that is signed with the
source.

The request reads the store once and commits later, in another state; nothing it read is trusted
then. Checks that do not touch refresh state (proofs of possession, client assertions, native SSO,
the subject's profile, signing) enter as results in `RequestFacts`.
-/

namespace NazoAuth.Refresh

open Lib

/-! ## Presentation of a token -/

/-- A refresh token as the application sees it. -/
structure RefreshToken where
  idTokenSid : Option String
  id : Uuid
  tokenBlake3 : Digest
  tenantId : Uuid
  tokenFamilyId : Uuid
  clientId : Uuid
  userId : Option Uuid
  contractKey : Digest
  contract : RefreshContract
  audience : List String
  issuedAt : Instant
  expiresAt : Instant
  revokedAt : Option Instant
  dpopJkt : Option String
  mtlsX5tS256 : Option String
  clientAttestationJkt : Option String

def RefreshToken.authority (token : RefreshToken) : RefreshTokenAuthority where
  tenantId := token.tenantId
  clientId := token.clientId
  userId := token.userId
  familyId := token.tokenFamilyId
  memberId := token.id
  tokenBlake3 := token.tokenBlake3
  contractKey := token.contractKey
  contract := token.contract
  currentAudiences := token.audience
  idTokenSid := token.idTokenSid
  dpopJkt := token.dpopJkt
  mtlsX5tS256 := token.mtlsX5tS256
  clientAttestationJkt := token.clientAttestationJkt

def tokenFromCurrent (family : RefreshFamilyRow) (contract : RefreshContract) : RefreshToken where
  idTokenSid := family.currentIdTokenSid
  id := family.currentMemberId
  tokenBlake3 := family.currentTokenBlake3
  tenantId := family.tenantId
  tokenFamilyId := family.tokenFamilyId
  clientId := family.clientId
  userId := family.userId
  contractKey := family.contractBlake3
  contract := contract
  audience := family.currentAudience
  issuedAt := family.currentIssuedAt
  expiresAt := family.currentExpiresAt
  revokedAt := family.revokedAt
  dpopJkt := family.dpopJkt
  mtlsX5tS256 := family.mtlsX5tS256
  clientAttestationJkt := family.clientAttestationJkt

/-- A spent token carries the grant's original audience: the narrowing belongs to the live
member. -/
def tokenFromSpent (spent : SpentRefreshTokenRow) (family : RefreshFamilyRow)
    (contract : RefreshContract) : RefreshToken :=
  { tokenFromCurrent family contract with
    id := spent.memberId
    tokenBlake3 := spent.refreshTokenBlake3
    audience := contract.audiences
    issuedAt := spent.spentAt
    expiresAt := spent.expiresAt
    revokedAt := some spent.spentAt }

/-- The row of the look-up: the family, its contract if present, and the proof if the digest is
spent. -/
structure RefreshPresentationRow where
  family : RefreshFamilyRow
  contract : Option RefreshContract
  spent : Option SpentRefreshTokenRow

/-- A current presentation takes precedence over a spent proof. -/
def lookupRefreshToken (s : RefreshStore) (tenantId : Uuid) (digest : Digest) : Option RefreshPresentationRow :=
  let contractOf (f : RefreshFamilyRow) := (s.contracts.find? (f.tenantId, f.contractBlake3)).map (·.contract)
  match s.families.rows.find? (fun f => f.tenantId = tenantId && f.currentTokenBlake3 = digest) with
  | some f => some ⟨f, contractOf f, none⟩
  | none => match s.spent.find? (tenantId, digest) with
    | none => none
    | some p => (s.families.find? p.familyKey).map fun f => ⟨f, contractOf f, some p⟩

structure RefreshPresentation where
  presented : RefreshToken
  successor : Option RefreshToken

/-- The current member may answer for its direct predecessor, to the same client and within the
window. -/
def lostResponseEligible (family : RefreshFamilyRow) (spent : SpentRefreshTokenRow)
    (clientId : Uuid) (now : Instant) : Bool :=
  let elapsed := now - spent.spentAt
  family.clientId = clientId
    && (family.dpopJkt.isSome || family.mtlsX5tS256.isSome)
    && family.currentMemberId = spent.successorMemberId
    && family.revokedAt.isNone
    && family.reuseDetectedAt.isNone
    && decide (family.currentExpiresAt > now)
    && decide (elapsed ≥ 0)
    && decide (elapsed ≤ seconds lostRefreshTokenRetrySeconds)

def RefreshPresentationRow.intoPresentation (row : RefreshPresentationRow)
    (retry : Option (Uuid × Instant)) : Except RepositoryError RefreshPresentation :=
  match row.contract with
  | none => .error (.unexpected "refresh family references a missing contract")
  | some contract => match row.spent with
    | none => .ok ⟨tokenFromCurrent row.family contract, none⟩
    | some spent =>
      let eligible := retry.any fun r => lostResponseEligible row.family spent r.1 r.2
      .ok ⟨tokenFromSpent spent row.family contract,
        if eligible then some (tokenFromCurrent row.family contract) else none⟩

def refreshTokenSnapshot (h : Hashes) (s : RefreshStore) (tenantId : Uuid) (rawToken : String)
    (clientId : Uuid) (now : Instant) : Except RepositoryError (Option RefreshPresentation) :=
  match lookupRefreshToken s tenantId (h.blake3 rawToken) with
  | none => .ok none
  | some row => match row.intoPresentation (some (clientId, now)) with
    | .error e => .error e
    | .ok presentation => .ok (some presentation)

/-! ## The request -/

/-- The registration of the authenticated client, as read for this request. -/
structure ClientRow where
  tenantId : Uuid
  id : Uuid
  clientId : String
  clientType : ClientType
  tokenEndpointAuthMethod : String
  grantTypes : List String
  allowedAudiences : List String
  requireDpopBoundTokens : Bool
  requireMtlsBoundTokens : Bool
  requiresFapi2Security : Bool

structure TokenForm where
  refreshToken : Option String
  scope : Option String
  audiences : List String

structure TokenIssuanceConfig where
  issuer : String
  openid4vciEnabled : Bool
  openid4vciCredentialScopes : List String
  refreshTokenTtlSeconds : Int
  /-- The policy on authorization details that are neither null nor an empty object. -/
  validateAuthorizationDetails : Json → Bool

structure OAuthEndpointError where
  status : Nat
  error : String
  description : String

/-- The proof-of-possession keys that the request demonstrated. -/
structure SenderConstraint where
  dpopJkt : Option String
  mtlsX5tS256 : Option String

/-- Results of the checks that do not touch refresh state. -/
structure RequestFacts where
  sender : Except OAuthEndpointError SenderConstraint
  clientAssertion : Except OAuthEndpointError Unit
  nativeSso : Except OAuthEndpointError Unit
  signing : Except OAuthEndpointError Unit

inductive RefreshTokenPolicy where
  | noRefresh
  | issueNew
  | preserveExisting
  | rotate (familyId rotatedFromId : Uuid)
  | rotateLostResponse (familyId originalId : Uuid) (originalBlake3 : Digest) (successorId : Uuid)
      (retryStartedAt : Instant)
  deriving DecidableEq

/-- What is about to be signed and persisted. -/
structure TokenIssue where
  userId : Option Uuid
  subject : String
  scopes : List String
  authorizationDetails : Json
  audiences : List String
  authTime : Option Int
  amr : List String
  oidcSid : Option String
  acr : Option String
  userinfoClaimRequests : Json
  idTokenClaimRequests : Json
  includeRefresh : Bool
  refreshTokenPolicy : RefreshTokenPolicy
  dpopJkt : Option String
  refreshTokenDpopJkt : Option String
  mtlsX5tS256 : Option String
  refreshTokenMtlsX5tS256 : Option String
  refreshTokenClientAttestationJkt : Option String
  refreshAuthority : Option RefreshTokenAuthority
  refreshGrantAudiences : Option (List String)
  actor : Option Json

def refreshTokenHasStableSenderConstraint (token : RefreshToken) : Bool :=
  token.dpopJkt.isSome || token.mtlsX5tS256.isSome

def refreshTokenPolicy (client : ClientRow) (token : RefreshToken) : RefreshTokenPolicy :=
  let senderConstrainedConfidentialClient := client.clientType = .confidential
    && (client.requireDpopBoundTokens || client.requireMtlsBoundTokens)
  if senderConstrainedConfidentialClient
      || (client.requiresFapi2Security && refreshTokenHasStableSenderConstraint token) then .preserveExisting
  else .rotate token.tokenFamilyId token.id

def parseScope (raw : String) : List String :=
  ((raw.toList.splitOn ' ').filter fun scope => !scope.isEmpty).map String.ofList

def refreshTokenScopes (originalScopes requested : List String) : Option (List String) :=
  if requested.isEmpty then some originalScopes
  else if isSubset requested originalScopes then some requested else none

def clientAttestationRefreshBindingMatches (tokenEndpointAuthMethod : String)
    (expected presented : Option String) : Bool :=
  if tokenEndpointAuthMethod ≠ "attest_jwt_client_auth" then expected.isNone && presented.isNone
  else expected.isSome && expected = presented

inductive RefreshAudienceError where
  | missingOriginal
  | requestedExceedsOriginal

def refreshTokenAudiences (token : RefreshToken) (form : TokenForm) : Except RefreshAudienceError (List String) :=
  if token.audience.isEmpty then .error .missingOriginal
  else if form.audiences.isEmpty then .ok token.audience
  else if isSubset form.audiences token.audience then .ok form.audiences
  else .error .requestedExceedsOriginal

def clientSupportsGrant (client : ClientRow) (grantType : String) : Bool :=
  client.grantTypes.any fun grant => grant = grantType

def audiencesAllowed (client : ClientRow) (audiences : List String) : Bool :=
  !audiences.isEmpty && isSubset audiences client.allowedAudiences

variable (cfg : TokenIssuanceConfig)

/-- The issuer is the audience of a credential authorization. -/
def openid4vciAudience (scopes : List String) (authorizationDetails : Json) : Option String :=
  let requestedByScope := scopes.any fun scope => cfg.openid4vciCredentialScopes.any fun configured =>
    configured = scope
  let requestedByAuthorizationDetails :=
    authorizationDetails.items.any fun detail => detail.get? "type" = some (.str "openid_credential")
  if cfg.openid4vciEnabled && (requestedByScope || requestedByAuthorizationDetails) then some cfg.issuer else none

def shouldIssueRefreshToken (client : ClientRow) (scopes : List String)
    (openid4vciCredentialAuthorization : Bool) : Bool :=
  clientSupportsGrant client "refresh_token"
    && (scopes.any (fun scope => scope = "offline_access") || openid4vciCredentialAuthorization)

def nativeSsoRequested (scopes : List String) : Bool := scopes.any fun scope => scope = "device_sso"

/-- The request goes on only if `ok`. -/
def require (ok : Bool) (e : OAuthEndpointError) : Except OAuthEndpointError Unit :=
  if ok then .ok () else .error e

/-- An absent value ends the request. -/
def okOr {α : Type} (value : Option α) (e : OAuthEndpointError) : Except OAuthEndpointError α :=
  match value with
  | some a => .ok a
  | none => .error e

/-- The snapshot that the look-up returned, if it returned one. -/
def loadedSnapshot (snapshot : Except RepositoryError (Option RefreshPresentation)) :
    Except OAuthEndpointError RefreshPresentation :=
  match snapshot with
  | .error _ => .error ⟨503, "server_error", "refresh_token 校验失败."⟩
  | .ok found => okOr found ⟨400, "invalid_grant", "refresh_token 无效."⟩

def refreshAudienceError : RefreshAudienceError → OAuthEndpointError
  | .missingOriginal => ⟨400, "invalid_grant", "refresh_token 缺少持久化 audience 绑定."⟩
  | .requestedExceedsOriginal => ⟨400, "invalid_target", "请求的 resource 超出 refresh_token 原始授权范围."⟩

variable (facts : RequestFacts)

/-- The native-SSO binding of a request that asks for it. -/
def nativeSsoBinding (scopes : List String) (oidcSid : Option String) :
    Except OAuthEndpointError Unit :=
  if nativeSsoRequested scopes then
    if oidcSid.isSome then facts.nativeSso
    else .error ⟨400, "invalid_grant", "Native SSO refresh requires its original session binding."⟩
  else .ok ()

/-- `token_refresh_with_service` up to the issue it hands on. `requestStartedAt` is the start of the
request, `now` the clock at the expiry check. -/
def tokenRefreshWithService (client : ClientRow) (form : TokenForm)
    (clientAttestationJkt : Option String) (snapshot : Except RepositoryError (Option RefreshPresentation))
    (requestStartedAt now : Instant) : Except OAuthEndpointError TokenIssue := do
  require form.refreshToken.isSome ⟨400, "invalid_request", "缺少 refresh_token."⟩
  let presentation ← loadedSnapshot snapshot
  let presented := presentation.presented
  require (presented.clientId = client.id && decide (presented.expiresAt > now))
    ⟨400, "invalid_grant", "refresh_token 无效或已撤销."⟩
  require (clientAttestationRefreshBindingMatches client.tokenEndpointAuthMethod presented.clientAttestationJkt
      clientAttestationJkt)
    ⟨401, "invalid_client_attestation", "Refresh token is not bound to this client instance key."⟩
  let authenticationContext := presented.contract.authenticationContext
  require (authenticationContext.isWellFormed && validSid presented.idTokenSid
      && authenticationContext.issuer = cfg.issuer && authenticationContext.audience = client.clientId)
    ⟨400, "invalid_grant", "refresh_token 的 OpenID 上下文无效或与当前客户端不匹配."⟩
  let originalScopes := presented.contract.scopes
  require (!(client.clientType = .publicClient && client.requireDpopBoundTokens && !client.requireMtlsBoundTokens
      && presented.dpopJkt.isNone))
    ⟨400, "invalid_grant", "refresh_token is not DPoP-bound."⟩
  let sender ← facts.sender
  facts.clientAssertion
  -- a spent or revoked token may be answered by its successor; the durable commit tells reuse from a retry
  let token := if presented.revokedAt.isSome then presentation.successor.getD presented else presented
  require (shouldIssueRefreshToken client originalScopes
      (openid4vciAudience cfg originalScopes token.contract.authorizationDetails).isSome)
    ⟨400, "invalid_grant", "refresh_token 不具备可续期授权."⟩
  let scopes ← okOr (refreshTokenScopes originalScopes ((form.scope.map parseScope).getD []))
    ⟨400, "invalid_scope", "请求的作用域超出 refresh_token 原始授权范围."⟩
  let audiences ← (refreshTokenAudiences token form).mapError refreshAudienceError
  require (audiencesAllowed client audiences) ⟨400, "invalid_target", "请求的 audience 不在客户端允许范围内."⟩
  let policy := if presented.revokedAt.isSome then
      .rotateLostResponse token.tokenFamilyId presented.id presented.tokenBlake3 token.id requestStartedAt
    else refreshTokenPolicy client token
  nativeSsoBinding facts scopes authenticationContext.oidcSid
  return {
    userId := token.userId
    subject := token.contract.subject
    scopes := scopes
    authorizationDetails := token.contract.authorizationDetails
    audiences := audiences
    authTime := some authenticationContext.authTime
    amr := authenticationContext.amr
    oidcSid := authenticationContext.oidcSid
    acr := authenticationContext.acr
    userinfoClaimRequests := authenticationContext.userinfoClaimRequests
    idTokenClaimRequests := authenticationContext.idTokenClaimRequests
    includeRefresh := true
    refreshTokenPolicy := policy
    dpopJkt := sender.dpopJkt
    refreshTokenDpopJkt := token.dpopJkt
    mtlsX5tS256 := sender.mtlsX5tS256
    refreshTokenMtlsX5tS256 := token.mtlsX5tS256
    refreshTokenClientAttestationJkt := token.clientAttestationJkt
    refreshAuthority := some token.authority
    refreshGrantAudiences := none
    actor := none }

/-! ## The issue -/

/-- Null and the empty object stand for no details; anything else must satisfy the policy. -/
def normalizeAuthorizationDetails : Json → Option Json
  | .null => some (.arr [])
  | .obj [] => some (.arr [])
  | other => if cfg.validateAuthorizationDetails other then some other else none

variable (issue : TokenIssue)

/-- The source authority that a policy refers to, if policy and authority agree. -/
def policySource : Option RefreshTokenAuthority :=
  match issue.refreshTokenPolicy, issue.refreshAuthority with
  | .preserveExisting, some source => some source
  | .rotate familyId rotatedFromId, some source =>
    if familyId = source.familyId && rotatedFromId = source.memberId then some source else none
  | .rotateLostResponse familyId _ _ successorId _, some source =>
    if familyId = source.familyId && successorId = source.memberId then some source else none
  | _, _ => none

/-- The signed values are those of the source, or narrower. -/
def issueMatches (client : ClientRow) (issuer : String) (source : RefreshTokenAuthority) : Bool :=
  let context := source.contract.authenticationContext
  source.tenantId = client.tenantId
    && source.clientId = client.id
    && source.userId = issue.userId
    && source.contract.subject = issue.subject
    && source.contract.authorizationDetails = issue.authorizationDetails
    && context.isWellFormed
    && validSid source.idTokenSid
    && context.issuer = issuer
    && context.audience = client.clientId
    && issue.authTime = some context.authTime
    && context.amr = issue.amr
    && context.oidcSid = issue.oidcSid
    && context.acr = issue.acr
    && context.userinfoClaimRequests = issue.userinfoClaimRequests
    && context.idTokenClaimRequests = issue.idTokenClaimRequests
    && isSubset issue.scopes source.contract.scopes
    && !issue.audiences.isEmpty
    && isSubset issue.audiences source.currentAudiences
    && issue.actor.isNone
    && source.dpopJkt.all (fun binding => issue.dpopJkt = some binding)
    && source.mtlsX5tS256.all (fun binding => issue.mtlsX5tS256 = some binding)
    && issue.refreshTokenDpopJkt = source.dpopJkt
    && issue.refreshTokenMtlsX5tS256 = source.mtlsX5tS256
    && issue.refreshTokenClientAttestationJkt = source.clientAttestationJkt
    && issue.refreshGrantAudiences.isNone

def refreshIssueMatchesSource (client : ClientRow) (issuer : String) : Bool :=
  match issue.refreshTokenPolicy, issue.refreshAuthority with
  | .noRefresh, none => !issue.includeRefresh
  | .issueNew, none => true
  | _, _ => match policySource issue with
    | some source => issueMatches issue client issuer source
    | none => false

/-- The authentication context of a new family; absent facts are never made up. -/
def refreshAuthenticationContext (issuer audience : String) :
    Option RefreshTokenAuthenticationContext :=
  match issue.authTime with
  | none => none
  | some authTime =>
    let context := ⟨currentVersion, issuer, audience, authTime, issue.amr, issue.oidcSid, issue.acr,
      issue.userinfoClaimRequests, issue.idTokenClaimRequests⟩
    if context.isWellFormed then some context else none

/-- Values drawn and read while issuing. -/
structure IssueDraw where
  rawToken : String
  memberId : Uuid
  newFamilyId : Uuid
  issuanceId : Uuid
  /-- The session identifier of an ID token that is not issued from a refresh source. -/
  idTokenSid : Option String
  now : Instant

/-- The lineage of the generation that will be issued: family, predecessor, retried token. -/
def refreshFamilyOf (policy : RefreshTokenPolicy) (draw : IssueDraw) :
    Option (Uuid × Option Uuid × Option LostResponseRetry) :=
  match policy with
  | .issueNew => some (draw.newFamilyId, none, none)
  | .rotate familyId rotatedFromId => some (familyId, some rotatedFromId, none)
  | .rotateLostResponse familyId originalId originalBlake3 successorId retryStartedAt =>
    some (familyId, some successorId, some ⟨originalId, originalBlake3, retryStartedAt⟩)
  | .noRefresh | .preserveExisting => none

def prepareRefreshToken (client : ClientRow) (issue : TokenIssue) (draw : IssueDraw)
    (family : Uuid × Option Uuid × Option LostResponseRetry) : NewRefreshToken where
  rawToken := draw.rawToken
  memberId := draw.memberId
  tenantId := client.tenantId
  familyId := family.1
  rotatedFromId := family.2.1
  lostResponseRetry := family.2.2
  clientId := client.id
  userId := issue.userId
  audiences := if issue.refreshAuthority.isSome then issue.audiences
    else issue.refreshGrantAudiences.getD issue.audiences
  issuedAt := draw.now
  expiresAt := draw.now + seconds cfg.refreshTokenTtlSeconds
  idTokenSid := match issue.refreshAuthority with
    | some source => source.idTokenSid
    | none => draw.idTokenSid
  dpopJkt := issue.refreshTokenDpopJkt
  mtlsX5tS256 := issue.refreshTokenMtlsX5tS256
  clientAttestationJkt := issue.refreshTokenClientAttestationJkt

/-- The claims of the access token that the response would carry. -/
structure AccessTokenSignInput where
  authorizationId : Uuid
  tenantId : Uuid
  subject : String
  userId : Option Uuid
  clientId : String
  audiences : List String
  scopes : List String
  authorizationDetails : Json
  userinfoClaimRequests : Json
  dpopJkt : Option String
  mtlsX5tS256 : Option String
  actor : Option Json

/-- `issue_token_response` up to the durable commit: the signed access token and the refresh
commit. -/
def issueTokenResponse (client : ClientRow) (issue₀ : TokenIssue) (draw : IssueDraw) :
    Except OAuthEndpointError (AccessTokenSignInput × Option RefreshTokenCommit) := do
  let authorizationDetails ← okOr (normalizeAuthorizationDetails cfg issue₀.authorizationDetails)
    ⟨503, "server_error", "授权详情状态无效."⟩
  let issue := { issue₀ with authorizationDetails := authorizationDetails }
  let issueIncludesOpenid := issue.scopes.any fun scope => scope = "openid"
  require (!(issueIncludesOpenid && issue.userId.isNone)) ⟨400, "invalid_grant", "openid 授权缺少用户主体."⟩
  require (!(issueIncludesOpenid && issue.refreshAuthority.isSome && issue.authTime.isNone))
    ⟨400, "invalid_grant", "refreshed ID token requires the original authentication context."⟩
  require (refreshIssueMatchesSource issue client cfg.issuer)
    ⟨400, "invalid_grant", "refresh token source authority is missing or inconsistent."⟩
  let refreshAuthorizationScopes := (issue.refreshAuthority.map (·.contract.scopes)).getD issue.scopes
  let willIssueRefresh := issue.includeRefresh && shouldIssueRefreshToken client refreshAuthorizationScopes
    (openid4vciAudience cfg refreshAuthorizationScopes issue.authorizationDetails).isSome
  let newContext := refreshAuthenticationContext issue cfg.issuer client.clientId
  require (!(willIssueRefresh && issue.refreshTokenPolicy = .issueNew && newContext.isNone))
    ⟨400, "invalid_grant", "refresh token requires a complete authentication context."⟩
  require (!(willIssueRefresh && client.tokenEndpointAuthMethod = "attest_jwt_client_auth"
      && issue.refreshTokenClientAttestationJkt.isNone))
    ⟨401, "invalid_client_attestation", "Client attestation refresh-token binding is missing."⟩
  let refreshFamily := if willIssueRefresh then refreshFamilyOf issue.refreshTokenPolicy draw else none
  let authorizationId := match issue.refreshAuthority with
    | some source => source.familyId
    | none => (refreshFamily.map (·.1)).getD draw.issuanceId
  require (!(issue.dpopJkt.isSome && issue.mtlsX5tS256.isSome))
    ⟨400, "invalid_request", "Multiple sender constraints are not allowed."⟩
  facts.signing
  let accessToken := ⟨authorizationId, client.tenantId, issue.subject, issue.userId, client.clientId,
    issue.audiences,
    issue.scopes, issue.authorizationDetails, issue.userinfoClaimRequests, issue.dpopJkt,
    issue.mtlsX5tS256, issue.actor⟩
  let refreshTokenToCommit := refreshFamily.map (prepareRefreshToken cfg client issue draw)
  let refreshCommit := match issue.refreshAuthority with
    | some authority => some (.useExisting authority refreshTokenToCommit)
    | none => match refreshTokenToCommit, newContext with
      | some token, some context => some (.issueNew token
          ⟨issue.subject, issue.scopes, token.audiences, issue.authorizationDetails, context⟩)
      | _, _ => none
  return (accessToken, refreshCommit)

/-- The whole refresh request up to the durable commit. -/
def refreshRequest (client : ClientRow) (form : TokenForm) (clientAttestationJkt : Option String)
    (snapshot : Except RepositoryError (Option RefreshPresentation)) (draw : IssueDraw)
    (requestStartedAt now : Instant) :
    Except OAuthEndpointError (AccessTokenSignInput × Option RefreshTokenCommit) := do
  let issue ← tokenRefreshWithService cfg facts client form clientAttestationJkt snapshot requestStartedAt now
  issueTokenResponse cfg facts client issue draw

/-- The refresh request against the store it reads. -/
def refreshRequestOn (h : Hashes) (s : RefreshStore) (cfg : TokenIssuanceConfig) (facts : RequestFacts)
    (client : ClientRow) (form : TokenForm) (clientAttestationJkt : Option String)
    (draw : IssueDraw) (requestStartedAt now : Instant) :
    Except OAuthEndpointError (AccessTokenSignInput × Option RefreshTokenCommit) :=
  let snapshot := match form.refreshToken with
    | some rawToken => refreshTokenSnapshot h s client.tenantId rawToken client.id requestStartedAt
    | none => .ok none
  refreshRequest cfg facts client form clientAttestationJkt snapshot draw requestStartedAt now

/-! ## What a request that goes through has established -/

section Spec

variable {cfg : TokenIssuanceConfig} {facts : RequestFacts} {client : ClientRow} {form : TokenForm}
  {clientAttestationJkt : Option String}
  {snapshot : Except RepositoryError (Option RefreshPresentation)} {draw : IssueDraw}
  {requestStartedAt now : Instant}

theorem require_eq_ok {ok : Bool} {e : OAuthEndpointError} {u : Unit} : require ok e = .ok u ↔ ok = true := by
  cases ok <;> simp [require]

theorem okOr_eq_ok {α : Type} {value : Option α} {e : OAuthEndpointError} {a : α} :
    okOr value e = .ok a ↔ value = some a := by
  cases value <;> simp [okOr]

theorem loadedSnapshot_eq_ok {presentation : RefreshPresentation} :
    loadedSnapshot snapshot = .ok presentation ↔ snapshot = .ok (some presentation) := by
  cases snapshot with
  | error => simp [loadedSnapshot]
  | ok => simp [loadedSnapshot, okOr_eq_ok]

/-- The token a request works with: the successor answers for a spent token if it may. -/
def RefreshPresentation.token (presentation : RefreshPresentation) : RefreshToken :=
  if presentation.presented.revokedAt.isSome then presentation.successor.getD presentation.presented
  else presentation.presented

/-- The issue that a refresh request hands on, and what was checked of the presented token. -/
structure RefreshIssue (cfg : TokenIssuanceConfig) (client : ClientRow) (presentation : RefreshPresentation)
    (requestStartedAt : Instant) (issue : TokenIssue) : Prop where
  renewable : shouldIssueRefreshToken client presentation.presented.contract.scopes
    (openid4vciAudience cfg presentation.presented.contract.scopes
      presentation.token.contract.authorizationDetails).isSome = true
  authority : issue.refreshAuthority = some presentation.token.authority
  includeRefresh : issue.includeRefresh = true
  policy : issue.refreshTokenPolicy =
    if presentation.presented.revokedAt.isSome then
      .rotateLostResponse presentation.token.tokenFamilyId presentation.presented.id
        presentation.presented.tokenBlake3 presentation.token.id requestStartedAt
    else refreshTokenPolicy client presentation.token

variable {issue : TokenIssue}

theorem tokenRefreshWithService_spec
    (h : tokenRefreshWithService cfg facts client form clientAttestationJkt snapshot requestStartedAt now
    = .ok issue) : ∃ presentation, snapshot = .ok (some presentation)
      ∧ RefreshIssue cfg client presentation requestStartedAt issue := by
  obtain ⟨_, -, h⟩ := of_bind h
  obtain ⟨presentation, hp, h⟩ := of_bind h
  obtain ⟨_, -, h⟩ := of_bind h
  obtain ⟨_, -, h⟩ := of_bind h
  obtain ⟨_, -, h⟩ := of_bind h
  obtain ⟨_, -, h⟩ := of_bind h
  obtain ⟨sender, -, h⟩ := of_bind h
  obtain ⟨_, -, h⟩ := of_bind h
  obtain ⟨_, hrenew, h⟩ := of_bind h
  obtain ⟨scopes, -, h⟩ := of_bind h
  obtain ⟨audiences, -, h⟩ := of_bind h
  obtain ⟨_, -, h⟩ := of_bind h
  obtain ⟨_, -, h⟩ := of_bind h
  obtain rfl := pure_eq_ok.mp h
  exact ⟨presentation, loadedSnapshot_eq_ok.mp hp, require_eq_ok.mp hrenew, rfl, rfl, rfl⟩

/-- What the comparison of an issue with its source guarantees. -/
structure IssueWithin (issue : TokenIssue) (source : RefreshTokenAuthority) : Prop where
  userId : source.userId = issue.userId
  subject : source.contract.subject = issue.subject
  authorizationDetails : source.contract.authorizationDetails = issue.authorizationDetails
  scopes : isSubset issue.scopes source.contract.scopes = true
  audiencesNonempty : issue.audiences ≠ []
  audiences : isSubset issue.audiences source.currentAudiences = true
  dpopJkt : ∀ binding, source.dpopJkt = some binding → issue.dpopJkt = some binding
  mtlsX5tS256 : ∀ binding, source.mtlsX5tS256 = some binding → issue.mtlsX5tS256 = some binding

variable {source : RefreshTokenAuthority}

theorem issueWithin_of_matches {issuer : String}
    (h : issueMatches issue client issuer source = true) : IssueWithin issue source := by
  simp only [issueMatches, Bool.and_eq_true, decide_eq_true_eq, Bool.not_eq_true', Option.isNone_iff_eq_none,
    List.isEmpty_eq_false_iff, Option.all_eq_true] at h
  obtain ⟨⟨⟨⟨⟨⟨⟨⟨⟨⟨h, hscopes⟩, hne⟩, haud⟩, -⟩, hdpop⟩, hmtls⟩, -⟩, -⟩, -⟩, -⟩ := h
  obtain ⟨⟨⟨⟨⟨⟨⟨⟨⟨⟨⟨⟨⟨-, huser⟩, hsubject⟩, hdetails⟩, -⟩, -⟩, -⟩, -⟩, -⟩, -⟩, -⟩, -⟩, -⟩, -⟩ := h
  exact ⟨huser, hsubject, hdetails, hscopes, hne, haud, hdpop, hmtls⟩

theorem policySource_eq_some (h : policySource issue = some source) : issue.refreshAuthority = some source := by
  unfold policySource at h
  split at h
  · rename_i ha
    rw [ha, h]
  · rename_i ha
    split_ifs at h
    rw [ha, h]
  · rename_i ha
    split_ifs at h
    rw [ha, h]
  · exact absurd h (by simp)

theorem issueWithin_of_refreshIssueMatchesSource {issuer : String}
    (hs : issue.refreshAuthority = some source)
    (h : refreshIssueMatchesSource issue client issuer = true) : IssueWithin issue source := by
  unfold refreshIssueMatchesSource at h
  split at h
  · rename_i ha
    cases hs.symm.trans ha
  · rename_i ha
    cases hs.symm.trans ha
  cases hp : policySource issue with
  | none => simp [hp] at h
  | some source' =>
    obtain rfl : source' = source := Option.some.inj ((policySource_eq_some hp).symm.trans hs)
    simp only [hp] at h
    exact issueWithin_of_matches h

/-- The signed access token carries the issue. -/
structure SignedFrom (issue : TokenIssue) (accessToken : AccessTokenSignInput) : Prop where
  subject : accessToken.subject = issue.subject
  userId : accessToken.userId = issue.userId
  scopes : accessToken.scopes = issue.scopes
  audiences : accessToken.audiences = issue.audiences
  authorizationDetails : accessToken.authorizationDetails = issue.authorizationDetails
  dpopJkt : accessToken.dpopJkt = issue.dpopJkt
  mtlsX5tS256 : accessToken.mtlsX5tS256 = issue.mtlsX5tS256

/-- Will the response carry a refresh token? -/
def willIssueRefresh (cfg : TokenIssuanceConfig) (client : ClientRow) (issue : TokenIssue)
    (source : RefreshTokenAuthority) : Bool :=
  issue.includeRefresh && shouldIssueRefreshToken client source.contract.scopes
    (openid4vciAudience cfg source.contract.scopes issue.authorizationDetails).isSome

theorem issueTokenResponse_spec {issue₀ : TokenIssue} {accessToken : AccessTokenSignInput}
    {commit : Option RefreshTokenCommit} (hsource : issue₀.refreshAuthority = some source)
    (h : issueTokenResponse cfg facts client issue₀ draw = .ok (accessToken, commit)) :
    ∃ authorizationDetails, let issue := { issue₀ with authorizationDetails := authorizationDetails }
      IssueWithin issue source ∧ SignedFrom issue accessToken
      ∧ commit = some (.useExisting source
          ((if willIssueRefresh cfg client issue source then refreshFamilyOf issue.refreshTokenPolicy draw
            else none).map (prepareRefreshToken cfg client issue draw))) := by
  unfold issueTokenResponse at h
  obtain ⟨authorizationDetails, -, h⟩ := of_bind h
  obtain ⟨_, -, h⟩ := of_bind h
  obtain ⟨_, -, h⟩ := of_bind h
  obtain ⟨_, hmatch, h⟩ := of_bind h
  obtain ⟨_, -, h⟩ := of_bind h
  obtain ⟨_, -, h⟩ := of_bind h
  obtain ⟨_, -, h⟩ := of_bind h
  obtain ⟨_, -, h⟩ := of_bind h
  cases pure_eq_ok.mp h
  refine ⟨authorizationDetails, ?_, ⟨rfl, rfl, rfl, rfl, rfl, rfl, rfl⟩, ?_⟩
  · exact issueWithin_of_refreshIssueMatchesSource hsource (require_eq_ok.mp hmatch)
  · simp only [hsource, willIssueRefresh, Option.map_some, Option.getD_some]
    rfl

end Spec

end NazoAuth.Refresh
