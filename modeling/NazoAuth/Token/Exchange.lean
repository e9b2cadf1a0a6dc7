import NazoAuth.Token.Sender

/-!
# The token endpoint — token exchange

The exchange of an access token for another one, with an actor token or without. The checks run in
the order of the source, up to the value that is handed to issuance; decoding, revocation state and
the owner of a pairwise subject are answers of the token service.

`exchange_never_escalates` : what is issued is bounded by the subject token, the client and the
presented proofs.
-/

namespace NazoAuth.Token

open Lib
open Refresh (OAuthEndpointError TokenIssue parseScope)
open Revocation (ConfirmationClaims)

/-! ## Requests and policy -/

def accessTokenType : String := "urn:ietf:params:oauth:token-type:access_token"

def tokenExchangeGrantType : String := "urn:ietf:params:oauth:grant-type:token-exchange"

def nativeSsoIdTokenType : String := "urn:ietf:params:oauth:token-type:id_token"

def nativeSsoDeviceSecretType : String := "urn:openid:params:token-type:device-secret"

/-- The claims of an access token that the exchange reads. -/
structure Claims where
  sub : String
  tenantId : String
  userId : Option String
  subjectType : String
  clientId : String
  scope : String
  tokenUse : String
  jti : String
  exp : Int
  cnf : Option ConfirmationClaims
  act : Option Json

/-- The registration of the authenticated client. -/
structure ExchangeClient where
  tenantId : Uuid
  clientId : String
  clientType : String
  scopes : List String
  allowedAudiences : List String
  requireDpopBoundTokens : Bool
  requireMtlsBoundTokens : Bool

structure ExchangeForm where
  grantType : String
  subjectToken : Option String
  subjectTokenType : Option String
  actorToken : Option String
  actorTokenType : Option String
  requestedTokenType : Option String
  scope : Option String
  audiences : List String

inductive TokenExchangeError
  | disabled
  | unauthorizedClient
  | missingParameter
  | unsupportedTokenType
  | invalidScope
  | invalidTarget
  | invalidGrant
  deriving DecidableEq

structure TokenExchangePolicy where
  enabled : Bool
  clientId : String
  clientIsConfidential : Bool
  clientTenantId : Uuid
  allowedScopes : List String
  allowedAudiences : List String
  requireDpopBoundTokens : Bool
  requireMtlsBoundTokens : Bool
  now : Int

def tokenExchangePolicy (enabled : Bool) (client : ExchangeClient) (now : Int) : TokenExchangePolicy where
  enabled := enabled
  clientId := client.clientId
  clientIsConfidential := client.clientType = "confidential"
  clientTenantId := client.tenantId
  allowedScopes := client.scopes
  allowedAudiences := client.allowedAudiences
  requireDpopBoundTokens := client.requireDpopBoundTokens
  requireMtlsBoundTokens := client.requireMtlsBoundTokens
  now := now

def validateTokenExchangeTarget (audiences : List String) (policy : TokenExchangePolicy) :
    Except TokenExchangeError Unit :=
  if audiences.isEmpty || !isSubset audiences policy.allowedAudiences then .error .invalidTarget else .ok ()

/-- The type of a token that has to be an access token, where one is given. -/
def requireAccessTokenType : Option String → Except TokenExchangeError Unit
  | none => .error .missingParameter
  | some type => if type = accessTokenType then .ok () else .error .unsupportedTokenType

def validateTokenExchangeGrantPrerequisites (form : ExchangeForm) (policy : TokenExchangePolicy) :
    Except TokenExchangeError Unit := do
  if !policy.enabled then .error .disabled
  else if !policy.clientIsConfidential then .error .unauthorizedClient
  else if form.subjectToken.isNone then .error .missingParameter
  else
    requireAccessTokenType form.subjectTokenType
    match form.actorToken, form.actorTokenType with
    | none, none => .ok ()
    | none, some _ => .error .missingParameter
    | some _, type => requireAccessTokenType type
    if form.requestedTokenType.any fun type => type ≠ accessTokenType then .error .unsupportedTokenType else .ok ()

/-! ## Checks of the tokens -/

/-- The scopes asked for, or those of the subject token that the client may have; never the OpenID
scope. -/
def chosenScopes (clientScopes subjectScopes requested : List String) : Except TokenExchangeError (List String) :=
  if requested.isEmpty then .ok (subjectScopes.filter fun scope => scope ≠ "openid" && clientScopes.contains scope)
  else if requested.contains "openid" || !isSubset requested subjectScopes || !isSubset requested clientScopes then
    .error .invalidScope
  else .ok requested

def tokenExchangeScopes (clientScopes : List String) (subjectScope : String)
    (requestedScope : Option String) : Except TokenExchangeError (List String) := do
  let scopes ← chosenScopes clientScopes (parseScope subjectScope) (parseScope (requestedScope.getD ""))
  if scopes.isEmpty then .error .invalidScope else .ok scopes

inductive TokenExchangeSubjectIdentity
  | user (publicUserId : Option Uuid)
  | client

structure ValidatedTokenExchangeSubject where
  identity : TokenExchangeSubjectIdentity
  scopes : List String
  senderBinding : AppliedSenderConstraint

def validateTokenExchangeAccessToken (claims : Claims) (policy : TokenExchangePolicy) :
    Except TokenExchangeError Unit :=
  if parseUuid claims.tenantId ≠ some policy.clientTenantId || claims.tokenUse ≠ "access"
      || decide (claims.exp ≤ policy.now) then
    .error .invalidGrant
  else .ok ()

/-- The owner that a subject token discloses. -/
def subjectIdentity (claims : Claims) : Except TokenExchangeError TokenExchangeSubjectIdentity :=
  if claims.subjectType = "user" then
    match claims.userId with
    | none => .ok (.user none)
    | some raw => match parseUuid raw with
      | none => .error .invalidGrant
      | some userId => .ok (.user (some userId))
  else if claims.subjectType = "client" && claims.userId.isNone then .ok .client
  else .error .invalidGrant

/-- The binding of a token; a confirmation of both kinds, or of none, is refused. -/
def senderBinding : Option ConfirmationClaims → Except TokenExchangeError AppliedSenderConstraint
  | none => .ok .bearer
  | some ⟨some jkt, none⟩ => .ok (.dpop jkt)
  | some ⟨none, some thumbprint⟩ => .ok (.mutualTls thumbprint)
  | some _ => .error .invalidGrant

def validateTokenExchangeSubject (claims : Claims) (requestedScope : Option String)
    (policy : TokenExchangePolicy) : Except TokenExchangeError ValidatedTokenExchangeSubject := do
  validateTokenExchangeAccessToken claims policy
  if claims.clientId ≠ policy.clientId then .error .invalidGrant
  else
    let identity ← subjectIdentity claims
    let scopes ← tokenExchangeScopes policy.allowedScopes claims.scope requestedScope
    let binding ← senderBinding claims.cnf
    .ok ⟨identity, scopes, binding⟩

/-- The proofs of the request are not those of the subject token. -/
def contradicts (subjectBinding : AppliedSenderConstraint) (presented : PresentedSenderConstraint) : Bool :=
  match subjectBinding with
  | .bearer => false
  | .dpop expected => presented.dpopJkt ≠ some expected || presented.mtlsX5tS256.isSome
  | .mutualTls expected => presented.mtlsX5tS256 ≠ some expected || presented.dpopJkt.isSome

def tokenExchangeIssuanceBinding (subjectBinding : AppliedSenderConstraint) (presented : PresentedSenderConstraint)
    (policy : TokenExchangePolicy) : Except TokenExchangeError AppliedSenderConstraint :=
  if contradicts subjectBinding presented then .error .invalidGrant
  else match applySenderConstraint
      (senderConstraintPolicy policy.requireDpopBoundTokens policy.requireMtlsBoundTokens) presented with
    | none => .error .invalidGrant
    | some applied => .ok applied

def tokenExchangeActorClaim (actor : Claims) (policy : TokenExchangePolicy) : Except TokenExchangeError Json := do
  validateTokenExchangeAccessToken actor policy
  if actor.clientId ≠ policy.clientId || actor.cnf.isSome then .error .invalidGrant
  else
    let claim := Json.set "client_id" (.str actor.clientId) (Json.set "sub" (.str actor.sub) (.obj []))
    .ok (match actor.act with
      | none => claim
      | some previous => Json.set "act" previous claim)

/-! ## Responses -/

/-- An error of the endpoint: an OAuth error, or a DPoP error with its challenge. -/
inductive EndpointError
  | token (error : OAuthEndpointError)
  | dpop (error : DpopError)

def badRequest (error description : String) : EndpointError := .token ⟨400, error, description⟩

def tokenExchangeErrorResponse : TokenExchangeError → EndpointError
  | .disabled => badRequest "unsupported_grant_type" "Token exchange is disabled."
  | .unauthorizedClient => badRequest "unauthorized_client" "token exchange requires a confidential client."
  | .missingParameter => badRequest "invalid_request"
    "token exchange request is missing required token parameters."
  | .unsupportedTokenType => badRequest "invalid_request" "unsupported token exchange token type."
  | .invalidScope =>
    badRequest "invalid_scope" "token exchange scope must be a subset of the subject token and client scopes."
  | .invalidTarget => badRequest "invalid_target" "requested token exchange target is not allowed for this client."
  | .invalidGrant => badRequest "invalid_grant" "token exchange input token is invalid."

def tokenExchangeAdmissionErrorResponse (error : TokenExchangeError) (form : ExchangeForm) : EndpointError :=
  if error = .invalidTarget && form.audiences.isEmpty then
    badRequest "invalid_target" "token exchange requires an explicit resource or audience."
  else tokenExchangeErrorResponse error

def tokenExchangeSubjectErrorResponse (error : TokenExchangeError) (client : ExchangeClient)
    (form : ExchangeForm) (claims : Claims) : EndpointError :=
  if error = .invalidScope then
    let requested := parseScope (form.scope.getD "")
    let safeDefaultIsEmpty := requested.isEmpty
      && !(parseScope claims.scope).any fun scope => scope ≠ "openid" && client.scopes.contains scope
    badRequest "invalid_scope" (if safeDefaultIsEmpty
      then "token exchange cannot issue an access token without non-OIDC scopes."
      else "token exchange scope must be a subset of the subject token and client scopes.")
  else if claims.clientId ≠ client.clientId then
    badRequest "invalid_grant" "client is not authorized to exchange this subject token."
  else if claims.userId.any fun userId => (parseUuid userId).isNone then
    badRequest "invalid_grant" "subject token contains an invalid user boundary."
  else tokenExchangeErrorResponse error

inductive TokenExchangeTokenError
  | invalid
  | storeUnavailable

def exchangeTokenErrorResponse : TokenExchangeTokenError → EndpointError
  | .invalid => badRequest "invalid_grant" "token exchange input token is invalid."
  | .storeUnavailable => .token ⟨503, "server_error", "token exchange token state is unavailable."⟩

/-- The mTLS error of a subject token: a binding is not converted. -/
def missingMtlsResponse (client : ExchangeClient) : AppliedSenderConstraint → EndpointError
  | .dpop _ =>
    if client.requireMtlsBoundTokens && !client.requireDpopBoundTokens then
      badRequest "invalid_grant" "token exchange cannot convert DPoP subject binding to mTLS."
    else badRequest "invalid_grant" "token exchange requires mTLS sender constraint."
  | .mutualTls _ => badRequest "invalid_grant" "mTLS-bound subject token requires a verified client certificate."
  | .bearer => badRequest "invalid_grant" "token exchange requires mTLS sender constraint."

def subjectSenderErrorResponse (client : ExchangeClient) (binding : AppliedSenderConstraint) :
    SenderConstraintValidationError → EndpointError
  | .dpop .missingProof =>
    match binding with
    | .mutualTls _ =>
      if client.requireDpopBoundTokens && !client.requireMtlsBoundTokens then
        badRequest "invalid_grant" "token exchange cannot convert mTLS subject binding to DPoP."
      else .dpop .missingProof
    | _ => .dpop .missingProof
  | .dpop error => .dpop error
  | .missingMtls => missingMtlsResponse client binding
  | .multiple => badRequest "invalid_request" "multiple sender proofs are not allowed."

def issueBindingErrorResponse (client : ExchangeClient) : AppliedSenderConstraint → EndpointError
  | .dpop _ =>
    if client.requireMtlsBoundTokens
      then badRequest "invalid_grant" "token exchange cannot convert DPoP subject binding to mTLS."
    else tokenExchangeErrorResponse .invalidGrant
  | .mutualTls _ =>
    if client.requireDpopBoundTokens
      then badRequest "invalid_grant" "token exchange cannot convert mTLS subject binding to DPoP."
    else tokenExchangeErrorResponse .invalidGrant
  | .bearer => tokenExchangeErrorResponse .invalidGrant

/-! ## The endpoint -/

/-- The answers of the token service and the facts of the request. -/
structure ExchangePorts where
  moduleAccepts : Bool
  now : Int
  clientAssertion : Except EndpointError Unit
  /-- The claims of a token with a valid signature of this issuer. -/
  decodeAccessToken : String → Except Unit (Option Claims)
  accessTokenRevoked : Claims → Except Unit Bool
  activeSubjectId : (jti sub : String) → Except Unit (Option Uuid)
  sender : SenderFacts

variable (ports : ExchangePorts)

def validateExchangeAccessToken (rawToken : String) (policy : TokenExchangePolicy) :
    Except TokenExchangeTokenError Claims := do
  let decoded ← (ports.decodeAccessToken rawToken).mapError fun _ => .storeUnavailable
  match decoded with
  | none => .error .invalid
  | some claims =>
    (validateTokenExchangeAccessToken claims policy).mapError fun _ => .invalid
    let revoked ← (ports.accessTokenRevoked claims).mapError fun _ => .storeUnavailable
    if revoked then .error .invalid else .ok claims

def validateSubjectSenderBinding (client : ExchangeClient) (subjectToken : String)
    (binding : AppliedSenderConstraint) : Except EndpointError PresentedSenderConstraint :=
  let validate := validateTokenSenderConstraints ports.sender client.requireDpopBoundTokens
    client.requireMtlsBoundTokens
  (match binding with
    | .dpop jkt => validate (some subjectToken) (some jkt) none
    | .mutualTls thumbprint => validate none none (some thumbprint)
    | .bearer => validate none none none).mapError (subjectSenderErrorResponse client binding)

def validateActorToken (actorToken : Option String) (policy : TokenExchangePolicy) :
    Except EndpointError (Option Json) :=
  match actorToken with
  | none => .ok none
  | some raw => do
    let actor ← (validateExchangeAccessToken ports raw policy).mapError exchangeTokenErrorResponse
    match tokenExchangeActorClaim actor policy with
    | .ok claim => .ok (some claim)
    | .error _ =>
      if actor.cnf.isSome then
        .error (badRequest "invalid_grant" "sender-constrained actor tokens are not supported for token exchange.")
      else .error (badRequest "invalid_grant" "actor token must be issued to the authenticated client.")

/-- The internal owner of the subject. -/
def subjectOwner (subject : Claims) : TokenExchangeSubjectIdentity → Except EndpointError (Option Uuid)
  | .user (some userId) => .ok (some userId)
  | .user none => match ports.activeSubjectId subject.jti subject.sub with
    | .ok (some userId) => .ok (some userId)
    | .ok none => .error (badRequest "invalid_grant" "token exchange subject has no resolvable user boundary.")
    | .error _ => .error (.token ⟨503, "server_error", "token exchange subject state is unavailable."⟩)
  | .client => .ok none

/-- The native single sign-on profile of the same grant type has tokens and checks of its own. -/
def nativeSsoProfileRequested (form : ExchangeForm) : Bool :=
  form.grantType = tokenExchangeGrantType && form.subjectTokenType = some nativeSsoIdTokenType
    && form.actorTokenType = some nativeSsoDeviceSecretType

def exchangeIssue (form : ExchangeForm) (subject : Claims) (userId : Option Uuid) (scopes : List String)
    (presented : PresentedSenderConstraint) (actor : Option Json) : TokenIssue where
  userId := userId
  subject := subject.sub
  scopes := scopes
  authorizationDetails := .arr []
  audiences := form.audiences
  authTime := none
  amr := []
  oidcSid := none
  acr := none
  userinfoClaimRequests := .arr []
  idTokenClaimRequests := .arr []
  includeRefresh := false
  refreshTokenPolicy := .noRefresh
  dpopJkt := presented.dpopJkt
  refreshTokenDpopJkt := none
  mtlsX5tS256 := presented.mtlsX5tS256
  refreshTokenMtlsX5tS256 := none
  refreshTokenClientAttestationJkt := none
  refreshAuthority := none
  refreshGrantAudiences := none
  actor := actor

inductive ExchangeStep
  | nativeSso
  | issue (issue : TokenIssue)

/-- The exchange up to issuance, with the subject token's raw text. -/
def exchangeToken (client : ExchangeClient) (form : ExchangeForm) (policy : TokenExchangePolicy)
    (subjectToken : String) : Except EndpointError TokenIssue := do
  let subject ← (validateExchangeAccessToken ports subjectToken policy).mapError exchangeTokenErrorResponse
  let validated ← (validateTokenExchangeSubject subject form.scope policy).mapError
    fun error => tokenExchangeSubjectErrorResponse error client form subject
  let presented ← validateSubjectSenderBinding ports client subjectToken validated.senderBinding
  let _ ← (tokenExchangeIssuanceBinding validated.senderBinding presented policy).mapError
    fun _ => issueBindingErrorResponse client validated.senderBinding
  let actor ← validateActorToken ports form.actorToken policy
  (validateTokenExchangeTarget form.audiences policy).mapError fun error =>
    tokenExchangeAdmissionErrorResponse error form
  let userId ← subjectOwner ports subject validated.identity
  .ok (exchangeIssue form subject userId validated.scopes presented actor)

def tokenExchange (client : ExchangeClient) (form : ExchangeForm) : Except EndpointError ExchangeStep :=
  if nativeSsoProfileRequested form then .ok .nativeSso
  else do
    let policy := tokenExchangePolicy ports.moduleAccepts client ports.now
    (validateTokenExchangeGrantPrerequisites form policy).mapError tokenExchangeErrorResponse
    ports.clientAssertion
    match form.subjectToken with
    | none => .error (tokenExchangeErrorResponse .missingParameter)
    | some subjectToken =>
      let issue ← exchangeToken ports client form policy subjectToken
      .ok (.issue issue)

/-! ## What passes the checks -/

/-- An unexpired token of this client and its tenant. -/
structure IssuedTo (client : ExchangeClient) (now : Int) (claims : Claims) : Prop where
  clientId : claims.clientId = client.clientId
  tenantId : parseUuid claims.tenantId = some client.tenantId
  unexpired : now < claims.exp

/-- The scopes that an exchange may issue. -/
structure NarrowedScopes (client : ExchangeClient) (subject : Claims) (scopes : List String) : Prop where
  nonempty : scopes ≠ []
  ofSubject : scopes ⊆ parseScope subject.scope
  ofClient : scopes ⊆ client.scopes
  notOpenid : "openid" ∉ scopes

variable {client : ExchangeClient} {policy : TokenExchangePolicy} {ports : ExchangePorts}
  {enabled : Bool} {requested : Option String} {subject claims : Claims} {raw : String}
  {binding : AppliedSenderConstraint} {now : Int}

theorem scopes_of_tokenExchangeScopes {scopes : List String}
    (h : tokenExchangeScopes client.scopes subject.scope requested = .ok scopes) :
    NarrowedScopes client subject scopes := by
  obtain ⟨chosen, hchosen, hlast⟩ := of_bind h
  have hnonempty : chosen ≠ [] := by
    intro hempty
    rw [hempty] at hlast
    cases hlast
  rw [if_neg (by simpa using hnonempty)] at hlast
  cases hlast
  unfold chosenScopes at hchosen
  split at hchosen
  · -- nothing was asked for: the scopes of the subject that the client may have, without the OpenID scope
    cases hchosen
    refine ⟨hnonempty, List.filter_subset_self _, ?_, ?_⟩
    · intro scope hscope
      have := (List.mem_filter.mp hscope).2
      simp only [Bool.and_eq_true, List.contains_iff_mem] at this
      exact this.2
    · intro hopenid
      have := (List.mem_filter.mp hopenid).2
      simp at this
  · split at hchosen
    · cases hchosen
    rename_i hallowed
    cases hchosen
    simp only [Bool.or_eq_true, Bool.not_eq_true', not_or, Bool.not_eq_true, Bool.not_eq_false] at hallowed
    obtain ⟨⟨hopenid, hsubject⟩, hclient⟩ := hallowed
    refine ⟨hnonempty, isSubset_iff.mp hsubject, isSubset_iff.mp hclient, ?_⟩
    intro hmem
    rw [List.contains_iff_mem.mpr hmem] at hopenid
    cases hopenid

theorem validity_of_accessToken (h : validateTokenExchangeAccessToken claims policy = .ok ()) :
    parseUuid claims.tenantId = some policy.clientTenantId ∧ policy.now < claims.exp := by
  unfold validateTokenExchangeAccessToken at h
  split at h
  · cases h
  · rename_i hvalid
    simp only [Bool.or_eq_true, decide_eq_true_eq, not_or, Decidable.not_not, Int.not_le] at hvalid
    exact ⟨hvalid.1.1, hvalid.2⟩

theorem claims_of_exchangeAccessToken
    (h : validateExchangeAccessToken ports raw policy = .ok claims) :
    ports.decodeAccessToken raw = .ok (some claims) := by
  obtain ⟨decoded, hdecoded, hrest⟩ := of_bind h
  have hdecoded := mapError_eq_ok.mp hdecoded
  cases decoded with
  | none => cases hrest
  | some =>
    obtain ⟨⟨⟩, -, hrest⟩ := of_bind hrest
    obtain ⟨revoked, -, hrest⟩ := of_bind hrest
    split at hrest
    · cases hrest
    · cases hrest
      exact hdecoded

theorem cnf_of_senderBinding {cnf : Option ConfirmationClaims}
    (h : senderBinding cnf = .ok binding) : cnf = binding.confirmation := by
  unfold senderBinding at h
  split at h
  · cases h
    rfl
  · cases h
    rfl
  · cases h
    rfl
  · cases h

theorem subject_of_validate {validated : ValidatedTokenExchangeSubject}
    (h : validateTokenExchangeSubject subject requested (tokenExchangePolicy enabled client now) = .ok validated) :
    IssuedTo client now subject ∧ NarrowedScopes client subject validated.scopes
      ∧ subject.cnf = validated.senderBinding.confirmation := by
  obtain ⟨⟨⟩, haccess, h⟩ := of_bind h
  obtain ⟨htenant, hexp⟩ := validity_of_accessToken haccess
  split at h
  · cases h
  rename_i hclient
  have hclient : subject.clientId = client.clientId := Decidable.not_not.mp hclient
  obtain ⟨identity, -, h⟩ := of_bind h
  obtain ⟨scopes, hscopes, h⟩ := of_bind h
  obtain ⟨binding, hbinding, h⟩ := of_bind h
  cases h
  exact ⟨⟨hclient, htenant, hexp⟩, scopes_of_tokenExchangeScopes hscopes, cnf_of_senderBinding hbinding⟩

theorem actor_of_claim {actor : Claims} {claim : Json}
    (h : tokenExchangeActorClaim actor (tokenExchangePolicy enabled client now) = .ok claim) :
    IssuedTo client now actor ∧ actor.cnf = none := by
  obtain ⟨⟨⟩, haccess, h⟩ := of_bind h
  obtain ⟨htenant, hexp⟩ := validity_of_accessToken haccess
  split at h
  · cases h
  rename_i hactor
  simp only [Bool.or_eq_true, decide_eq_true_eq, not_or, Decidable.not_not, Bool.not_eq_true,
    Option.isSome_eq_false_iff, Option.isNone_iff_eq_none] at hactor
  exact ⟨⟨hactor.1, htenant, hexp⟩, hactor.2⟩

/-- What is known of the actor token of a request. -/
def ActorAccepted (ports : ExchangePorts) (client : ExchangeClient) (actorToken : Option String)
    (actor : Option Json) : Prop :=
  match actorToken with
  | none => actor = none
  | some raw => ∃ claims, ports.decodeAccessToken raw = .ok (some claims)
    ∧ IssuedTo client ports.now claims ∧ claims.cnf = none

theorem actorAccepted_of_validate {actorToken : Option String} {actor : Option Json}
    (h : validateActorToken ports actorToken (tokenExchangePolicy enabled client ports.now) = .ok actor) :
    ActorAccepted ports client actorToken actor := by
  cases actorToken with
  | none => exact (Except.ok.inj h).symm
  | some raw =>
    obtain ⟨claims, hclaims, h⟩ := of_bind h
    have hdecoded := claims_of_exchangeAccessToken (mapError_eq_ok.mp hclaims)
    split at h
    · rename_i claim hclaim
      exact ⟨claims, hdecoded, actor_of_claim hclaim⟩
    · split at h
      · cases h
      · cases h

/-- A binding of the subject token that the proofs do not contradict is the binding of what is
issued. -/
theorem issuedConfirmation_of_binding {applied : AppliedSenderConstraint} {presented : PresentedSenderConstraint}
    (h : tokenExchangeIssuanceBinding binding presented policy = .ok applied)
    (hbound : binding.confirmation ≠ none) :
    issuedConfirmation presented.dpopJkt presented.mtlsX5tS256 = some binding.confirmation := by
  obtain ⟨dpopJkt, mtlsX5tS256⟩ := presented
  unfold tokenExchangeIssuanceBinding at h
  split at h
  · cases h
  rename_i hagrees
  cases binding with
  | bearer => exact absurd rfl hbound
  | dpop | mutualTls =>
    simp only [contradicts, Bool.or_eq_true, decide_eq_true_eq, not_or, Decidable.not_not, Bool.not_eq_true,
      Option.isSome_eq_false_iff, Option.isNone_iff_eq_none] at hagrees
    obtain ⟨rfl, rfl⟩ := hagrees
    rfl

theorem target_of_validate {audiences : List String}
    (h : validateTokenExchangeTarget audiences policy = .ok ()) : audiences ≠ []
      ∧ audiences ⊆ policy.allowedAudiences := by
  unfold validateTokenExchangeTarget at h
  split at h
  · cases h
  rename_i hallowed
  simp only [Bool.or_eq_true, Bool.not_eq_true', not_or, Bool.not_eq_true, Bool.not_eq_false,
    List.isEmpty_eq_false_iff] at hallowed
  exact ⟨hallowed.1, isSubset_iff.mp hallowed.2⟩

/-- The bounds of an issue that an exchange of a subject token arrives at. -/
structure NeverEscalates (ports : ExchangePorts) (client : ExchangeClient) (form : ExchangeForm)
    (subject : Claims) (issue : TokenIssue) : Prop where
  scopes : NarrowedScopes client subject issue.scopes
  audiences : issue.audiences ≠ [] ∧ issue.audiences ⊆ client.allowedAudiences
  issuedTo : IssuedTo client ports.now subject
  actor : ActorAccepted ports client form.actorToken issue.actor
  binding : subject.cnf ≠ none → issuedConfirmation issue.dpopJkt issue.mtlsX5tS256 = some subject.cnf

theorem neverEscalates_of_exchangeToken {form : ExchangeForm} {issue : TokenIssue}
    (h : exchangeToken ports client form (tokenExchangePolicy enabled client ports.now) raw = .ok issue) :
    ∃ subject, ports.decodeAccessToken raw = .ok (some subject)
      ∧ NeverEscalates ports client form subject issue := by
  obtain ⟨subject, hsubject, h⟩ := of_bind h
  obtain ⟨validated, hvalidated, h⟩ := of_bind h
  obtain ⟨presented, -, h⟩ := of_bind h
  obtain ⟨applied, happlied, h⟩ := of_bind h
  obtain ⟨actor, hactor, h⟩ := of_bind h
  obtain ⟨⟨⟩, htarget, h⟩ := of_bind h
  obtain ⟨userId, -, h⟩ := of_bind h
  cases h
  obtain ⟨hissued, hscopes, hcnf⟩ := subject_of_validate (mapError_eq_ok.mp hvalidated)
  refine ⟨subject, claims_of_exchangeAccessToken (mapError_eq_ok.mp hsubject), hscopes,
    target_of_validate (mapError_eq_ok.mp htarget), hissued, actorAccepted_of_validate hactor, ?_⟩
  intro hbound
  rw [hcnf] at hbound ⊢
  exact issuedConfirmation_of_binding (mapError_eq_ok.mp happlied) hbound

/-- Whatever the tokens, proofs and answers of the service, an exchange that arrives at issuance
issues no more than the subject token and the client allow, for tokens of this client and with the
binding of the subject token. -/
theorem exchange_never_escalates (ports : ExchangePorts) (client : ExchangeClient) (form : ExchangeForm)
    (issue : TokenIssue) (h : tokenExchange ports client form = .ok (.issue issue)) :
    ∃ raw subject, form.subjectToken = some raw ∧ ports.decodeAccessToken raw = .ok (some subject)
      ∧ NeverEscalates ports client form subject issue := by
  unfold tokenExchange at h
  split at h
  · cases h
  obtain ⟨⟨⟩, -, h⟩ := of_bind h
  obtain ⟨⟨⟩, -, h⟩ := of_bind h
  split at h
  · cases h
  rename_i raw hraw
  obtain ⟨issued, hissued, h⟩ := of_bind h
  cases h
  obtain ⟨subject, hdecoded, hbounds⟩ := neverEscalates_of_exchangeToken hissued
  exact ⟨raw, subject, hraw, hdecoded, hbounds⟩

/-- A confidential client with two scopes and one audience. -/
def exchangeClientExample : ExchangeClient :=
  ⟨1, "gateway", "confidential", ["orders.read", "openid"], ["https://orders"], true, false⟩

/-- A token of that client, bound to a key or not. -/
def exchangeClaimsExample (cnf : Option ConfirmationClaims) : Claims :=
  ⟨"alice", uuidText 1, none, "client", "gateway", "orders.read orders.write openid", "access", "jti",
    100, cnf, none⟩

/-- A service that knows a bound subject token and an unbound actor token, and a proof by the
subject's key. -/
def exchangePortsExample : ExchangePorts where
  moduleAccepts := true
  now := 10
  clientAssertion := .ok ()
  decodeAccessToken := fun raw =>
    .ok (some (exchangeClaimsExample (if raw = "subject" then some ⟨some "key", none⟩ else none)))
  accessTokenRevoked := fun _ => .ok false
  activeSubjectId := fun _ _ => .ok none
  sender := ⟨fun _ _ => .ok (some "key"), none⟩

def exchangeFormExample : ExchangeForm :=
  ⟨tokenExchangeGrantType, some "subject", some accessTokenType, some "actor", some accessTokenType, none, none,
    ["https://orders"]⟩

/-- The issue of that request: one scope, the key of the subject token, and the actor. -/
def exchangeIssueExample : TokenIssue :=
  exchangeIssue exchangeFormExample (exchangeClaimsExample (some ⟨some "key", none⟩)) none ["orders.read"]
    ⟨some "key", none⟩ (some (.obj [("sub", .str "alice"), ("client_id", .str "gateway")]))

/-- A bound subject token with an actor token is exchanged, and within the bounds. -/
theorem exchange_never_escalates_bound :
    tokenExchange exchangePortsExample exchangeClientExample exchangeFormExample
    = .ok (.issue exchangeIssueExample) ∧ ∃ raw subject, exchangeFormExample.subjectToken = some raw
      ∧ exchangePortsExample.decodeAccessToken raw = .ok (some subject)
      ∧ NeverEscalates exchangePortsExample exchangeClientExample exchangeFormExample subject
      exchangeIssueExample := by
  have hissue : tokenExchange exchangePortsExample exchangeClientExample exchangeFormExample
      = .ok (.issue exchangeIssueExample) := by rfl
  exact ⟨hissue, exchange_never_escalates _ _ _ _ hissue⟩

end NazoAuth.Token
