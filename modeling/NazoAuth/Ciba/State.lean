import NazoAuth.Basic

/-!
# Backchannel authentication — states of a request and their transitions

The value stored under an `auth_req_id`, its validation, the creation of a request by the
backchannel endpoint, and the pure evaluation of a poll and of a decision. Times are whole Unix
seconds in 64-bit arithmetic.
-/

namespace NazoAuth.Ciba

structure CibaAuthenticationContext where
  authTime : Int
  amr : List String
  oidcSid : Option String
  deriving DecidableEq

inductive CibaPingNotificationStatus where
  | awaitingDecision
  | pending
  | delivered
  | failed
  deriving DecidableEq

inductive CibaStatus where
  | pending
  | approved
  | denied
  deriving DecidableEq

structure CibaPingNotification where
  authReqId : Option String
  endpoint : String
  clientNotificationToken : Option String
  status : CibaPingNotificationStatus
  attempts : Nat
  nextAttemptAt : Option Int

structure CibaRequestState where
  clientId : String
  userId : Uuid
  scopes : List String
  audiences : List String
  acr : Option String
  authenticationContext : Option CibaAuthenticationContext
  bindingMessage : Option String
  issuedAt : Int
  status : CibaStatus
  intervalSeconds : Nat
  expiresAt : Int
  retentionExpiresAt : Int
  lastPollAt : Option Int
  pingNotification : Option CibaPingNotification

/-! ## Validation -/

inductive CibaStatePortError where
  | unavailable
  | corruptData
  | unexpected

def validAuthenticationContext (context : CibaAuthenticationContext) : Bool :=
  decide (0 < context.authTime) && !context.amr.isEmpty && context.amr.all (fun method => !isBlank method)
    && context.oidcSid.all fun sid => !isBlank sid

/-- The context of a request agrees with its status. -/
def contextIsCurrent : CibaStatus → Option CibaAuthenticationContext → Bool
  | .approved, some context => validAuthenticationContext context
  | .pending, none => true
  | .denied, none => true
  | _, _ => false

def pingIsCorrupt (requirePersistedAuthReqId : Bool) (notification : CibaPingNotification) : Bool :=
  notification.endpoint.isEmpty
    || (requirePersistedAuthReqId && notification.authReqId.all String.isEmpty)
    || notification.clientNotificationToken.any String.isEmpty
    || ((notification.status = .awaitingDecision || notification.status = .pending)
      && notification.clientNotificationToken.isNone)
    || (notification.status = .awaitingDecision && notification.nextAttemptAt.isSome)
    || (notification.status = .pending && notification.nextAttemptAt.isNone)
    || ((notification.status = .delivered || notification.status = .failed)
      && (notification.clientNotificationToken.isSome || notification.nextAttemptAt.isSome))

variable (state : CibaRequestState)

def validateStateShape (requirePersistedAuthReqId : Bool) : Except CibaStatePortError Unit :=
  if state.expiresAt ≤ 0 || state.retentionExpiresAt < state.expiresAt then .error .corruptData
  else if !contextIsCurrent state.status state.authenticationContext then .error .corruptData
  else if state.pingNotification.any (pingIsCorrupt requirePersistedAuthReqId) then .error .corruptData
  else .ok ()

def validateNewState : Except CibaStatePortError Unit :=
  match validateStateShape state false with
  | .error error => .error error
  | .ok () =>
    if state.pingNotification.any fun notification =>
        notification.status ≠ .awaitingDecision || notification.authReqId.isSome then .error .corruptData
    else .ok ()

def validateStoredState : Except CibaStatePortError Unit := validateStateShape state true

/-! ## Creation by the backchannel endpoint -/

def cibaExpiredStateRetentionSeconds : Int := 120

def cibaRetentionDeadline (expiresAt : Int) : Int := saturate (expiresAt + cibaExpiredStateRetentionSeconds)

/-- A request that the endpoint has admitted, with the settings it applies. -/
structure BackchannelRequest where
  clientId : String
  userId : Uuid
  scopes : List String
  defaultAudience : String
  acr : Option String
  bindingMessage : Option String
  requestedExpirySeconds : Option Nat
  authReqIdTtlSeconds : Nat
  pollIntervalSeconds : Nat
  /-- The notification endpoint of a client in ping mode, and the token of the request. -/
  ping : Option (String × Option String)
  now : Int
  /-- The clock is a 64-bit count of seconds. -/
  now_range : -2 ^ 63 ≤ now ∧ now < 2 ^ 63
  deriving DecidableEq

/-- The state of a new request; one without the `openid` scope is refused. -/
def newRequestState (request : BackchannelRequest) : Option CibaRequestState :=
  if request.scopes.contains "openid" then
    let expiresIn := min (request.requestedExpirySeconds.getD request.authReqIdTtlSeconds)
      request.authReqIdTtlSeconds
    let expiresAt := saturate (request.now + min expiresIn (2 ^ 63 - 1))
    some {
      clientId := request.clientId
      userId := request.userId
      scopes := request.scopes
      audiences := [request.defaultAudience]
      acr := request.acr
      authenticationContext := none
      bindingMessage := request.bindingMessage
      issuedAt := request.now
      status := .pending
      intervalSeconds := request.pollIntervalSeconds
      expiresAt := expiresAt
      retentionExpiresAt := cibaRetentionDeadline expiresAt
      lastPollAt := none
      pingNotification := request.ping.map fun (endpoint, token) =>
        ⟨none, endpoint, token, .awaitingDecision, 0, none⟩ }
  else none

/-! ## Polling and deciding -/

def cibaSlowDownIncrementSeconds : Nat := 5

inductive CibaPollTransition where
  | authorizationPending (next : CibaRequestState)
  | slowDown (next : CibaRequestState)
  | approved
  | denied
  | expired

def evaluateCibaPoll (now : Int) : CibaPollTransition :=
  if state.expiresAt ≤ now then .expired
  else match state.status with
  | .approved => .approved
  | .denied => .denied
  | .pending =>
    let tooEarly := state.lastPollAt.any fun lastPollAt =>
      saturate (now - lastPollAt) < min (state.intervalSeconds : Int) (2 ^ 63 - 1)
    let next := { state with lastPollAt := some now }
    if tooEarly then
      .slowDown { next with
        intervalSeconds := min (next.intervalSeconds + cibaSlowDownIncrementSeconds) (2 ^ 64 - 1) }
    else .authorizationPending next

inductive CibaDecision where
  | approve (context : CibaAuthenticationContext)
  | deny
  deriving DecidableEq

inductive CibaDecisionEvaluation where
  | commit (next : CibaRequestState)
  | invalidAuthenticationContext
  | userMismatch
  | alreadyHandled
  | expired

def CibaDecision.status : CibaDecision → CibaStatus
  | .approve _ => .approved
  | .deny => .denied

def CibaDecision.context : CibaDecision → Option CibaAuthenticationContext
  | .approve context => some context
  | .deny => none

def CibaDecision.invalid : CibaDecision → Bool
  | .approve context => !validAuthenticationContext context
  | .deny => false

/-- The notification of a decided request is due at once. -/
def CibaPingNotification.due (now : Int) (notification : CibaPingNotification) : CibaPingNotification :=
  { notification with status := .pending, nextAttemptAt := some now }

def evaluateCibaDecision (expectedUserId : Option Uuid) (decision : CibaDecision) (now : Int) :
    CibaDecisionEvaluation :=
  if expectedUserId.any fun userId => userId ≠ state.userId then .userMismatch
  else if state.status ≠ .pending then .alreadyHandled
  else if state.expiresAt ≤ now then .expired
  else if decision.invalid then .invalidAuthenticationContext
  else .commit { state with
    status := decision.status
    authenticationContext := decision.context
    pingNotification := state.pingNotification.map (CibaPingNotification.due now) }

/-! ## What never changes -/

/-- Whom and what a request is for, and where its ping goes. -/
structure CibaIdentity where
  clientId : String
  userId : Uuid
  scopes : List String
  audiences : List String
  acr : Option String
  bindingMessage : Option String
  pingTarget : Option (Option String × String)
  deriving DecidableEq

/-- When it was issued, when it expires and when its record goes. -/
structure CibaTimes where
  issuedAt : Int
  expiresAt : Int
  retentionExpiresAt : Int
  deriving DecidableEq

def CibaPingNotification.target (notification : CibaPingNotification) : Option String × String :=
  (notification.authReqId, notification.endpoint)

def CibaRequestState.identity : CibaIdentity where
  clientId := state.clientId
  userId := state.userId
  scopes := state.scopes
  audiences := state.audiences
  acr := state.acr
  bindingMessage := state.bindingMessage
  pingTarget := state.pingNotification.map CibaPingNotification.target

def CibaRequestState.times : CibaTimes := ⟨state.issuedAt, state.expiresAt, state.retentionExpiresAt⟩

def sameCibaAuthorization (expected current : CibaRequestState) : Bool :=
  expected.identity = current.identity && expected.times = current.times

theorem evaluateCibaPoll_next {state next : CibaRequestState} {now : Int}
    (h : evaluateCibaPoll state now = .authorizationPending next ∨ evaluateCibaPoll state now = .slowDown next) :
    state.status = .pending ∧ next.status = .pending ∧ next.identity = state.identity
      ∧ next.times = state.times := by
  unfold evaluateCibaPoll at h
  split_ifs at h with hexp
  · simp at h
  cases hs : state.status with
  | approved | denied => simp [hs] at h
  | pending =>
    simp only [hs] at h
    split_ifs at h
    · rcases h with h | h
      · cases h
      · cases h
        exact ⟨rfl, rfl, rfl, rfl⟩
    · rcases h with h | h
      · cases h
        exact ⟨rfl, rfl, rfl, rfl⟩
      · cases h

theorem evaluateCibaDecision_commit {state next : CibaRequestState} {expectedUserId : Option Uuid}
    {decision : CibaDecision} {now : Int}
    (h : evaluateCibaDecision state expectedUserId decision now = .commit next) :
    state.status = .pending ∧ next.status = decision.status ∧ next.identity = state.identity
      ∧ next.times = state.times := by
  unfold evaluateCibaDecision at h
  split_ifs at h with huser hstatus hexp hcontext
  cases h
  refine ⟨not_not.mp hstatus, rfl, ?_, rfl⟩
  cases hp : state.pingNotification <;> simp [CibaRequestState.identity, hp, CibaPingNotification.due,
    CibaPingNotification.target]

theorem CibaDecision.status_ne_pending (decision : CibaDecision) : decision.status ≠ .pending := by
  cases decision <;> simp [CibaDecision.status]

end NazoAuth.Ciba
