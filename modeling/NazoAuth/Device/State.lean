import NazoAuth.Basic
import NazoAuth.Lib.Json

/-!
# Device authorization — states and transitions of one request

The value stored under a device code, the request that creates it, and the evaluation of a poll.
-/

namespace NazoAuth.Device

open Lib

structure DeviceAuthorizationPayload where
  clientId : String
  clientName : String
  scopes : List String
  resourceIndicators : List String
  authorizationDetails : Json
  intervalSeconds : Nat
  issuedAt : Instant
  expiresAt : Instant
  deriving DecidableEq

structure DeviceAuthorizationApproval where
  userId : Uuid
  subject : String
  authTime : Int
  amr : List String
  oidcSid : Option String
  deriving DecidableEq

inductive DeviceAuthorizationState where
  | pending (payload : DeviceAuthorizationPayload) (lastPollAt : Option Instant) (slowDownCount : Nat)
  | approving (payload : DeviceAuthorizationPayload) (approval : DeviceAuthorizationApproval)
      (claimId : Uuid) (grantRecorded : Bool) (startedAt : Instant)
  | approved (payload : DeviceAuthorizationPayload) (approval : DeviceAuthorizationApproval) (approvedAt : Instant)
  | denied (payload : DeviceAuthorizationPayload) (deniedAt : Instant)
  | consumed (consumedAt : Instant)
  deriving DecidableEq

def deviceAuthorizationPayload : DeviceAuthorizationState → Option DeviceAuthorizationPayload
  | .pending payload _ _ => some payload
  | .approving payload _ _ _ _ => some payload
  | .approved payload _ _ => some payload
  | .denied payload _ => some payload
  | .consumed _ => none

/-! ## The request -/

structure DeviceAuthorizationRequestPolicy where
  enabled : Bool
  clientActive : Bool
  clientSupportsGrant : Bool
  clientId : String
  clientName : String
  requestedScopes : List String
  allowedScopes : List String
  requestedResources : List String
  allowedResources : List String
  defaultResource : String
  intervalSeconds : Nat
  ttlSeconds : Nat
  now : Instant

inductive DeviceAuthorizationRequestError where
  | disabled
  | unauthorizedClient
  | invalidScope
  | invalidTarget

/-- The end of the calendar. -/
def maxInstant : Instant := seconds 8210266876799 + 999999

/-- The payload of an admitted request; the configured time to live is one that a duration can
hold. -/
def deviceAuthorizationRequestPayload (input : DeviceAuthorizationRequestPolicy) :
    Except DeviceAuthorizationRequestError DeviceAuthorizationPayload :=
  let resourceIndicators := if input.requestedResources.isEmpty then [input.defaultResource]
    else input.requestedResources
  if !input.enabled then .error .disabled
  else if !input.clientActive || !input.clientSupportsGrant then .error .unauthorizedClient
  else if !isSubset input.requestedScopes input.allowedScopes then .error .invalidScope
  else if !isSubset resourceIndicators input.allowedResources then .error .invalidTarget
  else .ok {
    clientId := input.clientId
    clientName := input.clientName
    scopes := input.requestedScopes
    resourceIndicators := resourceIndicators
    authorizationDetails := .arr []
    intervalSeconds := input.intervalSeconds
    issuedAt := input.now
    expiresAt := min (input.now + seconds input.ttlSeconds) maxInstant }

/-! ## Polling -/

def deviceSlowDownIncrementSeconds : Nat := 5

def deviceApprovalClaimTimeoutSeconds : Int := 30

/-- `num_seconds` of a duration: whole seconds, towards zero. -/
def numSeconds (d : Int) : Int := d.tdiv 1000000

def deviceApprovalClaimIsStale (startedAt now : Instant) : Bool :=
  numSeconds (now - startedAt) ≥ deviceApprovalClaimTimeoutSeconds

inductive DevicePollTransition where
  | authorizationPending (next : DeviceAuthorizationState)
  | authorizationPendingUnchanged
  | slowDown (next : DeviceAuthorizationState)
  | approved (payload : DeviceAuthorizationPayload) (approval : DeviceAuthorizationApproval)
  | accessDenied
  | expired
  | consumed

/-- The wait between two polls, in saturating 64-bit arithmetic. -/
def requiredWait (payload : DeviceAuthorizationPayload) (slowDownCount : Nat) : Nat :=
  min (payload.intervalSeconds + min (slowDownCount * deviceSlowDownIncrementSeconds) (2 ^ 64 - 1)) (2 ^ 64 - 1)

def tooEarly (payload : DeviceAuthorizationPayload) (lastPollAt : Option Instant)
    (slowDownCount : Nat) (now : Instant) : Bool :=
  lastPollAt.any fun last =>
    let elapsed := numSeconds (now - last)
    elapsed < 0 || elapsed < requiredWait payload slowDownCount

def evaluateDevicePoll (state : DeviceAuthorizationState) (now : Instant) : DevicePollTransition :=
  if (deviceAuthorizationPayload state).any fun payload => payload.expiresAt ≤ now then .expired
  else match state with
  | .pending payload lastPollAt slowDownCount =>
    if tooEarly payload lastPollAt slowDownCount now then
      .slowDown (.pending payload (some now) (min (slowDownCount + 1) (2 ^ 32 - 1)))
    else .authorizationPending (.pending payload (some now) slowDownCount)
  | .approved payload approval _ => .approved payload approval
  | .approving _ _ _ _ _ => .authorizationPendingUnchanged
  | .denied _ _ => .accessDenied
  | .consumed _ => .consumed

/-- A poll writes nothing but a pending state with the same payload over a pending one. -/
theorem evaluateDevicePoll_next {state next : DeviceAuthorizationState} {now : Instant}
    (h : evaluateDevicePoll state now = .authorizationPending next
      ∨ evaluateDevicePoll state now = .slowDown next) :
    ∃ payload last count last' count', state = .pending payload last count
      ∧ next = .pending payload last' count' := by
  unfold evaluateDevicePoll at h
  split_ifs at h with hexp
  · simp at h
  cases state with
  | pending payload last count =>
    have hnext : ∃ count', next = .pending payload (some now) count' := by
      simp only at h
      split_ifs at h with hearly
      · rcases h with h | h
        · cases h
        · exact ⟨_, (DevicePollTransition.slowDown.inj h).symm⟩
      · rcases h with h | h
        · exact ⟨_, (DevicePollTransition.authorizationPending.inj h).symm⟩
        · cases h
    obtain ⟨count', hnext⟩ := hnext
    exact ⟨payload, last, count, some now, count', rfl, hnext⟩
  | approving | approved | denied | consumed => simp at h

end NazoAuth.Device
