import NazoAuth.Basic
import NazoAuth.Lib.Lease
import NazoAuth.Lib.Run
import NazoAuth.Lib.Table

/-!
# OpenID4VCI — the issuance store

A worker claims a proof nonce or a deferred transaction, signs outside of any transaction, and then
commits the response together with the consumption, or releases its claim. A claim expires after
five minutes.
-/

namespace NazoAuth.Openid4vci

open Lib

/-- `claim_id` and `claim_expires_at`, which a constraint makes null together. -/
structure Claim where
  id : String
  expiresAt : Instant

structure NonceRow where
  nonceHash : String
  expiresAt : Instant
  createdAt : Instant
  claim : Option Claim
  consumedAt : Option Instant

structure DeferredRow where
  transactionHash : String
  tokenId : Uuid
  readyAt : Instant
  expiresAt : Instant
  claim : Option Claim
  claimTokenId : Option Uuid
  consumedAt : Option Instant

structure ResponseRow where
  issuanceId : Uuid
  tokenId : Uuid
  requestDigest : String
  expiresAt : Instant

structure NotificationRow where
  notificationId : String
  tokenId : Uuid
  expiresAt : Instant
  deriving DecidableEq

structure Store where
  nonces : Table NonceRow.nonceHash
  deferred : Table DeferredRow.transactionHash
  responses : Table ResponseRow.issuanceId
  notifications : Table NotificationRow.notificationId

def Store.empty : Store := ⟨.empty, .empty, .empty, .empty⟩

structure IssuanceClaim where
  nonceHash : String
  claimId : String

structure DeferredCredential where
  transactionHash : String
  tokenId : Uuid
  readyAt : Instant
  expiresAt : Instant

inductive IssuanceCommit
  | immediate (handle : NotificationRow) (nonceClaim : Option IssuanceClaim)
  | deferred (credential : DeferredCredential) (nonceClaim : Option IssuanceClaim)

/-- Why nothing is changed; a failed or rolled back transaction is `invalid`. -/
inductive Refusal
  | invalid
  | pending (retryAt : Instant)
  | busy (retryAt : Instant)
  deriving DecidableEq

def orInvalid {α : Type} : Option α → Except Refusal α
  | some a => .ok a
  | none => .error .invalid

def claimLifetime : Int := seconds 300

/-- `claim_id IS NULL OR claim_expires_at <= now`. -/
def free (claim : Option Claim) (now : Instant) : Bool := claim.all fun c => c.expiresAt ≤ now

def heldBy (claim : Option Claim) (id : String) : Bool := claim.any fun c => c.id = id

namespace Store

variable (s : Store)

def nonceIssue (nonceHash : String) (expiresAt now : Instant) : Option Store :=
  (s.nonces.insert? ⟨nonceHash, expiresAt, now, none, none⟩).map fun t => { s with nonces := t }

def nonceClaim (claim : IssuanceClaim) (now : Instant) : Option Store :=
  (s.nonces.updateOne claim.nonceHash (fun r => r.consumedAt.isNone && now < r.expiresAt && free r.claim now)
    (fun r => { r with claim := some ⟨claim.claimId, now + claimLifetime⟩ }) fun _ => rfl).map fun t =>
      { s with nonces := t }

def nonceRelease (claim : IssuanceClaim) : Option Store :=
  (s.nonces.updateOne claim.nonceHash (fun r => heldBy r.claim claim.claimId && r.consumedAt.isNone)
    (fun r => { r with claim := none }) fun _ => rfl).map fun t => { s with nonces := t }

def consumeNonce (claim : IssuanceClaim) (now : Instant) : Option Store :=
  (s.nonces.updateOne claim.nonceHash
    (fun r => heldBy r.claim claim.claimId && r.consumedAt.isNone && now < r.expiresAt)
    (fun r => { r with claim := none, consumedAt := some (max now r.createdAt) }) fun _ => rfl).map fun t =>
      { s with nonces := t }

/-- A request is answered once for a token: `UNIQUE (token_id, request_digest)`. -/
def insertIssuanceResponse (r : ResponseRow) : Option Store :=
  if s.responses.rows.any fun r' => r'.tokenId = r.tokenId && r'.requestDigest = r.requestDigest then none
  else (s.responses.insert? r).map fun t => { s with responses := t }

def insertNotification (n : NotificationRow) : Option Store :=
  (s.notifications.insert? n).map fun t => { s with notifications := t }

def insertDeferred (c : DeferredCredential) : Option Store :=
  (s.deferred.insert? ⟨c.transactionHash, c.tokenId, c.readyAt, c.expiresAt, none, none, none⟩).map
    fun t => { s with deferred := t }

/-- A configuration without proofs has no nonce to consume. -/
def finalizeNonce (nonceClaim : Option IssuanceClaim) (now : Instant) : Option Store :=
  match nonceClaim with
  | some claim => s.consumeNonce claim now
  | none => some s

def commitPending (commit : IssuanceCommit) (response : ResponseRow) (now : Instant) : Option Store :=
  match commit with
  | .immediate handle nonceClaim => do
    let s₁ ← s.insertIssuanceResponse response
    let s₂ ← s₁.insertNotification handle
    s₂.finalizeNonce nonceClaim now
  | .deferred credential nonceClaim => do
    let s₁ ← s.insertDeferred credential
    let s₂ ← s₁.insertIssuanceResponse response
    s₂.finalizeNonce nonceClaim now

variable (transactionHash : String) (tokenId : Uuid) (claimId : String)

/-- The lease is written when the clock is read again: `acceptedAt`. -/
def acceptDeferred (currentExpiresAt acceptedAt : Instant) : Option Store :=
  (s.deferred.updateOne transactionHash
    (fun r => r.consumedAt.isNone && r.readyAt ≤ acceptedAt && acceptedAt < r.expiresAt
      && acceptedAt < currentExpiresAt && free r.claim acceptedAt)
    (fun r => { r with claim := some ⟨claimId, acceptedAt + claimLifetime⟩, claimTokenId := some tokenId })
      fun _ => rfl).map fun t => { s with deferred := t }

/-- `authority` is the policy on the locked grants of the transaction and of the presented token. -/
def deferredClaimReady (authority : DeferredRow → Instant → Bool)
    (currentExpiresAt ownerNow acceptedAt : Instant) : Except Refusal Store :=
  match s.deferred.find? transactionHash with
  | none => .error .invalid
  | some row =>
    if row.consumedAt.isSome || row.expiresAt ≤ ownerNow || !authority row ownerNow then .error .invalid
    else if ownerNow < row.readyAt then .error (.pending row.readyAt)
    else match row.claim.filter fun c => ownerNow < c.expiresAt with
      | some c => .error (.busy c.expiresAt)
      | none => orInvalid (s.acceptDeferred transactionHash tokenId claimId currentExpiresAt acceptedAt)

/-- `COALESCE(claim_token_id, token_id) = token AND claim_id = own AND consumed_at IS NULL`. -/
def DeferredRow.owned (r : DeferredRow) : Bool :=
  r.claimTokenId.getD r.tokenId = tokenId && heldBy r.claim claimId && r.consumedAt.isNone

def deferredRelease : Option Store :=
  (s.deferred.updateOne transactionHash (DeferredRow.owned tokenId claimId)
    (fun r => { r with claim := none, claimTokenId := none }) fun _ => rfl).map fun t => { s with deferred := t }

def consumeDeferred (now : Instant) : Option Store :=
  (s.deferred.updateOne transactionHash (fun r => DeferredRow.owned tokenId claimId r && now < r.expiresAt)
    (fun r => { r with claim := none, claimTokenId := none, consumedAt := some (max now r.readyAt) }) fun _ =>
      rfl).map fun t => { s with deferred := t }

def finalizeDeferred (handle : NotificationRow) (response : ResponseRow) (now : Instant) :
    Option Store := do
  let s₁ ← s.insertIssuanceResponse response
  let s₂ ← s₁.insertNotification handle
  s₂.consumeDeferred transactionHash tokenId claimId now

end Store

/-- Some rows that have expired, as a cleanup finds them unlocked. -/
structure Sweep where
  nonces : NonceRow → Bool
  deferred : DeferredRow → Bool
  responses : ResponseRow → Bool
  notifications : NotificationRow → Bool

def Store.credentialCleanup (s : Store) (now : Instant) (chosen : Sweep) : Store where
  nonces := s.nonces.delete fun r => r.expiresAt ≤ now && chosen.nonces r
  deferred := s.deferred.delete fun r => r.expiresAt ≤ now && chosen.deferred r
  responses := s.responses.delete fun r => r.expiresAt ≤ now && chosen.responses r
  notifications := s.notifications.delete fun r => r.expiresAt ≤ now && chosen.notifications r

/-- Transactions of the workers. A transaction that does not get through (`through`), because its
connection is lost, its worker crashes or another table refuses it, is rolled back. -/
inductive Op
  | issueNonce (nonceHash : String) (expiresAt now : Instant)
  | claimNonce (claim : IssuanceClaim) (now : Instant)
  /-- Also `rollback_pending`. -/
  | releaseNonce (claim : IssuanceClaim)
  | commitPending (commit : IssuanceCommit) (response : ResponseRow) (now : Instant) (through : Bool)
  | claimDeferred (transactionHash : String) (tokenId : Uuid) (claimId : String)
      (authority : DeferredRow → Instant → Bool) (currentExpiresAt ownerNow acceptedAt : Instant)
  | releaseDeferred (transactionHash : String) (tokenId : Uuid) (claimId : String)
  | finalizeDeferred (transactionHash : String) (tokenId : Uuid) (claimId : String)
      (handle : NotificationRow) (response : ResponseRow) (now : Instant) (through : Bool)
  | cleanup (now : Instant) (chosen : Sweep)

inductive Outcome
  | applied
  | refused (refusal : Refusal)
  deriving DecidableEq

def Store.apply (s : Store) : Op → Except Refusal Store
  | .issueNonce nonceHash expiresAt now => orInvalid (s.nonceIssue nonceHash expiresAt now)
  | .claimNonce claim now => orInvalid (s.nonceClaim claim now)
  | .releaseNonce claim => orInvalid (s.nonceRelease claim)
  | .commitPending commit response now through =>
    if through then orInvalid (s.commitPending commit response now) else .error .invalid
  | .claimDeferred transactionHash tokenId claimId authority currentExpiresAt ownerNow acceptedAt =>
    s.deferredClaimReady transactionHash tokenId claimId authority currentExpiresAt ownerNow acceptedAt
  | .releaseDeferred transactionHash tokenId claimId =>
    orInvalid (s.deferredRelease transactionHash tokenId claimId)
  | .finalizeDeferred transactionHash tokenId claimId handle response now through =>
    if through then orInvalid (s.finalizeDeferred transactionHash tokenId claimId handle response now)
      else .error .invalid
  | .cleanup now chosen => .ok (s.credentialCleanup now chosen)

def exec (s : Store) (op : Op) : Store × Outcome :=
  match s.apply op with
  | .ok s' => (s', .applied)
  | .error refusal => (s, .refused refusal)

abbrev Log := List (Op × Outcome)

end NazoAuth.Openid4vci
