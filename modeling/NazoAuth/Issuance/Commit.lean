import NazoAuth.Lib.Fence
import NazoAuth.Refresh.Commit

/-!
# Token issuance — the commit transaction and its receipts

`commit_token_issuance` redeems a single-use grant by inserting a receipt under the grant's key, in
the same transaction that persists everything else of the issuance. Transactions run concurrently:

* `begin` runs a transaction up to and including the insertion of its receipt. A stored receipt with
  the key makes it return `AlreadyUsed`; a receipt of an open transaction makes it wait; and the
  clock that the insertion reads must be before the deadline of the grant.
* `finish` runs the rest. What the other tables answer (the refresh commit, the subject binding, the
  native-SSO fence, the audit append) is an argument.
* `abort` is any other rollback: a lost connection, a cancelled request, a lock timeout.
* `cleanup` is the deletion of receipts in `nazo_oauth_cleanup_expired_security_state`, at its
  commit.

A receipt row is represented by the input it is written from; its columns are functions of it.
-/

namespace NazoAuth.Issuance

open Lib Refresh

/-! ## Input -/

/-- The holder requirements that a redeemed authorization code leaves in its receipt. -/
structure AuthorizationCodeHolderEvidence where
  version : Nat
  authenticatedClient : Bool
  pkceS256 : Option String
  dpopJkt : Option String
  mtlsX5tS256 : Option String
  clientAttestationJkt : Option String
  deriving DecidableEq

inductive TokenIssuanceMode where
  | fresh
  | singleUse (grantKey : String) (grantExpiresAt : Instant)
  | authorizationCode (codeIdentity : String) (grantExpiresAt : Instant) (holder : AuthorizationCodeHolderEvidence)
  deriving DecidableEq

/-- The key and the deadline of the redeemed grant. -/
def TokenIssuanceMode.grant : TokenIssuanceMode → Option (String × Instant)
  | .fresh => none
  | .singleUse grantKey grantExpiresAt => some (grantKey, grantExpiresAt)
  | .authorizationCode codeIdentity grantExpiresAt _ => some (codeIdentity, grantExpiresAt)

structure TokenPrincipalState where
  clientEpoch : Int
  userEpoch : Option Int
  subjectBound : Bool

structure NativeSsoSourceFence where
  tenantId : Uuid
  userId : Uuid
  sourceClientId : String
  familyId : Uuid
  deviceSecretExpiresAt : Instant

structure CommitTokenIssuance where
  authorizationId : Option Uuid
  principalState : TokenPrincipalState
  subject : String
  issuanceId : Uuid
  tenantId : Uuid
  clientId : Uuid
  userId : Option Uuid
  mode : TokenIssuanceMode
  accessTokenJti : String
  /-- In whole seconds. -/
  accessTokenExpiresAt : Int
  refreshToken : Option RefreshTokenCommit
  nativeSsoSource : Option NativeSsoSourceFence

inductive CommitTokenIssuanceResult where
  | committed
  | alreadyUsed
  | grantExpired
  | clientInactive
  | subjectInactive
  | refreshGrantUnavailable
  | rotationConflict

inductive TokenPortError where
  | unavailable
  | conflict
  | corruptData
  | unexpected

/-! ## Validation -/

def startsWith (pattern s : String) : Bool := pattern.toList.isPrefixOf s.toList

variable (input : CommitTokenIssuance)

/-- The identity and subject fields. -/
def malformed : Bool :=
  input.issuanceId = 0
    || input.tenantId = 0
    || input.clientId = 0
    || isBlank input.accessTokenJti
    || input.subject.isEmpty
    || input.subject.length > 255
    || input.principalState.clientEpoch < 0
    || input.principalState.userEpoch.any (fun epoch => epoch < 0)
    || input.principalState.userEpoch.isSome ≠ input.userId.isSome

/-- Grant keys are not blank, and those of authorization codes have a name space of their own. -/
def validateGrantKey : TokenIssuanceMode → Except RepositoryError Unit
  | .fresh => .ok ()
  | .singleUse grantKey _ =>
    if isBlank grantKey then .error (.consistency "single-use token issuance grant key is empty")
    else if startsWith "authorization_code:" grantKey then
      .error (.consistency "authorization codes require the code identity and holder contract")
    else .ok ()
  | .authorizationCode codeIdentity _ _ =>
    if isBlank codeIdentity then .error (.consistency "single-use token issuance grant key is empty")
    else if !startsWith "authorization_code:v2:" codeIdentity then
      .error (.consistency "authorization code identity is malformed")
    else .ok ()

/-- The tenant, client and user of a refresh commit. -/
def refreshOwner : RefreshTokenCommit → Uuid × Uuid × Option Uuid
  | .issueNew token _ => (token.tenantId, token.clientId, token.userId)
  | .useExisting authority _ => (authority.tenantId, authority.clientId, authority.userId)

/-- The refresh commit belongs to the issuance; only a fresh issuance uses an existing source. -/
def validateRefresh : Except RepositoryError Unit :=
  match input.refreshToken with
  | none => .ok ()
  | some refresh =>
    let usesExisting := match refresh with
      | .issueNew _ _ => false
      | .useExisting _ _ => true
    if usesExisting && input.mode ≠ .fresh then
      .error (.consistency "refresh source cannot also redeem a single-use grant")
    else if refreshOwner refresh ≠ (input.tenantId, input.clientId, input.userId)
        || refresh.contract.subject ≠ input.subject then
      .error (.consistency "refresh token owner or subject does not match token issuance")
    else .ok ()

def validateNativeSso : Except RepositoryError Unit :=
  match input.nativeSsoSource with
  | none => .ok ()
  | some source =>
    let issuesNew := match input.refreshToken with
      | some (.issueNew _ _) => true
      | _ => false
    if source.tenantId ≠ input.tenantId
        || some source.userId ≠ input.userId
        || source.familyId = 0
        || source.sourceClientId.isEmpty
        || input.mode ≠ .fresh
        || !issuesNew then
      .error (.consistency "Native SSO source fence does not match destination issuance")
    else .ok ()

/-- `validate_commit_input`; the result is the expiry of the access token. -/
def validateCommitInput : Except RepositoryError Instant := do
  if malformed input then .error (.consistency "token issuance commit input is malformed")
  validateGrantKey input.mode
  let expectedAuthorizationId := (input.refreshToken.map (·.familyKey.2)).getD input.issuanceId
  if input.authorizationId.any (fun id => id ≠ expectedAuthorizationId) then
    .error (.consistency "authorization reference does not match issuance source")
  validateRefresh input
  validateNativeSso input
  match fromTimestamp input.accessTokenExpiresAt with
  | some expiresAt => .ok expiresAt
  | none => .error (.consistency "token issuance access-token expiry is invalid")

def mapRepositoryError : RepositoryError → TokenPortError
  | .consistency _ => .corruptData
  | .unexpected _ => .unexpected

section

variable (h : Hashes)

include h

variable (input : CommitTokenIssuance)

/-- The checks before a connection is taken: the input, the retention horizon and the refresh
contract. -/
def prepareCommit : Except TokenPortError Unit :=
  match validateCommitInput input with
  | .error e => .error (mapRepositoryError e)
  | .ok _ =>
    match fromTimestamp (input.accessTokenExpiresAt + maxAccessTokenClockSkewSeconds) with
    | none => .error .corruptData
    | some _ => match input.refreshToken with
      | none => .ok ()
      | some refresh => match prepareRefreshContract h refresh with
        | .error e => .error (mapRepositoryError e)
        | .ok _ => .ok ()

/-! ## Receipts -/

/-- The unique constraints of `oauth_token_issuances`. -/
inductive ReceiptKey where
  | singleUse (clientId : Uuid) (digest : Digest)
  | issuance (issuanceId : Uuid)
  | jti (tenantId : Uuid) (jti : String)
  deriving DecidableEq

/-- `single_use_key_blake3`. -/
def singleUseKey : Option Digest := input.mode.grant.map fun g => h.blake3 g.1

def receiptKeys : List ReceiptKey :=
  (singleUseKey h input).toList.map (ReceiptKey.singleUse input.clientId)
    ++ [.issuance input.issuanceId, .jti input.tenantId input.accessTokenJti]

/-- `retain_until`: the end of the acceptance of the access token, or the grant's deadline if that
is later. -/
def retainUntil : Instant :=
  let ownershipHorizon := seconds (input.accessTokenExpiresAt + maxAccessTokenClockSkewSeconds)
  match input.mode.grant with
  | none => ownershipHorizon
  | some (_, grantExpiresAt) => max ownershipHorizon grantExpiresAt

/-- The arbiter of `ON CONFLICT DO NOTHING`. -/
def sameGrant (a b : CommitTokenIssuance) : Bool :=
  a.clientId = b.clientId && (singleUseKey h a).isSome && singleUseKey h a = singleUseKey h b

/-- The other two unique constraints, which raise. -/
def sameIdentity (a b : CommitTokenIssuance) : Bool :=
  a.issuanceId = b.issuanceId || (a.tenantId = b.tenantId && a.accessTokenJti = b.accessTokenJti)

/-! ## The machine -/

/-- An open transaction: its input and the clock at the insertion of its receipt. -/
abbrev Transaction := Reservation Nat CommitTokenIssuance

/-- Receipts, with those of open transactions, and the open transactions that have none. -/
structure IssuanceStore where
  receipts : Fence Nat CommitTokenIssuance
  fresh : List Transaction

def IssuanceStore.empty : IssuanceStore := ⟨Fence.empty, []⟩

/-- The answer of `nazo_lock_token_principals`. -/
inductive PrincipalOutcome where
  | ok
  | clientInactive
  | subjectInactive
  | failed

inductive CommitTransactionError where
  | port (error : TokenPortError)
  | nativeSsoSourceUnavailable

inductive Action where
  | begin (tx : Nat) (input : CommitTokenIssuance) (principals : PrincipalOutcome)
  /-- `refresh` is the answer of the refresh commit, `rest` that of the remaining statements; the caller learns
  of the commit only if it is acknowledged. -/
  | finish (tx : Nat) (refresh : Except TokenPortError RefreshTokenPersistResult)
      (rest : Except CommitTransactionError Unit) (acknowledged : Bool)
  | abort (tx : Nat)
  /-- `cutoff` is the clock at the start of the function; rows held by other transactions are skipped. -/
  | cleanup (cutoff : Instant) (held : List Uuid)

structure Op where
  action : Action
  now : Instant

inductive Outcome where
  /-- The caller got an answer before a transaction was open. -/
  | returned (input : CommitTokenIssuance) (result : Except TokenPortError CommitTokenIssuanceResult)
  | waiting
  /-- The transaction is open and has inserted its receipt. -/
  | started (transaction : Transaction)
  /-- The transaction ended; its receipt was stored or not, and the caller got an answer. -/
  | ended (transaction : Transaction) (stored : Bool) (result : Except TokenPortError CommitTokenIssuanceResult)
  | startedFresh (transaction : Transaction)
  | endedFresh (transaction : Transaction) (result : Except TokenPortError CommitTokenIssuanceResult)
  | aborted
  /-- The receipts with these identifiers were deleted. -/
  | cleaned (deleted : List Uuid)

/-- The insertion of the receipt of a single-use grant. -/
def insertReceipt (s : IssuanceStore) (tx : Nat) (input : CommitTokenIssuance)
    (grantExpiresAt now : Instant) : IssuanceStore × Outcome :=
  if s.receipts.rows.any (sameGrant h input) then (s, .returned input (.ok .alreadyUsed))
  else if s.receipts.pending.any (fun p => sameGrant h input p.row) then (s, .waiting)
  else if s.receipts.rows.any (sameIdentity input) then (s, .returned input (.error .conflict))
  else if s.receipts.pending.any (fun p => sameIdentity input p.row) then (s, .waiting)
  -- `RETURNING (clock_timestamp() < grant_expires_at)`; the row of an expired grant is rolled back
  else if now < grantExpiresAt then
    ({ s with receipts := { s.receipts with pending := ⟨tx, input, now⟩ :: s.receipts.pending } },
      .started ⟨tx, input, now⟩)
  else (s, .returned input (.ok .grantExpired))

/-- A transaction up to and including the insertion of its receipt. -/
def begin_ (s : IssuanceStore) (tx : Nat) (input : CommitTokenIssuance)
    (principals : PrincipalOutcome) (now : Instant) : IssuanceStore × Outcome :=
  match prepareCommit h input with
  | .error e => (s, .returned input (.error e))
  | .ok () =>
    match principals with
    | .clientInactive => (s, .returned input (.ok .clientInactive))
    | .subjectInactive => (s, .returned input (.ok .subjectInactive))
    | .failed => (s, .returned input (.error .unexpected))
    | .ok =>
      match input.mode.grant with
      | none => ({ s with fresh := ⟨tx, input, now⟩ :: s.fresh }, .startedFresh ⟨tx, input, now⟩)
      | some (_, grantExpiresAt) => insertReceipt h s tx input grantExpiresAt now

/-- The statements after the receipt: the answer, and whether the receipt is kept. -/
def afterReceipt (input : CommitTokenIssuance) (refresh : Except TokenPortError RefreshTokenPersistResult)
    (rest : Except CommitTransactionError Unit) :
    Except CommitTransactionError (CommitTokenIssuanceResult × Bool) :=
  match input.refreshToken, refresh, rest with
  | none, _, .ok () => .ok (.committed, true)
  | some _, .error e, _ => .error (.port e)
  | some _, .ok .inserted, .ok () => .ok (.committed, true)
  | some _, .ok .invalidSource, _ => .ok (.refreshGrantUnavailable, true)
  -- the compromise is committed, the receipt of this request is deleted
  | some _, .ok .rotationConflict, .ok () => .ok (.rotationConflict, false)
  | _, _, .error e => .error e

/-- What the caller is told of a transaction that was rolled back. -/
def resultOfError : CommitTransactionError → Except TokenPortError CommitTokenIssuanceResult
  | .port e => .error e
  | .nativeSsoSourceUnavailable => .ok .refreshGrantUnavailable

/-- The end of a transaction: whether its receipt is stored, and what the caller is told. -/
def transactionEnd (input : CommitTokenIssuance) (refresh : Except TokenPortError RefreshTokenPersistResult)
    (rest : Except CommitTransactionError Unit) (acknowledged : Bool) :
    Bool × Except TokenPortError CommitTokenIssuanceResult :=
  match afterReceipt input refresh rest with
  | .error e => (false, resultOfError e)
  | .ok (result, stored) => (stored, if acknowledged then .ok result else .error .unavailable)

/-- `ORDER BY retain_until, issuance_id`. -/
def dueFirst (a b : CommitTokenIssuance) : Prop :=
  retainUntil a < retainUntil b ∨ (retainUntil a = retainUntil b ∧ a.issuanceId ≤ b.issuanceId)

instance : DecidableRel dueFirst := fun _ _ => inferInstanceAs (Decidable (_ ∨ (_ ∧ _)))

def cleanupBatchLimit : Nat := 256

/-- The receipts that a cleanup deletes. -/
def dueReceipts (rows : List CommitTokenIssuance) (cutoff : Instant) (held : List Uuid) :
    List CommitTokenIssuance :=
  ((rows.filter fun r => decide (retainUntil r ≤ cutoff) && !held.contains r.issuanceId).insertionSort
    dueFirst).take cleanupBatchLimit

def exec (s : IssuanceStore) (op : Op) : IssuanceStore × Outcome :=
  match op.action with
  | .begin tx input principals =>
    if s.receipts.pending.any (fun p => p.tx = tx) || s.fresh.any (fun p => p.tx = tx) then (s, .waiting)
    else begin_ h s tx input principals op.now
  | .finish tx refresh rest acknowledged =>
    match s.receipts.pending.find? (fun p => p.tx = tx) with
    | some p =>
      let (stored, result) := transactionEnd p.row refresh rest acknowledged
      ({ s with receipts := ⟨if stored then p.row :: s.receipts.rows else s.receipts.rows,
          s.receipts.pending.filter fun q => q.tx ≠ tx⟩ }, .ended p stored result)
    | none => match s.fresh.find? (fun p => p.tx = tx) with
      | some p =>
        ({ s with fresh := s.fresh.filter fun q => q.tx ≠ tx },
          .endedFresh p (transactionEnd p.row refresh rest acknowledged).2)
      | none => (s, .waiting)
  | .abort tx =>
    (⟨{ s.receipts with pending := s.receipts.pending.filter fun q => q.tx ≠ tx },
      s.fresh.filter fun q => q.tx ≠ tx⟩, .aborted)
  | .cleanup cutoff held =>
    let deleted := (dueReceipts s.receipts.rows cutoff held).map (·.issuanceId)
    ({ s with receipts := { s.receipts with
        rows := s.receipts.rows.filter fun r => !deleted.contains r.issuanceId } }, .cleaned deleted)

end

abbrev Log := List (Op × Outcome)

/-- The clock that a cleanup has read at its start is not ahead of the one at its end. -/
def Op.clockRead (op : Op) : Bool :=
  match op.action with
  | .cleanup cutoff _ => decide (cutoff ≤ op.now)
  | _ => true

/-- One clock: it does not run backwards. -/
def Timed : Log → Prop
  | [] => True
  | e :: log => Timed log ∧ (∀ e' ∈ log, e'.1.now ≤ e.1.now) ∧ e.1.clockRead = true

instance decidableTimed : DecidablePred Timed
  | [] => isTrue trivial
  | _ :: log => @instDecidableAnd _ _ (decidableTimed log) inferInstance

end NazoAuth.Issuance
