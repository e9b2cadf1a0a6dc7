import NazoAuth.Lib.Run
import NazoAuth.Refresh.Commit

/-!
# Refresh families — the writers and their histories

Every writer of the refresh tables as one atomic operation of a machine: the durable commit, the
revocations (by presented token, issued family, grant, user, client, and after a restore), the
change of a client's authentication class with its trigger, and the three maintenance passes.
Writers that take the family lock, or the row lock of a direct `UPDATE`, are serialised by it; a
history is therefore a list of operations.

What an operation cannot control is an argument of it: the transaction start `stamp`, the clock
`now` read under the locks, the rows that other transactions hold and a maintenance pass skips.
-/

namespace NazoAuth.Refresh

open Lib

/-- The statements that set `revoked_at` where it is null. -/
inductive RevocationScope where
  /-- `revoke_for_client_with_audit`: the family of a presented token. -/
  | presented (tenantId clientId : Uuid) (digest : Digest)
  /-- `revoke_issued_tokens`: the family of a replayed authorization code. -/
  | issued (tenantId clientId familyId : Uuid)
  /-- The grant of a user to a client is withdrawn. -/
  | grant (tenantId userId clientId : Uuid)
  /-- The user is deactivated. -/
  | user (tenantId userId : Uuid)
  /-- The client is deactivated, or loses its confidential class. -/
  | client (tenantId clientId : Uuid)
  /-- `invalidate_after_restore`. -/
  | all

variable (s : RefreshStore)

/-- `refresh_family_id_for_digest`: the current generation first, then the spent proofs. -/
def refreshFamilyIdForDigest (tenantId clientId : Uuid) (digest : Digest) : Option Uuid :=
  match s.families.rows.find? (fun f =>
      f.tenantId = tenantId && f.currentTokenBlake3 = digest && f.clientId = clientId) with
  | some f => some f.tokenFamilyId
  | none =>
    match s.spent.find? (tenantId, digest) with
    | none => none
    | some p => match s.families.find? p.familyKey with
      | none => none
      | some f => if f.clientId = clientId then some f.tokenFamilyId else none

def RevocationScope.covers : RevocationScope → RefreshFamilyRow → Bool
  | .presented tenantId clientId digest, f =>
    f.tenantId = tenantId && f.clientId = clientId
      && refreshFamilyIdForDigest s tenantId clientId digest = some f.tokenFamilyId
  | .issued tenantId clientId familyId, f =>
    f.tenantId = tenantId && f.clientId = clientId && f.tokenFamilyId = familyId
  | .grant tenantId userId clientId, f =>
    f.tenantId = tenantId && f.userId = some userId && f.clientId = clientId
  | .user tenantId userId, f => f.tenantId = tenantId && f.userId = some userId
  | .client tenantId clientId, f => f.tenantId = tenantId && f.clientId = clientId
  | .all, _ => true

def revokeFamilies (scope : RevocationScope) (stamp : Instant) : RefreshStore :=
  s.updateFamilies (fun f => scope.covers s f && f.revokedAt.isNone)
    (RefreshFamilyRow.revoke stamp) (RefreshFamilyRow.revoke_key stamp)

/-- `SET client_type`. -/
def LockedClientRow.withType (clientType : ClientType) (client : LockedClientRow) : LockedClientRow :=
  { client with clientType := clientType }

@[simp] theorem LockedClientRow.withType_key (clientType : ClientType) (client : LockedClientRow) :
    (client.withType clientType).key = client.key := rfl

/-- `UPDATE oauth_clients SET client_type`. -/
def updateClientType (tenantId id : Uuid) (clientType : ClientType) : RefreshStore :=
  { s with
    clients := s.clients.update (fun client => client.key = (tenantId, id))
      (LockedClientRow.withType clientType) (LockedClientRow.withType_key clientType) }

/-- The update of a client's class with the trigger `nazo_revoke_refresh_on_client_public`: a client
that stops being confidential loses its families. -/
def setClientType (tenantId id : Uuid) (clientType : ClientType) (stamp : Instant) : RefreshStore :=
  if (s.clients.find? (tenantId, id)).any fun client =>
      client.clientType = .confidential && clientType = .publicClient then
    revokeFamilies (updateClientType s tenantId id clientType) (.client tenantId id) stamp
  else updateClientType s tenantId id clientType

/-- A client is registered. -/
def registerClient (client : LockedClientRow) : RefreshStore :=
  match s.clients.insert? client with
  | some clients => { s with clients := clients }
  | none => s

/-! ## Maintenance -/

def cleanupBatchLimit : Nat := 256

/-- `ORDER BY expires_at`. -/
def SpentRefreshTokenRow.expiresFirst (p q : SpentRefreshTokenRow) : Prop := p.expiresAt ≤ q.expiresAt

instance : DecidableRel SpentRefreshTokenRow.expiresFirst := fun _ _ => inferInstanceAs (Decidable (_ ≤ _))

/-- Delete spent proofs at their own expiry; rows held by other transactions are skipped. -/
def deleteExpiredSpentProofs (held : List (Uuid × Digest)) (stamp : Instant) : RefreshStore :=
  let due := ((s.spent.rows.filter fun p => decide (p.expiresAt ≤ stamp) && !held.contains p.key).insertionSort
    SpentRefreshTokenRow.expiresFirst).take cleanupBatchLimit
  { s with spent := s.spent.delete fun p => (due.map SpentRefreshTokenRow.key).contains p.key }

/-- Expired or revoked: the family may be reclaimed. -/
def RefreshFamilyRow.isTerminal (stamp : Instant) (f : RefreshFamilyRow) : Bool :=
  decide (f.currentExpiresAt ≤ stamp) || f.revokedAt.isSome

/-- The candidates whose locks were obtained and that are still terminal under them. -/
def terminalFamilies (candidates heldFamilies : List (Uuid × Uuid)) (stamp : Instant) :
    List (Uuid × Uuid) :=
  candidates.filter fun k => !heldFamilies.contains k
    && (s.families.find? k).any (RefreshFamilyRow.isTerminal stamp)

/-- Reclaim terminal families: at most `proofBudget` spent proofs are deleted, in no particular
order, and a family is deleted only when it has none left. -/
def deleteExpiredRefreshFamilies (candidates heldFamilies : List (Uuid × Uuid))
    (heldProofs : List (Uuid × Digest)) (proofBudget : Nat) (stamp : Instant) : RefreshStore :=
  let terminal := terminalFamilies s candidates heldFamilies stamp
  let limitedProofs := (s.spent.rows.filter fun p =>
    terminal.contains p.familyKey && !heldProofs.contains p.key).take proofBudget
  let spent := s.spent.delete fun p => (limitedProofs.map SpentRefreshTokenRow.key).contains p.key
  { s with
    spent := spent
    families := s.families.delete fun f =>
      terminal.contains f.key && !(spent.rows.any fun p => p.familyKey = f.key) }

/-- Delete contracts that no family references. -/
def deleteOrphanRefreshContracts (page : List (Uuid × Digest)) : RefreshStore :=
  { s with contracts := s.contracts.delete fun c =>
      page.contains c.key && !(s.families.rows.any fun f => (f.tenantId, f.contractBlake3) = c.key) }

/-! ## The machine -/

inductive Action where
  | commit (refresh : RefreshTokenCommit) (nativeSsoSource : Option Uuid)
  | revoke (scope : RevocationScope)
  | registerClient (client : LockedClientRow)
  | setClientType (tenantId id : Uuid) (clientType : ClientType)
  | deleteExpiredSpentProofs (held : List (Uuid × Digest))
  | deleteExpiredRefreshFamilies (candidates heldFamilies : List (Uuid × Uuid))
      (heldProofs : List (Uuid × Digest)) (proofBudget : Nat)
  | deleteOrphanRefreshContracts (page : List (Uuid × Digest))

/-- A transaction: what it does, when it started, and the clock it read under its locks. -/
structure Op where
  action : Action
  stamp : Instant
  now : Instant

inductive Outcome where
  | persisted (result : RefreshTokenPersistResult)
  | rolledBack (error : RepositoryError)
  | done
  deriving DecidableEq

/-- One operation, atomically. -/
def exec (h : Hashes) (s : RefreshStore) (op : Op) : RefreshStore × Outcome :=
  match op.action with
  | .commit refresh nativeSsoSource =>
    match commitRefreshToken h s refresh nativeSsoSource op.stamp op.now with
    | .error e => (s, .rolledBack e)
    | .ok (s', result, _) => (s', .persisted result)
  | .revoke scope => (revokeFamilies s scope op.stamp, .done)
  | .registerClient client => (registerClient s client, .done)
  | .setClientType tenantId id clientType => (setClientType s tenantId id clientType op.stamp, .done)
  | .deleteExpiredSpentProofs held => (deleteExpiredSpentProofs s held op.stamp, .done)
  | .deleteExpiredRefreshFamilies candidates heldFamilies heldProofs proofBudget =>
    (deleteExpiredRefreshFamilies s candidates heldFamilies heldProofs proofBudget op.stamp, .done)
  | .deleteOrphanRefreshContracts page => (deleteOrphanRefreshContracts s page, .done)

abbrev Log := List (Op × Outcome)

/-! ## What an event did -/

/-- A generation: its identity, the digest of its token and its expiry. -/
structure Generation where
  memberId : Uuid
  digest : Digest
  expiresAt : Instant
  deriving DecidableEq

/-- The generation an event installed, with its family. -/
def installedBy (h : Hashes) (e : Op × Outcome) : Option ((Uuid × Uuid) × Generation) :=
  match e.1.action, e.2 with
  | .commit refresh _, .persisted .inserted =>
    refresh.token.map fun token => (refresh.familyKey, ⟨token.memberId, h.blake3 token.rawToken, token.expiresAt⟩)
  | _, _ => none

/-- The event created family `k`. -/
def creates (k : Uuid × Uuid) (e : Op × Outcome) : Bool :=
  match e.1.action, e.2 with
  | .commit (.issueNew token _) _, .persisted .inserted => (token.tenantId, token.familyId) = k
  | _, _ => false

/-- The member id and digest of the generation that a successful rotation used as its source. -/
def rotationSource (e : Op × Outcome) : Option (Uuid × Digest) :=
  match e.1.action, e.2 with
  | .commit (.useExisting authority (some _)) _, .persisted .inserted =>
    some (authority.memberId, authority.tokenBlake3)
  | _, _ => none

/-- The event is a commit with family `k` as its source that was reported as inserted. -/
def usesSource (k : Uuid × Uuid) (e : Op × Outcome) : Bool :=
  match e.1.action, e.2 with
  | .commit (.useExisting authority _) _, .persisted .inserted => (authority.tenantId, authority.familyId) = k
  | _, _ => false

end NazoAuth.Refresh
