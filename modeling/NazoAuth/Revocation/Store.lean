import Mathlib.Data.List.Sort
import NazoAuth.Lib.Table
import NazoAuth.Revocation.Verifier

/-!
# Access-token state — revocation facts, principals and issuances

The tables that decide whether an access token is revoked: the revocation facts under the tenant and
the digest of the token's `jti`, the clients and users with their epochs, and the owners of private
subjects. Facts are written by the revocation of a token or of all tokens of an owner, and deleted
by the cleanup of expired state. The deactivation of a principal advances its epoch.

An issuance is a process of several steps: it reads the epoch of its client when the client
authenticates and that of its user before it signs; then one transaction locks both principals,
compares the epochs, and commits. The share locks of the transaction make an update of a principal
wait for its end.
-/

namespace NazoAuth.Revocation

open Lib

/-- Digests of token identifiers, and the reader of identifiers in claims. -/
structure Formats where
  blake3 : String → Digest
  parse : String → Option Uuid
  parse_text : ∀ id, parse (uuidText id) = some id

/-! ## Revocation facts -/

/-- A row of `access_token_revocations`. -/
structure RevocationRow where
  tenantId : Uuid
  jtiDigest : Digest
  clientId : Uuid
  revokedAt : Instant
  expiresAt : Instant

def RevocationRow.key (r : RevocationRow) : Uuid × Digest := (r.tenantId, r.jtiDigest)

/-- The deadline of a later revocation. -/
def RevocationRow.extend (expiresAt : Instant) (r : RevocationRow) : RevocationRow :=
  { r with expiresAt := max r.expiresAt expiresAt }

@[simp] theorem RevocationRow.extend_key (t : Instant) (r : RevocationRow) : (r.extend t).key = r.key := rfl

abbrev Revocations := Table RevocationRow.key

/-- The expiry of a token with the largest clock skew of a verifier, as far as the calendar goes. -/
def accessTokenRevocationDeadline (expiresAt : Instant) : Option Instant :=
  if expiresAt + seconds maxAccessTokenClockSkewSeconds ≤ seconds maxTimestamp + 999999 then
    some (expiresAt + seconds maxAccessTokenClockSkewSeconds)
  else none

/-- One row of `upsert_access_token_revocations`: a conflict only extends the deadline. -/
def upsertAccessTokenRevocation (t : Revocations) (r : RevocationRow) : Revocations :=
  match t.insert? r with
  | some t' => t'
  | none => t.update (fun s => s.key = r.key && s.expiresAt < r.expiresAt) (RevocationRow.extend r.expiresAt)
      (RevocationRow.extend_key r.expiresAt)

def upsertAccessTokenRevocations (t : Revocations) (rows : List RevocationRow) : Revocations :=
  rows.foldl upsertAccessTokenRevocation t

/-- A row of the cursor over the tokens of an owner; `expiresAt` is the deadline. -/
structure OwnedAccessTokenRow where
  clientId : Uuid
  accessTokenJti : String
  expiresAt : Instant

/-- One row of a batch joins the others: the longest deadline of a key is kept, and another client
is an error. -/
def addRevocation (f : Formats) (tenantId : Uuid) (now : Instant) (acc : List RevocationRow)
    (row : OwnedAccessTokenRow) : Option (List RevocationRow) :=
  let new : RevocationRow := ⟨tenantId, f.blake3 row.accessTokenJti, row.clientId, now, row.expiresAt⟩
  match acc.find? (fun r => r.key = new.key) with
  | none => some (acc ++ [new])
  | some existing =>
    if existing.clientId ≠ row.clientId then none
    else some (acc.map fun r => if r.key = new.key then r.extend row.expiresAt else r)

def deduplicated (f : Formats) (tenantId : Uuid) (now : Instant) (rows : List OwnedAccessTokenRow) :
    Option (List RevocationRow) :=
  rows.foldlM (addRevocation f tenantId now) []

/-- The loop over the batches of the cursor. -/
def revokeBatches (f : Formats) (tenantId : Uuid) (now : Instant) :
    Nat → Revocations → List OwnedAccessTokenRow → Option Revocations
  | 0, t, _ => some t
  | fuel + 1, t, rows =>
    if rows.isEmpty then some t
    else match deduplicated f tenantId now (rows.take 512) with
      | none => none
      | some news => revokeBatches f tenantId now fuel (upsertAccessTokenRevocations t news) (rows.drop 512)

/-- A token of the owner: an issuance without epochs, or a credential access grant. -/
structure OwnedToken where
  clientId : Uuid
  jti : String
  /-- The expiry, in whole seconds. -/
  exp : Int

/-- The tokens that a verifier might still accept. -/
def liveTokens (tokens : List OwnedToken) (now : Instant) : List OwnedToken :=
  tokens.filter fun t => now - seconds maxAccessTokenClockSkewSeconds < seconds t.exp

variable (f : Formats)

/-- `revoke_access_tokens_for_owner_on_connection`, over the tokens that the owner has. -/
def revokeAccessTokensForOwner (t : Revocations) (tenantId : Uuid) (tokens : List OwnedToken)
    (now : Instant) : Option Revocations :=
  let rows := (liveTokens tokens now).map fun token =>
    OwnedAccessTokenRow.mk token.clientId token.jti (seconds token.exp + seconds maxAccessTokenClockSkewSeconds)
  revokeBatches f tenantId now rows.length t rows

/-- `ORDER BY expires_at, tenant_id, access_token_jti_blake3`. -/
def RevocationRow.expiresFirst (a b : RevocationRow) : Prop :=
  a.expiresAt < b.expiresAt ∨ (a.expiresAt = b.expiresAt ∧ (a.tenantId.toNat < b.tenantId.toNat
    ∨ (a.tenantId = b.tenantId ∧ a.jtiDigest.toNat ≤ b.jtiDigest.toNat)))

instance : DecidableRel RevocationRow.expiresFirst := fun _ _ => inferInstanceAs (Decidable (_ ∨ _))

/-- The facts that a cleanup deletes: expired ones, without those that other transactions have
locked. -/
def dueRevocations (t : Revocations) (held : List (Uuid × Digest)) (cutoff : Instant) : List RevocationRow :=
  ((t.rows.filter fun r => decide (r.expiresAt ≤ cutoff) && !held.contains r.key).insertionSort
    RevocationRow.expiresFirst).take 256

def cleanupRevocations (t : Revocations) (held : List (Uuid × Digest)) (cutoff : Instant) : Revocations :=
  t.delete fun r => ((dueRevocations t held cutoff).map RevocationRow.key).contains r.key

/-! ## Principals -/

structure ClientRow where
  id : Uuid
  tenantId : Uuid
  clientId : String
  isActive : Bool
  accessTokenEpoch : Int

structure UserRow where
  id : Uuid
  tenantId : Uuid
  isActive : Bool
  accessTokenEpoch : Int

/-- The owner of a private subject. -/
structure SubjectBinding where
  tenantId : Uuid
  subject : String
  userId : Uuid

def SubjectBinding.key (b : SubjectBinding) : Uuid × String := (b.tenantId, b.subject)

/-- `nazo_advance_access_token_epoch`: an update that deactivates advances the epoch. -/
def advanceAccessTokenEpoch (wasActive isActive : Bool) (epoch : Int) : Int :=
  if wasActive && !isActive then epoch + 1 else epoch

def ClientRow.activate (active : Bool) (c : ClientRow) : ClientRow :=
  { c with isActive := active, accessTokenEpoch := advanceAccessTokenEpoch c.isActive active c.accessTokenEpoch }

def UserRow.activate (active : Bool) (u : UserRow) : UserRow :=
  { u with isActive := active, accessTokenEpoch := advanceAccessTokenEpoch u.isActive active u.accessTokenEpoch }

@[simp] theorem ClientRow.activate_id (b : Bool) (c : ClientRow) : (c.activate b).id = c.id := rfl

@[simp] theorem UserRow.activate_id (b : Bool) (u : UserRow) : (u.activate b).id = u.id := rfl

/-! ## Issuances -/

/-- What an issuance has read of its user. -/
structure Subject where
  userId : Option Uuid
  subject : String
  userEpoch : Option Int
  subjectBound : Bool
  deriving DecidableEq

/-- An issuance between the authentication of its client and its end. -/
structure Issuance where
  id : Nat
  tenantId : Uuid
  /-- The row of the client. -/
  client : Uuid
  clientId : String
  clientEpoch : Int
  subject : Option Subject
  /-- The transaction holds the share locks of both principals; the identifier of the token is known. -/
  locked : Option String
  deriving DecidableEq

/-- `access_token_claims`, as far as the state of the token depends on them. -/
def lookupKey (p : Issuance) (s : Subject) (jti : String) : RevocationLookupKey where
  clientId := p.clientId
  subject := s.subject
  userId := (s.userId.map uuidText).filter (· = s.subject)
  subjectType := some (if s.userId.isSome then "user" else "client")
  clientEpoch := some p.clientEpoch
  userEpoch := s.userEpoch
  tenantId := uuidText p.tenantId
  jti := jti

/-- A token whose issuance was committed. -/
structure IssuedToken where
  issuance : Nat
  tenantId : Uuid
  client : Uuid
  userId : Option Uuid
  key : RevocationLookupKey

structure World where
  revocations : Revocations
  clients : Table ClientRow.id
  users : Table UserRow.id
  bindings : Table SubjectBinding.key
  issuances : List Issuance
  nextIssuance : Nat

def World.initial : World := ⟨Table.empty, Table.empty, Table.empty, Table.empty, [], 0⟩

variable (w : World)

def World.client? (tenantId id : Uuid) : Option ClientRow :=
  (w.clients.find? id).filter fun c => c.tenantId = tenantId

def World.user? (tenantId id : Uuid) : Option UserRow :=
  (w.users.find? id).filter fun u => u.tenantId = tenantId

/-- `snapshot`, where the subject is not owned by another user. -/
def snapshot (tenantId : Uuid) (userId : Option Uuid) (subject : String) : Option Subject :=
  match userId with
  | none => some ⟨none, subject, none, false⟩
  | some id =>
    let bound := if subject = uuidText id then none else w.bindings.find? (tenantId, subject)
    if bound.any fun b => b.userId ≠ id then none
    else some ⟨some id, subject, some (((w.user? tenantId id).map (·.accessTokenEpoch)).getD 0), bound.isSome⟩

inductive Refusal where
  | malformed
  | clientInactive
  | subjectInactive

def lockTokenPrincipals (tenantId client : Uuid) (clientEpoch : Int) (userId : Option Uuid)
    (userEpoch : Option Int) : Except Refusal Unit :=
  if !(w.client? tenantId client).any fun c =>
    c.isActive && c.accessTokenEpoch = clientEpoch then .error .clientInactive
  else match userId with
    | none => .ok ()
    | some id =>
      if (w.user? tenantId id).any fun u => u.isActive && some u.accessTokenEpoch = userEpoch then .ok ()
      else .error .subjectInactive

/-- `ensure_subject_binding`, where it succeeds. -/
def ensureSubjectBinding (bindings : Table SubjectBinding.key) (tenantId : Uuid) (s : Subject) :
    Option (Table SubjectBinding.key) :=
  match s.userId with
  | none => some bindings
  | some id =>
    if s.subject = uuidText id || s.subjectBound then some bindings
    else match bindings.insert? ⟨tenantId, s.subject, id⟩ with
      | some bindings' => some bindings'
      | none =>
        if (bindings.find? (tenantId, s.subject)).any fun b => b.userId = id then some bindings else none

/-! ## The state of a token -/

variable (tenantId : Uuid)

def World.accessTokenRevoked (jti : String) : Bool :=
  (w.revocations.find? (tenantId, f.blake3 jti)).isSome

/-- The user that a token names, or the owner of its subject. -/
def World.tokenUser? (userId : Option Uuid) (subject : String) : Option UserRow :=
  (userId.or ((w.bindings.find? (tenantId, subject)).map (·.userId))).bind (w.user? tenantId)

/-- There is an active client and, for a user, an active user with the epochs of the token. -/
def World.principalsCurrent (userId : Option Uuid) (clientEpoch : Int) (key : RevocationLookupKey) :
    Bool :=
  w.clients.rows.any fun c => c.tenantId = tenantId && c.clientId = key.clientId && c.isActive
    && c.accessTokenEpoch = clientEpoch
    && ((key.subjectType = some "client" && userId.isNone && key.userEpoch.isNone)
      || (key.subjectType = some "user"
        && (w.tokenUser? tenantId userId key.subject).any fun u =>
        u.isActive && some u.accessTokenEpoch = key.userEpoch))

/-- `access_token_state_revoked_typed`. -/
def accessTokenStateRevoked (key : RevocationLookupKey) : Bool :=
  match key.clientEpoch with
  | none => key.userEpoch.isSome || w.accessTokenRevoked f tenantId key.jti
  | some clientEpoch =>
    if clientEpoch < 0 || key.userEpoch.any (fun epoch => epoch < 0) then true
    else
      let answer (userId : Option Uuid) : Bool :=
        w.accessTokenRevoked f tenantId key.jti || !w.principalsCurrent tenantId userId clientEpoch key
      match key.userId with
      | none => answer none
      | some text =>
        match f.parse text with
        | none => true
        | some id => answer (some id)

def isRevoked (key : RevocationLookupKey) : Option Bool :=
  (f.parse key.tenantId).map fun tenantId => accessTokenStateRevoked f w tenantId key

/-! ## The machine -/

inductive Action where
  | registerClient (id tenantId : Uuid) (clientId : String) (active : Bool)
  | registerUser (id tenantId : Uuid) (active : Bool)
  /-- An update of `is_active`: a deactivation, a reactivation, or none of both. -/
  | updateClient (id : Uuid) (active : Bool)
  | updateUser (id : Uuid) (active : Bool)
  | authenticate (tenantId : Uuid) (clientId : String)
  | prepare (issuance : Nat) (userId : Option Uuid) (subject : String)
  | lock (issuance : Nat) (jti : String)
  | commit (issuance : Nat)
  | abort (issuance : Nat)
  /-- The revocation of a token with its verified expiry, in whole seconds. -/
  | revoke (tenantId clientId : Uuid) (jti : String) (exp : Int)
  | revokeOwner (tenantId : Uuid) (tokens : List OwnedToken)
  | cleanup (held : List (Uuid × Digest))
  /-- The look-up of the token of a request to a protected resource. The times of the token were checked by a clock
  that was read before, at `readAt`: the sender constraint, with its nonce and its replay marker, comes in
  between. -/
  | verify (verifier : ResourceServerVerifier) (constraint : VerifiedAccessToken → Except String Unit)
      (accessToken : String) (readAt : Instant)

/-- What is done, and the clock that it reads. -/
structure Op where
  action : Action
  now : Instant

/-- A token that was recorded as revoked. -/
structure Recorded where
  tenantId : Uuid
  jti : String
  exp : Int

inductive Outcome where
  /-- Nothing happened: a lock is waited for, or there is nothing to do it to. -/
  | none
  | refused (reason : Refusal)
  | done
  | deactivatedClient (id : Uuid)
  | deactivatedUser (id : Uuid)
  | authenticated (issuance : Nat) (client : Uuid)
  | prepared (issuance : Nat) (userId : Option Uuid)
  | locked
  | committed (token : IssuedToken)
  | recorded (tokens : List Recorded)
  | verified (result : Except AuthorizationError VerifiedAccessToken)

variable (w : World)

/-- An open transaction holds a share lock of the client. -/
def World.clientLocked (id : Uuid) : Bool := w.issuances.any fun p => p.locked.isSome && p.client = id

def World.userLocked (id : Uuid) : Bool :=
  w.issuances.any fun p => p.locked.isSome && p.subject.any fun s => s.userId = some id

/-- The update of a client; the epoch is a 64-bit integer. -/
def updateClient_ (id : Uuid) (active : Bool) : World × Outcome :=
  match w.clients.find? id with
  | none => (w, .none)
  | some c =>
    if w.clientLocked id || decide (2 ^ 63 ≤ (c.activate active).accessTokenEpoch) then (w, .none)
    else ({ w with
      clients := w.clients.update (fun r => r.id = id) (ClientRow.activate active)
        (ClientRow.activate_id active) }, if c.isActive && !active then .deactivatedClient id else .done)

def updateUser_ (id : Uuid) (active : Bool) : World × Outcome :=
  match w.users.find? id with
  | none => (w, .none)
  | some u =>
    if w.userLocked id || decide (2 ^ 63 ≤ (u.activate active).accessTokenEpoch) then (w, .none)
    else ({ w with
      users := w.users.update (fun r => r.id = id) (UserRow.activate active) (UserRow.activate_id active) },
      if u.isActive && !active then .deactivatedUser id else .done)

/-- The issuances with `p` in the place of the one with its number. -/
def World.put (p : Issuance) : World :=
  { w with issuances := w.issuances.map fun q => if q.id = p.id then p else q }

def World.drop (issuance : Nat) : World :=
  { w with issuances := w.issuances.filter fun q => q.id ≠ issuance }

/-- The client authenticates; its epoch is read with it. -/
def authenticate_ (tenantId : Uuid) (clientId : String) : World × Outcome :=
  match w.clients.rows.find? (fun c => c.tenantId = tenantId && c.clientId = clientId) with
  | none => (w, .none)
  | some c =>
    ({ w with
        issuances := ⟨w.nextIssuance, tenantId, c.id, clientId, c.accessTokenEpoch, none, none⟩ :: w.issuances
        nextIssuance := w.nextIssuance + 1 }, .authenticated w.nextIssuance c.id)

def prepare_ (p : Issuance) (userId : Option Uuid) (subject : String) : World × Outcome :=
  match p.subject with
  | some _ => (w, .none)
  | none =>
    match snapshot w p.tenantId userId subject with
    | none => (w.drop p.id, .refused .malformed)
    | some s => (w.put { p with subject := some s }, .prepared p.id userId)

/-- `validate_commit_input` and `lock_and_recheck`: the start of the commit transaction. -/
def lock_ (p : Issuance) (jti : String) : World × Outcome :=
  match p.subject, p.locked with
  | some s, none =>
    if isBlank jti || s.subject.isEmpty || 255 < s.subject.length || p.clientEpoch < 0
        || s.userEpoch.any (fun e => e < 0) then
      (w.drop p.id, .refused .malformed)
    else match lockTokenPrincipals w p.tenantId p.client p.clientEpoch s.userId s.userEpoch with
      | .error reason => (w.drop p.id, .refused reason)
      | .ok () => (w.put { p with locked := some jti }, .locked)
  | _, _ => (w, .none)

/-- The end of the commit transaction. -/
def commit_ (p : Issuance) : World × Outcome :=
  match p.subject, p.locked with
  | some s, some jti =>
    match ensureSubjectBinding w.bindings p.tenantId s with
    | none => (w.drop p.id, .refused .malformed)
    | some bindings =>
      ({ w.drop p.id with bindings := bindings },
        .committed ⟨p.id, p.tenantId, p.client, s.userId, lookupKey p s jti⟩)
  | _, _ => (w, .none)

/-- The step of an open issuance. -/
def withIssuance (issuance : Nat) (step : Issuance → World × Outcome) : World × Outcome :=
  match w.issuances.find? (fun p => p.id = issuance) with
  | none => (w, .none)
  | some p => step p

def revoke_ (w : World) (tenantId clientId : Uuid) (jti : String) (exp : Int) (now : Instant) : World × Outcome :=
  match (fromTimestamp exp).bind accessTokenRevocationDeadline with
  | none => (w, .none)
  | some deadline =>
    ({ w with
      revocations := upsertAccessTokenRevocations w.revocations
        [⟨tenantId, f.blake3 jti, clientId, now, deadline⟩] }, .recorded [⟨tenantId, jti, exp⟩])

def exec (w : World) (op : Op) : World × Outcome :=
  match op.action with
  | .registerClient id tenantId clientId active =>
    if w.clients.rows.any fun c => c.tenantId = tenantId && c.clientId = clientId then (w, .none)
    else match w.clients.insert? ⟨id, tenantId, clientId, active, 0⟩ with
      | none => (w, .none)
      | some clients => ({ w with clients := clients }, .done)
  | .registerUser id tenantId active =>
    match w.users.insert? ⟨id, tenantId, active, 0⟩ with
    | none => (w, .none)
    | some users => ({ w with users := users }, .done)
  | .updateClient id active => updateClient_ w id active
  | .updateUser id active => updateUser_ w id active
  | .authenticate tenantId clientId => authenticate_ w tenantId clientId
  | .prepare issuance userId subject => withIssuance w issuance fun p => prepare_ w p userId subject
  | .lock issuance jti => withIssuance w issuance fun p => lock_ w p jti
  | .commit issuance => withIssuance w issuance (commit_ w)
  | .abort issuance => (w.drop issuance, .done)
  | .revoke tenantId clientId jti exp => revoke_ f w tenantId clientId jti exp op.now
  | .revokeOwner tenantId tokens =>
    if tokens.any fun t => (fromTimestamp t.exp).isNone then (w, .none)
    else match revokeAccessTokensForOwner f w.revocations tenantId tokens op.now with
      | none => (w, .none)
      | some revocations => ({ w with revocations := revocations },
          .recorded ((liveTokens tokens op.now).map fun t => ⟨tenantId, t.jti, t.exp⟩))
  | .cleanup held => ({ w with revocations := cleanupRevocations w.revocations held op.now }, .done)
  | .verify verifier constraint accessToken readAt =>
    (w, .verified (authorizeAt verifier constraint (isRevoked f w) accessToken (timestamp readAt)))

abbrev Log := List (Op × Outcome)

end NazoAuth.Revocation
