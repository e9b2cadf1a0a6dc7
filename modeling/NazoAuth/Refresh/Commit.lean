import NazoAuth.Refresh.Store

/-!
# Refresh families — the durable commit

`persistRefreshTokenInner` with everything it calls: validation of the commit value, creation of a
family with its capacity rule (`nazo_create_refresh_family`), the locked comparison of the source,
the lost-response edge, the spent proof with its retention rule, and the compromise of a family.

A commit runs in one transaction. `stamp` is the database's `CURRENT_TIMESTAMP`, the start of the
transaction; `now` is the clock read after the source locks were taken. An `.error` rolls the
transaction back, so it leaves the store as it was.
-/

namespace NazoAuth.Refresh

open Lib

/-- The digests the adapter computes: of a raw token, and of an encoded contract. -/
structure Hashes where
  blake3 : String → Digest
  contractBlake3 : RefreshContract → Digest

/-- Largest number of simultaneously active families of a `(tenant, user, client)` scope. -/
def maxActiveRefreshFamiliesPerScope : Nat := 10

/-- Largest number of spent proofs of a confidential or sender-constrained family. -/
def maxSpentProofsPerRefreshFamily : Nat := 64

/-- Length of the lost-response window. -/
def lostRefreshTokenRetrySeconds : Int := 60

def refreshSpentProofLimit (clientType : ClientType) (dpopJkt mtlsX5tS256 : Option String) : Option Nat :=
  if clientType = .confidential || dpopJkt.isSome || mtlsX5tS256.isSome then some maxSpentProofsPerRefreshFamily
  else none

/-! ## Validation of a commit value -/

def validAudiences (values : List String) : Bool := !values.isEmpty && values.all fun value => !isBlank value

/-- A session identifier is absent or not blank. -/
def validSid (sid : Option String) : Bool := sid.all fun sid => !isBlank sid

/-- The checks of a commit value that depend on its kind. -/
def validateRefreshSource : RefreshTokenCommit → Except RepositoryError Unit
  | .issueNew token contract =>
    if contract.authenticationContext.version ≠ currentVersion
        || token.rotatedFromId.isSome
        || token.lostResponseRetry.isSome
        || token.audiences ≠ contract.audiences then
      .error (.consistency "new refresh family must retain the complete original grant")
    else .ok ()
  | .useExisting authority rotation =>
    if !validSid authority.idTokenSid
        || authority.familyId = 0
        || authority.memberId = 0
        || !validAudiences authority.currentAudiences
        || !isSubset authority.currentAudiences authority.contract.audiences then
      .error (.consistency "refresh source audience exceeds its original grant")
    else match rotation with
    | none => .ok ()
    | some token =>
      if token.familyId ≠ authority.familyId
          || token.tenantId ≠ authority.tenantId
          || token.clientId ≠ authority.clientId
          || token.userId ≠ authority.userId
          || token.rotatedFromId ≠ some authority.memberId
          || !isSubset token.audiences authority.currentAudiences
          || token.dpopJkt ≠ authority.dpopJkt
          || token.mtlsX5tS256 ≠ authority.mtlsX5tS256
          || token.clientAttestationJkt ≠ authority.clientAttestationJkt then
        .error (.consistency "refresh replacement does not preserve its source authority")
      else .ok ()

/-- The checks of the generation that the commit would install. -/
def validateRefreshToken (contract : RefreshContract) (token : NewRefreshToken) : Except RepositoryError Unit :=
  if token.familyId = 0
      || token.memberId = 0
      || token.rawToken.isEmpty
      || !validSid token.idTokenSid
      || !validAudiences token.audiences
      || contract.authenticationContext.authTime > timestamp token.issuedAt
      || token.expiresAt ≤ token.issuedAt then
    .error (.consistency "refresh token requires a complete current authentication contract")
  else .ok ()

def validateRefreshCommit (refresh : RefreshTokenCommit) : Except RepositoryError Unit :=
  if !refresh.contract.authenticationContext.isWellFormed
      || isBlank refresh.contract.subject
      || !validAudiences refresh.contract.audiences then
    .error (.consistency "refresh token requires a complete immutable authentication contract")
  else match validateRefreshSource refresh with
  | .error e => .error e
  | .ok () => match refresh.token with
    | none => .ok ()
    | some token => validateRefreshToken refresh.contract token

/-- The encoded contract of a new family. -/
structure PreparedRefreshContract where
  contractBlake3 : Digest
  contractValue : RefreshContract

def prepareRefreshContract (h : Hashes) (refresh : RefreshTokenCommit) :
    Except RepositoryError (Option PreparedRefreshContract) :=
  match validateRefreshCommit refresh with
  | .error e => .error e
  | .ok () => match refresh with
    | .issueNew _ contract => .ok (some ⟨h.contractBlake3 contract, contract⟩)
    | .useExisting _ _ => .ok none

/-! ## Family rows -/

/-- The compromise of a family row; idempotent. -/
def RefreshFamilyRow.compromise (stamp : Instant) (f : RefreshFamilyRow) : RefreshFamilyRow :=
  { f with reuseDetectedAt := some stamp, revokedAt := some (f.revokedAt.getD stamp) }

@[simp] theorem RefreshFamilyRow.compromise_key (stamp : Instant) (f : RefreshFamilyRow) :
    (f.compromise stamp).key = f.key := rfl

/-- `SET revoked_at`. -/
def RefreshFamilyRow.revoke (stamp : Instant) (f : RefreshFamilyRow) : RefreshFamilyRow :=
  { f with revokedAt := some stamp }

@[simp] theorem RefreshFamilyRow.revoke_key (stamp : Instant) (f : RefreshFamilyRow) :
    (f.revoke stamp).key = f.key := rfl

variable (s : RefreshStore)

/-- An `UPDATE` of family rows that keeps their keys. -/
def RefreshStore.updateFamilies (p : RefreshFamilyRow → Bool)
    (f : RefreshFamilyRow → RefreshFamilyRow) (hf : ∀ r, (f r).key = r.key) : RefreshStore :=
  { s with families := s.families.update p f hf }

def compromiseFamily (tenantId familyId : Uuid) (stamp : Instant) : RefreshStore :=
  s.updateFamilies (fun f => f.key = (tenantId, familyId) && f.reuseDetectedAt.isNone)
    (RefreshFamilyRow.compromise stamp) (RefreshFamilyRow.compromise_key stamp)

/-- Neither revoked nor compromised nor expired. -/
def RefreshFamilyRow.isActive (at_ : Instant) (f : RefreshFamilyRow) : Bool :=
  f.revokedAt.isNone && f.reuseDetectedAt.isNone && decide (f.currentExpiresAt > at_)

/-- `ORDER BY current_issued_at, token_family_id`. -/
def RefreshFamilyRow.olderEq (f g : RefreshFamilyRow) : Prop :=
  f.currentIssuedAt < g.currentIssuedAt
    ∨ (f.currentIssuedAt = g.currentIssuedAt ∧ f.tokenFamilyId ≤ g.tokenFamilyId)

instance : DecidableRel RefreshFamilyRow.olderEq := fun _ _ => inferInstanceAs (Decidable (_ ∨ (_ ∧ _)))

/-- The families that make room for one more in the scope of `token`, oldest first. -/
def capacityVictims (token : NewRefreshToken) (stamp : Instant) : List RefreshFamilyRow :=
  if token.userId.isNone then []
  else
    let ranked := (s.families.rows.filter fun f =>
      f.tenantId = token.tenantId && f.userId = token.userId && f.clientId = token.clientId
        && f.isActive stamp).insertionSort RefreshFamilyRow.olderEq
    ranked.take (ranked.length - (maxActiveRefreshFamiliesPerScope - 1))

/-- Revoke the victims; each is checked again under its own family lock. -/
def retireVictims (victims : List RefreshFamilyRow) (stamp : Instant) : RefreshStore :=
  s.updateFamilies (fun f => (victims.map RefreshFamilyRow.key).contains f.key && f.isActive stamp)
    (RefreshFamilyRow.revoke stamp) (RefreshFamilyRow.revoke_key stamp)

/-- The retired family that is the native-SSO source of the new one. -/
def retiredNativeSsoSource (victims : List RefreshFamilyRow) (nativeSource : Option Uuid) :
    Option RetiredNativeSsoSource :=
  match victims.find? (fun f => some f.tokenFamilyId = nativeSource) with
  | none => none
  | some f => (s.clients.find? (f.tenantId, f.clientId)).map fun client =>
      ⟨f.tenantId, f.userId, f.tokenFamilyId, client.clientId, f.currentExpiresAt⟩

/-- `nazo_oauth_refresh_contract_ensure`: a contract row that exists is kept. -/
def refreshContractEnsure (tenantId : Uuid) (prepared : PreparedRefreshContract) : RefreshStore :=
  match s.contracts.insert? ⟨tenantId, prepared.contractBlake3, prepared.contractValue⟩ with
  | some contracts => { s with contracts := contracts }
  | none => s

/-- `ux_oauth_refresh_families_current_digest`: the digest is current in another family of the
tenant. -/
def digestInUse (tenantId familyId : Uuid) (digest : Digest) : Bool :=
  s.families.rows.any fun f =>
    f.tenantId = tenantId && f.currentTokenBlake3 = digest && f.tokenFamilyId ≠ familyId

/-- The row of a new family. -/
def newFamilyRow (h : Hashes) (token : NewRefreshToken) (prepared : PreparedRefreshContract) :
    RefreshFamilyRow where
  tenantId := token.tenantId
  tokenFamilyId := token.familyId
  clientId := token.clientId
  userId := token.userId
  contractBlake3 := prepared.contractBlake3
  currentMemberId := token.memberId
  currentTokenBlake3 := h.blake3 token.rawToken
  currentAudience := token.audiences
  currentIssuedAt := token.issuedAt
  currentExpiresAt := token.expiresAt
  currentIdTokenSid := token.idTokenSid
  dpopJkt := token.dpopJkt
  mtlsX5tS256 := token.mtlsX5tS256
  clientAttestationJkt := token.clientAttestationJkt
  createdAt := token.issuedAt
  revokedAt := none
  reuseDetectedAt := none

/-- The result of a commit that was not rolled back. -/
abbrev Persisted := RefreshStore × RefreshTokenPersistResult × Option RetiredNativeSsoSource

def createRefreshFamily (h : Hashes) (s : RefreshStore) (token : NewRefreshToken)
    (prepared : PreparedRefreshContract) (nativeSource : Option Uuid) (stamp : Instant) :
    Except RepositoryError Persisted :=
  match s.families.find? (token.tenantId, token.familyId) with
  | some _ => .ok (compromiseFamily s token.tenantId token.familyId stamp, .rotationConflict, none)
  | none =>
    let victims := capacityVictims s token stamp
    let s₁ := refreshContractEnsure (retireVictims s victims stamp) token.tenantId prepared
    if digestInUse s token.tenantId token.familyId (h.blake3 token.rawToken) then
      .error (.unexpected "ux_oauth_refresh_families_current_digest")
    else match s₁.families.insert? (newFamilyRow h token prepared) with
    | none => .error (.unexpected "pk_oauth_refresh_families")
    | some families =>
      .ok ({ s₁ with families := families }, .inserted, retiredNativeSsoSource s victims nativeSource)

/-! ## Rotation -/

/-- The locked comparison of the family with the authority that was read before signing. -/
def sourceMatches (family : RefreshFamilyRow) (contract : RefreshContract)
    (authority : RefreshTokenAuthority) : Bool :=
  family.currentMemberId = authority.memberId
    && family.currentTokenBlake3 = authority.tokenBlake3
    && family.clientId = authority.clientId
    && family.userId = authority.userId
    && family.contractBlake3 = authority.contractKey
    && contract = authority.contract
    && family.currentAudience = authority.currentAudiences
    && family.currentIdTokenSid = authority.idTokenSid
    && family.dpopJkt = authority.dpopJkt
    && family.mtlsX5tS256 = authority.mtlsX5tS256
    && family.clientAttestationJkt = authority.clientAttestationJkt

/-- The retried token is the direct spent predecessor of the current member, within the window. -/
def edgeValid (s : RefreshStore) (token : NewRefreshToken) (rotatedFromId : Uuid)
    (retry : LostResponseRetry) : Bool :=
  match s.spent.find? (token.tenantId, retry.originalBlake3) with
  | none => false
  | some edge =>
    let elapsed := retry.retryStartedAt - edge.spentAt
    edge.successorMemberId = rotatedFromId && decide (elapsed ≥ 0)
      && decide (elapsed ≤ seconds lostRefreshTokenRetrySeconds)

/-- The current generation as a spent proof that names its successor. -/
def spentProof (family : RefreshFamilyRow) (token : NewRefreshToken) (transitionAt : Instant) :
    SpentRefreshTokenRow where
  tenantId := token.tenantId
  refreshTokenBlake3 := family.currentTokenBlake3
  tokenFamilyId := token.familyId
  memberId := family.currentMemberId
  successorMemberId := token.memberId
  spentAt := transitionAt
  expiresAt := family.currentExpiresAt

/-- `ORDER BY spent_at DESC, member_id DESC`. -/
def SpentRefreshTokenRow.newerEq (p q : SpentRefreshTokenRow) : Prop :=
  p.spentAt > q.spentAt ∨ (p.spentAt = q.spentAt ∧ p.memberId ≥ q.memberId)

instance : DecidableRel SpentRefreshTokenRow.newerEq := fun _ _ => inferInstanceAs (Decidable (_ ∨ (_ ∧ _)))

/-- Delete the proofs of a family beyond the newest `limit`. -/
def trimSpentProofs (spent : Table SpentRefreshTokenRow.key) (tenantId familyId : Uuid) :
    Option Nat → Table SpentRefreshTokenRow.key
  | none => spent
  | some limit =>
    let excess := ((spent.rows.filter fun p => p.familyKey = (tenantId, familyId)).insertionSort
      SpentRefreshTokenRow.newerEq).drop limit
    spent.delete fun p => p.familyKey = (tenantId, familyId)
      && (excess.map (·.refreshTokenBlake3)).contains p.refreshTokenBlake3

/-- The family row adopts the successor in place. -/
def RefreshFamilyRow.install (h : Hashes) (token : NewRefreshToken) (f : RefreshFamilyRow) : RefreshFamilyRow :=
  { f with
    currentMemberId := token.memberId
    currentTokenBlake3 := h.blake3 token.rawToken
    currentAudience := token.audiences
    currentIssuedAt := token.issuedAt
    currentExpiresAt := token.expiresAt
    currentIdTokenSid := token.idTokenSid }

@[simp] theorem RefreshFamilyRow.install_key (h : Hashes) (token : NewRefreshToken)
    (f : RefreshFamilyRow) : (f.install h token).key = f.key := rfl

/-- The spent proof is stored, the retention rule applied and the successor installed. -/
def rotateFamily (h : Hashes) (s : RefreshStore) (family : RefreshFamilyRow) (token : NewRefreshToken)
    (clientType : ClientType) (transitionAt : Instant) : Except RepositoryError RefreshStore :=
  match s.spent.insert? (spentProof family token transitionAt) with
  | none => .error (.unexpected "pk_oauth_refresh_spent_tokens")
  | some spent =>
    if digestInUse s token.tenantId token.familyId (h.blake3 token.rawToken) then
      .error (.unexpected "ux_oauth_refresh_families_current_digest")
    else .ok { s with
      spent := trimSpentProofs spent token.tenantId token.familyId
        (refreshSpentProofLimit clientType family.dpopJkt family.mtlsX5tS256)
      families := s.families.update (fun f => f.key = (token.tenantId, token.familyId))
        (RefreshFamilyRow.install h token) (RefreshFamilyRow.install_key h token) }

/-- The commit of an existing source, with the family row loaded under its lock. -/
def persistExisting (h : Hashes) (s : RefreshStore) (authority : RefreshTokenAuthority)
    (rotation : Option NewRefreshToken) (clientType : ClientType) (stamp transitionAt : Instant) :
    Except RepositoryError Persisted :=
  match s.families.find? (authority.tenantId, authority.familyId) with
  | none => .ok (s, .invalidSource, none)
  | some family =>
    if family.revokedAt.isSome || family.reuseDetectedAt.isSome || family.currentExpiresAt ≤ transitionAt then
      .ok (s, .invalidSource, none)
    else match s.contracts.find? (family.tenantId, family.contractBlake3) with
    | none => .error (.consistency "refresh family references a missing contract")
    | some contract =>
      if sourceMatches family contract.contract authority then
        match rotation with
        | none => .ok (s, .inserted, none)
        | some token =>
          if token.lostResponseRetry.all (edgeValid s token authority.memberId) then
            match rotateFamily h s family token clientType transitionAt with
            | .error e => .error e
            | .ok s' => .ok (s', .inserted, none)
          else .ok (compromiseFamily s token.tenantId token.familyId stamp, .rotationConflict, none)
      else if rotation.isSome then
        .ok (compromiseFamily s authority.tenantId authority.familyId stamp, .rotationConflict, none)
      else .ok (s, .invalidSource, none)

def persistRefreshTokenInner (h : Hashes) (s : RefreshStore) (refresh : RefreshTokenCommit)
    (clientType : ClientType) (preparedContract : Option PreparedRefreshContract)
    (nativeSsoSource : Option Uuid) (stamp transitionAt : Instant) : Except RepositoryError Persisted :=
  match refresh with
  | .issueNew token _ =>
    match preparedContract with
    | none => .error (.consistency "new refresh family has no prepared contract")
    | some prepared => createRefreshFamily h s token prepared nativeSsoSource stamp
  | .useExisting authority rotation => persistExisting h s authority rotation clientType stamp transitionAt

/-- The refresh part of `commit_token_issuance`: validate, lock the client, persist. -/
def commitRefreshToken (h : Hashes) (s : RefreshStore) (refresh : RefreshTokenCommit)
    (nativeSsoSource : Option Uuid) (stamp transitionAt : Instant) : Except RepositoryError Persisted :=
  match prepareRefreshContract h refresh with
  | .error e => .error e
  | .ok prepared =>
    match s.clients.find? refresh.clientKey with
    | none => .error (.consistency "client inactive")
    | some client => persistRefreshTokenInner h s refresh client.clientType prepared nativeSsoSource stamp
      transitionAt

end NazoAuth.Refresh
