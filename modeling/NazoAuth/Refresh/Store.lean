import Mathlib.Data.List.Sort
import NazoAuth.Basic
import NazoAuth.Lib.Json
import NazoAuth.Lib.Table

/-!
# Refresh families — rows and commit values

The rows of `oauth_refresh_families`, `oauth_refresh_spent_tokens`, `oauth_refresh_contracts` and
the part of `oauth_clients` that a refresh commit locks, and the values the token endpoint hands to
the durable commit.
-/

namespace NazoAuth.Refresh

open Lib

/-- `client_type`; the column admits only these two values. -/
inductive ClientType where
  | publicClient
  | confidential
  deriving DecidableEq

/-- Authentication facts of the original grant. -/
structure RefreshTokenAuthenticationContext where
  version : Nat
  issuer : String
  audience : String
  authTime : Int
  amr : List String
  oidcSid : Option String
  acr : Option String
  userinfoClaimRequests : Json
  idTokenClaimRequests : Json
  deriving DecidableEq

/-- Version 2 encodes each authorized claim exactly once; version 1 is read-only legacy. -/
def currentVersion : Nat := 2

def RefreshTokenAuthenticationContext.isSupportedVersion (c : RefreshTokenAuthenticationContext) : Bool :=
  c.version == 1 || c.version == currentVersion

def RefreshTokenAuthenticationContext.isWellFormed (c : RefreshTokenAuthenticationContext) : Bool :=
  c.isSupportedVersion
    && !isBlank c.issuer
    && !isBlank c.audience
    && decide (c.authTime > 0)
    && !c.amr.isEmpty
    && c.amr.all (fun method => !isBlank method)
    && c.oidcSid.all (fun sid => !isBlank sid)
    && c.acr.all (fun acr => !isBlank acr)

/-- The immutable authorization contract shared by every generation. -/
structure RefreshContract where
  subject : String
  scopes : List String
  audiences : List String
  authorizationDetails : Json
  authenticationContext : RefreshTokenAuthenticationContext
  deriving DecidableEq

/-- A row of `oauth_refresh_families`. -/
structure RefreshFamilyRow where
  tenantId : Uuid
  tokenFamilyId : Uuid
  clientId : Uuid
  userId : Option Uuid
  contractBlake3 : Digest
  currentMemberId : Uuid
  currentTokenBlake3 : Digest
  currentAudience : List String
  currentIssuedAt : Instant
  currentExpiresAt : Instant
  currentIdTokenSid : Option String
  dpopJkt : Option String
  mtlsX5tS256 : Option String
  clientAttestationJkt : Option String
  createdAt : Instant
  revokedAt : Option Instant
  reuseDetectedAt : Option Instant
  deriving DecidableEq

/-- The primary key of a family. -/
def RefreshFamilyRow.key (f : RefreshFamilyRow) : Uuid × Uuid := (f.tenantId, f.tokenFamilyId)

/-- A row of `oauth_refresh_spent_tokens`. -/
structure SpentRefreshTokenRow where
  tenantId : Uuid
  refreshTokenBlake3 : Digest
  tokenFamilyId : Uuid
  memberId : Uuid
  successorMemberId : Uuid
  spentAt : Instant
  expiresAt : Instant
  deriving DecidableEq

/-- The primary key of a spent proof. -/
def SpentRefreshTokenRow.key (p : SpentRefreshTokenRow) : Uuid × Digest := (p.tenantId, p.refreshTokenBlake3)

/-- The family a spent proof belongs to. -/
def SpentRefreshTokenRow.familyKey (p : SpentRefreshTokenRow) : Uuid × Uuid := (p.tenantId, p.tokenFamilyId)

/-- A row of `oauth_refresh_contracts`, with the stored document decoded. -/
structure RefreshContractRow where
  tenantId : Uuid
  contractBlake3 : Digest
  contract : RefreshContract

def RefreshContractRow.key (c : RefreshContractRow) : Uuid × Digest := (c.tenantId, c.contractBlake3)

/-- The columns of `oauth_clients` that the commit locks. -/
structure LockedClientRow where
  tenantId : Uuid
  id : Uuid
  clientId : String
  clientType : ClientType
  deriving DecidableEq

def LockedClientRow.key (c : LockedClientRow) : Uuid × Uuid := (c.tenantId, c.id)

/-- The tables a refresh commit reads and writes. -/
structure RefreshStore where
  families : Table RefreshFamilyRow.key
  spent : Table SpentRefreshTokenRow.key
  contracts : Table RefreshContractRow.key
  clients : Table LockedClientRow.key

/-- A database without refresh families. -/
def RefreshStore.empty : RefreshStore := ⟨Table.empty, Table.empty, Table.empty, Table.empty⟩

/-- Source facts read before signing and compared again under the family lock. -/
structure RefreshTokenAuthority where
  tenantId : Uuid
  clientId : Uuid
  userId : Option Uuid
  familyId : Uuid
  memberId : Uuid
  tokenBlake3 : Digest
  contractKey : Digest
  contract : RefreshContract
  currentAudiences : List String
  idTokenSid : Option String
  dpopJkt : Option String
  mtlsX5tS256 : Option String
  clientAttestationJkt : Option String
  deriving DecidableEq

/-- The spent token that a lost-response retry presented. -/
structure LostResponseRetry where
  originalId : Uuid
  originalBlake3 : Digest
  retryStartedAt : Instant
  deriving DecidableEq

/-- A generation about to be installed. -/
structure NewRefreshToken where
  rawToken : String
  memberId : Uuid
  tenantId : Uuid
  familyId : Uuid
  rotatedFromId : Option Uuid
  lostResponseRetry : Option LostResponseRetry
  clientId : Uuid
  userId : Option Uuid
  audiences : List String
  issuedAt : Instant
  expiresAt : Instant
  idTokenSid : Option String
  dpopJkt : Option String
  mtlsX5tS256 : Option String
  clientAttestationJkt : Option String
  deriving DecidableEq

/-- What the token endpoint asks the durable commit to do. -/
inductive RefreshTokenCommit where
  | issueNew (token : NewRefreshToken) (contract : RefreshContract)
  | useExisting (authority : RefreshTokenAuthority) (rotation : Option NewRefreshToken)
  deriving DecidableEq

def RefreshTokenCommit.token : RefreshTokenCommit → Option NewRefreshToken
  | .issueNew token _ => some token
  | .useExisting _ rotation => rotation

def RefreshTokenCommit.contract : RefreshTokenCommit → RefreshContract
  | .issueNew _ contract => contract
  | .useExisting authority _ => authority.contract

/-- The client whose row the commit locks. -/
def RefreshTokenCommit.clientKey : RefreshTokenCommit → Uuid × Uuid
  | .issueNew token _ => (token.tenantId, token.clientId)
  | .useExisting authority _ => (authority.tenantId, authority.clientId)

/-- The family the commit creates or uses as its source. -/
def RefreshTokenCommit.familyKey : RefreshTokenCommit → Uuid × Uuid
  | .issueNew token _ => (token.tenantId, token.familyId)
  | .useExisting authority _ => (authority.tenantId, authority.familyId)

inductive RefreshTokenPersistResult where
  | inserted
  | invalidSource
  | rotationConflict
  deriving DecidableEq

/-- Errors of the repository; a transaction that ends in one of them is rolled back. -/
inductive RepositoryError where
  | consistency (text : String)
  | unexpected (text : String)
  deriving DecidableEq

/-- Facts of a native-SSO source family that its own successor retired. -/
structure RetiredNativeSsoSource where
  tenantId : Uuid
  userId : Option Uuid
  tokenFamilyId : Uuid
  sourceClientId : String
  expiresAt : Instant

end NazoAuth.Refresh
