import Mathlib.Data.Finset.Insert
import NazoAuth.Basic
import NazoAuth.Lib.Base64
import NazoAuth.Lib.Except
import NazoAuth.Lib.Json

/-!
# Digital credentials — verified credentials and DCQL queries

A verifier states what it wants to see as a DCQL query: credential queries, each with a format, a
type, authorities and claims, and sets that say which of the queries must be answered.
-/

namespace NazoAuth.DigitalCredentials

open Lib

inductive CredentialFormat where
  | sdJwtVc
  | msoMdoc
  deriving DecidableEq

inductive CredentialTrustError where
  | invalidSignature
  | untrustedIssuer
  | invalidValidity
  | invalidStatus
  | invalidHolderBinding
  | invalidNonce
  | invalidSessionBinding
  | invalidEncoding
  | unavailable
  | revokedCertificate
  | revocationSnapshotStale
  | revocationStatusUnknown
  | revocationSnapshotUnavailable
  deriving DecidableEq

/-- A credential as it is handed to its verifier. -/
structure PresentedCredential where
  format : CredentialFormat
  encoded : String
  expectedNonce : String
  expectedAudience : String
  mdocSessionTranscript : Option (List UInt8)
  additionalTrustAnchors : List (List UInt8)

structure VerifiedCredential where
  format : CredentialFormat
  issuer : String
  issuerChainAuthorityKeyIdentifiers : List (List UInt8)
  credentialType : String
  claims : Json
  holderKey : Option Json
  issuedAt : Option Instant
  expiresAt : Option Instant
  status : Option Json

def VerifiedCredential.hasIssuerAuthorityKeyIdentifier (credential : VerifiedCredential)
    (encoded : String) : Bool :=
  (decode64? encoded.toList).any fun identifier =>
    credential.issuerChainAuthorityKeyIdentifiers.contains identifier

/-! ## Queries -/

inductive ClaimPathSegment where
  | name (name : String)
  | index (index : Nat)
  | wildcard
  deriving DecidableEq

abbrev ClaimPath := List ClaimPathSegment

structure ClaimsQuery where
  path : ClaimPath
  values : Option (List Json)
  id : Option String
  deriving DecidableEq

structure TrustedAuthority where
  authorityType : String
  values : List String
  deriving DecidableEq

structure CredentialQuery where
  id : String
  format : CredentialFormat
  multiple : Bool
  metadata : Option Json
  claims : Option (List ClaimsQuery)
  claimSets : Option (List (List String))
  trustedAuthorities : Option (List TrustedAuthority)
  requireCryptographicHolderBinding : Option Bool
  deriving DecidableEq

structure CredentialSetOption where
  options : List (List String)
  required : Bool

structure DcqlQuery where
  credentials : List CredentialQuery
  credentialSets : Option (List CredentialSetOption)

inductive DcqlError where
  | missingCredentials
  | invalidCredentialId
  | emptySelection
  | emptyClaimPath
  | invalidClaimPath
  | invalidClaimValues
  | invalidClaimId
  | invalidClaimSet
  | invalidCredentialSet
  | invalidMetadata

/-! ## Validation -/

def validIdentifier (id : String) : Bool := id ≠ "" && id.toList.all fun c => c.isAlphanum || c = '_' || c = '-'

def ClaimPathSegment.isName : ClaimPathSegment → Bool
  | .name _ => true
  | _ => false

/-- Strings, booleans and integers. -/
def isClaimValue : Json → Bool
  | .str _ | .bool _ => true
  | v => (v.int? (-2 ^ 63) (2 ^ 64)).isSome

/-- One claim of a credential query; its identifier joins those of the claims before. -/
def validateClaim (credential : CredentialQuery) (claimIds : Finset String) (claim : ClaimsQuery) :
    Except DcqlError (Finset String) :=
  if claim.path = [] then .error .emptyClaimPath
  else if credential.format = .msoMdoc && (claim.path.length ≠ 2 || !claim.path.all ClaimPathSegment.isName) then
    .error .invalidClaimPath
  else if claim.values.any fun values => values = [] || values.any fun v =>
    !isClaimValue v then .error .invalidClaimValues
  else if credential.claimSets.isSome && claim.id.isNone then .error .invalidClaimId
  else match claim.id with
    | none => .ok claimIds
    | some id => if !validIdentifier id || id ∈ claimIds then .error .invalidClaimId else .ok (insert id claimIds)

/-- A type constraint: an array of names. -/
def isTypeList : Option Json → Bool
  | some (.arr values) => values ≠ [] && values.all fun v => v.str?.any (· ≠ "")
  | _ => false

/-- A type constraint: a name. -/
def isTypeName : Option Json → Bool
  | some (.str name) => name ≠ ""
  | _ => false

def validateMetadata (credential : CredentialQuery) : Except DcqlError Unit :=
  match credential.metadata with
  | some (.obj members) =>
    match credential.format with
    | .sdJwtVc => if isTypeList ((Json.obj members).get? "vct_values") then .ok () else .error .invalidMetadata
    | .msoMdoc => if isTypeName ((Json.obj members).get? "doctype_value") then .ok () else .error .invalidMetadata
  | _ => .error .invalidMetadata

/-- One credential query; its identifier joins those of the queries before. -/
def validateCredential (ids : Finset String) (credential : CredentialQuery) : Except DcqlError (Finset String) :=
  if !validIdentifier credential.id || credential.id ∈ ids then .error .invalidCredentialId
  else if credential.claims.any List.isEmpty || credential.claimSets.any List.isEmpty then .error .emptySelection
  else do
    let claimIds ← (credential.claims.getD []).foldlM (validateClaim credential) ∅
    if credential.claimSets.any fun sets => sets.any fun set => set = [] || set.any fun id =>
        id = "" || id ∉ claimIds then
      .error .invalidClaimSet
    else do
      validateMetadata credential
      .ok (insert credential.id ids)

def DcqlQuery.validate (q : DcqlQuery) : Except DcqlError Unit :=
  if q.credentials = [] then .error .missingCredentials
  else if q.credentialSets.any List.isEmpty then .error .invalidCredentialSet
  else do
    let ids ← q.credentials.foldlM validateCredential ∅
    if q.credentialSets.any fun sets => sets.any fun set =>
        set.options = [] || set.options.any List.isEmpty || set.options.flatten.any fun id => id ∉ ids then
      .error .invalidCredentialSet
    else .ok ()

/-! ## What validation gives -/

/-- The types that a query allows. -/
def CredentialQuery.Allows (q : CredentialQuery) (credentialType : String) : Prop :=
  match q.format with
  | .sdJwtVc => ∃ values, q.metadata.bind (·.get? "vct_values") = some (.arr values) ∧ .str credentialType ∈ values
  | .msoMdoc => q.metadata.bind (·.get? "doctype_value") = some (.str credentialType)

/-- The query has a constraint on the type. -/
def CredentialQuery.Typed (q : CredentialQuery) : Prop :=
  match q.format with
  | .sdJwtVc => ∃ values, q.metadata.bind (·.get? "vct_values") = some (.arr values)
  | .msoMdoc => ∃ name, q.metadata.bind (·.get? "doctype_value") = some (.str name)

structure DcqlQuery.Valid (q : DcqlQuery) : Prop where
  nodup : (q.credentials.map (·.id)).Nodup
  typed : ∀ c ∈ q.credentials, c.Typed

theorem typed_of_validateMetadata {c : CredentialQuery} (h : validateMetadata c = .ok ()) : c.Typed := by
  unfold validateMetadata at h
  split at h
  · rename_i members hmetadata
    cases hformat : c.format with
    | sdJwtVc =>
      simp only [hformat] at h
      split_ifs at h with hlist
      unfold isTypeList at hlist
      split at hlist
      · rename_i values hvalues
        simp only [CredentialQuery.Typed, hformat, hmetadata]
        exact ⟨values, hvalues⟩
      · cases hlist
    | msoMdoc =>
      simp only [hformat] at h
      split_ifs at h with hname
      unfold isTypeName at hname
      split at hname
      · rename_i name hvalue
        simp only [CredentialQuery.Typed, hformat, hmetadata]
        exact ⟨name, hvalue⟩
      · cases hname
  · cases h

theorem validateCredential_spec {ids ids' : Finset String} {c : CredentialQuery}
    (h : validateCredential ids c = .ok ids') : c.id ∉ ids ∧ c.Typed ∧ ids' = insert c.id ids := by
  unfold validateCredential at h
  split_ifs at h with hid hempty
  obtain ⟨claimIds, -, h⟩ := of_bind h
  split_ifs at h
  obtain ⟨⟨⟩, hmetadata, h⟩ := of_bind h
  refine ⟨fun hmem => hid (by simp [hmem]), typed_of_validateMetadata hmetadata, (Except.ok.inj h).symm⟩

theorem validateCredentials_spec {credentials : List CredentialQuery} :
    ∀ {ids ids' : Finset String}, credentials.foldlM validateCredential ids = .ok ids' →
      (credentials.map (·.id)).Nodup ∧ (∀ c ∈ credentials, c.id ∉ ids ∧ c.Typed) := by
  induction credentials with
  | nil => exact fun _ => ⟨List.nodup_nil, by simp⟩
  | cons c rest ih =>
    intro ids ids' h
    obtain ⟨ids₁, hc, hrest⟩ := of_bind h
    obtain ⟨hnew, htyped, rfl⟩ := validateCredential_spec hc
    obtain ⟨hnodup, hothers⟩ := ih hrest
    refine ⟨List.nodup_cons.mpr ⟨fun hmem => ?_, hnodup⟩, fun c' hc' => ?_⟩
    · obtain ⟨c', hc', heq⟩ := List.mem_map.mp hmem
      exact (hothers c' hc').1 (Finset.mem_insert.mpr (.inl heq))
    · rcases List.mem_cons.mp hc' with rfl | hc'
      · exact ⟨hnew, htyped⟩
      · exact ⟨fun hmem => (hothers c' hc').1 (Finset.mem_insert_of_mem hmem), (hothers c' hc').2⟩

theorem valid_of_validate {q : DcqlQuery} (h : q.validate = .ok ()) : q.Valid := by
  unfold DcqlQuery.validate at h
  split_ifs at h
  obtain ⟨ids, hcredentials, -⟩ := of_bind h
  obtain ⟨hnodup, hall⟩ := validateCredentials_spec hcredentials
  exact ⟨hnodup, fun c hc => (hall c hc).2⟩

end NazoAuth.DigitalCredentials
