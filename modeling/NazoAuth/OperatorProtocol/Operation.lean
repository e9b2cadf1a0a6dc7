import NazoAuth.Lib.Except
import NazoAuth.Lib.JsonText
import NazoAuth.Operator.Protocol

/-!
# Operator protocol — control operations

One envelope for each operation of the control plane, with a closed set of payloads. The payload is
written as an object with the name of the operation and its fields, and read member by member: what
is left over is refused.
-/

namespace NazoAuth.OperatorProtocol

open Lib Operator

/-! ## Types -/

inductive TenantResourceKind where
  | oauthClient
  | mtlsTrustAnchor
  | openid4vcDataset
  | openid4vcTrustPolicy
  | user
  deriving DecidableEq

structure TenantResourceIdentity where
  kind : TenantResourceKind
  resourceId : String
  digest : String

structure TenantResourceSelector where
  kind : TenantResourceKind
  resourceId : String

structure ControlTenantBoundary where
  id : String
  slug : String
  displayName : String

inductive ControlOperationPayload where
  | migrateApply
  | keysList
  | keysValidate
  | keysGenerateLocal (alg : String) (purposes : List String)
  | tenantKeysGenerateLocal (tenantId alg : String) (purposes : List String)
  | keysRegisterExternal (kid alg keyRef publicJwkSha256 : String)
  | tenantResourceApply (tenantId : String) (resources : List TenantResourceIdentity)
  | tenantResourceEnumerate (tenantId : String) (selectors : List TenantResourceSelector)
  | tenantResourceRevoke (tenantId : String) (resources : List TenantResourceIdentity)
  | recoveryInvalidate (stateEpoch : String)
  | tenantDirectoryCreate (expectedRevision : UInt64)
      (tenant realm organization : ControlTenantBoundary) (issuer externalHost : String)
  | tenantDirectoryUpdate (expectedRevision : UInt64) (tenantId issuer externalHost : String)
  | tenantDirectoryDisable (expectedRevision : UInt64) (tenantId : String)
  | tenantDirectoryReload (expectedRevision : UInt64) (tenantId : String)
  | tenantDirectoryFinalize (expectedRevision : UInt64) (tenantId : String)
  | tenantDirectoryDescribe

structure ControlOperation where
  schema : UInt32
  operationId : String
  kid : String
  deploymentId : String
  configRevision : String
  operation : ControlOperationPayload

def controlOperationSchema : UInt32 := 3

def maxTenantResourceIdentities : Nat := 256

/-! ## Validation -/

/-- A text that is not empty, has at most `limit` bytes and no white space around it. -/
def validateBounded (limit : Nat) (message value : String) : Except ProtocolError Unit :=
  if value.isEmpty || limit < value.utf8ByteSize || value ≠ trim value then .error (.policy message) else .ok ()

def validateTenantIssuer : String → Except ProtocolError Unit :=
  validateBounded 2048 "tenant issuer is out of bounds"

def validateTenantHost (externalHost : String) : Except ProtocolError Unit :=
  if externalHost.isEmpty || 255 < externalHost.utf8ByteSize || externalHost.toList.any Char.isUpper
      || externalHost ≠ trim externalHost then
    .error (.policy "tenant external host must be a bounded lowercase host")
  else .ok ()

def validateTenantSlug : String → Except ProtocolError Unit := validateBounded 120 "tenant slug is out of bounds"

def validateTenantDisplayName : String → Except ProtocolError Unit :=
  validateBounded 200 "tenant display name is out of bounds"

/-- A loop that checks each element and then that its key has not come before. -/
def validateDistinct {α κ : Type} [DecidableEq κ] (check : α → Except ProtocolError Unit)
    (key : α → κ) (message : String) : List κ → List α → Except ProtocolError Unit
  | _, [] => .ok ()
  | seen, a :: rest => do
    check a
    if key a ∈ seen then .error (.policy message)
    validateDistinct check key message (key a :: seen) rest

def validateTenantResourceSet (resources : List TenantResourceIdentity) : Except ProtocolError Unit := do
  if resources.isEmpty || maxTenantResourceIdentities < resources.length then
    .error (.policy "tenant resource identities are out of bounds")
  validateDistinct (fun r => do validateFileIdentifier r.resourceId; validateLowerHex r.digest 64)
    (fun r => (r.kind, r.resourceId)) "tenant resource identities must be unique" [] resources

def validateGenerateLocalFields (alg : String) (purposes : List String) : Except ProtocolError Unit := do
  validateIdentifier alg
  if purposes.isEmpty || 8 < purposes.length then .error (.policy "invalid signing purposes")
  purposes.forM validateIdentifier

def validateRecoveryStateEpoch (value : String) : Except ProtocolError Unit :=
  (validateUuidv7 value).mapError fun _ => .policy "recovery state epoch must be a canonical non-nil UUIDv7"

/-- The second text is inside the first one. -/
def hasText (s part : String) : Bool := s.toList.tails.any part.toList.isPrefixOf

def validateControlPayload : ControlOperationPayload → Except ProtocolError Unit
  | .migrateApply | .keysList | .keysValidate | .tenantDirectoryDescribe => .ok ()
  | .keysGenerateLocal alg purposes => validateGenerateLocalFields alg purposes
  | .tenantKeysGenerateLocal tenantId alg purposes => do
    validateUuid tenantId
    validateGenerateLocalFields alg purposes
    if alg ≠ "ES256" || purposes.length ≠ 2 || !purposes.contains "credential"
        || !purposes.contains "presentation_request" then
      .error (.policy "tenant key generation requires the OpenID4VC signing profile")
  | .keysRegisterExternal kid alg keyRef publicJwkSha256 => do
    validateFileIdentifier kid
    validateIdentifier alg
    validateLowerHex publicJwkSha256 64
    if keyRef.isEmpty || 512 < keyRef.utf8ByteSize || ["//", "@", "?", "#", "="].any (hasText keyRef)
        || !keyRef.toList.all (fun c => c.isAlphanum || ".:_/-+".toList.contains c) then
      .error (.policy "external key reference must be a non-secret provider locator")
  | .tenantResourceApply tenantId resources | .tenantResourceRevoke tenantId resources => do
    validateUuid tenantId
    validateTenantResourceSet resources
  | .tenantResourceEnumerate tenantId selectors => do
    validateUuid tenantId
    if maxTenantResourceIdentities < selectors.length
      then .error (.policy "tenant resource selectors are out of bounds")
    validateDistinct (fun s => validateFileIdentifier s.resourceId) (fun s => (s.kind, s.resourceId))
      "tenant resource selectors must be unique" [] selectors
  | .recoveryInvalidate stateEpoch => validateRecoveryStateEpoch stateEpoch
  | .tenantDirectoryCreate _ tenant realm organization issuer externalHost => do
    validateDistinct
      (fun b => do validateUuid b.id; validateTenantSlug b.slug; validateTenantDisplayName b.displayName)
      ControlTenantBoundary.id "tenant directory boundaries must reference distinct ids" []
      [tenant, realm, organization]
    validateTenantIssuer issuer
    validateTenantHost externalHost
  | .tenantDirectoryUpdate _ tenantId issuer externalHost => do
    validateUuid tenantId
    validateTenantIssuer issuer
    validateTenantHost externalHost
  | .tenantDirectoryDisable _ tenantId | .tenantDirectoryReload _ tenantId | .tenantDirectoryFinalize _ tenantId =>
    validateUuid tenantId

def controllerKidLength : Nat := 43

def validateControllerKid (kid : String) : Except ProtocolError Unit :=
  if kid.utf8ByteSize ≠ controllerKidLength || !kid.toList.all (fun c => c.isAlphanum || c = '-' || c = '_') then
    .error (.policy "controller kid must be unpadded base64url SHA-256 of the public key")
  else .ok ()

def validateControlOperation (operation : ControlOperation) : Except ProtocolError Unit := do
  if operation.schema ≠ controlOperationSchema then .error (.policy "unsupported control operation schema")
  validateUuidv7 operation.operationId
  validateControllerKid operation.kid
  validateFileIdentifier operation.deploymentId
  validateIdentifier operation.configRevision
  validateControlPayload operation.operation

/-! ## Writing -/

def TenantResourceKind.label : TenantResourceKind → String
  | .oauthClient => "oauth-client"
  | .mtlsTrustAnchor => "mtls-trust-anchor"
  | .openid4vcDataset => "openid4vc-dataset"
  | .openid4vcTrustPolicy => "openid4vc-trust-policy"
  | .user => "user"

def TenantResourceIdentity.serialize (r : TenantResourceIdentity) : Json :=
  .obj [("kind", .str r.kind.label), ("resource_id", .str r.resourceId), ("digest", .str r.digest)]

def TenantResourceSelector.serialize (s : TenantResourceSelector) : Json :=
  .obj [("kind", .str s.kind.label), ("resource_id", .str s.resourceId)]

def ControlTenantBoundary.serialize (b : ControlTenantBoundary) : Json :=
  .obj [("id", .str b.id), ("slug", .str b.slug), ("display_name", .str b.displayName)]

namespace ControlOperationPayload

def name : ControlOperationPayload → String
  | migrateApply => "migrate-apply"
  | keysList => "keys-list"
  | keysValidate => "keys-validate"
  | keysGenerateLocal .. => "keys-generate-local"
  | tenantKeysGenerateLocal .. => "tenant-keys-generate-local"
  | keysRegisterExternal .. => "keys-register-external"
  | tenantResourceApply .. => "tenant-resource-apply"
  | tenantResourceEnumerate .. => "tenant-resource-enumerate"
  | tenantResourceRevoke .. => "tenant-resource-revoke"
  | recoveryInvalidate .. => "recovery-invalidate"
  | tenantDirectoryCreate .. => "tenant-directory-create"
  | tenantDirectoryUpdate .. => "tenant-directory-update"
  | tenantDirectoryDisable .. => "tenant-directory-disable"
  | tenantDirectoryReload .. => "tenant-directory-reload"
  | tenantDirectoryFinalize .. => "tenant-directory-finalize"
  | tenantDirectoryDescribe => "tenant-directory-describe"

def fields : ControlOperationPayload → List (String × Json)
  | migrateApply | keysList | keysValidate | tenantDirectoryDescribe => []
  | keysGenerateLocal alg purposes => [("alg", .str alg), ("purposes", .arr (purposes.map .str))]
  | tenantKeysGenerateLocal tenantId alg purposes =>
    [("tenant_id", .str tenantId), ("alg", .str alg), ("purposes", .arr (purposes.map .str))]
  | keysRegisterExternal kid alg keyRef publicJwkSha256 =>
    [("kid", .str kid), ("alg", .str alg), ("key_ref", .str keyRef), ("public_jwk_sha256", .str publicJwkSha256)]
  | tenantResourceApply tenantId resources | tenantResourceRevoke tenantId resources =>
    [("tenant_id", .str tenantId), ("resources", .arr (resources.map TenantResourceIdentity.serialize))]
  | tenantResourceEnumerate tenantId selectors =>
    [("tenant_id", .str tenantId), ("selectors", .arr (selectors.map TenantResourceSelector.serialize))]
  | recoveryInvalidate stateEpoch => [("state_epoch", .str stateEpoch)]
  | tenantDirectoryCreate expectedRevision tenant realm organization issuer externalHost =>
    [("expected_revision", .num expectedRevision.toNat), ("tenant", tenant.serialize), ("realm", realm.serialize),
      ("organization", organization.serialize), ("issuer", .str issuer), ("external_host", .str externalHost)]
  | tenantDirectoryUpdate expectedRevision tenantId issuer externalHost =>
    [("expected_revision", .num expectedRevision.toNat), ("tenant_id", .str tenantId), ("issuer", .str issuer),
      ("external_host", .str externalHost)]
  | tenantDirectoryDisable expectedRevision tenantId | tenantDirectoryReload expectedRevision tenantId
  | tenantDirectoryFinalize expectedRevision tenantId =>
    [("expected_revision", .num expectedRevision.toNat), ("tenant_id", .str tenantId)]

/-- The name is a member beside the fields. -/
def serialize (payload : ControlOperationPayload) : Json := .obj (("name", .str payload.name) :: payload.fields)

end ControlOperationPayload

def ControlOperation.serialize (operation : ControlOperation) : Json :=
  .obj [("schema", .num operation.schema.toNat), ("operation_id", .str operation.operationId),
    ("kid", .str operation.kid),
    ("deployment_id", .str operation.deploymentId), ("config_revision", .str operation.configRevision),
    ("operation", operation.operation.serialize)]

/-! ## Reading -/

def u32? (v : Json) : Option UInt32 := (v.nat? (2 ^ 32)).map UInt32.ofNat

def u64? (v : Json) : Option UInt64 := (v.nat? (2 ^ 64)).map UInt64.ofNat

def TenantResourceKind.named (label : String) : Option TenantResourceKind :=
  [oauthClient, mtlsTrustAnchor, openid4vcDataset, openid4vcTrustPolicy, user].find? fun kind => kind.label = label

/-- The label of a variant, or an object with the label and nothing. -/
def TenantResourceKind.deserialize : Json → Option TenantResourceKind
  | .str label => named label
  | .obj [(label, .null)] => named label
  | _ => none

def TenantResourceIdentity.deserialize (v : Json) : Option TenantResourceIdentity :=
  match v.fields? ["kind", "resource_id", "digest"] with
  | some [kind, resourceId, digest] => do
    some ⟨← TenantResourceKind.deserialize kind, ← resourceId.str?, ← digest.str?⟩
  | _ => none

def TenantResourceSelector.deserialize (v : Json) : Option TenantResourceSelector :=
  match v.fields? ["kind", "resource_id"] with
  | some [kind, resourceId] => do some ⟨← TenantResourceKind.deserialize kind, ← resourceId.str?⟩
  | _ => none

def ControlTenantBoundary.deserialize (v : Json) : Option ControlTenantBoundary :=
  match v.fields? ["id", "slug", "display_name"] with
  | some [id, slug, displayName] => do some ⟨← id.str?, ← slug.str?, ← displayName.str?⟩
  | _ => none

/-- Members are taken out of the map one by one. -/
abbrev Members := StateT (List (String × Json)) Option

def takeMember {α : Type} (read : Json → Option α) (key : String) : Members α := fun members => do
  let m ← members.find? fun m => m.1 = key
  let value ← read m.2
  some (value, members.filter fun m => m.1 ≠ key)

namespace ControlOperationPayload

/-- The fields of the operation with a name. -/
def takeFields (name : String) : Members ControlOperationPayload := do
  if name = "migrate-apply" then pure migrateApply
  else if name = "keys-list" then pure keysList
  else if name = "keys-validate" then pure keysValidate
  else if name = "keys-generate-local" then
    pure (keysGenerateLocal (← takeMember Json.str? "alg") (← takeMember Json.strings? "purposes"))
  else if name = "tenant-keys-generate-local" then
    pure (tenantKeysGenerateLocal (← takeMember Json.str? "tenant_id") (← takeMember Json.str? "alg")
      (← takeMember Json.strings? "purposes"))
  else if name = "keys-register-external" then
    pure (keysRegisterExternal (← takeMember Json.str? "kid") (← takeMember Json.str? "alg")
      (← takeMember Json.str? "key_ref") (← takeMember Json.str? "public_jwk_sha256"))
  else if name = "tenant-resource-apply" || name = "tenant-resource-revoke" then
    let tenantId ← takeMember Json.str? "tenant_id"
    let resources ← takeMember (Json.list? TenantResourceIdentity.deserialize) "resources"
    pure (if name = "tenant-resource-apply" then tenantResourceApply tenantId resources
      else tenantResourceRevoke tenantId resources)
  else if name = "tenant-resource-enumerate" then
    pure (tenantResourceEnumerate (← takeMember Json.str? "tenant_id")
      (← takeMember (Json.list? TenantResourceSelector.deserialize) "selectors"))
  else if name = "recovery-invalidate" then pure (recoveryInvalidate (← takeMember Json.str? "state_epoch"))
  else if name = "tenant-directory-create" then
    pure (tenantDirectoryCreate (← takeMember u64? "expected_revision")
      (← takeMember ControlTenantBoundary.deserialize "tenant")
      (← takeMember ControlTenantBoundary.deserialize "realm")
      (← takeMember ControlTenantBoundary.deserialize "organization") (← takeMember Json.str? "issuer")
      (← takeMember Json.str? "external_host"))
  else if name = "tenant-directory-update" then
    pure (tenantDirectoryUpdate (← takeMember u64? "expected_revision") (← takeMember Json.str? "tenant_id")
      (← takeMember Json.str? "issuer") (← takeMember Json.str? "external_host"))
  else if name = "tenant-directory-disable" then
    pure (tenantDirectoryDisable (← takeMember u64? "expected_revision") (← takeMember Json.str? "tenant_id"))
  else if name = "tenant-directory-reload" then
    pure (tenantDirectoryReload (← takeMember u64? "expected_revision") (← takeMember Json.str? "tenant_id"))
  else if name = "tenant-directory-finalize" then
    pure (tenantDirectoryFinalize (← takeMember u64? "expected_revision") (← takeMember Json.str? "tenant_id"))
  else if name = "tenant-directory-describe" then pure tenantDirectoryDescribe
  else failure

/-- The payload is first read as a value; no member is left over. -/
def deserialize (v : Json) : Option ControlOperationPayload :=
  match v.value with
  | .obj members => do
    let (payload, rest) ← (takeMember Json.str? "name" >>= takeFields).run members
    if rest.isEmpty then some payload else none
  | _ => none

end ControlOperationPayload

def ControlOperation.deserialize (v : Json) : Option ControlOperation :=
  match v.fields? ["schema", "operation_id", "kid", "deployment_id", "config_revision", "operation"] with
  | some [schema, operationId, kid, deploymentId, configRevision, operation] => do
    some ⟨← u32? schema, ← operationId.str?, ← kid.str?, ← deploymentId.str?, ← configRevision.str?,
      ← ControlOperationPayload.deserialize operation⟩
  | _ => none

/-! ## What was written is read back -/

theorem TenantResourceKind.named_label (kind : TenantResourceKind) : named kind.label = some kind := by
  cases kind <;> decide

theorem u32?_num (n : UInt32) : u32? (.num n.toNat) = some n := by
  have h := n.toNat_lt
  rw [u32?, Json.nat?_num (by omega), Option.map_some, UInt32.ofNat_toNat]

theorem u64?_num (n : UInt64) : u64? (.num n.toNat) = some n := by
  have h := n.toNat_lt
  rw [u64?, Json.nat?_num (by omega), Option.map_some, UInt64.ofNat_toNat]

theorem TenantResourceIdentity.deserialize_value (r : TenantResourceIdentity) :
    deserialize r.serialize.value = some r := by
  have hfields : r.serialize.value.fields? ["kind", "resource_id", "digest"]
      = some [.str r.kind.label, .str r.resourceId, .str r.digest] := Json.fields?_value (by simp)
  simp [deserialize, hfields, TenantResourceKind.deserialize, TenantResourceKind.named_label, Json.str?]

theorem TenantResourceSelector.deserialize_value (s : TenantResourceSelector) :
    deserialize s.serialize.value = some s := by
  have hfields : s.serialize.value.fields? ["kind", "resource_id"] = some [.str s.kind.label, .str s.resourceId] :=
    Json.fields?_value (by simp)
  simp [deserialize, hfields, TenantResourceKind.deserialize, TenantResourceKind.named_label, Json.str?]

theorem ControlTenantBoundary.deserialize_value (b : ControlTenantBoundary) :
    deserialize b.serialize.value = some b := by
  have hfields : b.serialize.value.fields? ["id", "slug", "display_name"]
      = some [.str b.id, .str b.slug, .str b.displayName] :=
    Json.fields?_value (by simp)
  simp [deserialize, hfields, Json.str?]

/-- The program takes exactly these members, which have different names, out of a map, and gives
`a`. -/
def Reads {α : Type} (program : Members α) (members : List (String × Json)) (a : α) : Prop :=
  (members.map (·.1)).Nodup → ∀ map, map.Perm members → program map = some (a, [])

theorem reads_pure {α : Type} (a : α) : Reads (pure a) [] a := by
  intro _ map hmap
  rw [hmap.eq_nil]
  rfl

theorem reads_take {α β : Type} {read : Json → Option α} {key : String} {v : Json} {rest : List (String × Json)}
    {a : α} {b : β} {next : α → Members β} (hread : read v = some a) (hnext : Reads (next a) rest b) :
    Reads (takeMember read key >>= next) ((key, v) :: rest) b := by
  intro hnodup map hmap
  have hnames : (map.map (·.1)).Nodup := (hmap.map (·.1)).nodup_iff.mpr hnodup
  have hfind : (map.find? fun m => m.1 = key) = some (key, v) :=
    Json.find?_eq_some_of_nodup hnames (hmap.mem_iff.mpr (.head _))
  have hleft : (map.filter fun m => m.1 ≠ key).Perm rest := by
    have hfilter := hmap.filter fun m => m.1 ≠ key
    have hrest : (rest.filter fun m => m.1 ≠ key) = rest := by
      refine List.filter_eq_self.mpr fun m hm => decide_eq_true fun hname => ?_
      exact (List.nodup_cons.mp hnodup).1 (List.mem_map.mpr ⟨m, hm, hname⟩)
    rwa [List.filter_cons_of_neg (by simp), hrest] at hfilter
  have htake : takeMember read key map = some (a, map.filter fun m => m.1 ≠ key) := by
    simp [takeMember, hfind, hread]
  show (takeMember read key map).bind (fun p => next p.1 p.2) = some (b, [])
  rw [htake]
  exact hnext (List.nodup_cons.mp hnodup).2 _ hleft

namespace ControlOperationPayload

variable (payload : ControlOperationPayload)

/-- The fields as they are in a map. -/
def valueFields : List (String × Json) := payload.fields.map fun m => (m.1, m.2.value)

theorem reads_fields : Reads (takeFields payload.name) payload.valueFields payload := by
  have hstrings : ∀ l : List String, Json.strings? (Json.value (.arr (l.map .str))) = some l := by
    intro l
    rw [Json.value, Json.valueItems_eq_map, List.map_map]
    exact Json.strings?_strs l
  have hlist : ∀ {α : Type} {read : Json → Option α} {write : α → Json}, (∀ a, read (write a).value = some a) →
      ∀ l : List α, Json.list? read (Json.value (.arr (l.map write))) = some l := by
    intro α read write h l
    rw [Json.value, Json.valueItems_eq_map, List.map_map]
    exact Json.list?_value h l
  cases payload with
  | migrateApply | keysList | keysValidate => exact reads_pure _
  | keysGenerateLocal => exact reads_take rfl (reads_take (hstrings _) (reads_pure _))
  | tenantKeysGenerateLocal => exact reads_take rfl (reads_take rfl (reads_take (hstrings _) (reads_pure _)))
  | keysRegisterExternal => exact reads_take rfl (reads_take rfl (reads_take rfl (reads_take rfl (reads_pure _))))
  | tenantResourceApply | tenantResourceRevoke =>
    exact reads_take rfl (reads_take (hlist TenantResourceIdentity.deserialize_value _) (reads_pure _))
  | tenantResourceEnumerate =>
    exact reads_take rfl (reads_take (hlist TenantResourceSelector.deserialize_value _) (reads_pure _))
  | recoveryInvalidate => exact reads_take rfl (reads_pure _)
  | tenantDirectoryCreate expectedRevision tenant realm organization =>
    exact reads_take (u64?_num _) (reads_take tenant.deserialize_value (reads_take realm.deserialize_value
      (reads_take organization.deserialize_value (reads_take rfl (reads_take rfl (reads_pure _))))))
  | tenantDirectoryUpdate =>
    exact reads_take (u64?_num _) (reads_take rfl (reads_take rfl (reads_take rfl (reads_pure _))))
  | tenantDirectoryDisable | tenantDirectoryReload | tenantDirectoryFinalize =>
    exact reads_take (u64?_num _) (reads_take rfl (reads_pure _))
  | tenantDirectoryDescribe => exact reads_pure _

theorem nodup_names : ((("name", Json.str payload.name) :: payload.fields).map (·.1)).Nodup := by
  cases payload <;> simp [fields]

theorem deserialize_value : deserialize payload.serialize.value = some payload := by
  have hperm := Json.valueMembers_perm payload.nodup_names
  have hnodup : ((("name", Json.str payload.name) :: payload.valueFields).map (·.1)).Nodup := by
    have h := payload.nodup_names
    simp only [valueFields, List.map_cons, List.map_map] at h ⊢
    exact h
  have hreads : Reads (takeMember Json.str? "name" >>= takeFields)
      (("name", .str payload.name) :: payload.valueFields) payload :=
    reads_take rfl payload.reads_fields
  rw [deserialize, Json.value_value, serialize]
  show ((takeMember Json.str? "name" >>= takeFields) _).bind _ = _
  rw [hreads hnodup _ hperm]
  rfl

end ControlOperationPayload

theorem ControlOperation.deserialize_value (operation : ControlOperation) :
    deserialize operation.serialize.value = some operation := by
  have hfields : operation.serialize.value.fields?
    ["schema", "operation_id", "kid", "deployment_id", "config_revision", "operation"]
      = some [.num operation.schema.toNat, .str operation.operationId, .str operation.kid,
        .str operation.deploymentId,
        .str operation.configRevision, operation.operation.serialize.value] := Json.fields?_value (by simp)
  simp [deserialize, hfields, u32?_num, Json.str?, operation.operation.deserialize_value]

/-! ## Operations are exact values -/

theorem TenantResourceIdentity.exact (r : TenantResourceIdentity) : r.serialize.Exact 2 :=
  Json.exact_obj (by simp [Json.exact_str])

theorem TenantResourceSelector.exact (s : TenantResourceSelector) : s.serialize.Exact 2 :=
  Json.exact_obj (by simp [Json.exact_str])

theorem ControlTenantBoundary.exact (b : ControlTenantBoundary) : b.serialize.Exact 2 :=
  Json.exact_obj (by simp [Json.exact_str])

theorem ControlOperationPayload.exact (payload : ControlOperationPayload) : payload.serialize.Exact 4 := by
  have hboundary : ∀ b : ControlTenantBoundary, b.serialize.Exact 3 := fun b => b.exact.mono (by decide)
  have hrevision : ∀ n : UInt64, Json.Exact 3 (.num n.toNat) := fun n => Json.exact_nat 2 n.toNat_lt
  refine Json.exact_obj fun m hm => ?_
  rcases List.mem_cons.mp hm with rfl | hm
  · exact Json.exact_str 2 _
  · revert m
    cases payload <;>
      simp [fields, Json.exact_str, Json.exact_arr, hboundary, hrevision, TenantResourceIdentity.exact,
        TenantResourceSelector.exact]

theorem ControlOperation.exact (operation : ControlOperation) : operation.serialize.Exact 127 := by
  have hschema : Json.Exact 4 (.num operation.schema.toNat) :=
    Json.exact_nat 3 (Nat.lt_trans operation.schema.toNat_lt (by decide))
  have h : operation.serialize.Exact 5 :=
    Json.exact_obj (by simp [Json.exact_str, hschema, operation.operation.exact])
  exact h.mono (by decide)

end NazoAuth.OperatorProtocol
