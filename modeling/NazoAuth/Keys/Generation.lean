import NazoAuth.Keys.Keyset

/-!
# Signing keys — loaded generations

A stored keyset is loaded (`loadPayload`), checked and turned into a snapshot of verification keys
(`snapshotFromLoaded`). A generation is a loaded keyset with its snapshot and the instant at which
it expires. Signing selects a key of the loaded keyset (`selectedKey`), verification one of the
snapshot (`verificationKey`).

The fingerprint of a record stands for the record.
-/

namespace NazoAuth.Keys

open Lib

/-! ## Records -/

structure Record where
  revision : Int
  payload : Payload
  wrappingKeyId : String
  deriving DecidableEq

/-- The wrapping keys and the external signer of a process. -/
structure Binding where
  currentId : String
  previousId : Option String
  externalSigner : Bool

def Binding.opens (b : Binding) (id : String) : Bool := b.currentId = id || b.previousId = some id

structure PreparedDatabaseSource where
  fingerprint : Record
  nextLifecycleCheck : Option Instant

/-! ## Loading -/

inductive KeyState where
  | prepublished
  | active
  | grace
  | retired
  deriving DecidableEq

inductive KeyHandle where
  | local (privatePkcs8Der : List UInt8)
  | external (keyRef : String)
  deriving DecidableEq

structure ManagedKey where
  kid : String
  algorithm : Algorithm
  purposes : List SigningPurpose
  state : KeyState
  handle : KeyHandle

def ManagedKey.canSign (key : ManagedKey) (purpose : SigningPurpose) : Bool :=
  key.state = .active && key.purposes.contains purpose

def ManagedKey.canVerify (key : ManagedKey) : Bool :=
  key.state = .prepublished || key.state = .active || key.state = .grace

structure StoredVerificationKey where
  publicJwk : Json
  managed : ManagedKey
  retireAt : Option Instant

structure LoadedKeyset where
  databaseSource : Option PreparedDatabaseSource
  activeKid : String
  activeAlg : Algorithm
  activeSigningKey : KeyHandle
  verificationKeys : List StoredVerificationKey
  requestObjectKid : String
  requestObjectRetainedKids : List String
  openid4vcMaterial : Option Openid4vcMaterial

def privateJwkMembers : List String := ["d", "p", "q", "dp", "dq", "qi", "oth", "k"]

def validateExternalPublicJwk (kid : String) (alg : Algorithm) (jwk : Json) : Except String Unit :=
  if !jwk.isObject then .error "public_jwk must be an object"
  else match privateJwkMembers.find? fun member => (jwk.get? member).isSome with
    | some member => .error ("public_jwk must not contain private or symmetric key material member " ++ member)
    | none =>
      match (jwk.get? "kid").bind Json.str? with
      | none => .error "public_jwk missing kid"
      | some value =>
        if value ≠ kid then .error "public_jwk kid does not match key entry"
        else match (jwk.get? "alg").bind Json.str? with
          | none => .error "public_jwk missing alg"
          | some value =>
            if value ≠ signingAlgorithmName alg then .error "public_jwk alg does not match key entry"
            else match (jwk.get? "use").bind Json.str? with
              | none => .error "public_jwk missing use"
              | some value => if value ≠ "sig" then .error "public_jwk use must be sig" else .ok ()

section Load

variable {V : Type} (crypto : Crypto V) (externalSigner : Bool) (now : Instant)

/-- The public part and the handle of a key that is not retired. -/
def loadMaterial (activeKid : String) (entry : KeyEntry) : Except String KeyHandle :=
  match entry.backend with
  | .localDb =>
    match entry.privatePkcs8Der with
    | none => .error ("local database key " ++ entry.kid ++ " missing private material")
    | some der => do
      let publicJwk ← publicJwkFromPrivateDer crypto entry.kid entry.alg der
      if entry.publicJwk ≠ publicJwk then
        .error ("local database key " ++ entry.kid ++ " public metadata does not match private material")
      else if !crypto.usable entry.alg der
        then .error ("local database key " ++ entry.kid ++ " signing material is unusable")
      else .ok (.local der)
  | .externalCommand => do
    validateExternalPublicJwk entry.kid entry.alg entry.publicJwk
    match (entry.keyRef.map trim).filter fun value => !value.isEmpty with
    | none => .error ("external key " ++ entry.kid ++ " missing key_ref")
    | some keyRef =>
      if entry.kid = activeKid && !externalSigner then
        .error ("external signing capability is required for active external-command key " ++ entry.kid)
      else .ok (.external keyRef)

/-- The state of a key that is not retired. -/
def entryState (activeKid : String) (entry : KeyEntry) : KeyState :=
  if entry.retireAt.isSome then .grace
  else if entry.prepublished then .prepublished
  else if entry.purposes.isSome || entry.kid = activeKid then .active
  else .prepublished

/-- A key that is retired is checked and left out. -/
def loadEntry (activeKid : String) (entry : KeyEntry) : Except String (Option StoredVerificationKey) := do
  let purposes ← keyEntryPurposes entry
  let purposes := purposes.getD (if entry.kid = activeKid then allSigningPurposes else [])
  if entry.retireAt.any fun time => time ≤ now then
    if entry.kid = activeKid then .error ("active key " ++ entry.kid ++ " is retired")
    else do
      validateExternalPublicJwk entry.kid entry.alg entry.publicJwk
      .ok none
  else do
    let handle ← loadMaterial crypto externalSigner activeKid entry
    if entry.kid = activeKid && (entry.purposes.isSome || entry.retireAt.isSome) then
      .error ("active key " ++ entry.kid ++ " is not a current rotation key")
    else .ok (some ⟨entry.publicJwk, ⟨entry.kid, entry.alg, purposes, entryState activeKid entry, handle⟩,
      entry.retireAt⟩)

/-- The identifiers in front of an entry are `seen`. -/
def loadKeys (activeKid : String) : List String → List KeyEntry → Except String (List StoredVerificationKey)
  | _, [] => .ok []
  | seen, entry :: rest =>
    if isBlank entry.kid then .error "keyset key missing kid"
    else if entry.kid ∈ seen then .error ("keyset contains duplicate kid " ++ entry.kid)
    else do
      let key ← loadEntry crypto externalSigner now activeKid entry
      let keys ← loadKeys activeKid (entry.kid :: seen) rest
      .ok (key.toList ++ keys)

/-- The recipients that are not retired, in the order of the ring. -/
def loadRetainedKeys : List String → List RetainedKey → Except String (List String)
  | loaded, [] => .ok loaded
  | loaded, entry :: rest =>
    if entry.retireAt.any fun deadline => deadline ≤ now then loadRetainedKeys loaded rest
    else match entry.privatePem.bind crypto.recipientKid with
      | none => .error "missing request object private key"
      | some kid =>
        if entry.kid ≠ kid || kid ∈ loaded then .error "invalid or duplicate retained request object kid"
        else loadRetainedKeys (loaded ++ [kid]) rest

end Load

/-! ## Selection -/

inductive SelectedHandle where
  | active (handle : KeyHandle)
  | local (privatePkcs8Der : List UInt8)
  deriving DecidableEq

structure SelectedKey where
  kid : String
  algorithm : Algorithm
  handle : SelectedHandle
  publicJwk : Json
  deriving DecidableEq

def jwkHasAlgorithm (jwk : Json) (alg : Algorithm) : Bool :=
  (jwk.get? "alg").bind Json.str? = some (signingAlgorithmName alg)

/-- A key other than the active one signs with its own private key only. -/
def scopedSelection (activeKid : String) (purpose : SigningPurpose) (alg : Algorithm)
    (key : StoredVerificationKey) : Option SelectedKey :=
  if key.managed.kid = activeKid || !key.managed.canSign purpose || key.managed.algorithm ≠ alg
      || !jwkHasAlgorithm key.publicJwk alg then none
  else match key.managed.handle with
    | .local der => some ⟨key.managed.kid, alg, .local der, key.publicJwk⟩
    | .external _ => none

def LoadedKeyset.selectedKey (loaded : LoadedKeyset) (purpose : SigningPurpose) (alg : Algorithm) :
    Option SelectedKey :=
  match loaded.verificationKeys.find? fun key => key.managed.kid = loaded.activeKid with
  | none => none
  | some active =>
    if alg = loaded.activeAlg && active.managed.algorithm = alg && active.managed.canSign purpose
        && jwkHasAlgorithm active.publicJwk alg then
      some ⟨loaded.activeKid, alg, .active loaded.activeSigningKey, active.publicJwk⟩
    else loaded.verificationKeys.findSome? (scopedSelection loaded.activeKid purpose alg)

def validateOpenid4vcMaterial {V : Type} (crypto : Crypto V) (loaded : LoadedKeyset) : Except String Unit :=
  match loaded.openid4vcMaterial with
  | none => .ok ()
  | some material =>
    match loaded.selectedKey .credential .es256, loaded.selectedKey .presentationRequest .es256 with
    | none, _ => .error "OpenID4VC credential signing key unavailable"
    | some _, none => .error "OpenID4VC presentation-request signing key unavailable"
    | some credential, some presentation =>
      if credential.kid ≠ presentation.kid || credential.kid ≠ material.signingKid then
        .error "OpenID4VC material must select one credential and presentation-request ES256 key"
      else if !crypto.certified material credential.publicJwk then
        .error "OpenID4VC signing certificate does not match its managed key"
      else .ok ()

def loadPayload {V : Type} (crypto : Crypto V) (externalSigner : Bool) (now : Instant)
    (payload : Payload) : Except String LoadedKeyset := do
  if payload.schemaVersion ≠ keysetSchemaVersion then .error "database keyset has unsupported schema version"
  else match crypto.recipientKid payload.requestObjectPrivatePem with
    | none => .error "keyset missing request object private key"
    | some requestObjectKid => do
      let keys ← loadKeys crypto externalSigner now payload.activeKid [] payload.keys
      match keys.find? fun key => key.managed.kid = payload.activeKid with
      | none => .error "active key is unavailable"
      | some active => do
        let retained ← loadRetainedKeys crypto now [] (payload.requestObjectRetainedKeys.getD [])
        let loaded : LoadedKeyset :=
          { databaseSource := none, activeKid := payload.activeKid, activeAlg := active.managed.algorithm,
            activeSigningKey := active.managed.handle, verificationKeys := keys, requestObjectKid,
            requestObjectRetainedKids := retained, openid4vcMaterial := payload.openid4vc }
        validateOpenid4vcMaterial crypto loaded
        .ok loaded

/-! ## When maintenance is next due -/

section Source

variable (settings : KeySettings)

/-- The earlier of two instants, if there are any. -/
def earlier : Option Instant → Option Instant → Option Instant
  | none, t => t
  | t, none => t
  | some t, some t' => some (min t t')

def earliest (instants : List (Option Instant)) : Option Instant := instants.foldl earlier none

def protocolRotationCheck (keys : List KeyEntry) (alg : Algorithm) : Except String (Option Instant) := do
  let (current, pending) ← protocolKeyIndices keys alg
  .ok (current.map fun current =>
    let due := current.1.createdAt + seconds settings.rotationInterval
    match pending with
    | some pending => max due (pending.1.createdAt + seconds settings.prepublishWindow)
    | none => due - seconds settings.prepublishWindow)

def nextEncryptionCheck (now : Instant) (payload : Payload) : Except String (Option Instant) :=
  match payload.requestObjectCreatedAt with
  | none => .ok (some now)
  | some created =>
    match payload.requestObjectRetainedKeys with
    | none => .error "invalid request object key ring"
    | some entries =>
      let due := created + seconds settings.rotationInterval
      let upcoming := earliest ((entries.map (·.retireAt)).map fun time => time.filter fun t => now < t)
      match entries.filter fun entry => entry.retireAt.isNone with
      | [] => .ok (earlier (some (due - seconds settings.prepublishWindow)) upcoming)
      | [candidate] => .ok (earlier (some (max due (candidate.createdAt + seconds settings.prepublishWindow)))
        upcoming)
      | _ => .error "duplicate pending request object key"

def preparedSource (now : Instant) (fingerprint : Record) (payload : Payload) :
    Except String PreparedDatabaseSource :=
  match payload.keys.find? fun entry => entry.kid = payload.activeKid with
  | none => .error "keyset active key missing"
  | some active => do
    let rotationDue := active.createdAt + seconds settings.rotationInterval
    let rotationCheck := match prepublishedCandidate payload.keys payload.activeKid active.alg active.isLocal with
      | some candidate => some (max rotationDue (candidate.1.createdAt + seconds settings.prepublishWindow))
      | none => if active.isLocal then some (rotationDue - seconds settings.prepublishWindow) else none
    let upcoming := earliest ((payload.keys.map (·.retireAt)).map fun time => time.filter fun t => now < t)
    let rs256 ← protocolRotationCheck settings payload.keys .rs256
    let ps256 ← protocolRotationCheck settings payload.keys .ps256
    let encryption ← nextEncryptionCheck settings now payload
    .ok ⟨fingerprint, earliest [rotationCheck, upcoming, rs256, ps256, encryption]⟩

end Source

/-! ## Snapshots -/

section Snapshots

variable {V : Type}

structure VerificationKey (V : Type) where
  kid : String
  publicJwk : Json
  algorithm : Algorithm
  prepared : V
  signingPurposes : List SigningPurpose
  retireAt : Option Instant
  deriving DecidableEq

def VerificationKey.canVerifyAt (key : VerificationKey V) (now : Instant) : Bool :=
  key.retireAt.all fun retireAt => now < retireAt

structure KeySnapshot (V : Type) where
  activeKid : String
  activeAlg : Algorithm
  verificationKeys : List (VerificationKey V)

def KeySnapshot.verificationKey (snapshot : KeySnapshot V) (now : Instant) (kid : String) :
    Option (VerificationKey V) :=
  snapshot.verificationKeys.find? fun key => key.kid = kid && key.canVerifyAt now

def keyOpsAllowVerification : Option Json → Bool
  | none => true
  | some (.arr [operation]) => operation.str? = some "verify"
  | some _ => false

variable (crypto : Crypto V)

def preparedVerification (jwk : Json) (alg : Algorithm) : Option V :=
  if !keyOpsAllowVerification (jwk.get? "key_ops") then none else crypto.decodingKey jwk alg

def verificationKeyOf (key : StoredVerificationKey) : Except String (VerificationKey V) :=
  match preparedVerification crypto key.publicJwk key.managed.algorithm with
  | none => .error ("managed key " ++ key.managed.kid ++ " public JWK cannot produce verification material")
  | some prepared =>
    .ok ⟨key.managed.kid, key.publicJwk, key.managed.algorithm, prepared,
      if key.managed.state = .active then key.managed.purposes else [], key.retireAt⟩

def snapshotFromLoaded (loaded : LoadedKeyset) : Except String (KeySnapshot V) := do
  let keys ← (loaded.verificationKeys.filter fun key => key.managed.canVerify).mapM (verificationKeyOf crypto)
  .ok ⟨loaded.activeKid, loaded.activeAlg, keys⟩

structure KeyGeneration (V : Type) where
  loaded : LoadedKeyset
  snapshot : KeySnapshot V
  expiresAt : Instant

variable (generation : KeyGeneration V)

def KeyGeneration.isExpired (now : Instant) : Bool := generation.expiresAt < now

/-- A generation that is published with a new snapshot. -/
def KeyGeneration.database (now : Instant) (loaded : LoadedKeyset) : Except String (KeyGeneration V) := do
  let snapshot ← snapshotFromLoaded crypto loaded
  .ok ⟨loaded, snapshot, now + seconds maxDatabaseSnapshotStalenessSeconds⟩

/-- The same keys, read again. -/
def KeyGeneration.extend (now : Instant) : KeyGeneration V :=
  { generation with expiresAt := now + seconds maxDatabaseSnapshotStalenessSeconds }

/-- Signing with a selected key; `answered`: whether the private key or the external signer gives a
signature. -/
def signSelected (selected : SelectedKey) (snapshot : KeySnapshot V) (answered : Bool) : Option SelectedKey :=
  match selected.handle with
  | .active (.external _) =>
    if snapshot.verificationKeys.any fun key => key.kid = selected.kid && key.algorithm = selected.algorithm then
      if answered then some selected else none
    else none
  | .active (.local _) | .local _ => if answered then some selected else none

/-- The key that signs. A lease asks for the key it was given with. -/
def KeyGeneration.sign (healthy : Bool) (now : Instant) (purpose : SigningPurpose)
    (alg : Algorithm) (expectedKid : Option String) (answered : Bool) : Option SelectedKey :=
  if generation.isExpired now || !healthy then none
  else match generation.loaded.selectedKey purpose alg with
    | none => none
    | some selected =>
      if expectedKid.any fun kid => kid ≠ selected.kid then none
        else signSelected selected generation.snapshot answered

end Snapshots

end NazoAuth.Keys
