import NazoAuth.Basic
import NazoAuth.Lib.Evolution
import NazoAuth.Lib.JsonText

/-!
# Signing keys — the stored keyset and its maintenance

One keyset per tenant is stored: signing keys with their lifecycle, and the recipient keys of
encrypted request objects. A maintenance pass (`maintainPayload`) upgrades purposes, publishes a
successor before the active key is due, makes the successor active after its prepublication window,
does the same for the protocol keys, and drops the private parts of keys whose retirement has come.

Instants are printed in whole seconds (`printed`); the instants of request object keys are printed
in full. A pass reads the clock once for the signing keys and once more for the request object keys.
Cryptography is a parameter (`Crypto`), and the values that a pass draws at random are an argument
(`Draws`).
-/

namespace NazoAuth.Keys

open Lib

/-! ## Keys -/

inductive Algorithm where
  | eddsa
  | rs256
  | es256
  | ps256
  deriving DecidableEq

def signingAlgorithmName : Algorithm → String
  | .eddsa => "EdDSA"
  | .rs256 => "RS256"
  | .es256 => "ES256"
  | .ps256 => "PS256"

inductive SigningPurpose where
  | accessToken
  | idToken
  | jarm
  | introspection
  | logoutToken
  | httpMessage
  | securityEvent
  | credential
  | presentationRequest
  deriving DecidableEq

def SigningPurpose.isOpenid4vc : SigningPurpose → Bool
  | .credential => true
  | .presentationRequest => true
  | _ => false

/-- What the active key may sign without being scoped to it. -/
def allSigningPurposes : List SigningPurpose :=
  [.accessToken, .idToken, .jarm, .introspection, .logoutToken, .httpMessage, .securityEvent]

def protocolSigningPurposes : List SigningPurpose := [.idToken, .jarm, .introspection, .accessToken, .logoutToken]

inductive Backend where
  | localDb
  | externalCommand
  deriving DecidableEq

/-- An entry of `keys`. A key without purposes is a rotation key. -/
structure KeyEntry where
  kid : String
  alg : Algorithm
  backend : Backend
  publicJwk : Json
  privatePkcs8Der : Option (List UInt8)
  keyRef : Option String
  createdAt : Instant
  retireAt : Option Instant
  purposes : Option (List SigningPurpose)
  prepublished : Bool
  deriving DecidableEq

def KeyEntry.isLocal (entry : KeyEntry) : Bool := entry.backend = .localDb

/-- A recipient key of request objects that is not the current one. -/
structure RetainedKey where
  privatePem : Option (List UInt8)
  kid : String
  createdAt : Instant
  retireAt : Option Instant
  deriving DecidableEq

structure Openid4vcMaterial where
  signingKid : String
  certificateChainPem : String
  trustAnchorsPem : String
  deriving DecidableEq

structure Payload where
  schemaVersion : String
  activeKid : String
  keys : List KeyEntry
  requestObjectPrivatePem : List UInt8
  requestObjectCreatedAt : Option Instant
  requestObjectRetainedKeys : Option (List RetainedKey)
  openid4vc : Option Openid4vcMaterial
  deriving DecidableEq

/-- The parts of cryptography that the lifecycle calls; `V` is prepared verification material. -/
structure Crypto (V : Type) where
  /-- The members of the public JWK of a private key. -/
  publicJwk : Algorithm → List UInt8 → Option (List (String × Json))
  /-- Whether signing with a private key can be prepared. -/
  usable : Algorithm → List UInt8 → Bool
  /-- Verification material of a public JWK. -/
  decodingKey : Json → Algorithm → Option V
  /-- The identifier of the recipient that a private PEM is for. -/
  recipientKid : List UInt8 → Option String
  /-- The certificates are well formed and the first one is for a public JWK. -/
  certified : Openid4vcMaterial → Json → Bool

/-- Lengths of the lifecycle, in seconds. -/
structure KeySettings where
  rotationInterval : Int
  prepublishWindow : Int
  verificationGrace : Int

def keysetSchemaVersion : String := "nazo.keyset.v1"

def maxDatabaseSnapshotStalenessSeconds : Int := 2 * 60 * 60

/-- An instant as it is printed and read back. -/
def printed (t : Instant) : Instant := seconds (timestamp t)

/-- What a pass draws: an identifier and a private key for the successor of the active key (`none`)
and for each protocol algorithm, and a recipient key; and the clock, which the request object part
reads for itself. -/
structure Draws where
  uuid : Option Algorithm → String
  privateKey : Option Algorithm → List UInt8
  pem : List UInt8
  requestObjectNow : Instant

/-- The set of purposes of an entry. -/
def keyEntryPurposes (entry : KeyEntry) : Except String (Option (List SigningPurpose)) :=
  match entry.purposes with
  | none => .ok none
  | some [] => .error "purposes must not be empty"
  | some purposes => if purposes.Nodup then .ok (some purposes) else .error "duplicate signing purpose"

section Maintenance

variable {V : Type} (crypto : Crypto V) (settings : KeySettings)

def publicJwkFromPrivateDer (kid : String) (alg : Algorithm) (der : List UInt8) : Except String Json :=
  match crypto.publicJwk alg der with
  | none => .error "signing key material is unusable"
  | some members =>
    let jwk := Json.set "use" (.str "sig") (Json.set "kid" (.str kid) (.obj members))
    .ok (Json.set "alg" (.str (signingAlgorithmName alg)) jwk).value

def localKid (alg : Algorithm) (uuid : String) : String :=
  String.ofList ((signingAlgorithmName alg).toList.map Char.toLower) ++ "-" ++ uuid

variable (draws : Draws)

def localEntry (slot : Option Algorithm) (alg : Algorithm) (createdAt : Instant)
    (purposes : Option (List SigningPurpose)) : Except String KeyEntry := do
  let kid := localKid alg (draws.uuid slot)
  let publicJwk ← publicJwkFromPrivateDer crypto kid alg (draws.privateKey slot)
  .ok { kid, alg, backend := .localDb, publicJwk, privatePkcs8Der := some (draws.privateKey slot), keyRef := none,
        createdAt, retireAt := none, purposes, prepublished := false }

variable (now : Instant)

def initialPayload : Except String Payload := do
  let active ← localEntry crypto draws none .rs256 (printed now) none
  let protocol ← localEntry crypto draws (some .ps256) .ps256 (printed now) (some protocolSigningPurposes)
  .ok { schemaVersion := keysetSchemaVersion, activeKid := active.kid, keys := [active, protocol],
        requestObjectPrivatePem := draws.pem, requestObjectCreatedAt := some (printed now),
        requestObjectRetainedKeys := some [], openid4vc := none }

/-! ## Rotation of the active key -/

/-- May follow the active key. -/
def isCandidate (activeKid : String) (alg : Algorithm) (allowLocal : Bool) (entry : KeyEntry) : Bool :=
  entry.kid ≠ activeKid && entry.purposes.isNone && entry.retireAt.isNone && entry.alg = alg
    && (allowLocal || entry.backend = .externalCommand)

/-- External keys come before local ones, and older keys before younger ones. -/
def precedes (entry selected : KeyEntry) : Bool :=
  if entry.isLocal = selected.isLocal then entry.createdAt < selected.createdAt else !entry.isLocal

/-- The position of the next active key. -/
def prepublishedCandidate (keys : List KeyEntry) (activeKid : String) (alg : Algorithm)
    (allowLocal : Bool) : Option (KeyEntry × Nat) :=
  keys.zipIdx.foldl (fun selected entry =>
    if !isCandidate activeKid alg allowLocal entry.1 then selected
    else match selected with
      | none => some entry
      | some best => if precedes entry.1 best.1 then some entry else some best) none

def activateEntry (oldKid newKid : String) (retireAt : Instant) (entry : KeyEntry) : KeyEntry :=
  if entry.kid = oldKid then { entry with retireAt := some (printed retireAt) }
  else if entry.kid = newKid then { entry with retireAt := none }
  else entry

def activate (keys : List KeyEntry) (oldKid newKid : String) (retireAt : Instant) : List KeyEntry :=
  keys.map (activateEntry oldKid newKid retireAt)

/-- The purposes of a local protocol key before there were five of them. -/
def hasPreviousPurposes (purposes : List SigningPurpose) : Bool :=
  purposes.length = 3 && (protocolSigningPurposes.take 3).all fun purpose => purposes.contains purpose

def upgradePurposes (entry : KeyEntry) : Except String KeyEntry :=
  if !entry.isLocal then .ok entry
  else do
    let purposes ← keyEntryPurposes entry
    if purposes.any hasPreviousPurposes then .ok { entry with purposes := some protocolSigningPurposes }
      else .ok entry

/-- The retirement of a key that is replaced. -/
def retirement : Instant :=
  now + seconds settings.verificationGrace + seconds maxDatabaseSnapshotStalenessSeconds

/-- A part of a pass: the keys, whether they have changed, and which keys have become active. -/
structure Maintained where
  keys : List KeyEntry
  changed : Bool
  activated : List String

variable (active : KeyEntry)

def publishSuccessor (keys : List KeyEntry) : Except String Maintained := do
  let entry ← localEntry crypto draws none active.alg (printed now) none
  .ok ⟨keys ++ [entry], true, []⟩

/-- The candidate was looked for before the purposes were upgraded; `position` is where it was
found. -/
def rotate (position : Option Nat) (keys : List KeyEntry) : Except String Maintained :=
  let rotationDue := active.createdAt + seconds settings.rotationInterval
  if rotationDue ≤ now then
    match position with
    | some index =>
      match keys[index]? with
      | some next =>
        if next.createdAt + seconds settings.prepublishWindow ≤ now then
          .ok ⟨activate keys active.kid next.kid (retirement settings now), true, [next.kid]⟩
        else .ok ⟨keys, false, []⟩
      | none => .ok ⟨keys, false, []⟩
    | none => if active.isLocal then publishSuccessor crypto draws now active keys else .ok ⟨keys, false, []⟩
  else if active.isLocal && rotationDue - seconds settings.prepublishWindow ≤ now && position.isNone then
    publishSuccessor crypto draws now active keys
  else .ok ⟨keys, false, []⟩

/-! ## Protocol keys -/

def isProtocolKey (alg : Algorithm) (entry : KeyEntry) : Except String Bool :=
  if !entry.isLocal || entry.alg ≠ alg || entry.retireAt.isSome then .ok false
  else do
    let purposes ← keyEntryPurposes entry
    .ok (purposes.any fun purposes => purposes.length = protocolSigningPurposes.length
      && protocolSigningPurposes.all fun purpose => purposes.contains purpose)

/-- The current and the pending key of an algorithm. -/
def protocolKeyIndices (keys : List KeyEntry) (alg : Algorithm) :
    Except String (Option (KeyEntry × Nat) × Option (KeyEntry × Nat)) :=
  keys.zipIdx.foldlM (fun found entry => do
    if !(← isProtocolKey alg entry.1) then .ok found
    else if entry.1.prepublished then
      if found.2.isSome then .error "duplicate current or pending local protocol key"
        else .ok (found.1, some entry)
    else if found.1.isSome then .error "duplicate current or pending local protocol key"
    else .ok (some entry, found.2)) (none, none)

def maintainProtocolKey (alg : Algorithm) (keys : List KeyEntry) :
    Except String Maintained := do
  let (current, pending) ← protocolKeyIndices keys alg
  match current with
  | none =>
    if active.isLocal && alg ≠ active.alg then
      let entry ← localEntry crypto draws (some alg) alg (printed now) (some protocolSigningPurposes)
      .ok ⟨keys ++ [entry], true, []⟩
    else .ok ⟨keys, false, []⟩
  | some (current, index) =>
    let due := current.createdAt + seconds settings.rotationInterval
    match pending with
    | some (pending, next) =>
      if due ≤ now && pending.createdAt + seconds settings.prepublishWindow ≤ now then
        let retired := keys.modify index fun entry =>
          { entry with retireAt := some (printed (retirement settings now)) }
        .ok ⟨retired.modify next fun entry => { entry with prepublished := false }, true, [pending.kid]⟩
      else .ok ⟨keys, false, []⟩
    | none =>
      if due - seconds settings.prepublishWindow ≤ now then
        let entry ← localEntry crypto draws (some alg) alg (printed now) (some protocolSigningPurposes)
        .ok ⟨keys ++ [{ entry with prepublished := true }], true, []⟩
      else .ok ⟨keys, false, []⟩

def maintainProtocolKeys (keys : List KeyEntry) : Except String Maintained := do
  let first ← maintainProtocolKey crypto settings draws now active .rs256 keys
  let second ← maintainProtocolKey crypto settings draws now active .ps256 first.keys
  .ok ⟨second.keys, first.changed || second.changed, first.activated ++ second.activated⟩

/-- Retired entries keep what is public. -/
def dropPrivate (activeKid : String) (now : Instant) (entry : KeyEntry) : KeyEntry :=
  if entry.kid ≠ activeKid && entry.isLocal && entry.retireAt.any fun retire => retire ≤ now then
    { entry with privatePkcs8Der := none }
  else entry

/-! ## Recipient keys of request objects -/

/-- The current recipient key and the others. -/
structure KeyRing where
  privatePem : List UInt8
  createdAt : Instant
  entries : List RetainedKey

variable (now : Instant)

/-- A keyset of the old format starts its schedule with this pass. -/
def requestObjectRing (payload : Payload) : Except String (KeyRing × Bool) :=
  match payload.requestObjectCreatedAt, payload.requestObjectRetainedKeys with
  | none, _ => .ok (⟨payload.requestObjectPrivatePem, now, []⟩, true)
  | some createdAt, some entries => .ok (⟨payload.requestObjectPrivatePem, createdAt, entries⟩, false)
  | some _, none => .error "invalid request object key ring"

def rotateRing (ring : KeyRing) : Except String (KeyRing × Bool) :=
  let due := ring.createdAt + seconds settings.rotationInterval
  match ring.entries.findIdx? fun entry => entry.retireAt.isNone with
  | some index =>
    match ring.entries[index]? with
    | some candidate =>
      if due ≤ now && candidate.createdAt + seconds settings.prepublishWindow ≤ now then
        match crypto.recipientKid ring.privatePem, candidate.privatePem with
        | some kid, some pem =>
          let old : RetainedKey := ⟨some ring.privatePem, kid, ring.createdAt, some (retirement settings now)⟩
          .ok (⟨pem, candidate.createdAt, ring.entries.eraseIdx index ++ [old]⟩, true)
        | _, _ => .error "missing request object private key"
      else .ok (ring, false)
    | none => .ok (ring, false)
  | none =>
    if due - seconds settings.prepublishWindow ≤ now then
      match crypto.recipientKid draws.pem with
      | some kid => .ok (⟨ring.privatePem, ring.createdAt, ring.entries ++ [⟨some draws.pem, kid, now, none⟩]⟩,
        true)
      | none => .error "missing request object private key"
    else .ok (ring, false)

def dropRetained (entry : RetainedKey) : RetainedKey :=
  if entry.retireAt.any fun deadline => deadline ≤ now then { entry with privatePem := none } else entry

def maintainEncryptionKeys (payload : Payload) : Except String (Payload × Bool) := do
  let (ring, migrated) ← requestObjectRing now payload
  let (ring, rotated) ← rotateRing crypto settings draws now ring
  let entries := ring.entries.map (dropRetained now)
  .ok ({ payload with
    requestObjectPrivatePem := ring.privatePem
    requestObjectCreatedAt := some ring.createdAt
    requestObjectRetainedKeys := some entries }, migrated || rotated || decide (entries ≠ ring.entries))

/-! ## A pass -/

/-- The keyset after a pass, whether it has changed, and which signing keys have become active. -/
def maintainPayload (payload : Payload) : Except String (Payload × Bool × List String) := do
  match payload.keys.find? fun entry => entry.kid = payload.activeKid with
  | none => .error ("keyset active key " ++ payload.activeKid ++ " does not exist")
  | some active =>
    if active.purposes.isSome || active.retireAt.isSome then
      .error ("keyset active key " ++ payload.activeKid ++ " is not a current rotation key")
    else
      let candidate := prepublishedCandidate payload.keys payload.activeKid active.alg active.isLocal
      let upgraded ← payload.keys.mapM upgradePurposes
      let rotated ← rotate crypto settings draws now active (candidate.map (·.2)) upgraded
      let protocol ← maintainProtocolKeys crypto settings draws now active rotated.keys
      let keys := protocol.keys.map (dropPrivate payload.activeKid now)
      let changed := decide (upgraded ≠ payload.keys) || rotated.changed || protocol.changed
        || decide (keys ≠ protocol.keys)
      let activeKid := rotated.activated.head?.getD payload.activeKid
      let (payload, encryption) ← maintainEncryptionKeys crypto settings draws draws.requestObjectNow
        { payload with activeKid, keys }
      .ok (payload, encryption || changed, rotated.activated ++ protocol.activated)

end Maintenance

end NazoAuth.Keys
