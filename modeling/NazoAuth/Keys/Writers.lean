import NazoAuth.Keys.Rotation

/-!
# Signing keys — the writers of the stored keyset

Besides maintenance, a keyset is changed by the registration of a key of this server, the
registration of a key of an external signer, and the commit of OpenID4VC material. Every writer
reads the record, computes a candidate with the next revision, loads it, and stores it if the
revision is still the one that it read; a writer that has lost goes on with the record of the winner
(`exec`).

The identifier and private key of a new key are drawn (`Draws`, slot `none`).
-/

namespace NazoAuth.Keys

open Lib
open Function (update)

variable {V : Type}

/-! ## Registrations -/

/-- A set of purposes, in the order of the set. -/
structure LocalKeyRegistration where
  algorithm : Algorithm
  purposes : List SigningPurpose
  nodup : purposes.Nodup

def validateLocalRegistration (registration : LocalKeyRegistration) : Except String Unit :=
  if registration.purposes.isEmpty then .error "purpose-scoped local key requires at least one signing purpose"
  else if registration.purposes.any fun purpose => !purpose.isOpenid4vc then
    .error "purpose-scoped local keys are restricted to credential and presentation_request"
  else .ok ()

def samePurposes (a b : List SigningPurpose) : Bool := a.all (fun p => b.contains p) && b.all fun p => a.contains p

/-- The key that has the purposes of a registration already; one with some of them is in the way. -/
def scopedKey (registration : LocalKeyRegistration) : List KeyEntry → Except String (Option String)
  | [] => .ok none
  | key :: rest =>
    if key.alg ≠ registration.algorithm then scopedKey registration rest
    else match keyEntryPurposes key with
      | .error message => .error message
      | .ok none => scopedKey registration rest
      | .ok (some existing) =>
        if samePurposes existing registration.purposes then .ok (some key.kid)
        else if existing.any fun purpose => registration.purposes.contains purpose then
          .error ("a purpose-scoped " ++ signingAlgorithmName registration.algorithm
            ++ " key already covers one or more requested purposes")
        else scopedKey registration rest

section Mutations

variable (crypto : Crypto V)

def registerLocal (draws : Draws) (now : Instant) (registration : LocalKeyRegistration)
    (payload : Payload) : Except String (Payload × Bool) := do
  let existing ← scopedKey registration payload.keys
  match existing with
  | some _ => .ok (payload, false)
  | none => do
    let entry ← localEntry crypto draws none registration.algorithm (printed now) (some registration.purposes)
    .ok ({ payload with keys := payload.keys ++ [entry] }, true)

structure ExternalKeyRegistration where
  kid : String
  algorithm : Algorithm
  keyRef : String
  publicJwk : Json

def validateExternalRegistration (registration : ExternalKeyRegistration) : Except String Unit :=
  if isBlank registration.kid || isBlank registration.keyRef
    then .error "external key kid and key_ref must not be empty"
  else do
    validateExternalPublicJwk registration.kid registration.algorithm registration.publicJwk
    if (preparedVerification crypto registration.publicJwk registration.algorithm).isNone then
      .error "external key public JWK cannot produce verification material"
    else .ok ()

def externalEntry (now : Instant) (registration : ExternalKeyRegistration) : KeyEntry where
  kid := registration.kid
  alg := registration.algorithm
  backend := .externalCommand
  publicJwk := registration.publicJwk
  privatePkcs8Der := none
  keyRef := some registration.keyRef
  createdAt := printed now
  retireAt := none
  purposes := none
  prepublished := false

/-- An external key of the algorithm of the active one. -/
def registerExternal (now : Instant) (registration : ExternalKeyRegistration) (payload : Payload) :
    Except String (Payload × Bool) :=
  match payload.keys.find? fun entry => entry.kid = payload.activeKid with
  | none => .error "keyset active key does not exist"
  | some active =>
    if active.alg ≠ registration.algorithm then
      .error
        "external successor must use the current active signing algorithm; algorithm transitions are not supported"
    else match payload.keys.find? fun entry => entry.kid = registration.kid with
      | some existing =>
        if existing.alg = registration.algorithm && existing.keyRef = some registration.keyRef
            && existing.publicJwk = registration.publicJwk then .ok (payload, false)
        else .error "external key kid already exists with different material"
      | none => .ok ({ payload with keys := payload.keys ++ [externalEntry now registration] }, true)

/-! ## OpenID4VC material -/

variable (settings : KeySettings)

/-- A key that signed credentials or presentation requests does so no longer; one that did nothing
else retires. -/
def dropOpenid4vc (now : Instant) (entry : KeyEntry) : Except String KeyEntry := do
  let purposes ← keyEntryPurposes entry
  match purposes with
  | none => .ok entry
  | some purposes =>
    let rest := purposes.filter fun purpose => !purpose.isOpenid4vc
    if rest.length = purposes.length then .ok entry
    else if rest.isEmpty then
      .ok { entry with purposes := none, retireAt := some (printed (now + seconds settings.verificationGrace)) }
    else .ok { entry with purposes := some rest }

def openid4vcEntry (kid : String) (publicJwk : Json) (der : List UInt8) (now : Instant) : KeyEntry where
  kid := kid
  alg := .es256
  backend := .localDb
  publicJwk := publicJwk
  privatePkcs8Der := some der
  keyRef := none
  createdAt := printed now
  retireAt := none
  purposes := some [.credential, .presentationRequest]
  prepublished := false

/-- The new signing key; `key` is what its PEM contains, if anything. -/
def replaceOpenid4vcKey (now : Instant) (kid : String) (key : Option (List UInt8))
    (keys : List KeyEntry) : Except String (List KeyEntry) :=
  if isBlank kid then .error "OpenID4VC signing kid must not be empty"
  else match key with
    | none => .error "OpenID4VC signing key must be a PKCS#8 PEM"
    | some der => do
      let publicJwk ← publicJwkFromPrivateDer crypto kid .es256 der
      if keys.any fun entry => entry.kid = kid then .error "OpenID4VC signing kid already exists"
      else do
        let keys ← keys.mapM (dropOpenid4vc settings now)
        .ok (keys ++ [openid4vcEntry kid publicJwk der now])

/-- `newKey` is absent when the material is for a key that is there. -/
def commitMaterial (now : Instant) (material : Openid4vcMaterial)
    (newKey : Option (Option (List UInt8))) (payload : Payload) : Except String Payload := do
  let keys ← match newKey with
    | none => .ok payload.keys
    | some key => replaceOpenid4vcKey crypto settings now material.signingKid key payload.keys
  .ok { payload with keys := keys, openid4vc := some material }

/-! ## Candidates -/

/-- What a writer asks for. -/
inductive WriteRequest where
  | maintain (settings : KeySettings) (draws : Draws)
  | registerLocal (registration : LocalKeyRegistration) (draws : Draws)
  | registerExternal (registration : ExternalKeyRegistration)
  | commitOpenid4vc (settings : KeySettings) (expectedRevision : Int) (material : Openid4vcMaterial)
      (newKey : Option (Option (List UInt8)))

/-- The checks of a request that come before the record is read. -/
def WriteRequest.validate : WriteRequest → Except String Unit
  | .registerLocal registration _ => validateLocalRegistration registration
  | .registerExternal registration => validateExternalRegistration crypto registration
  | _ => .ok ()

/-- The payload after a request, and whether it has changed. -/
def WriteRequest.mutate (now : Instant) (payload : Payload) : WriteRequest → Except String (Payload × Bool)
  | .maintain settings draws => do
    let (payload, changed, _) ← maintainPayload crypto settings draws now payload
    .ok (payload, changed)
  | .registerLocal registration draws => Keys.registerLocal crypto draws now registration payload
  | .registerExternal registration => Keys.registerExternal now registration payload
  | .commitOpenid4vc settings _ material newKey => do
    let payload ← commitMaterial crypto settings now material newKey payload
    .ok (payload, true)

/-- Maintenance has its next check prepared. -/
def WriteRequest.checkSource (now : Instant) (record : Record) (payload : Payload) :
    WriteRequest → Except String Unit
  | .maintain settings _ => do
    let _ ← preparedSource settings now record payload
    .ok ()
  | _ => .ok ()

/-- An unchanged payload is not written, unless maintenance has to seal it with the current wrapping
key. -/
def WriteRequest.keeps (b : Binding) (record : Record) (changed : Bool) : WriteRequest → Bool
  | .maintain _ _ => !changed && decide (record.wrappingKeyId = b.currentId)
  | _ => !changed

def WriteRequest.isCommit : WriteRequest → Bool
  | .commitOpenid4vc _ _ _ _ => true
  | _ => false

def WriteRequest.expects (record : Record) : WriteRequest → Bool
  | .commitOpenid4vc _ expectedRevision _ _ => decide (record.revision = expectedRevision)
  | _ => true

/-- The record that a writer wants to store, or nothing: the request is computed at `now`, and its
payload loaded at `loadedAt`. -/
def candidateOf (b : Binding) (now loadedAt : Instant) (record : Record) (request : WriteRequest) :
    Except String (Option Record) := do
  request.validate crypto
  if !request.expects record then .error "OpenID4VC keyset revision conflict"
  else if record.revision < 1 then .error "database signing keyset revision must be positive"
  else if !b.opens record.wrappingKeyId then .error "signing-key wrapping key is unavailable"
  else do
    let (payload, changed) ← request.mutate crypto now record.payload
    if !request.keeps b record changed && !request.isCommit && record.revision = maxRevision then
      .error "signing keyset revision overflow"
    else do
      let _ ← loadPayload crypto b.externalSigner loadedAt payload
      request.checkSource loadedAt record payload
      if request.keeps b record changed then .ok none
      else if record.revision = maxRevision then .error "signing keyset revision overflow"
      else .ok (some ⟨record.revision + 1, payload, b.currentId⟩)

end Mutations

/-! ## The store and its writers -/

/-- The stored record; what each writer has read, and what it wants to store. -/
structure KeyStore where
  record : Option Record
  seen : Nat → Option Record
  candidate : Nat → Option Record

def KeyStore.empty : KeyStore := ⟨none, fun _ => none, fun _ => none⟩

inductive WriteOp where
  /-- A starting process finds no record, and creates one. -/
  | create (b : Binding) (draws : Draws)
  | read (writer : Nat)
  | prepare (writer : Nat) (b : Binding) (loadedAt : Instant) (request : WriteRequest)
  | swap (writer : Nat)

structure TimedOp where
  now : Instant
  op : WriteOp

inductive WriteOutcome where
  | created (record : Record)
  | existing
  | read
  | prepared
  | unchanged
  | failed (message : String)
  | written (before after : Record)
  | conflict
  | idle

/-- A writer computes from the record that it has read. -/
def KeyStore.prepare (crypto : Crypto V) (store : KeyStore) (now : Instant) (writer : Nat)
    (b : Binding) (loadedAt : Instant) (request : WriteRequest) : KeyStore × WriteOutcome :=
  match store.seen writer with
  | none => (store, .failed "database signing keyset disappeared")
  | some record =>
    match candidateOf crypto b now loadedAt record request with
    | .error message => ({ store with candidate := update store.candidate writer none }, .failed message)
    | .ok none => ({ store with candidate := update store.candidate writer none }, .unchanged)
    | .ok (some candidate) => ({ store with candidate := update store.candidate writer (some candidate) },
      .prepared)

/-- The comparison and the write are one statement; the loser gets the record of the winner. -/
def KeyStore.swap (store : KeyStore) (writer : Nat) : KeyStore × WriteOutcome :=
  match store.record, store.seen writer, store.candidate writer with
  | some record, some seen, some candidate =>
    let settled := { store with candidate := update store.candidate writer none }
    if record.revision = seen.revision then ({ settled with record := some candidate }, .written record candidate)
    else ({ settled with seen := update store.seen writer (some record) }, .conflict)
  | _, _, _ => (store, .idle)

def KeyStore.create (crypto : Crypto V) (store : KeyStore) (now : Instant) (b : Binding)
    (draws : Draws) : KeyStore × WriteOutcome :=
  match initialPayload crypto draws now with
  | .error message => (store, .failed message)
  | .ok payload =>
    match store.record with
    | some _ => (store, .existing)
    | none => ({ store with record := some ⟨1, payload, b.currentId⟩ }, .created ⟨1, payload, b.currentId⟩)

def execWrite (crypto : Crypto V) (store : KeyStore) (op : TimedOp) : KeyStore × WriteOutcome :=
  match op.op with
  | .create b draws => store.create crypto op.now b draws
  | .read writer =>
    ({ store with
      seen := update store.seen writer store.record
      candidate := update store.candidate writer none }, .read)
  | .prepare writer b loadedAt request => store.prepare crypto op.now writer b loadedAt request
  | .swap writer => store.swap writer

end NazoAuth.Keys
