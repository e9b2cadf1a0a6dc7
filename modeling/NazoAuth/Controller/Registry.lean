import Mathlib.Data.List.Sort
import NazoAuth.Lib.Base64
import NazoAuth.Lib.Except
import NazoAuth.Lib.JsonText
import NazoAuth.Lib.Table
import NazoAuth.Operator.Protocol

/-!
# Controllers — the registry of a deployment

A deployment has up to three controller keys, one in each slot, and one recovery root. Slots change
with an approval that an administrator has got for exactly this change; the root changes with an
approval, or by a recovery. A recovery is for a deployment that has no usable controller key left:
the holder of the recovery key allocates a challenge, and answers it.

Every operation is one transaction under the lock of its deployment: it answers with the tables that
it leaves, or with an error and the tables it has found. Only the count of wrong answers is written
after the transaction that has refused an answer, by a statement of its own (`recordFailedAttempt`).

Identifiers, nonces and tokens that the server draws are arguments, as are the answers of the user
table and of the audit ledger (`AuditAnswers`).
-/

namespace NazoAuth.Controller

open Lib

/-! ## Rows -/

inductive ControllerSlotStatus where
  | active
  | revoked
  deriving DecidableEq

/-- A row of the slots. -/
structure ControllerSlot where
  deploymentId : String
  controllerId : String
  label : String
  kid : String
  publicKey : List UInt8
  slotIndex : Fin 3
  issuedAt : Instant
  expiresAt : Instant
  status : ControllerSlotStatus
  revokedAt : Option Instant
  createdAt : Instant
  updatedAt : Instant
  deriving DecidableEq

def ControllerSlot.key (slot : ControllerSlot) : String × String := (slot.deploymentId, slot.controllerId)

/-- A slot as errors list it. -/
structure ControllerSlotSummary where
  controllerId : String
  label : String
  kid : String
  slotIndex : Fin 3
  issuedAt : Instant
  expiresAt : Instant
  status : ControllerSlotStatus
  deriving DecidableEq

def ControllerSlot.summary (slot : ControllerSlot) : ControllerSlotSummary :=
  ⟨slot.controllerId, slot.label, slot.kid, slot.slotIndex, slot.issuedAt, slot.expiresAt, slot.status⟩

/-- An active slot of a deployment. -/
def ControllerSlot.isActive (deploymentId : String) (slot : ControllerSlot) : Bool :=
  slot.deploymentId = deploymentId && slot.status = .active

/-- A slot with which operations are admitted. -/
def ControllerSlot.admits (deploymentId : String) (now : Instant) (slot : ControllerSlot) : Bool :=
  slot.isActive deploymentId && now < slot.expiresAt

/-- Changes that need an approval. -/
inductive ControllerIdentityAction where
  | bind
  | add
  | rotate
  | revoke
  | recoveryRootRotate

def ControllerIdentityAction.asStr : ControllerIdentityAction → String
  | .bind => "bind"
  | .add => "add"
  | .rotate => "rotate"
  | .revoke => "revoke"
  | .recoveryRootRotate => "recovery-root-rotate"

/-- A row of the approvals. -/
structure Approval where
  tokenHash : String
  deploymentId : String
  action : String
  actionSha256 : String
  expiresAt : Instant
  consumedAt : Option Instant

/-- The recovery key of a deployment. -/
structure RecoveryRoot where
  deploymentId : String
  recoveryKid : String
  recoveryPublicKey : List UInt8
  kdf : String
  generation : Int
  createdAt : Instant
  updatedAt : Instant
  deriving DecidableEq

/-- What is kept of a recovery, to answer the same submission again. -/
structure RecoveryReceipt where
  acceptedSignatureSha256 : List UInt8
  controllerId : String
  slotIndex : Fin 3
  slotIssuedAt : Instant
  slotExpiresAt : Instant
  recoveryGeneration : Int

/-- A challenge to the recovery key. -/
structure RecoveryChallenge where
  challengeId : Uuid
  deploymentId : String
  nonce : List UInt8
  allocationNonce : List UInt8
  controllerLabel : String
  controllerKid : String
  controllerPublicKey : List UInt8
  recoveryKid : String
  recoveryPublicKey : List UInt8
  attempts : Nat
  expiresAt : Instant
  consumedAt : Option Instant
  receipt : Option RecoveryReceipt

def RecoveryChallenge.isPending (deploymentId : String) (challenge : RecoveryChallenge) : Bool :=
  challenge.deploymentId = deploymentId && challenge.consumedAt.isNone

structure Tables where
  slots : Table ControllerSlot.key
  approvals : Table Approval.tokenHash
  roots : Table RecoveryRoot.deploymentId
  /-- The recovery keys that a deployment has had. -/
  rootKeys : Table (id : String × List UInt8 → String × List UInt8)
  challenges : Table RecoveryChallenge.challengeId

def Tables.empty : Tables := ⟨Table.empty, Table.empty, Table.empty, Table.empty, Table.empty⟩

/-! ## Constants and cryptography -/

/-- Thirty days. -/
def controllerKeyTtlSeconds : Int := 2592000

/-- Ten minutes. -/
def identityApprovalTtlSeconds : Int := 600

def recoveryChallengeTtlSeconds : Int := 600

def maxRecoveryChallengeAttempts : Nat := 5

/-- How a recovery key is derived. -/
def recoveryKdfId : String := "hkdf-sha256-v1"

/-- The greatest generation that the column holds. -/
def maxGeneration : Int := 2 ^ 31 - 1

structure ControllerCrypto where
  sha256 : List UInt8 → List UInt8
  /-- The digest of a token. -/
  blake3 : String → String
  /-- Whether a signature of a message is by the key with a public key. -/
  ed25519 : List UInt8 → List UInt8 → List UInt8 → Bool

/-! ## Errors -/

/-- Why an approval is refused. -/
inductive IdentityApprovalError where
  | unknownToken
  | replayed
  | expired
  | actionMismatch
  | transport (text : String)
  deriving DecidableEq

/-- Why a slot is not changed. -/
inductive ControllerRegistryError where
  | slotLimit (active : List ControllerSlotSummary)
  | unknownController
  | alreadyRevoked
  | duplicateKid
  | invalidIdentity (reason : String)
  | transport (text : String)
  deriving DecidableEq

/-- A controller that is still admitted. -/
structure AdmittedControllerSummary where
  controllerId : String
  kid : String
  expiresAt : Instant
  deriving DecidableEq

/-- Why a recovery or a new root is refused. -/
inductive RecoveryRootError where
  | controllersStillAdmitted (admitted : List AdmittedControllerSummary)
  | challengePending
  | invalidAllocationProof
  | allocationProofReplayed
  | challengeUnknown
  | challengeExpired
  | challengeExhausted
  | challengeReplayed
  | nonceMismatch
  | invalidSignature
  | rootMissing
  | invalidIdentity (reason : String)
  | transport (text : String)
  deriving DecidableEq

/-- What a recovery reports of the slot. -/
def ControllerRegistryError.toRecovery : ControllerRegistryError → RecoveryRootError
  | .duplicateKid => .invalidIdentity "proposed controller key material is already registered"
  | .invalidIdentity reason => .invalidIdentity reason
  | _ => .transport "controller registry failure during recovery commit"

/-- Why a change of the slots fails. -/
inductive CommitWithApprovalError where
  | approval (error : IdentityApprovalError)
  | mutation (error : ControllerRegistryError)
  | transport (text : String)
  deriving DecidableEq

/-- Why a change of the root fails. -/
inductive RecoveryRotationError where
  | approval (error : IdentityApprovalError)
  | mutation (error : RecoveryRootError)
  | transport (text : String)
  deriving DecidableEq

/-! ## Approvals -/

variable (tables : Tables)

/-- The approval is consumed. -/
def Tables.useApproval (tokenHash : String) (now : Instant) : Tables :=
  { tables with
    approvals := tables.approvals.update (fun r => r.tokenHash = tokenHash)
      (fun r => { r with consumedAt := some now }) fun _ => rfl }

/-- The approval of a token is used for one change. -/
def consumeApproval (tokenHash deploymentId : String) (action : ControllerIdentityAction)
    (actionSha256 : String) (now : Instant) : Except IdentityApprovalError Tables :=
  match tables.approvals.find? tokenHash with
  | none => .error .unknownToken
  | some row =>
    if row.consumedAt.isSome then .error .replayed
    else if row.expiresAt ≤ now then .error .expired
    else if row.deploymentId ≠ deploymentId || row.action ≠ action.asStr || row.actionSha256 ≠ actionSha256 then
      .error .actionMismatch
    else .ok (tables.useApproval tokenHash now)

/-! ## Slots -/

/-- A slot to be made. -/
structure NewControllerSlot where
  deploymentId : String
  label : String
  kid : String
  publicKey : List UInt8

/-- A new key for a controller. -/
structure RotateControllerKey where
  deploymentId : String
  controllerId : String
  label : String
  kid : String
  publicKey : List UInt8

def activeSlots (deploymentId : String) : List ControllerSlot := tables.slots.rows.filter (·.isActive deploymentId)

/-- `ORDER BY slot_index, controller_id`. -/
def ControllerSlot.before (slot other : ControllerSlot) : Prop :=
  slot.slotIndex < other.slotIndex ∨ (slot.slotIndex = other.slotIndex ∧ slot.controllerId ≤ other.controllerId)

instance : DecidableRel ControllerSlot.before := fun _ _ => inferInstanceAs (Decidable (_ ∨ (_ ∧ _)))

/-- Slots as an answer lists them. -/
def listed (slots : List ControllerSlot) : List ControllerSlot := slots.insertionSort ControllerSlot.before

/-- The first of three places that is free. -/
def lowestFreeSlotIndex (active : List ControllerSlot) : Option (Fin 3) :=
  [0, 1, 2].find? fun index => !active.any fun slot => slot.slotIndex = index

/-- A key is in one row of its deployment, whether active or revoked. -/
def kidInUse (deploymentId kid : String) (other : ControllerSlot → Bool) : Bool :=
  tables.slots.rows.any fun slot => slot.deploymentId = deploymentId && slot.kid = kid && other slot

/-- A slot in the first free place. -/
def insertSlot (slot : NewControllerSlot) (controllerId : String) (now : Instant) :
    Except ControllerRegistryError (Tables × ControllerSlot) :=
  let active := activeSlots tables slot.deploymentId
  match lowestFreeSlotIndex active with
  | none => .error (.slotLimit ((listed active).map ControllerSlot.summary))
  | some slotIndex =>
    if kidInUse tables slot.deploymentId slot.kid fun _ => true then .error .duplicateKid
    else
      let stored : ControllerSlot :=
        { deploymentId := slot.deploymentId, controllerId, label := slot.label, kid := slot.kid,
          publicKey := slot.publicKey, slotIndex, issuedAt := now,
          expiresAt := now + seconds controllerKeyTtlSeconds, status := .active, revokedAt := none,
          createdAt := now, updatedAt := now }
      match tables.slots.insert? stored with
      | none => .error (.transport "duplicate controller id")
      | some slots => .ok ({ tables with slots }, stored)

/-- What a conditional update has not changed is not there, or revoked. -/
def rejectedSlot (deploymentId controllerId : String) : ControllerRegistryError :=
  if (tables.slots.find? (deploymentId, controllerId)).isSome then .alreadyRevoked else .unknownController

/-- The active slot of a controller. -/
def activeSlot? (deploymentId controllerId : String) : Option ControllerSlot :=
  (tables.slots.find? (deploymentId, controllerId)).filter fun slot => slot.status = .active

def ControllerSlot.isController (deploymentId controllerId : String) (slot : ControllerSlot) : Bool :=
  slot.deploymentId = deploymentId && slot.controllerId = controllerId && slot.status = .active

/-- A new key with a lifetime of its own. -/
def ControllerSlot.rotate (rotation : RotateControllerKey) (now : Instant) (slot : ControllerSlot) :
    ControllerSlot :=
  { slot with
    label := rotation.label, kid := rotation.kid, publicKey := rotation.publicKey, issuedAt := now,
    expiresAt := now + seconds controllerKeyTtlSeconds, updatedAt := now }

/-- An active slot gets a new key. -/
def rotateSlot (rotation : RotateControllerKey) (now : Instant) :
    Except ControllerRegistryError (Tables × ControllerSlot) :=
  match activeSlot? tables rotation.deploymentId rotation.controllerId with
  | none => .error (rejectedSlot tables rotation.deploymentId rotation.controllerId)
  | some slot =>
    if kidInUse tables rotation.deploymentId rotation.kid fun other =>
        other.controllerId ≠ rotation.controllerId then
      .error .duplicateKid
    else
      .ok ({ tables with
        slots := tables.slots.update (·.isController rotation.deploymentId rotation.controllerId)
          (·.rotate rotation now) fun _ => rfl },
        slot.rotate rotation now)

def ControllerSlot.revoke (now : Instant) (slot : ControllerSlot) : ControllerSlot :=
  { slot with status := .revoked, revokedAt := some now, updatedAt := now }

/-- An active slot is revoked for good. -/
def revokeSlot (deploymentId controllerId : String) (now : Instant) :
    Except ControllerRegistryError (Tables × ControllerSlot) :=
  match activeSlot? tables deploymentId controllerId with
  | none => .error (rejectedSlot tables deploymentId controllerId)
  | some slot =>
    .ok ({ tables with
      slots := tables.slots.update (·.isController deploymentId controllerId) (·.revoke now) fun _ => rfl },
      slot.revoke now)

/-! ## The recovery root -/

/-- A root to be stored. -/
structure NewRecoveryRoot where
  deploymentId : String
  kid : String
  publicKey : List UInt8

variable (root : NewRecoveryRoot)

/-- A recovery key is used once. -/
def recordFreshRootKey : Except RecoveryRootError Tables :=
  match tables.rootKeys.insert? (root.deploymentId, root.publicKey) with
  | none => .error (.invalidIdentity "recovery key was already used for this deployment")
  | some rootKeys => .ok { tables with rootKeys }

/-- The row of a first root. -/
def NewRecoveryRoot.row (now : Instant) : RecoveryRoot :=
  ⟨root.deploymentId, root.kid, root.publicKey, recoveryKdfId, 1, now, now⟩

/-- The first root of a deployment; `false` if there is one. -/
def enrollInitialRoot (now : Instant) : Except RecoveryRootError (Tables × Bool) :=
  match tables.roots.insert? (root.row now) with
  | none => .ok (tables, false)
  | some roots => do
    let tables ← recordFreshRootKey { tables with roots } root
    .ok (tables, true)

def RecoveryRoot.replaced (now : Instant) (row : RecoveryRoot) : RecoveryRoot :=
  { row with
    recoveryKid := root.kid, recoveryPublicKey := root.publicKey, generation := row.generation + 1,
    updatedAt := now }

/-- The row of the root, and the row with the new key. -/
def upsertRoot (now : Instant) : Except RecoveryRootError (Tables × RecoveryRoot) :=
  match tables.roots.find? root.deploymentId with
  | none =>
    match tables.roots.insert? (root.row now) with
    | none => .error (.transport "duplicate recovery root")
    | some roots => .ok ({ tables with roots }, root.row now)
  | some row =>
    if row.recoveryPublicKey = root.publicKey then
      .error (.invalidIdentity "replacement recovery key must differ from the current root")
    else if row.generation = maxGeneration then .error (.transport "integer out of range")
    else .ok ({ tables with
      roots := tables.roots.update (fun r => r.deploymentId = root.deploymentId)
        (·.replaced root now) fun _ => rfl }, row.replaced root now)

/-- The pending challenges are consumed. -/
def Tables.endChallenges (deploymentId : String) (now : Instant) : Tables :=
  { tables with
    challenges := tables.challenges.update (·.isPending deploymentId)
      (fun row => { row with consumedAt := some now }) fun _ => rfl }

/-- A replaced root ends the challenges that it was to answer. -/
def replaceRoot (now : Instant) : Except RecoveryRootError (Tables × RecoveryRoot) := do
  let (tables, row) ← upsertRoot tables root now
  let tables ← recordFreshRootKey tables root
  .ok (tables.endChallenges root.deploymentId now, row)

/-! ## Challenges -/

/-- A signed request for a challenge. -/
structure NewRecoveryChallenge where
  deploymentId : String
  controllerLabel : String
  controllerKid : String
  controllerPublicKey : List UInt8
  recoveryKid : String
  recoveryPublicKey : List UInt8
  allocationNonce : List UInt8
  allocationSignature : List UInt8

/-- The controller and the root that a recovery installs. -/
structure RecoveryProposal where
  deploymentId : String
  controllerLabel : String
  controllerKid : String
  controllerPublicKey : List UInt8
  recoveryKid : String
  recoveryPublicKey : List UInt8

/-- Base64 text without padding. -/
def base64url (bytes : List UInt8) : String := String.ofList (encode64 bytes)

theorem base64url_injective : Function.Injective base64url := by
  intro a b hab
  have htext := congrArg decode64? (String.ofList_injective hab)
  rw [decode64?_encode64, decode64?_encode64] at htext
  exact Option.some.inj htext

section

variable (proposal : RecoveryProposal)

/-- The members of a proposal that are signed, in the order of their names; `others` are those of
the action. -/
def RecoveryProposal.members (others : List (String × Json)) : List (String × Json) :=
  others ++
    [("controller", .obj [("kid", .str proposal.controllerKid), ("label", .str proposal.controllerLabel),
        ("public_key", .str (base64url proposal.controllerPublicKey))]),
     ("deployment_id", .str proposal.deploymentId),
     ("recovery", .obj [("kid", .str proposal.recoveryKid),
       ("public_key", .str (base64url proposal.recoveryPublicKey))])]

def RecoveryProposal.message (others : List (String × Json)) : List UInt8 :=
  (Json.obj (proposal.members others)).value.compactBytes

/-- What is signed for a challenge. -/
def RecoveryProposal.allocationMessage (allocationNonce : List UInt8) : List UInt8 :=
  proposal.message [("action", .str "controller-recovery-allocate"),
    ("allocation_nonce", .str (base64url allocationNonce))]

def challengeMembers (challengeId : String) (nonce : List UInt8) : List (String × Json) :=
  [("action", .str "controller-recovery"), ("challenge_id", .str challengeId), ("nonce", .str (base64url nonce))]

/-- What is signed as an answer. -/
def RecoveryProposal.challengeMessage (challengeId : String) (nonce : List UInt8) : List UInt8 :=
  proposal.message (challengeMembers challengeId nonce)

end

def NewRecoveryChallenge.proposal (challenge : NewRecoveryChallenge) : RecoveryProposal :=
  ⟨challenge.deploymentId, challenge.controllerLabel, challenge.controllerKid, challenge.controllerPublicKey,
    challenge.recoveryKid, challenge.recoveryPublicKey⟩

def RecoveryChallenge.proposal (challenge : RecoveryChallenge) : RecoveryProposal :=
  ⟨challenge.deploymentId, challenge.controllerLabel, challenge.controllerKid, challenge.controllerPublicKey,
    challenge.recoveryKid, challenge.recoveryPublicKey⟩

/-- The request that the row was made for. -/
def sameAllocation (row : RecoveryChallenge) (challenge : NewRecoveryChallenge) : Bool :=
  row.deploymentId = challenge.deploymentId && row.controllerLabel = challenge.controllerLabel
    && row.controllerKid = challenge.controllerKid && row.controllerPublicKey = challenge.controllerPublicKey
    && row.recoveryKid = challenge.recoveryKid && row.recoveryPublicKey = challenge.recoveryPublicKey
    && row.allocationNonce = challenge.allocationNonce

/-- What is told of a challenge. -/
structure IssuedRecoveryChallenge where
  challengeId : Uuid
  deploymentId : String
  nonce : List UInt8
  expiresAt : Instant
  deriving DecidableEq

def RecoveryChallenge.issued (row : RecoveryChallenge) : IssuedRecoveryChallenge :=
  ⟨row.challengeId, row.deploymentId, row.nonce, row.expiresAt⟩

/-- A challenge that was not answered in time is consumed, not deleted: its allocation nonce stays
in use. -/
def sweepExpired (deploymentId : String) (now : Instant) : Tables :=
  { tables with
    challenges := tables.challenges.update (fun row => row.isPending deploymentId && decide (row.expiresAt ≤ now))
      (fun row => { row with consumedAt := some row.expiresAt }) fun _ => rfl }

/-- The challenge with an allocation nonce, or else a pending one. -/
def priorChallenge (deploymentId : String) (allocationNonce : List UInt8) : Option RecoveryChallenge :=
  (tables.challenges.rows.find? fun row => row.deploymentId = deploymentId && row.allocationNonce
    = allocationNonce).or (tables.challenges.rows.find? (·.isPending deploymentId))

def NewRecoveryChallenge.row (challenge : NewRecoveryChallenge) (challengeId : Uuid)
    (nonce : List UInt8) (now : Instant) : RecoveryChallenge where
  challengeId := challengeId
  deploymentId := challenge.deploymentId
  nonce := nonce
  allocationNonce := challenge.allocationNonce
  controllerLabel := challenge.controllerLabel
  controllerKid := challenge.controllerKid
  controllerPublicKey := challenge.controllerPublicKey
  recoveryKid := challenge.recoveryKid
  recoveryPublicKey := challenge.recoveryPublicKey
  attempts := 0
  expiresAt := now + seconds recoveryChallengeTtlSeconds
  consumedAt := none
  receipt := none

section Recovery

variable (crypto : ControllerCrypto)

def RecoveryProposal.verifyAllocation (proposal : RecoveryProposal)
    (allocationNonce publicKey signature : List UInt8) : Bool :=
  crypto.ed25519 publicKey (proposal.allocationMessage allocationNonce) signature

def RecoveryProposal.verifyChallenge (proposal : RecoveryProposal) (challengeId : Uuid)
    (nonce publicKey signature : List UInt8) : Bool :=
  crypto.ed25519 publicKey (proposal.challengeMessage (uuidText challengeId) nonce) signature

variable (tables : Tables)

/-- A challenge, where no controller is admitted. -/
def issueRecoveryChallenge (challenge : NewRecoveryChallenge) (challengeId : Uuid) (nonce : List UInt8)
    (now : Instant) : Except RecoveryRootError (Tables × IssuedRecoveryChallenge) :=
  match tables.roots.find? challenge.deploymentId with
  | none => .error .rootMissing
  | some root =>
    if !challenge.proposal.verifyAllocation crypto challenge.allocationNonce root.recoveryPublicKey
        challenge.allocationSignature then
      .error .invalidAllocationProof
    else
      let admitted := tables.slots.rows.filter (·.admits challenge.deploymentId now)
      if !admitted.isEmpty then
        .error (.controllersStillAdmitted
          ((listed admitted).map fun slot => ⟨slot.controllerId, slot.kid, slot.expiresAt⟩))
      else
        let tables := sweepExpired tables challenge.deploymentId now
        match priorChallenge tables challenge.deploymentId challenge.allocationNonce with
        | some prior =>
          if prior.consumedAt.isSome then .error .allocationProofReplayed
          else if sameAllocation prior challenge then .ok (tables, prior.issued)
          else .error .challengePending
        | none =>
          match tables.challenges.insert? (challenge.row challengeId nonce now) with
          | none => .error .challengePending
          | some challenges => .ok ({ tables with challenges }, (challenge.row challengeId nonce now).issued)

/-! ## Submissions -/

/-- An answer to a challenge. -/
structure RecoverySubmission where
  deploymentId : String
  challengeId : Uuid
  nonce : List UInt8
  signature : List UInt8

/-- What a recovery has stored. -/
structure RecoveredSlotCommit where
  slot : ControllerSlot
  recoveryGeneration : Int
  deriving DecidableEq

/-- The answer to a submission: of a recovery that it has committed, or of one that it has committed
before. -/
inductive SubmissionResult where
  | committed (commit : RecoveredSlotCommit)
  | receipt (commit : RecoveredSlotCommit)
  deriving DecidableEq

/-- The slot of a recovery, as it was committed. -/
def RecoveryReceipt.commit (receipt : RecoveryReceipt) (row : RecoveryChallenge) : RecoveredSlotCommit where
  slot :=
    { deploymentId := row.deploymentId, controllerId := receipt.controllerId, label := row.controllerLabel,
      kid := row.controllerKid,
      publicKey := row.controllerPublicKey, slotIndex := receipt.slotIndex, issuedAt := receipt.slotIssuedAt,
      expiresAt := receipt.slotExpiresAt, status := .active, revokedAt := none,
      createdAt := receipt.slotIssuedAt, updatedAt := receipt.slotIssuedAt }
  recoveryGeneration := receipt.recoveryGeneration

/-- A consumed challenge answers its own submission again. -/
def submitConsumed (row : RecoveryChallenge) (submission : RecoverySubmission) :
    Except RecoveryRootError RecoveredSlotCommit :=
  if maxRecoveryChallengeAttempts ≤ row.attempts && row.receipt.isNone then .error .challengeExhausted
  else match row.receipt with
    | none => .error .challengeReplayed
    | some receipt =>
      if row.nonce ≠ submission.nonce || receipt.acceptedSignatureSha256 ≠ crypto.sha256 submission.signature then
        .error .challengeReplayed
      else .ok (receipt.commit row)

/-- A recovery consumes the challenge. -/
def Tables.storeReceipt (challengeId : Uuid) (receipt : RecoveryReceipt) (now : Instant) : Tables :=
  { tables with
    challenges := tables.challenges.update (fun row => row.challengeId = challengeId)
      (fun row => { row with consumedAt := some now, receipt := some receipt }) fun _ => rfl }

/-- All active slots are revoked. -/
def Tables.revokeSlots (deploymentId : String) (now : Instant) : Tables :=
  { tables with
    slots := tables.slots.update (·.isActive deploymentId) (·.revoke now) fun _ => rfl }

/-- Every slot is revoked and one is made, and the root is replaced. -/
def commitRecovery (row : RecoveryChallenge) (submission : RecoverySubmission) (controllerId : String)
    (now : Instant) : Except RecoveryRootError (Tables × RecoveredSlotCommit) := do
  let (tables, slot) ← (insertSlot (tables.revokeSlots submission.deploymentId now)
    ⟨row.deploymentId, row.controllerLabel, row.controllerKid, row.controllerPublicKey⟩ controllerId
    now).mapError ControllerRegistryError.toRecovery
  let (tables, root) ← replaceRoot tables ⟨submission.deploymentId, row.recoveryKid, row.recoveryPublicKey⟩ now
  let receipt : RecoveryReceipt :=
    ⟨crypto.sha256 submission.signature, slot.controllerId, slot.slotIndex, slot.issuedAt, slot.expiresAt,
      root.generation⟩
  .ok (tables.storeReceipt submission.challengeId receipt now, ⟨slot, root.generation⟩)

/-- The comparisons of a submission, in the order of the source. -/
def submitPending (row : RecoveryChallenge) (submission : RecoverySubmission) (controllerId : String)
    (now : Instant) : Except RecoveryRootError (Tables × RecoveredSlotCommit) :=
  if row.nonce ≠ submission.nonce then .error .nonceMismatch
  else match tables.roots.find? submission.deploymentId with
    | none => .error .rootMissing
    | some root =>
      if !row.proposal.verifyChallenge crypto submission.challengeId submission.nonce root.recoveryPublicKey
          submission.signature then
        .error .invalidSignature
      else if tables.slots.rows.any (·.admits submission.deploymentId now)
        then .error (.controllersStillAdmitted [])
      else commitRecovery crypto tables row submission controllerId now

/-- An answer is checked, and committed if it is right. -/
def submitRecoveryChallenge (submission : RecoverySubmission) (controllerId : String)
    (now : Instant) : Except RecoveryRootError (Tables × SubmissionResult) :=
  match Operator.validateFileIdentifier submission.deploymentId with
  | .error _ => .error (.invalidIdentity "deployment_id is invalid")
  | .ok () =>
    match (tables.challenges.find? submission.challengeId).filter fun row =>
        row.deploymentId = submission.deploymentId with
    | none => .error .challengeUnknown
    | some row =>
      if row.consumedAt.isSome then do
        let commit ← submitConsumed crypto row submission
        .ok (tables, .receipt commit)
      else if row.expiresAt ≤ now then .error .challengeExpired
      else do
        let (tables, commit) ← submitPending crypto tables row submission controllerId now
        .ok (tables, .committed commit)

/-- A wrong answer, to be counted. -/
structure FailedAttempt where
  deploymentId : String
  challengeId : Uuid
  now : Instant
  deriving DecidableEq

/-- The row that counts the attempt. -/
def FailedAttempt.counts (attempt : FailedAttempt) (row : RecoveryChallenge) : Bool :=
  row.challengeId = attempt.challengeId && row.deploymentId = attempt.deploymentId && row.consumedAt.isNone
    && attempt.now < row.expiresAt && row.attempts < maxRecoveryChallengeAttempts

/-- The last attempt consumes the challenge. -/
def RecoveryChallenge.attempted (now : Instant) (row : RecoveryChallenge) : RecoveryChallenge :=
  { row with
    attempts := row.attempts + 1
    consumedAt := if maxRecoveryChallengeAttempts ≤ row.attempts + 1 then some now else row.consumedAt }

def recordFailedAttempt (attempt : FailedAttempt) : Tables :=
  { tables with
    challenges := tables.challenges.update attempt.counts (·.attempted attempt.now) fun _ => rfl }

end Recovery

/-! ## Changes with an approval -/

/-- Whether the administrator is one, and whether the outcome could be written to the audit
ledger. -/
structure AuditAnswers where
  authorized : Bool
  appended : Bool

def unauthorizedActor : String := "admin identity actor is no longer authorized in the current context"

def ledgerFailure : String := "security audit event could not be appended"

def rootAlreadyPresent : String := "recovery root already present; bind only initializes a deployment without one"

def initialRootFailed : String := "initial recovery root enrollment failed and the first binding rolled back"

/-- A request for an approval. -/
structure IdentityApprovalCommand where
  deploymentId : String
  action : ControllerIdentityAction
  actionSha256 : String

/-- A slot to be made under an approval. -/
structure SlotCreationCommand where
  approvalToken : String
  action : ControllerIdentityAction
  actionSha256 : String
  slot : NewControllerSlot
  initialRoot : Option NewRecoveryRoot

/-- A key to be replaced under an approval. -/
structure SlotRotationCommand where
  approvalToken : String
  actionSha256 : String
  rotation : RotateControllerKey

/-- A slot to be revoked under an approval. -/
structure SlotRevocationCommand where
  approvalToken : String
  deploymentId : String
  actionSha256 : String
  controllerId : String

/-- A root to be replaced under an approval. -/
structure RecoveryRotationCommand where
  approvalToken : String
  actionSha256 : String
  root : NewRecoveryRoot

section Commits

variable (crypto : ControllerCrypto)

/-- An administrator gets a token for one change. -/
def issueIdentityApproval (tables : Tables) (command : IdentityApprovalCommand) (token : String)
    (audit : AuditAnswers) (now : Instant) : Except IdentityApprovalError (Tables × Instant) :=
  if !audit.authorized then .error (.transport unauthorizedActor)
  else
    let expiresAt := now + seconds identityApprovalTtlSeconds
    match tables.approvals.insert? ⟨crypto.blake3 token, command.deploymentId, command.action.asStr,
        command.actionSha256, expiresAt, none⟩ with
    | none => .error (.transport "duplicate token hash")
    | some approvals => if !audit.appended then .error (.transport ledgerFailure)
      else .ok ({ tables with approvals }, expiresAt)

/-- A change under an approval: `mutate` runs after the approval is consumed and before the outcome
is appended. -/
def commitWithApproval {ε α : Type} (approvalError : IdentityApprovalError → ε)
    (transport : String → ε) (tables : Tables) (token deploymentId : String)
    (action : ControllerIdentityAction) (actionSha256 : String) (audit : AuditAnswers)
    (now : Instant) (mutate : Tables → Except ε (Tables × α)) : Except ε (Tables × α) :=
  if !audit.authorized then .error (transport unauthorizedActor)
  else do
    let tables ← (consumeApproval tables (crypto.blake3 token) deploymentId action actionSha256 now).mapError
      approvalError
    let (tables, stored) ← mutate tables
    if !audit.appended then .error (transport ledgerFailure) else .ok (tables, stored)

variable (tables : Tables)

/-- The first root of a deployment is stored before the slot. -/
def enrollWithSlot (initialRoot : Option NewRecoveryRoot) (now : Instant) :
    Except CommitWithApprovalError Tables :=
  match initialRoot with
  | none => .ok tables
  | some root =>
    match enrollInitialRoot tables root now with
    | .error _ => .error (.transport initialRootFailed)
    | .ok (_, false) => .error (.mutation (.invalidIdentity rootAlreadyPresent))
    | .ok (tables, true) => .ok tables

/-- A new slot, after the first root if one is given. -/
def commitSlotCreation (command : SlotCreationCommand) (controllerId : String) (audit : AuditAnswers)
    (now : Instant) : Except CommitWithApprovalError (Tables × ControllerSlot) :=
  commitWithApproval crypto .approval .transport tables command.approvalToken command.slot.deploymentId
    command.action command.actionSha256 audit now fun tables => do
      let tables ← enrollWithSlot tables command.initialRoot now
      (insertSlot tables command.slot controllerId now).mapError .mutation

def commitSlotRotation (command : SlotRotationCommand) (audit : AuditAnswers) (now : Instant) :
    Except CommitWithApprovalError (Tables × ControllerSlot) :=
  commitWithApproval crypto .approval .transport tables command.approvalToken command.rotation.deploymentId .rotate
    command.actionSha256 audit now fun tables => (rotateSlot tables command.rotation now).mapError .mutation

def commitSlotRevocation (command : SlotRevocationCommand) (audit : AuditAnswers) (now : Instant) :
    Except CommitWithApprovalError (Tables × ControllerSlot) :=
  commitWithApproval crypto .approval .transport tables command.approvalToken command.deploymentId .revoke
    command.actionSha256 audit now fun tables =>
    (revokeSlot tables command.deploymentId command.controllerId now).mapError .mutation

def commitRotation (command : RecoveryRotationCommand) (audit : AuditAnswers) (now : Instant) :
    Except RecoveryRotationError (Tables × RecoveryRoot) :=
  commitWithApproval crypto .approval .transport tables command.approvalToken command.root.deploymentId
    .recoveryRootRotate command.actionSha256 audit now fun tables =>
    (replaceRoot tables command.root now).mapError .mutation

end Commits

/-! ## The registry as a machine -/

/-- The tables, and the wrong answers that are not counted yet. -/
structure Registry where
  tables : Tables
  failures : List FailedAttempt

def Registry.empty : Registry := ⟨Tables.empty, []⟩

/-- The transactions of the registry. -/
inductive Request where
  | issueApproval (command : IdentityApprovalCommand) (token : String) (audit : AuditAnswers)
  | createSlot (command : SlotCreationCommand) (controllerId : String) (audit : AuditAnswers)
  | rotateSlot (command : SlotRotationCommand) (audit : AuditAnswers)
  | revokeSlot (command : SlotRevocationCommand) (audit : AuditAnswers)
  | rotateRoot (command : RecoveryRotationCommand) (audit : AuditAnswers)
  | allocate (challenge : NewRecoveryChallenge) (challengeId : Uuid) (nonce : List UInt8)
  | submit (submission : RecoverySubmission) (controllerId : String)
  /-- A wrong answer is counted. -/
  | record (attempt : FailedAttempt)
  /-- Some of the approvals that have expired are deleted. -/
  | cleanup (chosen : Approval → Bool)

/-- A request, with the clock that it reads. -/
structure Call where
  now : Instant
  request : Request

inductive Outcome where
  | approvalIssued (expiresAt : Instant)
  | approvalFailed (error : IdentityApprovalError)
  | slotStored (slot : ControllerSlot)
  | commitFailed (error : CommitWithApprovalError)
  | rootReplaced (root : RecoveryRoot)
  | rotationFailed (error : RecoveryRotationError)
  | challengeIssued (issued : IssuedRecoveryChallenge)
  | challengeFailed (error : RecoveryRootError)
  | submitted (result : SubmissionResult)
  | submissionFailed (error : RecoveryRootError)
  | recorded
  | idle
  | cleaned
  deriving DecidableEq

/-- A transaction that has failed leaves the tables as they were. -/
def Registry.settle {ε α : Type} (registry : Registry) (result : Except ε (Tables × α))
    (done : α → Outcome) (failed : ε → Outcome) : Registry × Outcome :=
  match result with
  | .error error => (registry, failed error)
  | .ok (tables, answer) => ({ registry with tables }, done answer)

/-- A wrong answer is counted later. -/
def Registry.submit (crypto : ControllerCrypto) (registry : Registry) (submission : RecoverySubmission)
    (controllerId : String) (now : Instant) : Registry × Outcome :=
  match submitRecoveryChallenge crypto registry.tables submission controllerId now with
  | .ok (tables, result) => ({ registry with tables }, .submitted result)
  | .error .nonceMismatch =>
    ({ registry with failures := ⟨submission.deploymentId, submission.challengeId, now⟩ :: registry.failures },
      .submissionFailed .nonceMismatch)
  | .error .invalidSignature =>
    ({ registry with failures := ⟨submission.deploymentId, submission.challengeId, now⟩ :: registry.failures },
      .submissionFailed .invalidSignature)
  | .error error => (registry, .submissionFailed error)

/-- An outstanding attempt is counted. -/
def Registry.record (registry : Registry) (attempt : FailedAttempt) : Registry × Outcome :=
  if attempt ∈ registry.failures then
    (⟨recordFailedAttempt registry.tables attempt, registry.failures.erase attempt⟩, .recorded)
  else (registry, .idle)

/-- Chosen approvals that are over are deleted. -/
def Tables.cleanup (tables : Tables) (now : Instant) (chosen : Approval → Bool) : Tables :=
  { tables with
    approvals := tables.approvals.delete fun approval => decide (approval.expiresAt ≤ now) && chosen approval }

/-- One transaction. -/
def execRegistry (crypto : ControllerCrypto) (registry : Registry) (call : Call) : Registry × Outcome :=
  match call.request with
  | .issueApproval command token audit =>
    registry.settle (issueIdentityApproval crypto registry.tables command token audit call.now) .approvalIssued
      .approvalFailed
  | .createSlot command controllerId audit =>
    registry.settle (commitSlotCreation crypto registry.tables command controllerId audit call.now) .slotStored
      .commitFailed
  | .rotateSlot command audit =>
    registry.settle (commitSlotRotation crypto registry.tables command audit call.now) .slotStored .commitFailed
  | .revokeSlot command audit =>
    registry.settle (commitSlotRevocation crypto registry.tables command audit call.now) .slotStored .commitFailed
  | .rotateRoot command audit =>
    registry.settle (commitRotation crypto registry.tables command audit call.now) .rootReplaced .rotationFailed
  | .allocate challenge challengeId nonce =>
    registry.settle (issueRecoveryChallenge crypto registry.tables challenge challengeId nonce call.now)
      .challengeIssued .challengeFailed
  | .submit submission controllerId => registry.submit crypto submission controllerId call.now
  | .record attempt => registry.record attempt
  | .cleanup chosen =>
    ({ registry with tables := registry.tables.cleanup call.now chosen }, .cleaned)

end NazoAuth.Controller
