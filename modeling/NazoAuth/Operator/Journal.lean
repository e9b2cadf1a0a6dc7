import NazoAuth.Lib.Program
import NazoAuth.Operator.Protocol

/-!
# Operator journal — signed operations, one record each

A signed operation runs under a journal: one file per operation identifier holds its record, which
moves from `accepted` over `executing` to `completed`. A record is published by a hard link and
replaced by the rename of a temporary that is written and synced first; the next process finishes a
publication that was cut off.

The processes are programs over file-system calls (`Command`), so that one can be stopped between
any two of them. A crash is one of the process: what a call has done stays visible. It is durable
once the directory was synced after it (`Disk`). A call may also fail, and a write that fails leaves
a file that cannot be read (`Content.torn`). The task lock admits one process at a time.
-/

namespace NazoAuth.Operator

open Lib
open Function (update)

/-! ## Results of operations -/

inductive ControlOutcome where
  | succeeded
  | failed
  | inProgress
  deriving DecidableEq

inductive ControlErrorCode where
  | executionFailed
  deriving DecidableEq

/-- The data of a result is of type `δ`. -/
structure ControlResult (δ : Type) where
  schema : Nat
  operationId : String
  requestHash : String
  outcome : ControlOutcome
  error : Option ControlErrorCode
  acceptedAt : Int
  completedAt : Option Int
  result : Option δ
  deriving DecidableEq

/-- What the protocol knows of the data of results. -/
structure DataFormat (δ : Type) where
  isRecoveryInvalidation : δ → Bool
  validateControlResultData : δ → Except ProtocolError Unit
  /-- The number of bytes of a serialized result. -/
  encodedLength : ControlResult δ → Nat

def controlResultSchema : Nat := 2

def maxControlResultBytes : Nat := 64 * 1024

def validateControlResult {δ : Type} (f : DataFormat δ) (result : ControlResult δ) :
    Except ProtocolError Unit := do
  if result.schema ≠ controlResultSchema then .error (.policy "unsupported control result schema")
  validateUuidv7 result.operationId
  validateLowerHex result.requestHash 64
  match result.outcome with
  | .inProgress =>
    if result.error.isSome then .error (.policy "in-progress results carry no error code")
    if result.completedAt.isSome then .error (.policy "in-progress results have no completion time")
    if result.result.isSome then .error (.policy "in-progress results carry no result data")
  | outcome =>
    if result.completedAt.isNone then .error (.policy "terminal results require a completion time")
    if result.completedAt.any fun at_ => at_ < result.acceptedAt then
      .error (.policy "completion precedes journal acceptance")
    if outcome = .failed then
      if result.error.isNone then .error (.policy "failed results require an error code")
      if result.result.isSome then .error (.policy "failed results carry no result data")
    else if result.error.isSome then .error (.policy "succeeded results carry no error code")
    match result.result with
    | some data => f.validateControlResultData data
    | none => pure ()

/-- `encode_control_result`; the bytes themselves are left out. -/
def encodeControlResult {δ : Type} (f : DataFormat δ) (result : ControlResult δ) : Except ProtocolError Unit := do
  validateControlResult f result
  if maxControlResultBytes < f.encodedLength result then .error .tooLarge

/-! ## Records -/

inductive Phase where
  | accepted
  | executing
  | completed
  deriving DecidableEq

def phaseRank : Phase → Nat
  | .accepted => 0
  | .executing => 1
  | .completed => 2

structure OperationJournalRecord (δ : Type) where
  schema : Nat
  operationId : String
  requestHash : String
  controllerId : String
  kid : String
  acceptedAt : Int
  phase : Phase
  result : Option (ControlResult δ)
  recoveryCoverageVersion : Option Nat
  migrationBaseline : Option String
  deriving DecidableEq

structure AuthorizationSnapshot where
  controllerId : String
  kid : String
  acceptedAt : Int

inductive JournalFlowError where
  | operationIdConflict
  | retryableExecution (message : String)
  | transport (message : String)

def JournalFlowError.text : JournalFlowError → String
  | .operationIdConflict => "OPERATION_ID_CONFLICT"
  | .retryableExecution message => message
  | .transport message => message

inductive SideEffectError where
  | terminal (message : String)
  | retryable (message : String)

def controlJournalSchema : Nat := 1

/-- Characters stand for bytes: a text that passes has none beyond ASCII. -/
def ensureFileSafeIdentifier (value : String) : Except JournalFlowError Unit :=
  if value.isEmpty || 64 < value.length || !value.toList.all (fun c => c.isAlphanum || c = '-') then
    .error (.transport "journal identifier is not file-safe")
  else .ok ()

/-- The category of control characters. -/
def isControl (c : Char) : Bool := c.toNat < 32 || (127 ≤ c.toNat && c.toNat < 160)

def ensureBoundedText (field value : String) : Except JournalFlowError Unit :=
  if value.isEmpty || 256 < value.utf8ByteSize || value.toList.any isControl then
    .error (.transport ("journal snapshot field '" ++ field ++ "' is unbounded or empty"))
  else .ok ()

def ensureRequestHashShape (value : String) : Except JournalFlowError Unit :=
  if value.length ≠ 64 || !value.toList.all isLowerHex then
    .error (.transport "journal request hash is not lowercase sha256 hex")
  else .ok ()

def ensureControllerId (value : String) : Except JournalFlowError Unit :=
  (validateControllerId value).mapError fun e => .transport ("journal controller_id is invalid: " ++ e.text)

section Journal

variable {δ : Type} [DecidableEq δ] (f : DataFormat δ)

/-- The result is the receipt of a recovery for the whole deployment. -/
def coveredRecovery (result : ControlResult δ) : Bool :=
  result.outcome = .succeeded && result.result.any f.isRecoveryInvalidation

variable (record : OperationJournalRecord δ)

/-- The fields that a record has in every phase. -/
def validateHeader : Except String Unit := do
  if record.schema ≠ controlJournalSchema then .error "control operation journal record has an unsupported schema"
  (ensureFileSafeIdentifier record.operationId).mapError JournalFlowError.text
  (ensureRequestHashShape record.requestHash).mapError JournalFlowError.text
  (ensureControllerId record.controllerId).mapError JournalFlowError.text
  (ensureBoundedText "kid" record.kid).mapError JournalFlowError.text
  if record.acceptedAt ≤ 0 then .error "control operation journal record has an invalid acceptance time"

/-- A result belongs to a completed record, and to its operation. -/
def validatePhase : Except String Unit :=
  match record.phase, record.result with
  | .completed, none => .error "completed control operation journal record carries no result"
  | .completed, some result => do
    (validateControlResult f result).mapError fun e => "journal result is invalid: " ++ e.text
    if result.operationId ≠ record.operationId || result.requestHash ≠ record.requestHash
        || result.acceptedAt ≠ record.acceptedAt then
      .error "journal result is not bound to its accepted operation"
  | _, some _ => .error "non-terminal control operation journal record carries a result"
  | _, none => pure ()

def validateRecord : Except String Unit := do
  validateHeader record
  validatePhase f record
  if record.recoveryCoverageVersion ≠ (if record.result.any (coveredRecovery f) then some 1 else none) then
    .error "control journal has unsupported or unrelated recovery coverage"

/-! ## File-system calls -/

/-- Names in the journal directory: a record, its temporary, and the unique temporary of a
publication. -/
inductive FileName where
  | record (operationId : String)
  | temporary (operationId : String)
  | publish (nonce : Nat)
  deriving DecidableEq

/-- The bytes of a file: a serialized record, or what a write has left that did not end. -/
inductive Content (δ : Type) where
  | torn
  | json (record : OperationJournalRecord δ)
  deriving DecidableEq

abbrev Directory (δ : Type) := FileName → Option (Content δ)

inductive RejectionClass where
  | request
  | authorization
  | deployment
  | revision
  | conflict
  | unavailable

/-- What a process does outside of its memory. -/
inductive Command (δ : Type) where
  | present (file : FileName)
  | read (file : FileName)
  /-- A new file is opened, written and synced. -/
  | createNew (file : FileName) (record : OperationJournalRecord δ)
  | hardLink (source target : FileName)
  | rename (source target : FileName)
  | removeFile (file : FileName)
  | createDirectories
  /-- The directory that the journal directory stands in is synced. -/
  | syncStateDirectory
  | syncDirectory
  | random
  /-- The admission of the operation, to the acceptance time. -/
  | admission
  | schemaRevision
  | sideEffect (record : OperationJournalRecord δ)
  | now

abbrev Reply (δ : Type) : Command δ → Type
  | .present _ => Except String Bool
  | .read _ => Except String (Content δ)
  | .createNew _ _ | .hardLink _ _ | .rename _ _ | .removeFile _ => Except String Unit
  | .createDirectories | .syncStateDirectory | .syncDirectory => Except String Unit
  | .random => Nat
  | .admission => Except RejectionClass AuthorizationSnapshot
  | .schemaRevision => Except String String
  | .sideEffect _ => Except SideEffectError (Option δ)
  | .now => Int

inductive Io where
  | done
  | failed
  /-- The write stops in the middle; any other call fails. -/
  | torn
  deriving DecidableEq

/-- What the environment answers to one command, whichever it is. -/
structure Input (δ : Type) where
  io : Io
  random : Nat
  admission : Except RejectionClass AuthorizationSnapshot
  revision : Except String String
  effect : Except SideEffectError (Option δ)
  clock : Int

/-- What the calls do to the directory that processes see. -/
def handle (d : Directory δ) (c : Command δ) (i : Input δ) : Directory δ × Reply δ c :=
  match c with
  | .present file => if i.io = .done then (d, .ok (d file).isSome) else (d, .error "failed to inspect")
  | .read file =>
    if i.io = .done then
      match d file with
      | some content => (d, .ok content)
      | none => (d, .error "not found")
    else (d, .error "failed to read")
  | .createNew file record =>
    match d file, i.io with
    | none, .done => (update d file (some (.json record)), .ok ())
    | none, .torn => (update d file (some .torn), .error "failed to write")
    | _, _ => (d, .error "failed to create")
  | .hardLink source target =>
    if i.io = .done && (d source).isSome && (d target).isNone then (update d target (d source), .ok ())
    else (d, .error "failed to link")
  | .rename source target =>
    if i.io = .done && (d source).isSome then
      (update (update d target (d source)) source none, .ok ())
    else (d, .error "failed to rename")
  | .removeFile file =>
    if i.io = .done && (d file).isSome then (update d file none, .ok ())
      else (d, .error "failed to remove")
  | .createDirectories => (d, if i.io = .done then .ok () else .error "failed to create")
  | .syncStateDirectory | .syncDirectory => (d, if i.io = .done then .ok () else .error "failed to sync")
  | .random => (d, i.random)
  | .admission => (d, i.admission)
  | .schemaRevision => (d, i.revision)
  | .sideEffect _ => (d, i.effect)
  | .now => (d, i.clock)

/-! ## The journal -/

abbrev Journal (δ α : Type) := Prog (Command δ) (Reply δ) JournalFlowError α

def transport {α : Type} (x : Except String α) : Journal δ α := Prog.ofExcept (x.mapError .transport)

def regularStateFilePresent (file : FileName) : Journal δ Bool := .call (.present file) transport

def createNew (file : FileName) (record : OperationJournalRecord δ) : Journal δ Unit :=
  .call (.createNew file record) transport

def rename (source target : FileName) : Journal δ Unit := .call (.rename source target) transport

def syncDirectory : Journal δ Unit := .call .syncDirectory transport

def decodeRecord : Content δ → Except String (OperationJournalRecord δ)
  | .torn => .error "control operation journal record is invalid"
  | .json record => do
    validateRecord f record
    return record

def readRecord (file : FileName) : Journal δ (OperationJournalRecord δ) :=
  .call (.read file) fun reply => transport (reply >>= decodeRecord f)

/-- The temporary takes the place of the record. -/
def adopt (operationId : String) : Journal δ Unit := do
  rename (.temporary operationId) (.record operationId)
  syncDirectory

def recoverTemporary (operationId : String) : Journal δ Unit := do
  if !(← regularStateFilePresent (.temporary operationId)) then return ()
  let temporary ← readRecord f (.temporary operationId)
  if !(← regularStateFilePresent (.record operationId)) then adopt operationId
  else
    let published ← readRecord f (.record operationId)
    if published.operationId ≠ temporary.operationId || published.requestHash ≠ temporary.requestHash then
      Prog.throw (.transport
        "control operation journal temporary belongs to a different request; refusing recovery")
    else if phaseRank published.phase < phaseRank temporary.phase
        || (phaseRank temporary.phase = phaseRank published.phase && temporary = published) then adopt operationId
    else Prog.throw (.transport
      "control operation journal temporary is stale behind the published record; refusing recovery")

def publishAccepted (record : OperationJournalRecord δ) : Journal δ Unit :=
  .call .random fun nonce => do
    createNew (.publish nonce) record
    -- The link may fail; its temporary is removed in both cases.
    .call (.hardLink (.publish nonce) (.record record.operationId)) fun published =>
      .call (.removeFile (.publish nonce)) fun cleanup => do
        transport cleanup
        transport published
        syncDirectory

def replaceRecord (operationId : String) (record : OperationJournalRecord δ) : Journal δ Unit := do
  createNew (.temporary operationId) record
  adopt operationId

/-- A presented operation; its envelope was validated when it was presented. -/
structure ControlOperation where
  operationId : String
  requestHash : String
  migrateApply : Bool
  id_valid : validateUuidv7 operationId = .ok ()
  hash_valid : validateLowerHex requestHash 64 = .ok ()

def accept (operation : ControlOperation) (snapshot : AuthorizationSnapshot) :
    Journal δ (OperationJournalRecord δ) := do
  Prog.ofExcept (ensureFileSafeIdentifier operation.operationId)
  Prog.ofExcept (ensureRequestHashShape operation.requestHash)
  Prog.ofExcept (ensureControllerId snapshot.controllerId)
  Prog.ofExcept (ensureBoundedText "kid" snapshot.kid)
  if snapshot.acceptedAt ≤ 0 then Prog.throw (.transport "journal acceptance time must be positive")
  else
    .call .createDirectories fun created => do
      transport created
      .call .syncStateDirectory fun synced => do
        transport synced
        let record : OperationJournalRecord δ :=
          { schema := controlJournalSchema
            recoveryCoverageVersion := none
            migrationBaseline := none
            operationId := operation.operationId
            requestHash := operation.requestHash
            controllerId := snapshot.controllerId
            kid := snapshot.kid
            acceptedAt := snapshot.acceptedAt
            phase := .accepted
            result := none }
        publishAccepted record
        return record

def loadAccepted (operation : ControlOperation) : Journal δ (Option (OperationJournalRecord δ)) := do
  Prog.ofExcept (ensureFileSafeIdentifier operation.operationId)
  Prog.ofExcept (ensureRequestHashShape operation.requestHash)
  recoverTemporary f operation.operationId
  if !(← regularStateFilePresent (.record operation.operationId)) then return none
  let record ← readRecord f (.record operation.operationId)
  if record.operationId ≠ operation.operationId || record.requestHash ≠ operation.requestHash then
    Prog.throw .operationIdConflict
  else return some record

section

variable (record : OperationJournalRecord δ)

def OperationJournalRecord.needsMigrationBaseline : Bool :=
  record.phase = .accepted && record.migrationBaseline.isNone

/-- The record with the baseline, published as executing. -/
def persistMigrationBaseline (revision : String) : Journal δ (OperationJournalRecord δ) :=
  if !record.needsMigrationBaseline || revision.isEmpty || 256 < revision.utf8ByteSize then
    Prog.throw (.transport "invalid migration baseline checkpoint")
  else do
    let record := { record with migrationBaseline := some revision, phase := .executing }
    replaceRecord record.operationId record
    return record

def markExecuting : Journal δ (OperationJournalRecord δ) := do
  let record := { record with phase := .executing }
  replaceRecord record.operationId record
  return record

structure JournaledOutcome (δ : Type) where
  result : ControlResult δ
  recovered : Bool

/-- The record with its result. -/
def OperationJournalRecord.complete (result : ControlResult δ) : OperationJournalRecord δ :=
  { record with
    phase := .completed
    recoveryCoverageVersion := if coveredRecovery f result then some 1 else none
    result := some result }

def persistCompletedResult (result : ControlResult δ) : Journal δ (JournaledOutcome δ) := do
  replaceRecord result.operationId (record.complete f result)
  return ⟨result, false⟩

/-- The result of an execution that has ended. -/
def controlResult (outcome : ControlOutcome) (error : Option ControlErrorCode)
    (data : Option δ) (completedAt : Int) : ControlResult δ where
  schema := controlResultSchema
  operationId := record.operationId
  requestHash := record.requestHash
  outcome := outcome
  error := error
  acceptedAt := record.acceptedAt
  completedAt := some completedAt
  result := data

/-- The end of an execution: the result is encoded, then it is published. -/
def finishOperation (outcome : ControlOutcome) (error : Option ControlErrorCode) (data : Option δ) :
    Journal δ (JournaledOutcome δ) :=
  .call .now fun completedAt => do
    let result := controlResult record outcome error data completedAt
    Prog.ofExcept ((encodeControlResult f result).mapError fun e => .transport e.text)
    persistCompletedResult f record result

/-- The record is executing before the side effect. -/
def enterExecuting : Journal δ (OperationJournalRecord δ) :=
  if record.phase = .accepted then markExecuting record else pure record

def runJournaledOperation : Journal δ (JournaledOutcome δ) :=
  match record.result with
  | some result => return ⟨result, true⟩
  | none => do
    let record ← enterExecuting record
    .call (.sideEffect record) fun
      | .ok data => finishOperation f record .succeeded none data
      | .error (.retryable message) => Prog.throw (.retryableExecution message)
      | .error (.terminal _) => finishOperation f record .failed (some .executionFailed) none

end

/-! ## One attempt -/

inductive AttemptError where
  | journal (error : JournalFlowError)
  | rejected (reason : RejectionClass)
  | unavailable (message : String)

abbrev Attempt (δ α : Type) := Prog (Command δ) (Reply δ) AttemptError α

def schemaRevision : Attempt δ String :=
  .call .schemaRevision fun reply => Prog.ofExcept (reply.mapError .unavailable)

def admission : Attempt δ AuthorizationSnapshot :=
  .call .admission fun reply => Prog.ofExcept (reply.mapError .rejected)

variable (operation : ControlOperation)

/-- The baseline of a migration, where it is not yet recorded. -/
def checkpointMigration (record : OperationJournalRecord δ) :
    Attempt δ (OperationJournalRecord δ) :=
  if operation.migrateApply && record.needsMigrationBaseline then do
    let revision ← schemaRevision
    (persistMigrationBaseline record revision).mapError .journal
  else pure record

/-- `journaled_execution`, to the result that is printed. -/
def journaledExecution (record : OperationJournalRecord δ) : Attempt δ (JournaledOutcome δ) := do
  let record ← checkpointMigration operation record
  let outcome ← (runJournaledOperation f record).mapError .journal
  Prog.ofExcept ((encodeControlResult f outcome.result).mapError fun _ => .rejected .request)
  return outcome

def executeCompact : Attempt δ (JournaledOutcome δ) := do
  match ← (loadAccepted f operation).mapError .journal with
  | some record => journaledExecution f operation record
  | none => do
    let snapshot ← admission
    let record ← (accept operation snapshot).mapError .journal
    journaledExecution f operation record

/-! ## The machine -/

/-- An attempt, and what its commands meet. It crashes where the inputs end. -/
structure Op (δ : Type) where
  operation : ControlOperation
  inputs : List (Input δ)

/-- What an attempt did: its commands, each with the journal that it was issued on, and its
result. -/
structure Outcome (δ σ : Type) where
  issued : List (Command δ × σ)
  result : Option (Except AttemptError (JournaledOutcome δ))

/-- One attempt on a journal directory. -/
def exec (d : Directory δ) (op : Op δ) : Directory δ × Outcome δ (Directory δ) :=
  let e := (executeCompact f op.operation).execute handle d op.inputs
  (e.state, ⟨e.issued, e.result⟩)

def Directory.empty : Directory δ := fun _ => none

/-! ## Durability -/

/-- The journal directory as processes see it, and as its last sync has left it. The bytes of a file
that was written to its end are synced with it. -/
structure Disk (δ : Type) where
  visible : Directory δ
  synced : Directory δ

def Command.isSync : Command δ → Bool
  | .syncDirectory => true
  | _ => false

def handleDisk (d : Disk δ) (c : Command δ) (i : Input δ) : Disk δ × Reply δ c :=
  (⟨(handle d.visible c i).1, if c.isSync && i.io = .done then d.visible else d.synced⟩, (handle d.visible c i).2)

/-- One attempt on a disk. -/
def execDisk (d : Disk δ) (op : Op δ) : Disk δ × Outcome δ (Disk δ) :=
  let e := (executeCompact f op.operation).execute handleDisk d op.inputs
  (e.state, ⟨e.issued, e.result⟩)

def Disk.empty : Disk δ := ⟨Directory.empty, Directory.empty⟩

abbrev Log (δ : Type) := List (Op δ × Outcome δ (Disk δ))

end Journal

end NazoAuth.Operator
