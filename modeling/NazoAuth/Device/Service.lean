import NazoAuth.Lib.Run
import NazoAuth.Lib.Register
import NazoAuth.Lib.Cjson
import NazoAuth.Device.State

/-!
# Device authorization — the store scripts and the service

One device code in the shared store: the key of its state, the key of its user code, the approval
receipts of the database and the grant writes made for it. Any number of pollers, approvers and
deniers work on it. A worker is a process that touches shared state once per step; between two steps
it holds only what it read.

A step takes from its environment what the worker cannot control: the clock of the store, the
readings of its own clock, the clock and the answer of the database, and whether the reply reaches
the worker. A worker that crashes is one that takes no further step.
-/

namespace NazoAuth.Device

open Lib

/-! ## Scripts of the state store -/

inductive DeviceAtomicResult where
  | applied
  | conflict
  | deadlineElapsed

inductive DeviceCreateResult where
  | applied
  | deviceCodeCollision
  | userCodeCollision

/-- The two keys of a request; deadlines are milliseconds of the store's clock. -/
structure Keys where
  device : Option (Entry DeviceAuthorizationState)
  userCode : Option (Entry String)

/-- `CREATE_DEVICE_SCRIPT`. -/
def createDevice (now : Int) (k : Keys) (deviceHash : String) (state : DeviceAuthorizationState)
    (ttlSeconds : Nat) : Keys × DeviceCreateResult :=
  if (visible now k.device).isSome then (k, .deviceCodeCollision)
  else if (visible now k.userCode).isSome then (k, .userCodeCollision)
  else
    let deadline := now + ttlSeconds * 1000
    (⟨some ⟨state, deadline⟩, some ⟨deviceHash, deadline⟩⟩, .applied)

/-- `COMPARE_SET_DEVICE_SCRIPT`; the mapping of the user code is compared when one is given. The
deadline of the key is read and written back as a number of the script. -/
def compareSetDevice (now : Int) (k : Keys) (expected replacement : DeviceAuthorizationState)
    (mapping : Option String) : Keys × DeviceAtomicResult :=
  match visible now k.device with
  | none => (k, .conflict)
  | some current =>
    if current.value ≠ expected then (k, .conflict)
    else if mapping.any fun deviceHash => (visible now k.userCode).map Entry.value ≠ some deviceHash
      then (k, .conflict)
    else if luaDouble current.deadline ≤ now then ({ k with device := none }, .deadlineElapsed)
    else ({ k with device := some ⟨replacement, luaDouble current.deadline⟩ }, .applied)

/-- `COMPLETE_DEVICE_DECISION_SCRIPT`: the comparison with the mapping, and the user code is used
up. -/
def completeDeviceDecision (now : Int) (k : Keys) (expected replacement : DeviceAuthorizationState)
    (deviceHash : String) : Keys × DeviceAtomicResult :=
  match compareSetDevice now k expected replacement (some deviceHash) with
  | (k, .conflict) => (k, .conflict)
  | (k, result) => ({ k with userCode := none }, result)

/-- `DELETE_USER_CODE_IF_MATCHES_SCRIPT`. -/
def deleteUserCodeIfMatches (now : Int) (k : Keys) (deviceHash : String) : Keys :=
  if (visible now k.userCode).map Entry.value = some deviceHash then { k with userCode := none } else k

/-! ## The database -/

structure OAuthClient where
  tenantId : Uuid
  id : Uuid
  clientId : String
  isActive : Bool
  deriving DecidableEq

structure DeviceGrantWrite where
  deviceCodeHash : String
  expiresAt : Instant
  tenantId : Uuid
  userId : Uuid
  clientId : Uuid
  scopes : List String
  resourceIndicators : List String
  authorizationDetails : Json
  deriving DecidableEq

inductive DeviceGrantPortError where
  | unavailable
  | conflict
  | corruptData
  | unexpected
  deriving DecidableEq

inductive DeviceStatePortError where
  | unavailable
  | corruptData
  | unexpected

/-! ## Workers -/

inductive DevicePollCommit where
  | authorizationPending
  | slowDown
  | approved (payload : DeviceAuthorizationPayload) (approval : DeviceAuthorizationApproval)
  | accessDenied
  | expired
  | consumed

inductive DevicePollFailure where
  | missing
  | clientMismatch
  | storage (error : DeviceStatePortError)
  | contended

inductive DeviceDecisionFailure where
  | missing
  | alreadyHandled
  | expired
  | storage (error : DeviceStatePortError)
  | repository (error : DeviceGrantPortError)
  | contended

inductive Answer where
  | polled (commit : DevicePollCommit)
  | pollFailed (failure : DevicePollFailure)
  /-- `prepare_decision` found no request to decide. -/
  | notPrepared
  | decided
  | decisionFailed (failure : DeviceDecisionFailure)

/-- What a worker was started for. -/
inductive Task where
  | poll (expectedClientId : String)
  | deny
  | approve (approval : DeviceAuthorizationApproval) (client : OAuthClient)
  deriving DecidableEq

/-- Where a worker stands: its next access to shared state. -/
inductive Phase where
  /-- `prepare_decision` reads the user code. -/
  | resolve
  /-- `prepare_decision` reads the state. -/
  | prepare
  /-- An attempt begins with a fresh read. -/
  | reload (attempt : Nat)
  /-- An attempt with the state it has read. -/
  | ready (attempt : Nat) (stored : DeviceAuthorizationState)
  /-- The grant is written; the state is to say so. -/
  | record (attempt : Nat) (stored : DeviceAuthorizationState)
  /-- The user code of an expired request is removed before the answer is given. -/
  | dropUserCode (answer : Answer)
  | finished (answer : Answer)

/-- The state that a worker carries from its last read. -/
def Phase.stored : Phase → Option DeviceAuthorizationState
  | .ready _ stored => some stored
  | .record _ stored => some stored
  | _ => none

structure Process where
  task : Task
  expectedPayload : Option DeviceAuthorizationPayload
  phase : Phase

def Process.goto (p : Process) (phase : Phase) : Process := { p with phase := phase }

def Task.start : Task → Process
  | .poll expectedClientId => ⟨.poll expectedClientId, none, .reload 0⟩
  | task => ⟨task, none, .resolve⟩

def Task.contended : Task → Answer
  | .poll _ => .pollFailed .contended
  | _ => .decisionFailed .contended

def Task.missing : Task → Answer
  | .poll _ => .pollFailed .missing
  | _ => .decisionFailed .missing

/-- The answer of a worker whose reply is lost. -/
def Task.unavailable : Task → Answer
  | .poll _ => .pollFailed (.storage .unavailable)
  | _ => .decisionFailed (.storage .unavailable)

def deviceTransitionMaxAttempts : Nat := 5

/-- `continue`: the next turn of the loop, on a fresh read or on the state at hand. -/
def Process.again (p : Process) (attempt : Nat) (next : Option DeviceAuthorizationState) : Phase :=
  if attempt + 1 < deviceTransitionMaxAttempts then
    match next with
    | none => .reload (attempt + 1)
    | some stored => .ready (attempt + 1) stored
  else .finished p.task.contended

/-- Everything shared that concerns one device code, and its workers. A worker is known by its
number, which is also the claim id that it draws. -/
structure World where
  keys : Keys
  /-- `device_authorization_decisions`: tenant and expiry of the receipts of this device code. -/
  receipts : List (Uuid × Instant)
  /-- The writes to `user_client_grants` for this device code, newest first. -/
  grants : List DeviceGrantWrite
  workers : Uuid → Option Process

structure Env where
  storeNow : Int
  now : Instant
  approvedAt : Instant
  databaseNow : Instant
  databaseError : Option DeviceGrantPortError
  replyLost : Bool
  deriving DecidableEq

/-- What a step did to the shared state. -/
inductive Outcome where
  | quiet
  | stored (worker : Uuid) (before after : DeviceAuthorizationState)
  /-- `upsert_grant` succeeded; `written` is false if the receipt was already there. -/
  | upserted (worker : Uuid) (write : DeviceGrantWrite) (written : Bool)
  deriving DecidableEq

/-- A compare-and-set of a worker and where each reply leads it. -/
def World.replace (w : World) (worker : Uuid) (p : Process) (before after : DeviceAuthorizationState)
    (reply : Keys × DeviceAtomicResult) (onApplied onConflict onElapsed : Phase) : World × Process × Outcome :=
  match reply with
  | (k, .applied) => ({ w with keys := k }, p.goto onApplied, .stored worker before after)
  | (k, .conflict) => ({ w with keys := k }, p.goto onConflict, .quiet)
  | (k, .deadlineElapsed) => ({ w with keys := k }, p.goto onElapsed, .quiet)

/-! ### Reading -/

/-- `load_by_device_code` and `load_by_device_hash` with the checks made on the value read. -/
def reload (w : World) (p : Process) (attempt : Nat) (env : Env) : Process :=
  match visible env.storeNow w.keys.device with
  | none => p.goto (.finished p.task.missing)
  | some current => match p.task with
    | .poll expectedClientId =>
      if (deviceAuthorizationPayload current.value).any fun payload => payload.clientId ≠ expectedClientId then
        p.goto (.finished (.pollFailed .clientMismatch))
      else p.goto (.ready attempt current.value)
    | _ =>
      if (deviceAuthorizationPayload current.value).any fun payload => some payload ≠ p.expectedPayload then
        p.goto (.finished (.decisionFailed (.storage .corruptData)))
      else p.goto (.ready attempt current.value)

/-- `prepare_decision` after the user code was resolved. -/
def prepareDecision (w : World) (p : Process) (env : Env) : Process :=
  match visible env.storeNow w.keys.device with
  | none => p.goto (.dropUserCode .notPrepared)
  | some current => match current.value with
    | .pending payload _ _ | .approving payload _ _ _ _ =>
      if payload.expiresAt ≤ env.now then p.goto (.dropUserCode .notPrepared)
      else { p with expectedPayload := some payload, phase := .ready 0 current.value }
    | _ => p.goto (.finished .notPrepared)

/-! ### Deciding -/

/-- A turn of `poll`. -/
def pollTurn (w : World) (worker : Uuid) (p : Process) (attempt : Nat)
    (stored : DeviceAuthorizationState) (env : Env) : World × Process × Outcome :=
  match evaluateDevicePoll stored env.now with
  | .authorizationPending next =>
    w.replace worker p stored next (compareSetDevice env.storeNow w.keys stored next none)
      (.finished (.polled .authorizationPending)) (p.again attempt none) (.finished (.polled .expired))
  | .authorizationPendingUnchanged => (w, p.goto (.finished (.polled .authorizationPending)), .quiet)
  | .slowDown next =>
    w.replace worker p stored next (compareSetDevice env.storeNow w.keys stored next none)
      (.finished (.polled .slowDown)) (p.again attempt none) (.finished (.polled .expired))
  | .approved payload approval => (w, p.goto (.finished (.polled (.approved payload approval))), .quiet)
  | .accessDenied => (w, p.goto (.finished (.polled .accessDenied)), .quiet)
  | .expired => (w, p.goto (.finished (.polled .expired)), .quiet)
  | .consumed => (w, p.goto (.finished (.polled .consumed)), .quiet)

variable (deviceHash : String)

/-- A turn of `deny`. -/
def denyTurn (w : World) (worker : Uuid) (p : Process) (attempt : Nat)
    (stored : DeviceAuthorizationState) (env : Env) : World × Process × Outcome :=
  match stored with
  | .pending payload _ _ =>
    if payload.expiresAt ≤ env.now then (w, p.goto (.dropUserCode (.decisionFailed .expired)), .quiet)
    else
      let next := .denied payload env.now
      w.replace worker p stored next (completeDeviceDecision env.storeNow w.keys stored next deviceHash)
        (.finished .decided) (p.again attempt none) (.finished (.decisionFailed .expired))
  | _ => (w, p.goto (.finished (.decisionFailed .alreadyHandled)), .quiet)

/-- The write of an approval by the owner of the claim. -/
def grantWrite (payload : DeviceAuthorizationPayload) (approval : DeviceAuthorizationApproval)
    (client : OAuthClient) : DeviceGrantWrite where
  deviceCodeHash := deviceHash
  expiresAt := payload.expiresAt
  tenantId := client.tenantId
  userId := approval.userId
  clientId := client.id
  scopes := payload.scopes
  resourceIndicators := payload.resourceIndicators
  authorizationDetails := payload.authorizationDetails

/-- `commit_device_approval`: one transaction. -/
def commitDeviceApproval (w : World) (write : DeviceGrantWrite) (env : Env) :
    Except DeviceGrantPortError (World × Bool) :=
  match env.databaseError with
  | some error => .error error
  | none =>
    if write.expiresAt ≤ env.databaseNow then .error .conflict
    else if w.receipts.any fun receipt => receipt.1 = write.tenantId then .ok (w, false)
    else .ok ({ w with receipts := (write.tenantId, write.expiresAt) :: w.receipts, grants := write :: w.grants },
      true)

/-- A turn of `approve` on an approving state. -/
def approvingTurn (w : World) (worker : Uuid) (p : Process) (approval : DeviceAuthorizationApproval)
    (client : OAuthClient) (attempt : Nat) (payload : DeviceAuthorizationPayload)
    (claimedApproval : DeviceAuthorizationApproval) (activeClaimId : Uuid) (grantRecorded : Bool)
    (startedAt : Instant) (env : Env) : World × Process × Outcome :=
  let stored := .approving payload claimedApproval activeClaimId grantRecorded startedAt
  if claimedApproval.userId ≠ approval.userId
    then (w, p.goto (.finished (.decisionFailed .alreadyHandled)), .quiet)
  else if !client.isActive || client.clientId ≠ payload.clientId then
    (w, p.goto (.finished (.decisionFailed (.repository .corruptData))), .quiet)
  else if payload.expiresAt ≤ env.now then (w, p.goto (.dropUserCode (.decisionFailed .expired)), .quiet)
  else if grantRecorded then
    let next := .approved payload claimedApproval env.approvedAt
    w.replace worker p stored next (completeDeviceDecision env.storeNow w.keys stored next deviceHash)
      (.finished .decided) (p.again attempt none) (.finished (.decisionFailed .expired))
  else if activeClaimId ≠ worker then
    if !deviceApprovalClaimIsStale startedAt env.now
      then (w, p.goto (.finished (.decisionFailed .contended)), .quiet)
    else
      let next := .approving payload claimedApproval worker false env.now
      w.replace worker p stored next (compareSetDevice env.storeNow w.keys stored next (some deviceHash))
        (p.again attempt none) (p.again attempt none) (.finished (.decisionFailed .expired))
  else
    let write := grantWrite deviceHash payload claimedApproval client
    match commitDeviceApproval w write env with
    | .error error => (w, p.goto (.finished (.decisionFailed (.repository error))), .quiet)
    | .ok (w, written) => (w, p.goto (.record attempt stored), .upserted worker write written)

/-- A turn of `approve`. -/
def approveTurn (w : World) (worker : Uuid) (p : Process) (approval : DeviceAuthorizationApproval)
    (client : OAuthClient) (attempt : Nat) (stored : DeviceAuthorizationState) (env : Env) :
    World × Process × Outcome :=
  match stored with
  | .pending payload _ _ =>
    if payload.expiresAt ≤ env.now then (w, p.goto (.dropUserCode (.decisionFailed .expired)), .quiet)
    else if !client.isActive || client.clientId ≠ payload.clientId then
      (w, p.goto (.finished (.decisionFailed (.repository .corruptData))), .quiet)
    else
      let next := .approving payload approval worker false env.now
      w.replace worker p stored next (compareSetDevice env.storeNow w.keys stored next (some deviceHash))
        (p.again attempt none) (p.again attempt none) (.finished (.decisionFailed .expired))
  | .approving payload claimedApproval activeClaimId grantRecorded startedAt =>
    approvingTurn deviceHash w worker p approval client attempt payload claimedApproval activeClaimId grantRecorded
      startedAt env
  | _ => (w, p.goto (.finished (.decisionFailed .alreadyHandled)), .quiet)

/-- The state after the grant was written: the owner of the claim says so and goes on with what it
stored. -/
def recordTurn (w : World) (worker : Uuid) (p : Process) (attempt : Nat)
    (stored : DeviceAuthorizationState) (env : Env) : World × Process × Outcome :=
  match stored with
  | .approving payload approval claimId _ startedAt =>
    let next := .approving payload approval claimId true startedAt
    w.replace worker p stored next (compareSetDevice env.storeNow w.keys stored next none)
      (p.again attempt (some next)) (p.again attempt none) (.finished (.decisionFailed .expired))
  | _ => (w, p, .quiet)

/-! ## The machine -/

def workerStep (w : World) (worker : Uuid) (p : Process) (env : Env) : World × Process × Outcome :=
  match p.phase with
  | .resolve =>
    -- a user code that leads to another device code is not this request
    if (visible env.storeNow w.keys.userCode).map Entry.value = some deviceHash then (w, p.goto .prepare, .quiet)
    else (w, p.goto (.finished .notPrepared), .quiet)
  | .prepare => (w, prepareDecision w p env, .quiet)
  | .reload attempt => (w, reload w p attempt env, .quiet)
  | .ready attempt stored => match p.task with
    | .poll _ => pollTurn w worker p attempt stored env
    | .deny => denyTurn deviceHash w worker p attempt stored env
    | .approve approval client => approveTurn deviceHash w worker p approval client attempt stored env
  | .record attempt stored => recordTurn w worker p attempt stored env
  | .dropUserCode answer =>
    ({ w with keys := deleteUserCodeIfMatches env.storeNow w.keys deviceHash }, p.goto (.finished answer), .quiet)
  | .finished _ => (w, p, .quiet)

inductive Op where
  /-- A request for this device code or its user code arrives. -/
  | start (worker : Uuid) (task : Task)
  | step (worker : Uuid) (env : Env)
  /-- The store removes keys past their deadline. -/
  | expire (now : Int)
  /-- The user code, once free, is given to another device code, or taken from it again. -/
  | otherRequest (userCode : Option (Entry String)) (now : Int)
  /-- Receipts past their expiry are cleaned up. -/
  | cleanup (databaseNow : Instant)
  deriving DecidableEq

def World.setWorker (w : World) (worker : Uuid) (p : Process) : World :=
  { w with workers := fun i => if i = worker then some p else w.workers i }

def otherRequest (k : Keys) (userCode : Option (Entry String)) (now : Int) : Keys :=
  if (visible now k.userCode).any (fun e => e.value = deviceHash)
    || userCode.any (fun e => e.value = deviceHash) then k
  else { k with userCode := userCode }

def exec (w : World) : Op → World × Outcome
  | .start worker task => match w.workers worker with
    | none => (w.setWorker worker task.start, .quiet)
    | some _ => (w, .quiet)
  | .step worker env => match w.workers worker with
    | none => (w, .quiet)
    | some p =>
      let (w', p', outcome) := workerStep deviceHash w worker p env
      let p'' := if env.replyLost then p'.goto (.finished p.task.unavailable) else p'
      (w'.setWorker worker p'', outcome)
  | .expire now => ({ w with keys := ⟨visible now w.keys.device, visible now w.keys.userCode⟩ }, .quiet)
  | .otherRequest userCode now => ({ w with keys := otherRequest deviceHash w.keys userCode now }, .quiet)
  | .cleanup databaseNow => ({ w with receipts := w.receipts.filter fun receipt => databaseNow < receipt.2 },
    .quiet)

abbrev Log := List (Op × Outcome)

/-- The world right after the creation of the request. -/
def created (payload : DeviceAuthorizationPayload) (deadline : Int) : World where
  keys := ⟨some ⟨.pending payload none 0, deadline⟩, some ⟨deviceHash, deadline⟩⟩
  receipts := []
  grants := []
  workers := fun _ => none

end NazoAuth.Device
