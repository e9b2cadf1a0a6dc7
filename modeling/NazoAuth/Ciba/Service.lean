import NazoAuth.Lib.Run
import NazoAuth.Ciba.Wire

/-!
# Backchannel authentication — the store scripts and the service

One `auth_req_id` in the shared store: the key of its request and its place in the queue of due
pings. The writers are the endpoint that creates the request, pollers and deciders, which compare
and set whole documents, and the ping worker, whose two scripts edit the stored document in place.
-/

namespace NazoAuth.Ciba

open Lib Lib.Json

/-- A stored text and its deadline, in milliseconds of the store's clock; one without a deadline
stays. -/
structure StoredText where
  value : Text
  deadline : Option Int

/-- What the store holds for an `auth_req_id`. -/
structure Slot where
  key : Option StoredText
  /-- The score in the queue of due pings. -/
  due : Option Int

/-- What a read at time `now` finds. -/
def Slot.visible (now : Int) (slot : Slot) : Option StoredText :=
  slot.key.filter fun e => e.deadline.all (now ≤ ·)

theorem Slot.key_of_visible {now : Int} {slot : Slot} {e : StoredText}
    (h : slot.visible now = some e) : slot.key = some e := (Option.filter_eq_some_iff.mp h).1

inductive CibaAtomicResult where
  | applied
  | conflict
  | deadlineElapsed

/-! ## Scripts on whole values -/

/-- The whole seconds of the store's clock. -/
def storeSeconds (now : Int) : Int := now / 1000

/-- A deadline of the caller is over; the script reads it as a number. -/
def elapsed (now : Int) (deadline : Option Int) : Bool := deadline.any fun d => luaDouble d ≤ storeSeconds now

/-- The latest deadline that is a 64-bit count of milliseconds. -/
def maxExpireAt : Nat := (2 ^ 63 - 1) / 1000

/-- A text is written and given its deadline by `EXPIREAT`, which refuses one beyond the range of
milliseconds: the script ends there, with the text stored and no deadline. -/
def Slot.write (slot : Slot) (text : Text) (deadline : Int) (due : Option Int) :
    Slot × Except CibaStatePortError CibaAtomicResult :=
  if deadline.natAbs ≤ maxExpireAt then (⟨some ⟨text, some (deadline * 1000)⟩, due⟩, .ok .applied)
  else ({ slot with key := some ⟨text, none⟩ }, .error .corruptData)

/-- `SET_NX_DEADLINE_SCRIPT`. -/
def setNxDeadline (now : Int) (slot : Slot) (text : Text) (deadline : Int)
    (authorizationDeadline : Option Int) : Slot × Except CibaStatePortError CibaAtomicResult :=
  if elapsed now authorizationDeadline then (slot, .ok .deadlineElapsed)
  else if luaDouble deadline ≤ storeSeconds now then (slot, .ok .deadlineElapsed)
  else if (slot.visible now).isSome then (slot, .ok .conflict)
  else slot.write text (luaDouble deadline) slot.due

/-- The branch of both comparing scripts after the deadline of the key. -/
def dropExpired (now : Int) (slot : Slot) (expected : Text) : Slot :=
  if (slot.visible now).any fun current => current.value = expected then ⟨none, none⟩ else slot

/-- Both comparing scripts: what they do with a text that is the expected one. -/
def compareDeadline (now : Int) (slot : Slot) (expected : Text) (deadline : Int)
    (authorizationDeadline : Option Int)
    (matched : Slot × Except CibaStatePortError CibaAtomicResult) :
    Slot × Except CibaStatePortError CibaAtomicResult :=
  if elapsed now authorizationDeadline then (slot, .ok .deadlineElapsed)
  else if luaDouble deadline ≤ storeSeconds now then (dropExpired now slot expected, .ok .deadlineElapsed)
  else match slot.visible now with
  | none => (slot, .ok .conflict)
  | some current => if current.value ≠ expected then (slot, .ok .conflict) else matched

/-- `COMPARE_SET_DEADLINE_SCRIPT`. -/
def compareSetDeadline (now : Int) (slot : Slot) (expected replacement : Text) (deadline : Int)
    (dueAt : Option Int) (authorizationDeadline : Option Int) :
    Slot × Except CibaStatePortError CibaAtomicResult :=
  compareDeadline now slot expected deadline authorizationDeadline
    (slot.write replacement (luaDouble deadline) dueAt)

/-- `COMPARE_DELETE_DEADLINE_SCRIPT`. -/
def compareDeleteDeadline (now : Int) (slot : Slot) (expected : Text) (deadline : Int)
    (authorizationDeadline : Option Int) : Slot × Except CibaStatePortError CibaAtomicResult :=
  compareDeadline now slot expected deadline authorizationDeadline (⟨none, none⟩, .ok .applied)

/-! ## Scripts of the ping worker -/

/-- `tonumber(x or 0)`; nothing where the comparison that follows would fail. -/
def luaToNumber : Option Json → Option Int
  | none => some 0
  | some (.num n) => some (luaDouble n)
  | some (.real m e) => some (luaDouble (m * 10 ^ e.toNat))
  | _ => none

/-- The notification of a document. -/
def pingOf (doc : Json) : Option (List (String × Json)) :=
  match doc.get? "ping_notification" with
  | some (.obj ping) => some ping
  | _ => none

/-- `SET … KEEPTTL` of the document with its notification replaced. -/
def writePing (current : StoredText) (ping : Json) (layout : Nat) (due : Option Int) : Slot where
  key := some ⟨⟨reencode (set "ping_notification" ping current.value.document), layout⟩, current.deadline⟩
  due := due

/-- The notification is over: its status, and neither a time nor a token. -/
def endPing (status : String) (ping : Json) : Json :=
  erase "client_notification_token" (erase "next_attempt_at" (set "status" (.str status) ping))

/-- The turn of `CLAIM_DUE_PING_SCRIPT` on one member of the queue. -/
def claimDuePing (storeNow : Int) (slot : Slot) (now lockUntil : Int) (layout : Nat) : Slot :=
  match slot.visible storeNow with
  | none => { slot with due := none }
  | some current =>
    let doc := current.value.document
    match luaToNumber (doc.get? "expires_at") with
    | none => slot
    | some expiresAt =>
      match pingOf doc with
      | none => { slot with due := none }
      | some ping =>
        if expiresAt ≤ now then writePing current (endPing "failed" (.obj ping)) layout none
        else if (Json.obj ping).get? "status" ≠ some (.str "pending") then { slot with due := none }
        else match luaToNumber ((Json.obj ping).get? "next_attempt_at") with
        | none => slot
        | some nextAttemptAt =>
          if ((Json.obj ping).get? "auth_req_id").isSome
              && ((Json.obj ping).get? "client_notification_token").isSome && nextAttemptAt ≤ now then
            match luaToNumber ((Json.obj ping).get? "attempts") with
            | none => slot
            | some attempts =>
              writePing current (set "next_attempt_at" (.num lockUntil)
                (set "attempts" (.num (attempts + 1)) (.obj ping))) layout (some lockUntil)
          else if now < nextAttemptAt then { slot with due := some nextAttemptAt }
          else { slot with due := none }

inductive CibaPingFinishOutcome where
  | delivered
  | retryAt (nextAttemptAt : Int)
  | failed
  deriving DecidableEq

/-- `FINISH_PING_SCRIPT`. -/
def finishPing (storeNow : Int) (slot : Slot) (attempts : Nat) (outcome : CibaPingFinishOutcome)
    (layout : Nat) : Slot :=
  match slot.visible storeNow with
  | none => { slot with due := none }
  | some current =>
    match pingOf current.value.document with
    | none => { slot with due := none }
    | some ping =>
      if (Json.obj ping).get? "status" ≠ some (.str "pending")
          || luaToNumber ((Json.obj ping).get? "attempts") ≠ some (attempts : Int) then slot
      else match outcome with
      | .retryAt nextAttemptAt =>
        writePing current (set "next_attempt_at" (.num nextAttemptAt) (.obj ping)) layout (some nextAttemptAt)
      | .delivered => writePing current (endPing "delivered" (.obj ping)) layout none
      | .failed => writePing current (endPing "failed" (.obj ping)) layout none

/-! ## Loading -/

/-- A request as it was read: the state and the text it was decoded from. -/
structure Snapshot where
  state : CibaRequestState
  version : Text
  decoded : decodeState version.document = some state

/-- `CibaService::load`: a request whose record disagrees with the deadline of its key is
corrupt. -/
def load (now : Int) (slot : Slot) : Except CibaStatePortError (Option Snapshot) :=
  match slot.visible now with
  | none => .ok none
  | some current =>
    match h : decodeState current.value.document with
    | none => .error .corruptData
    | some state =>
      if some (state.retentionExpiresAt * 1000) ≠ current.deadline then .error .corruptData
      else match validateStoredState state with
      | .error error => .error error
      | .ok () => .ok (some ⟨state, current.value, h⟩)

/-! ## Workers -/

inductive CibaPollCommit where
  | authorizationPending
  | slowDown
  | approved (state : CibaRequestState)
  | denied
  | expired

inductive CibaPollFailure where
  | missing
  | clientMismatch
  | storage (error : CibaStatePortError)
  | contended

inductive CibaDecisionFailure where
  | missing
  | invalidAuthenticationContext
  | userMismatch
  | alreadyHandled
  | expired
  | storage (error : CibaStatePortError)
  | contended

inductive Answer where
  | polled (commit : CibaPollCommit)
  | pollFailed (failure : CibaPollFailure)
  | decided (state : CibaRequestState) (decision : CibaDecision)
  | decisionFailed (failure : CibaDecisionFailure)

/-- What a worker was started for; both may be bound to a deadline of the caller. -/
inductive Task where
  | poll (expectedClientId : String) (authorizationDeadline : Option Int)
  | decide (decision : CibaDecision) (expectedUserId : Option Uuid) (authorizationDeadline : Option Int)
  deriving DecidableEq

def Task.missing : Task → Answer
  | .poll _ _ => .pollFailed .missing
  | .decide _ _ _ => .decisionFailed .missing

def Task.storage (error : CibaStatePortError) : Task → Answer
  | .poll _ _ => .pollFailed (.storage error)
  | .decide _ _ _ => .decisionFailed (.storage error)

def Task.contended : Task → Answer
  | .poll _ _ => .pollFailed .contended
  | .decide _ _ _ => .decisionFailed .contended

inductive Phase where
  | load (attempt : Nat)
  | ready (attempt : Nat) (stored : Snapshot)
  | finished (answer : Answer)

structure Process where
  task : Task
  /-- The state that a decision was prepared on. -/
  prepared : Option CibaRequestState
  phase : Phase

def Process.goto (p : Process) (phase : Phase) : Process := { p with phase := phase }

def cibaTransitionMaxAttempts : Nat := 4

def Process.again (p : Process) (attempt : Nat) : Phase :=
  if attempt + 1 < cibaTransitionMaxAttempts then .load (attempt + 1) else .finished p.task.contended

structure World where
  slot : Slot
  workers : Nat → Option Process

structure Env where
  storeNow : Nat
  now : Int
  replyLost : Bool
  deriving DecidableEq

/-- What an operation did to the key. -/
inductive Outcome where
  /-- Nothing was written; the key may have gone. -/
  | quiet
  | created (text : Text)
  | replaced (before after : Text)
  | decided (decision : CibaDecision) (authorizationDeadline : Option Int) (storeNow : Int) (before after : Text)
  | pinged (before after : Text)
  deriving DecidableEq

variable (w : World)

/-- The read at the beginning of an attempt, with its checks. -/
def reload (p : Process) (attempt : Nat) (env : Env) : Process :=
  match load env.storeNow w.slot with
  | .error error => p.goto (.finished (p.task.storage error))
  | .ok none => p.goto (.finished p.task.missing)
  | .ok (some stored) => match p.task with
    | .poll expectedClientId _ =>
      if stored.state.clientId ≠ expectedClientId then p.goto (.finished (.pollFailed .clientMismatch))
      else p.goto (.ready attempt stored)
    | .decide _ _ _ => match p.prepared with
      | none => { p with prepared := some stored.state, phase := .ready attempt stored }
      | some prepared =>
        if sameCibaAuthorization prepared stored.state then p.goto (.ready attempt stored)
        else p.goto (.finished (.decisionFailed (.storage .corruptData)))

/-- The time of a pending notification. -/
def dueAt (state : CibaRequestState) : Option Int :=
  (state.pingNotification.filter fun notification => notification.status = .pending).bind (·.nextAttemptAt)

/-- The text that the service writes. -/
def serialized (state : CibaRequestState) : Text := ⟨encodeState state, 0⟩

/-- `replace_with_authorization_deadline`. -/
def replace (now : Int) (slot : Slot) (stored : Snapshot) (next : CibaRequestState)
    (authorizationDeadline : Option Int) :
    Except CibaStatePortError (Slot × Except CibaStatePortError CibaAtomicResult) :=
  if next.retentionExpiresAt ≠ stored.state.retentionExpiresAt then .error .corruptData
  else .ok (compareSetDeadline now slot stored.version (serialized next) stored.state.retentionExpiresAt
    (dueAt next) authorizationDeadline)

/-- `delete_with_authorization_deadline`. -/
def delete (now : Int) (slot : Slot) (stored : Snapshot) (authorizationDeadline : Option Int) :
    Slot × Except CibaStatePortError CibaAtomicResult :=
  compareDeleteDeadline now slot stored.version stored.state.retentionExpiresAt authorizationDeadline

/-- Where a worker goes after a script replied. -/
def Process.reply (p : Process) (onApplied onConflict onElapsed : Phase) :
    Except CibaStatePortError CibaAtomicResult → Process
  | .ok .applied => p.goto onApplied
  | .ok .conflict => p.goto onConflict
  | .ok .deadlineElapsed => p.goto onElapsed
  | .error error => p.goto (.finished (p.task.storage error))

/-- The script has written: it replied so, or it failed at the deadline of what it wrote. -/
def wrote : Except CibaStatePortError CibaAtomicResult → Bool
  | .ok .applied | .error _ => true
  | .ok .conflict | .ok .deadlineElapsed => false

/-- A replacement by a worker: where each reply leads it, and what is written. -/
def World.replace (p : Process) (now : Int) (stored : Snapshot) (next : CibaRequestState)
    (authorizationDeadline : Option Int) (onApplied onConflict onElapsed : Phase)
    (event : Outcome) : World × Process × Outcome :=
  match Ciba.replace now w.slot stored next authorizationDeadline with
  | .error error => (w, p.goto (.finished (p.task.storage error)), .quiet)
  | .ok (slot, reply) =>
    ({ w with slot := slot }, p.reply onApplied onConflict onElapsed reply, if wrote reply then event else .quiet)

def World.delete (p : Process) (now : Int) (stored : Snapshot) (authorizationDeadline : Option Int)
    (onApplied onConflict onElapsed : Phase) : World × Process × Outcome :=
  let (slot, reply) := Ciba.delete now w.slot stored authorizationDeadline
  ({ w with slot := slot }, p.reply onApplied onConflict onElapsed reply, .quiet)

/-- A turn of `poll_with_authorization_deadline`. -/
def pollTurn (p : Process) (attempt : Nat) (stored : Snapshot) (authorizationDeadline : Option Int)
    (env : Env) : World × Process × Outcome :=
  let expired := .finished (.polled .expired)
  match evaluateCibaPoll stored.state env.now with
  | .authorizationPending next =>
    w.replace p env.storeNow stored next authorizationDeadline (.finished (.polled .authorizationPending))
      (p.again attempt) expired (.replaced stored.version (serialized next))
  | .slowDown next =>
    w.replace p env.storeNow stored next authorizationDeadline (.finished (.polled .slowDown))
      (p.again attempt) expired (.replaced stored.version (serialized next))
  | .approved =>
    let approved := .finished (.polled (.approved stored.state))
    if authorizationDeadline.isNone then (w, p.goto approved, .quiet)
    else
      w.replace p env.storeNow stored stored.state authorizationDeadline approved (p.again attempt) expired
        (.replaced stored.version (serialized stored.state))
  | .denied =>
    w.delete p env.storeNow stored authorizationDeadline (.finished (.polled .denied)) (p.again attempt) expired
  | .expired => w.delete p env.storeNow stored authorizationDeadline expired (p.again attempt) expired

/-- A turn of `commit_prepared_decision`. -/
def decideTurn (p : Process) (attempt : Nat) (stored : Snapshot) (decision : CibaDecision)
    (expectedUserId : Option Uuid) (authorizationDeadline : Option Int) (env : Env) : World × Process × Outcome :=
  let expired := .finished (.decisionFailed .expired)
  match evaluateCibaDecision stored.state expectedUserId decision env.now with
  | .invalidAuthenticationContext =>
    (w, p.goto (.finished (.decisionFailed .invalidAuthenticationContext)), .quiet)
  | .userMismatch => (w, p.goto (.finished (.decisionFailed .userMismatch)), .quiet)
  | .alreadyHandled => (w, p.goto (.finished (.decisionFailed .alreadyHandled)), .quiet)
  | .expired => w.delete p env.storeNow stored authorizationDeadline expired (p.again attempt) expired
  | .commit next =>
    let decisionDeadline := (authorizationDeadline.map (min · stored.state.expiresAt)).getD stored.state.expiresAt
    w.replace p env.storeNow stored next (some decisionDeadline) (.finished (.decided next decision))
      (p.again attempt)
      expired (.decided decision authorizationDeadline env.storeNow stored.version (serialized next))

/-! ## The machine -/

def workerStep (p : Process) (env : Env) : World × Process × Outcome :=
  match p.phase with
  | .load attempt => (w, reload w p attempt env, .quiet)
  | .ready attempt stored => match p.task with
    | .poll _ authorizationDeadline => pollTurn w p attempt stored authorizationDeadline env
    | .decide decision expectedUserId authorizationDeadline =>
      decideTurn w p attempt stored decision expectedUserId authorizationDeadline env
  | .finished _ => (w, p, .quiet)

inductive Op where
  | create (request : BackchannelRequest) (storeNow : Nat)
  | start (worker : Nat) (task : Task)
  | step (worker : Nat) (env : Env)
  /-- A scan of the queue that reaches this request. -/
  | claimPing (now lockUntil : Int) (layout : Nat) (storeNow : Nat)
  | finishPing (attempts : Nat) (outcome : CibaPingFinishOutcome) (layout : Nat) (storeNow : Nat)
  /-- The store removes a key past its deadline. -/
  | expire (storeNow : Nat)
  deriving DecidableEq

/-- `create_with_authorization_deadline`: the notification learns its `auth_req_id`. -/
def CibaRequestState.withAuthReqId (authReqId : String) (state : CibaRequestState) : CibaRequestState :=
  { state with
    pingNotification := state.pingNotification.map fun ping => { ping with authReqId := some authReqId } }

/-- The endpoint creates the request under this identifier. -/
def create (authReqId : String) (slot : Slot) (request : BackchannelRequest) (storeNow : Int) : Slot × Outcome :=
  match newRequestState request with
  | none => (slot, .quiet)
  | some state => match validateNewState state with
    | .error _ => (slot, .quiet)
    | .ok () =>
      let text := serialized (state.withAuthReqId authReqId)
      let (slot, reply) := setNxDeadline storeNow slot text state.retentionExpiresAt (some state.expiresAt)
      (slot, if wrote reply then .created text else .quiet)

def World.setWorker (worker : Nat) (p : Process) : World :=
  { w with workers := fun i => if i = worker then some p else w.workers i }

/-- The event of a script: the text before and after, if it wrote one. -/
def pingEvent (storeNow : Int) (before after : Slot) : Outcome :=
  match before.visible storeNow, after.key with
  | some b, some a => if b.value = a.value then .quiet else .pinged b.value a.value
  | _, _ => .quiet

def exec (authReqId : String) (w : World) : Op → World × Outcome
  | .create request storeNow =>
    let (slot, outcome) := create authReqId w.slot request storeNow
    ({ w with slot := slot }, outcome)
  | .start worker task => match w.workers worker with
    | none => (w.setWorker worker ⟨task, none, .load 0⟩, .quiet)
    | some _ => (w, .quiet)
  | .step worker env => match w.workers worker with
    | none => (w, .quiet)
    | some p =>
      let (w', p', outcome) := workerStep w p env
      let p'' := if env.replyLost then p'.goto (.finished (p.task.storage .unavailable)) else p'
      (w'.setWorker worker p'', outcome)
  | .claimPing now lockUntil layout storeNow =>
    if w.slot.due.any fun score => score ≤ now then
      let slot := claimDuePing storeNow w.slot now lockUntil layout
      ({ w with slot := slot }, pingEvent storeNow w.slot slot)
    else (w, .quiet)
  | .finishPing attempts outcome layout storeNow =>
    let slot := finishPing storeNow w.slot attempts outcome layout
    ({ w with slot := slot }, pingEvent storeNow w.slot slot)
  | .expire storeNow => ({ w with slot := { w.slot with key := w.slot.visible storeNow } }, .quiet)

abbrev Log := List (Op × Outcome)

/-- Nothing is stored under the identifier. -/
def empty : World := ⟨⟨none, none⟩, fun _ => none⟩

end NazoAuth.Ciba
