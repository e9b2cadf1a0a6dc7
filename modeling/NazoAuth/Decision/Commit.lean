import NazoAuth.Audit.Export
import NazoAuth.Lib.Fence

/-!
# Authorization decisions — the commit transaction

`commit_decision` consumes the request and its pushed-request URI, changes the grant when the user
approved, and stores the decision as an audit event, in one transaction. The unique indexes over the
decisions of the event table are its fence. A transaction is cut where it can wait for another one:

* `begin` : the checks, the principals, the lock of an existing grant, and the first look at the
  clock.
* `insert` : the insertion of the event. A stored event with one of the keys is a conflict; an event
  of an open transaction makes it wait.
* `grant` : the upsert of the grant of an approval, which waits for a transaction that holds the
  grant.
* `answer` : the second look at the clock. After the deadline the subtransaction is rolled back.
* `commit` and `abort` end the transaction; a lock timeout, a lost connection and a cancelled
  request abort.

The other writers of the event table are those of `NazoAuth.Audit`; the principals change at any
time.
-/

namespace NazoAuth.Decision

open Lib Audit

/-! ## Input -/

structure AuthorizationDecisionCommit where
  tenantId : Uuid
  userId : Uuid
  clientId : String
  requestId : String
  pushedRequestUri : Option String
  validUntil : Instant
  retainUntil : Instant
  decision : AuthorizationDecisionKind
  eventId : Uuid
  occurredAt : Instant
  auditFields : Json
  scopes : List String
  resourceIndicators : List String
  authorizationDetails : Json

inductive AuthorizationDecisionCommitResult where
  | committed
  | conflict
  | expired
  | clientUnavailable
  | grantUnavailable
  deriving DecidableEq

inductive AuthorizationPortError where
  | corruptData
  | unexpected
  | unavailable

def AuthorizationDecisionKind.text : AuthorizationDecisionKind → String
  | .approve => "approve"
  | .deny => "deny"
  | .promptNone => "prompt_none"

/-- What the commit uses of JSON, BLAKE3 and the ledger. -/
structure Formats where
  ledger : Encodings
  /-- The compact encoding of a value. -/
  compactText : Json → String
  /-- `canonical_authorization_details`, where it succeeds. -/
  canonicalDetails : Json → Option String
  /-- `to_jsonb` of a timestamp. -/
  instantText : Instant → String

/-! ## Checks -/

variable (f : Formats)

def hexDigest (bytes : List UInt8) : Json := .str (String.ofList (toHex 64 (f.ledger.blake3 bytes).toNat))

def bindDecisionAuditDigests (input : AuthorizationDecisionCommit) : Json :=
  let bind (name : String) (value : Option Json) (fields : Json) : Json :=
    match value with
    | some v => Json.set name v fields
    | none => fields.erase name
  let resources := if input.resourceIndicators.isEmpty then none
    else some (hexDigest f (utf8 ("\x1f".intercalate input.resourceIndicators)))
  let details := if input.authorizationDetails.items.isEmpty then none
    else some (hexDigest f (utf8 (f.compactText input.authorizationDetails)))
  bind "pushed_request_uri_hash" (input.pushedRequestUri.map fun uri => hexDigest f (utf8 uri))
    (bind "authorization_details_digest" details
      (bind "resource_digest" resources
        (Json.set "request_id_hash" (hexDigest f (utf8 input.requestId)) input.auditFields)))

def validateDecisionInput (tenantId : Uuid) (input : AuthorizationDecisionCommit) : Bool :=
  input.tenantId = tenantId && input.tenantId ≠ 0 && input.userId ≠ 0 && input.eventId ≠ 0
    && !input.requestId.isEmpty && decide (input.requestId.utf8ByteSize ≤ 512)
    && !input.clientId.isEmpty && decide (input.clientId.utf8ByteSize ≤ 512)
    && input.pushedRequestUri.all (fun uri => !uri.isEmpty && decide (uri.utf8ByteSize ≤ 1024))
    && decide (input.validUntil ≤ input.retainUntil) && decide (input.occurredAt ≤ input.retainUntil)
    && input.auditFields.isObject && input.authorizationDetails.isArray

/-- `'^[0-9a-f]{64}$'`. -/
def isHexDigest (s : String) : Bool := s.length = 64 && s.toList.all fun c => (hexValue? c).isSome

/-- A member that is a string of 64 hexadecimal digits. -/
def hasDigest (fields : Json) (name : String) : Bool := ((fields.get? name).bind Json.str?).any isHexDigest

/-- The audit fields that the stored function accepts. -/
def auditFieldsAccepted (decision : AuthorizationDecisionKind) (fields : Json) : Bool :=
  let codeBound := ((fields.get? "code_id").bind Json.str?).any (fun s => !s.isEmpty)
    && hasDigest fields "code_hash" && hasDigest fields "code_payload_digest"
  let codeNamed := ["code_id", "code_hash", "code_payload_digest"].any fun name => (fields.get? name).isSome
  (if decision = .deny then !codeNamed else codeBound)
    && hasDigest fields "request_id_hash"
    && ["request_id_hash", "source_ip_hash", "resource_digest", "authorization_details_digest",
      "pushed_request_digest",
        "pushed_request_uri_hash"].all fun name => (fields.get? name).isNone || hasDigest fields name

/-- `v_payload`: the exported fields, without those that are null. -/
def decisionPayload (input : AuthorizationDecisionCommit) (fields : Json) : Json :=
  let copied := ["request_id_hash", "source_ip_hash", "resource_digest", "authorization_details_digest",
    "pushed_request_digest", "pushed_request_uri_hash", "code_id", "code_hash", "code_payload_digest"]
  .obj ([("schema_version", .str "nazo.audit.v1"), ("event_category", .str "authorization"),
    ("tenant_id", .str (uuidText input.tenantId)), ("user_id", .str (uuidText input.userId)),
    ("client_id", .str input.clientId), ("decision", .str (AuthorizationDecisionKind.text input.decision)),
    ("valid_until", .str (f.instantText input.validUntil)),
    ("retain_until", .str (f.instantText input.retainUntil))]
    ++ Json.member "scope" (if input.scopes.isEmpty then none else some (.str (" ".intercalate input.scopes)))
    ++ copied.flatMap fun name => Json.member name ((fields.get? name).filter (· ≠ .null)))

/-- The columns of the decision's row. -/
def decisionColumns (input : AuthorizationDecisionCommit) : Option DecisionColumns :=
  if h : input.validUntil ≤ input.retainUntil then
    some ⟨input.tenantId, input.requestId, input.pushedRequestUri, input.decision, input.validUntil,
      input.retainUntil, h⟩
  else none

/-- What a transaction writes: the event of the decision and its columns. -/
structure Fact where
  event : SecurityAuditEvent
  columns : DecisionColumns

/-- The checks of `commit_decision` and of the stored function before any row is read. -/
def prepare (tenantId : Uuid) (input : AuthorizationDecisionCommit) : Except AuthorizationPortError Fact :=
  if !validateDecisionInput tenantId input then .error .corruptData
  else
    let fields := bindDecisionAuditDigests f input
    let payload := decisionPayload f input fields
    if !auditFieldsAccepted input.decision fields then .error .unexpected
    else if 65536 < (f.ledger.payloadText payload).utf8ByteSize then .error .unexpected
    else match decisionColumns input with
      | none => .error .unexpected
      | some columns => .ok ⟨⟨input.eventId, decisionEventType, "authorization", payload, input.occurredAt⟩,
        columns⟩

/-! ## Principals and grants -/

structure ClientRow where
  tenantId : Uuid
  id : Uuid
  clientId : String
  isActive : Bool

structure UserRow where
  tenantId : Uuid
  id : Uuid
  isActive : Bool

/-- Tenant, user and client of a grant. -/
abbrev GrantKey := Uuid × Uuid × Uuid

/-- A row of `user_client_grants`. -/
structure GrantRow where
  key : GrantKey
  firstAuthorizedAt : Instant
  lastAuthorizedAt : Instant
  lastScopes : Json
  lastResourceIndicators : Json
  lastAuthorizationDetails : Json
  authorizationCount : Nat

def texts (values : List String) : Json := .arr (values.map .str)

/-- The row that an approval writes over the stored one. -/
def approvedGrant (input : AuthorizationDecisionCommit) (key : GrantKey)
    (stored : Option GrantRow) : GrantRow where
  key := key
  firstAuthorizedAt := (stored.map (·.firstAuthorizedAt)).getD input.occurredAt
  lastAuthorizedAt := input.occurredAt
  lastScopes := texts input.scopes
  lastResourceIndicators := texts input.resourceIndicators
  lastAuthorizationDetails := input.authorizationDetails
  authorizationCount := (stored.map (·.authorizationCount)).getD 0 + 1

/-- The strings of an array. -/
def stringsOf (value : Json) : List String := value.items.filterMap Json.str?

def contains (needle s : String) : Bool := s.toList.tails.any needle.toList.isPrefixOf

def highRiskAuthorizationDetails (details : Json) : Bool :=
  details.items.any fun item => item.isObject
    && (contains "payment" (((item.get? "type").bind Json.str?).getD "")
      || ((item.get? "actions").any fun actions => (stringsOf actions).any fun action =>
          ["write", "create", "update", "delete", "transfer", "payment"].contains action))

def storedGrantCoversRequestedAuthorization (stored : GrantRow) (input : AuthorizationDecisionCommit) : Bool :=
  isSubset input.scopes (stringsOf stored.lastScopes)
    && isSubset input.resourceIndicators (stringsOf stored.lastResourceIndicators)
    && (input.authorizationDetails.items.isEmpty
      || (!highRiskAuthorizationDetails input.authorizationDetails
        && f.canonicalDetails stored.lastAuthorizationDetails = f.canonicalDetails input.authorizationDetails))

/-! ## Transactions -/

/-- A transaction before the insertion of its event. -/
structure Started where
  tx : Nat
  input : AuthorizationDecisionCommit
  fact : Fact
  grantKey : GrantKey
  /-- It holds the row lock of the stored grant. -/
  locked : Bool

/-- A transaction after the insertion. -/
structure Inserted where
  tx : Nat
  input : AuthorizationDecisionCommit
  fact : Fact
  grantKey : GrantKey
  locked : Bool
  reservedAt : Instant
  /-- The grant it has written. -/
  granted : Option GrantRow
  /-- The clock of its answer. -/
  answeredAt : Option Instant

structure World where
  ledger : Ledger
  grants : List GrantRow
  clients : List ClientRow
  users : List UserRow
  started : List Started
  inserted : List Inserted

def World.initial : World := ⟨Ledger.initial, [], [], [], [], []⟩

variable (w : World)

/-- The stored grant. -/
def World.grant? (key : GrantKey) : Option GrantRow := w.grants.find? fun g => g.key = key

/-- The upsert of a grant row. -/
def putGrant (grants : List GrantRow) (row : GrantRow) : List GrantRow :=
  row :: grants.filter fun g => g.key ≠ row.key

/-- A transaction other than `tx` that has written the grant or locked it for an update. -/
def World.grantHeld (tx : Nat) (key : GrantKey) : Bool :=
  (w.started.any fun t => t.tx ≠ tx && t.grantKey = key && t.locked && t.input.decision = .approve)
    || w.inserted.any fun t => t.tx ≠ tx && t.grantKey = key
      && (t.granted.isSome || (t.locked && t.input.decision = .approve))

/-- A transaction other than `tx` that has locked the grant in any mode. -/
def World.grantLocked (tx : Nat) (key : GrantKey) : Bool :=
  (w.started.any fun t => t.tx ≠ tx && t.grantKey = key && t.locked)
    || w.inserted.any fun t => t.tx ≠ tx && t.grantKey = key && (t.granted.isSome || t.locked)

inductive Action where
  | begin (tx : Nat) (tenantId : Uuid) (input : AuthorizationDecisionCommit)
  | insert (tx : Nat)
  | grant (tx : Nat)
  | answer (tx : Nat)
  | commit (tx : Nat)
  | abort (tx : Nat)
  /-- Another writer of the event table. -/
  | ledger (action : Audit.Action)
  /-- The principals are administered. -/
  | principals (clients : List ClientRow) (users : List UserRow)

/-- What is done, when its transaction started, and the clock of the database. -/
structure Op where
  action : Action
  stamp : Instant
  now : Instant

inductive Outcome where
  /-- Nothing happened: another transaction is waited for, or there is no such transaction. -/
  | waiting
  /-- The call returned without a decision. -/
  | returned (result : Except AuthorizationPortError AuthorizationDecisionCommitResult)
  | started
  | reserved (t : Inserted)
  /-- The grant row was written, not yet visible to others. -/
  | granted
  | answered
  /-- The subtransaction or the transaction was rolled back. -/
  | rolledBack (tx : Nat) (result : Except AuthorizationPortError AuthorizationDecisionCommitResult)
  /-- The transaction was committed and the call returned `Committed`; `answeredAt` is the clock of the answer. -/
  | committed (t : Inserted) (answeredAt : Instant)
  | ledger (outcome : Audit.Outcome) (deleted : List Uuid)
  | done

variable (tx : Nat)

/-- `commit_decision` up to the insertion. -/
def begin_ (tenantId : Uuid) (input : AuthorizationDecisionCommit) (now : Instant) :
    World × Outcome :=
  match prepare f tenantId input with
  | .error e => (w, .returned (.error e))
  | .ok fact =>
    match w.clients.find? (fun c => c.tenantId = input.tenantId && c.clientId = input.clientId) with
    | none => (w, .returned (.ok .clientUnavailable))
    | some client =>
      let userActive := w.users.any fun u => u.tenantId = input.tenantId && u.id = input.userId && u.isActive
      let key : GrantKey := (input.tenantId, input.userId, client.id)
      let start (locked : Bool) : World × Outcome :=
        if input.validUntil ≤ now then (w, .returned (.ok .expired))
        else ({ w with started := ⟨tx, input, fact, key, locked⟩ :: w.started }, .started)
      if !client.isActive || !userActive then (w, .returned (.ok .clientUnavailable))
      else match input.decision with
        | .deny => start false
        | .approve =>
          if (w.grant? key).isSome && w.grantLocked tx key then (w, .waiting) else start (w.grant? key).isSome
        | .promptNone =>
          if (w.grant? key).isSome && w.grantHeld tx key then (w, .waiting)
          else if (w.grant? key).any fun g => storedGrantCoversRequestedAuthorization f g input then start true
          else (w, .returned (.ok .grantUnavailable))

/-- The event of the transaction is stored under one of the keys. -/
def conflicts (s : Ledger) (fact : Fact) : Bool :=
  s.events.rows.any fun r => r.key = fact.event.eventId || r.decision.any fact.columns.collides

/-- The facts have a key in common. -/
def Fact.shares (a b : Fact) : Bool := a.event.eventId = b.event.eventId || a.columns.collides b.columns

/-- `INSERT … ON CONFLICT DO NOTHING`. -/
def insert_ (now : Instant) : World × Outcome :=
  match w.started.find? (fun t => t.tx = tx) with
  | none => (w, .waiting)
  | some t =>
    let rest := w.started.filter fun t => t.tx ≠ tx
    if conflicts w.ledger t.fact then ({ w with started := rest }, .returned (.ok .conflict))
    else if w.inserted.any fun p => p.tx = tx || t.fact.shares p.fact then (w, .waiting)
    else
      let p : Inserted := ⟨tx, t.input, t.fact, t.grantKey, t.locked, now, none, none⟩
      ({ w with started := rest, inserted := p :: w.inserted }, .reserved p)

/-- The transactions but `tx`. -/
def World.without : World :=
  { w with started := w.started.filter (fun t => t.tx ≠ tx), inserted := w.inserted.filter fun t => t.tx ≠ tx }

/-- A change of the transaction `tx`. -/
def World.modify (g : Inserted → Inserted) : World :=
  { w with inserted := w.inserted.map fun t => if t.tx = tx then g t else t }

/-- The upsert of an approval. -/
def grant_ : World × Outcome :=
  match w.inserted.find? (fun t => t.tx = tx) with
  | none => (w, .waiting)
  | some t =>
    if t.input.decision ≠ .approve || t.granted.isSome || w.grantLocked tx t.grantKey then (w, .waiting)
    else
      let row := approvedGrant t.input t.grantKey (w.grant? t.grantKey)
      if 2 ^ 31 ≤ row.authorizationCount then (w.without tx, .rolledBack tx (.error .unexpected))
      else (w.modify tx fun t => { t with granted := some row }, .granted)

/-- The answer of the stored function. -/
def answer_ (now : Instant) : World × Outcome :=
  match w.inserted.find? (fun t => t.tx = tx) with
  | none => (w, .waiting)
  | some t =>
    if (t.input.decision = .approve && t.granted.isNone) || t.answeredAt.isSome then (w, .waiting)
    else if t.input.validUntil ≤ now then (w.without tx, .rolledBack tx (.ok .expired))
    else (w.modify tx fun t => { t with answeredAt := some now }, .answered)

/-- The end of the transaction. -/
def commit_ : World × Outcome :=
  match w.inserted.find? (fun t => t.tx = tx) with
  | none => (w, .waiting)
  | some t =>
    match t.answeredAt, insertDecision w.ledger t.fact.event t.fact.columns with
    | some answeredAt, some ledger =>
      ({ w.without tx with
          ledger := ledger
          grants := match t.granted with
            | some row => putGrant w.grants row
            | none => w.grants }, .committed t answeredAt)
    | _, _ => (w, .waiting)

/-- An append waits for a transaction that has inserted one of its identifiers; a decision is only
committed by its own transaction. -/
def ledgerBlocked : Audit.Action → Bool
  | .append events => events.any fun event => w.inserted.any fun p => p.fact.event.eventId = event.eventId
  | .decide _ _ => true
  | _ => false

/-- The decisions that a transaction on the ledger deletes. -/
def deletedBy (s : Ledger) (action : Audit.Action) (stamp : Instant) : List Uuid :=
  match action with
  | .cleanup held => (dueDecisions s held stamp).map EventRow.key
  | _ => []

def exec (op : Op) : World × Outcome :=
  match op.action with
  | .begin tx tenantId input =>
    if (w.started.any fun t => t.tx = tx) || w.inserted.any fun t => t.tx = tx then (w, .waiting)
    else begin_ f w tx tenantId input op.now
  | .insert tx => insert_ w tx op.now
  | .grant tx => grant_ w tx
  | .answer tx => answer_ w tx op.now
  | .commit tx => commit_ w tx
  | .abort tx => (w.without tx, .rolledBack tx (.error .unavailable))
  | .ledger action =>
    if ledgerBlocked w action then (w, .waiting)
    else
      let (ledger, outcome) := Audit.exec f.ledger w.ledger ⟨action, op.stamp, op.now⟩
      ({ w with ledger := ledger }, .ledger outcome (deletedBy w.ledger action op.stamp))
  | .principals clients users => ({ w with clients := clients, users := users }, .done)

abbrev Log := List (Op × Outcome)

/-- The clock of the database does not run backwards, and a transaction starts before it looks at
the clock. -/
def Timed : Log → Prop
  | [] => True
  | e :: log => Timed log ∧ (∀ e' ∈ log, e'.1.now ≤ e.1.now) ∧ e.1.stamp ≤ e.1.now

instance decidableTimed : DecidablePred Timed
  | [] => isTrue trivial
  | _ :: log => @instDecidableAnd _ _ (decidableTimed log) inferInstance

end NazoAuth.Decision
