import Mathlib.Data.List.Sort
import NazoAuth.Basic
import NazoAuth.Lib.Bytes
import NazoAuth.Lib.Json
import NazoAuth.Lib.Table

/-!
# The security audit ledger — tables, appends, acknowledgement and maintenance

The stored functions of the ledger over its three tables: the events, the chain entries of the batch
in flight, and the one row of the chain state. Each function is the transaction that runs it; the
functions of the exporter and the receiver lock the chain state row first, so they are serialised.

A function either fails, and then leaves no trace, or returns the new tables with its answer. The
texts of the failures are those of the source.
-/

namespace NazoAuth.Audit

open Lib

/-! ## Tables -/

/-- `SecurityAuditEvent`: what a writer appends. -/
structure SecurityAuditEvent where
  eventId : Uuid
  eventType : String
  eventCategory : String
  payload : Json
  occurredAt : Instant

inductive AuthorizationDecisionKind where
  | approve
  | deny
  | promptNone
  deriving DecidableEq

/-- The columns that only an authorization decision has; the CHECK constraint of the table makes the
retention last as long as the validity. -/
structure DecisionColumns where
  tenantId : Uuid
  requestId : String
  parUri : Option String
  decision : AuthorizationDecisionKind
  validUntil : Instant
  retainUntil : Instant
  retained : validUntil ≤ retainUntil

/-- A row of `security_audit_events`. -/
structure EventRow where
  event : SecurityAuditEvent
  decision : Option DecisionColumns
  exportedAt : Option Instant

namespace EventRow

/-- The primary key. -/
def key (r : EventRow) : Uuid := r.event.eventId

/-- The row waits for its delivery. -/
def pending (r : EventRow) : Bool := r.exportedAt.isNone

/-- `SET exported_at = …, payload = '{}'`. -/
def release (exportedAt : Instant) (r : EventRow) : EventRow :=
  { r with event := { r.event with payload := .obj [] }, exportedAt := some exportedAt }

@[simp] theorem release_key (t : Instant) (r : EventRow) : (r.release t).key = r.key := rfl

/-- `ORDER BY occurred_at, event_id`. -/
def occursFirst (a b : EventRow) : Prop :=
  a.event.occurredAt < b.event.occurredAt
    ∨ (a.event.occurredAt = b.event.occurredAt ∧ a.key.toNat ≤ b.key.toNat)

instance : DecidableRel occursFirst := fun _ _ => inferInstanceAs (Decidable (_ ∨ _))

/-- `ORDER BY business_retain_until, event_id`. -/
def retiresFirst (a b : EventRow) : Prop :=
  (a.decision.map (·.retainUntil)).getD 0 < (b.decision.map (·.retainUntil)).getD 0
    ∨ ((a.decision.map (·.retainUntil)).getD 0 = (b.decision.map (·.retainUntil)).getD 0
      ∧ a.key.toNat ≤ b.key.toNat)

instance : DecidableRel retiresFirst := fun _ _ => inferInstanceAs (Decidable (_ ∨ _))

end EventRow

/-- A row of `security_audit_chain_entries`. -/
structure ChainEntry where
  eventId : Uuid
  sequence : Nat
  previousHash : Digest
  eventHash : Digest

/-- The batch columns of the chain state; a CHECK constraint makes them null together. -/
structure OpenBatch where
  firstSequence : Nat
  lastSequence : Nat
  eventCount : Nat
  digest : Option Digest

/-- The one row of `security_audit_chain_state`. -/
structure ChainState where
  lastSequence : Nat
  lastHash : Digest
  anchorDeploymentId : Option String
  anchorSequence : Option Nat
  anchorHash : Option Digest
  anchorOccurredAt : Option Instant
  anchorAcceptedAt : Option Instant
  anchorObservedAt : Option Instant
  batch : Option OpenBatch
  batchGeneration : Nat
  batchAttempts : Nat
  batchAvailableAt : Option Instant
  batchLockedUntil : Option Instant
  batchLastError : Option String
  batchBlockedReason : Option String

/-- The hash before the first entry: `decode(repeat('00', 32), 'hex')`. -/
def genesisHash : Digest := 0

/-- The tables. The chain entries are listed in the order of their sequence index. -/
structure Ledger where
  events : Table EventRow.key
  chain : List ChainEntry
  state : ChainState

/-- The tables after the migration. -/
def Ledger.initial : Ledger :=
  ⟨Table.empty, [], ⟨0, genesisHash, none, none, none, none, none, none, none, 0, 0, none, none, none, none⟩⟩

/-- `COALESCE(anchor_sequence, 0)`. -/
def Ledger.anchor (s : Ledger) : Nat := s.state.anchorSequence.getD 0

/-- The event with `exported_at IS NULL` under an identifier. -/
def Ledger.unexported (s : Ledger) (eventId : Uuid) : Option EventRow :=
  (s.events.find? eventId).filter EventRow.pending

/-- `RepositoryError`, as the ledger reports it. -/
inductive LedgerError where
  /-- A failed statement, with the text of its error. -/
  | unexpected (text : String)
  /-- The change no longer applies. -/
  | consistency (text : String)

abbrev Result := Except LedgerError

/-- `RAISE EXCEPTION`. -/
def raise {α : Type} (text : String) : Result α := .error (.unexpected text)

/-- The next value of a `bigint` column. -/
def nextBigint (n : Nat) : Result Nat :=
  if n + 1 < 2 ^ 63 then .ok (n + 1) else raise "bigint out of range"

/-- The next value of an `integer` column. -/
def nextInteger (n : Nat) : Result Nat :=
  if n + 1 < 2 ^ 31 then .ok (n + 1) else raise "integer out of range"

/-! ## Appends -/

/-- `SecurityAuditPendingDelivery`: an event with its place in the chain, as it is sent. -/
structure SecurityAuditPendingDelivery where
  eventId : Uuid
  sequence : Nat
  eventType : String
  eventCategory : String
  payloadCanonical : String
  occurredAt : Instant
  previousHash : Digest
  eventHash : Digest

/-- What the ledger uses of JSON, BLAKE3 and the wire format. -/
structure Encodings where
  blake3 : List UInt8 → Digest
  /-- `payload::TEXT`. -/
  payloadText : Json → String
  /-- Equality of `jsonb` values. -/
  payloadEq : Json → Json → Bool
  /-- The length of the compact encoding. -/
  payloadBytes : Json → Nat
  /-- `security_audit_event_wire_length`. -/
  eventWireLength : SecurityAuditPendingDelivery → Nat
  /-- `security_audit_empty_envelope_wire_length`. -/
  emptyEnvelopeWireLength : String → SecurityAuditPendingDelivery → SecurityAuditPendingDelivery → Nat → Nat

def decisionEventType : String := "authorization_decision_committed"

def maxSecurityAuditPayloadBytes : Nat := 64 * 1024

def validIdentifier (value : String) : Bool :=
  match value.toList with
  | [] => false
  | first :: rest => first.isLower && decide (value.utf8ByteSize ≤ 64)
      && rest.all fun c => c.isLower || c.isDigit || c = '_'

section Append

variable (c : Encodings)

def validateEvent (event : SecurityAuditEvent) : Result Unit :=
  if event.eventId = 0 || event.eventType = decisionEventType || !validIdentifier event.eventType
      || !validIdentifier event.eventCategory || !event.payload.isObject then
    raise "security audit event has invalid identity or payload"
  else if maxSecurityAuditPayloadBytes < c.payloadBytes event.payload then
    raise "audit payload exceeds 65536 bytes"
  else .ok ()

/-- `nazo_persist_security_audit_event`: whether the event was inserted. An identical event that is
still stored is accepted and changes nothing. -/
def persistSecurityAuditEvent (s : Ledger) (event : SecurityAuditEvent) : Result (Ledger × Bool) :=
  if event.eventType = decisionEventType then raise "authorization decision requires its atomic commit API"
  else if event.eventId = 0 || decide (65536 < (c.payloadText event.payload).utf8ByteSize) then
    raise "invalid security audit event"
  else match s.events.insert? ⟨event, none, none⟩ with
    | some events => .ok ({ s with events := events }, true)
    | none =>
      if (s.events.find? event.eventId).any fun r => r.event.eventType = event.eventType
          && r.event.eventCategory = event.eventCategory && c.payloadEq r.event.payload event.payload
          && r.event.occurredAt = event.occurredAt then
        .ok (s, false)
      else raise "security audit event id collision"

/-- The statement of `append_batch`: the stored function once per event. -/
def persistAll : Ledger → List SecurityAuditEvent → Result (Ledger × List Bool)
  | s, [] => .ok (s, [])
  | s, event :: events => do
    let (s, changed) ← persistSecurityAuditEvent c s event
    let (s, rest) ← persistAll s events
    return (s, changed :: rest)

/-- `append_batch`: every event is checked first, and one statement appends them all. -/
def appendBatch (s : Ledger) (events : List SecurityAuditEvent) : Result (Ledger × List Bool) := do
  events.forM (validateEvent c)
  persistAll c s events

end Append

/-! ## Decisions -/

/-- The unique indexes over the decisions of the table. -/
def DecisionColumns.collides (a b : DecisionColumns) : Bool :=
  a.tenantId = b.tenantId && (a.requestId = b.requestId || (a.parUri.isSome && a.parUri = b.parUri))

/-- `INSERT … ON CONFLICT DO NOTHING` of a decision. -/
def insertDecision (s : Ledger) (event : SecurityAuditEvent) (columns : DecisionColumns) : Option Ledger :=
  if s.events.rows.any fun r => r.decision.any columns.collides then none
  else (s.events.insert? ⟨{ event with eventType := decisionEventType, eventCategory := "authorization" },
    some columns, none⟩).map fun events => { s with events := events }

/-- `nazo_cleanup_authorization_decisions`: delivered decisions whose retention is over, without
those that other transactions have locked. -/
def dueDecisions (s : Ledger) (held : List Uuid) (stamp : Instant) : List EventRow :=
  ((s.events.rows.filter fun r => r.event.eventType = decisionEventType && r.exportedAt.isSome
    && (r.decision.any fun d => decide (d.retainUntil ≤ stamp)) && !held.contains r.key).insertionSort
      EventRow.retiresFirst).take 256

def cleanupAuthorizationDecisions (s : Ledger) (held : List Uuid) (stamp : Instant) : Ledger :=
  { s with events := s.events.delete fun r => ((dueDecisions s held stamp).map EventRow.key).contains r.key }

end NazoAuth.Audit
