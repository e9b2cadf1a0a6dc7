import NazoAuth.Audit.Ledger
import NazoAuth.Lib.Run

/-!
# The security audit ledger — claims, acknowledgements and the machine of all writers

An exporter claims a batch: the one in flight again, or a new one over the pending events, which are
then given their place in the hash chain. It sends the batch and the receiver acknowledges it; the
exporter reports a failure. Exporters crash, their leases run out, and late reports arrive: the
*generation* of the batch, which every claim increases, tells them apart.

`exec` runs one transaction. What it cannot control is an argument: the clock of the exporter, the
start of its transaction, the clock of the database, and the rows that other transactions hold.
-/

namespace NazoAuth.Audit

open Lib

/-! ## The hash chain -/

def securityAuditEventHash (c : Encodings) (sequence : Nat) (previousHash : Digest) (eventId : Uuid)
    (eventType eventCategory : String) (occurredAt : Instant) (payloadCanonical : String) : Digest :=
  c.blake3 (utf8 "nazo.audit.v1\x00" ++ bigEndian 8 sequence ++ bigEndian 32 previousHash.toNat
    ++ bigEndian 16 eventId.toNat ++ lengthPrefixed (utf8 eventType) ++ lengthPrefixed (utf8 eventCategory)
    ++ bigEndian 8 (occurredAt % 2 ^ 64).toNat ++ lengthPrefixed (utf8 payloadCanonical))

def securityAuditBatchDigest (c : Encodings) (deploymentId : String) (firstSequence lastSequence eventCount : Nat)
    (previousHash lastHash : Digest) (eventHashes : List Digest) : Digest :=
  c.blake3 (utf8 "nazo.audit.batch.v1\x00" ++ lengthPrefixed (utf8 deploymentId) ++ bigEndian 8 firstSequence
    ++ bigEndian 8 lastSequence ++ bigEndian 8 eventCount ++ bigEndian 32 previousHash.toNat
    ++ bigEndian 32 lastHash.toNat ++ eventHashes.flatMap fun h => bigEndian 32 h.toNat)

/-! ## Batches -/

/-- `SecurityAuditBatchMemberRow`: an event with its chain columns, which are null before it is
chained. -/
structure SecurityAuditBatchMemberRow where
  eventId : Uuid
  sequence : Option Nat
  eventType : String
  eventCategory : String
  payloadCanonical : String
  occurredAt : Instant
  previousHash : Option Digest
  eventHash : Option Digest

structure SecurityAuditBatch where
  generation : Nat
  firstSequence : Nat
  lastSequence : Nat
  previousHash : Digest
  lastHash : Digest
  digest : Digest
  attempts : Nat
  deliveries : List SecurityAuditPendingDelivery

inductive SecurityAuditBatchClaim where
  | empty
  | busy
  | blocked (reason : String)
  | claimed (batch : SecurityAuditBatch)

structure SecurityAuditBatchAck where
  generation : Nat
  deploymentId : String
  firstSequence : Nat
  lastSequence : Nat
  eventCount : Nat
  lastHash : Digest
  batchDigest : Digest

section Claim

variable (c : Encodings)

/-- The columns that the queries select, with those of the chain entry if there is one. -/
def memberRow (entry : Option ChainEntry) (r : EventRow) : SecurityAuditBatchMemberRow where
  eventId := r.event.eventId
  sequence := entry.map (·.sequence)
  eventType := r.event.eventType
  eventCategory := r.event.eventCategory
  payloadCanonical := c.payloadText r.event.payload
  occurredAt := r.event.occurredAt
  previousHash := entry.map (·.previousHash)
  eventHash := entry.map (·.eventHash)

variable (s : Ledger)

/-- The chain entries joined with their unexported events. -/
def joinEvents (entries : List ChainEntry) : List (ChainEntry × EventRow) :=
  entries.filterMap fun e => (s.unexported e.eventId).map fun r => (e, r)

/-- The entries of the chain after the anchor and up to `last`. -/
def Ledger.range (last : Nat) : List ChainEntry :=
  s.chain.filter fun e => decide (s.anchor < e.sequence) && decide (e.sequence ≤ last)

def securityAuditBatchMembers (b : OpenBatch) : List SecurityAuditBatchMemberRow :=
  (joinEvents s (s.range b.lastSequence)).map fun (e, r) => memberRow c (some e) r

/-- `nazo_claim_security_audit_pending`: entries left over after the anchor, else the oldest pending
events. -/
def claimSecurityAuditPending (limit : Nat) : List SecurityAuditBatchMemberRow :=
  let chained := joinEvents s ((s.chain.filter fun e => decide (s.anchor < e.sequence)).take limit)
  if chained.isEmpty then
    (((s.events.rows.filter EventRow.pending).insertionSort EventRow.occursFirst).take limit).map
      (memberRow c none)
  else chained.map fun (e, r) => memberRow c (some e) r

/-- The delivery of a row at a place in the chain. -/
def SecurityAuditBatchMemberRow.delivery (row : SecurityAuditBatchMemberRow) (sequence : Nat)
    (previousHash eventHash : Digest) : SecurityAuditPendingDelivery where
  eventId := row.eventId
  sequence := sequence
  eventType := row.eventType
  eventCategory := row.eventCategory
  payloadCanonical := row.payloadCanonical
  occurredAt := row.occurredAt
  previousHash := previousHash
  eventHash := eventHash

/-- The delivery of a member of the batch in flight. -/
def memberDelivery (row : SecurityAuditBatchMemberRow) : Result SecurityAuditPendingDelivery :=
  match row.eventHash, row.sequence, row.previousHash with
  | none, _, _ => raise "security audit batch member has no chain hash"
  | some _, none, _ => raise "security audit batch member has no sequence"
  | some _, some _, none => raise "security audit batch member has no previous hash"
  | some eventHash, some sequence, some previousHash => .ok (row.delivery sequence previousHash eventHash)

/-- The digest of a batch over its deliveries. -/
def deliveriesDigest (deploymentId : String) (firstSequence lastSequence : Nat)
    (previousHash lastHash : Digest) (deliveries : List SecurityAuditPendingDelivery) : Digest :=
  securityAuditBatchDigest c deploymentId firstSequence lastSequence deliveries.length previousHash lastHash
    (deliveries.map (·.eventHash))

/-- The columns that a new lease sets. -/
def ChainState.lease (st : ChainState) (generation : Nat) (batch : OpenBatch)
    (lockedUntil : Instant) : ChainState :=
  { st with batch := some batch, batchGeneration := generation, batchLockedUntil := some lockedUntil }

def reclaimSecurityAuditBatch (digest : Digest) (lockTimeoutSeconds : Nat) (stamp : Instant) :
    Result (Ledger × Nat) :=
  match s.state.batch with
  | none => raise "no in-flight audit batch to re-claim"
  | some b =>
    if b.digest.any fun d => d ≠ digest then raise "audit batch content digest changed under the lease"
    else if (s.state.batchLockedUntil.any fun t => decide (stamp < t))
        || (s.state.batchAvailableAt.any fun t => decide (stamp < t)) || s.state.batchBlockedReason.isSome then
      raise "audit batch lease is not claimable"
    else do
      let generation ← nextBigint s.state.batchGeneration
      let leased := s.state.lease generation { b with digest := some digest } (stamp + seconds lockTimeoutSeconds)
      return ({ s with state := leased }, generation)

/-- The rows are exactly the committed range. -/
def membersFormPrefix (b : OpenBatch) (rows : List SecurityAuditBatchMemberRow) : Bool :=
  rows.length = b.eventCount && b.firstSequence + b.eventCount = b.lastSequence + 1
    && rows.zipIdx.all fun (row, offset) => row.sequence = some (b.firstSequence + offset)

/-- `claim_inflight`: the committed batch again, under a new generation. -/
def claimInflight (b : OpenBatch) (deploymentId : String) (lockTimeoutSeconds : Nat)
    (clock stamp : Instant) : Result (Ledger × SecurityAuditBatchClaim) :=
  match s.state.batchBlockedReason with
  | some reason => .ok (s, .blocked reason)
  | none =>
    if (s.state.batchLockedUntil.any fun t => decide (clock < t))
        || (s.state.batchAvailableAt.any fun t => decide (clock < t)) then .ok (s, .busy)
    else
      let rows := securityAuditBatchMembers c s b
      if b.firstSequence ≠ s.anchor + 1 then
        raise "security audit batch does not continue the anchor checkpoint"
      else if !membersFormPrefix b rows then
        raise "security audit batch members no longer form the committed prefix"
      else do
        let deliveries ← rows.mapM memberDelivery
        match deliveries.head?, deliveries.getLast? with
        | some first, some last =>
          let digest := deliveriesDigest c deploymentId b.firstSequence b.lastSequence first.previousHash
            last.eventHash deliveries
          if b.digest.any fun d => d ≠ digest then raise "security audit batch content changed under the lease"
          else
            let (s', generation) ← reclaimSecurityAuditBatch s digest lockTimeoutSeconds stamp
            return (s', .claimed ⟨generation, b.firstSequence, b.lastSequence, first.previousHash, last.eventHash,
              digest, s.state.batchAttempts, deliveries⟩)
        | _, _ => raise "security audit batch has no first member"

/-! ### New batches -/

/-- The state of the loop of `claim_fresh`: the head of the chain, the bytes of the chosen events,
the chosen deliveries, and the identifiers and hashes of those that are new to the chain. -/
structure Assembly where
  nextSequence : Nat
  nextHash : Digest
  usedEventBytes : Nat
  deliveries : List SecurityAuditPendingDelivery
  newEvents : List (Uuid × Digest)

def maxSecurityAuditSingletonEnvelopeBytes : Nat := 135168

/-- The delivery of a candidate, and whether it is new to the chain. -/
def chainRow (a : Assembly) (row : SecurityAuditBatchMemberRow) : Result (SecurityAuditPendingDelivery × Bool) :=
  match row.sequence, row.previousHash, row.eventHash with
  | some sequence, some previousHash, some eventHash => .ok (row.delivery sequence previousHash eventHash, false)
  | none, none, none =>
    if a.nextSequence + 1 < 2 ^ 63 then
      .ok (row.delivery (a.nextSequence + 1) a.nextHash (securityAuditEventHash c (a.nextSequence + 1) a.nextHash
        row.eventId row.eventType row.eventCategory row.occurredAt row.payloadCanonical), true)
    else raise "security audit sequence overflow"
  | _, _, _ => raise "security audit chain entry is incomplete"

/-- The bytes of the envelope with one more delivery. -/
def envelopeBytes (deploymentId : String) (a : Assembly) (delivery : SecurityAuditPendingDelivery) : Nat :=
  c.emptyEnvelopeWireLength deploymentId (a.deliveries.head?.getD delivery) delivery (a.deliveries.length + 1)
    + a.usedEventBytes + c.eventWireLength delivery + a.deliveries.length

def Assembly.push (a : Assembly) (delivery : SecurityAuditPendingDelivery) (newlyChained : Bool) : Assembly where
  nextSequence := if newlyChained then delivery.sequence else a.nextSequence
  nextHash := if newlyChained then delivery.eventHash else a.nextHash
  usedEventBytes := a.usedEventBytes + c.eventWireLength delivery
  deliveries := a.deliveries ++ [delivery]
  newEvents := if newlyChained then a.newEvents ++ [(delivery.eventId, delivery.eventHash)] else a.newEvents

/-- The loop of `claim_fresh`: the longest run of candidates that fits the envelope; one event
always does. -/
def assemble (deploymentId : String) (budget : Nat) : Assembly → List SecurityAuditBatchMemberRow → Result Assembly
  | a, [] => .ok a
  | a, row :: rows =>
    match chainRow c a row with
    | .error e => .error e
    | .ok (delivery, newlyChained) =>
      if !a.deliveries.isEmpty && decide (budget < envelopeBytes c deploymentId a delivery) then .ok a
      else if a.deliveries.isEmpty
          && decide (maxSecurityAuditSingletonEnvelopeBytes < envelopeBytes c deploymentId a delivery) then
        raise "audit singleton exceeds the legal-event wire bound"
      else assemble deploymentId budget (a.push c delivery newlyChained) rows

/-- The loop of `nazo_stage_security_audit_chain`. -/
def stageEntries (s : Ledger) :
    List ChainEntry → Nat → Digest → List (Uuid × Digest) → Result (List ChainEntry × Nat × Digest)
  | chain, sequence, hash, [] => .ok (chain, sequence, hash)
  | chain, sequence, hash, (eventId, eventHash) :: items =>
    if (s.unexported eventId).isNone then raise "audit chain event is missing or already exported"
    else match nextBigint sequence with
      | .error e => .error e
      | .ok sequence =>
        if chain.any fun e => e.eventId = eventId || e.sequence = sequence || e.eventHash = eventHash then
          raise "duplicate key value violates unique constraint"
        else stageEntries s (chain ++ [⟨eventId, sequence, hash, eventHash⟩]) sequence eventHash items

/-- `nazo_stage_security_audit_chain`: the chain with the new entries, and its head. -/
def stageSecurityAuditChain (s : Ledger) (previousSequence : Nat) (previousHash : Digest)
    (items : List (Uuid × Digest)) : Result (List ChainEntry × Nat × Digest) :=
  if 256 < items.length then raise "audit chain batch bounds are invalid"
  else if s.state.lastSequence ≠ previousSequence || s.state.lastHash ≠ previousHash
      || (s.state.lastSequence = 0 && s.state.lastHash ≠ genesisHash)
      || (decide (0 < s.state.lastSequence) && some s.state.lastSequence ≠ s.state.anchorSequence
        && !(s.chain.any fun e => e.sequence = s.state.lastSequence && e.eventHash = s.state.lastHash)) then
    raise "security audit append head is stale or invalid"
  else stageEntries s s.chain s.state.lastSequence s.state.lastHash items

/-- The columns that the opening of a batch sets. -/
def ChainState.openBatch (st : ChainState) (generation lastSequence : Nat) (lastHash : Digest)
    (batch : OpenBatch) (stamp lockedUntil : Instant) : ChainState :=
  { st with
    lastSequence := lastSequence
    lastHash := lastHash
    batch := some batch
    batchGeneration := generation
    batchAttempts := 0
    batchAvailableAt := some stamp
    batchLockedUntil := some lockedUntil
    batchLastError := none
    batchBlockedReason := none }

def finalizeSecurityAuditClaim (s : Ledger) (previousSequence : Nat) (previousHash : Digest)
    (items : List (Uuid × Digest)) (batch : OpenBatch) (lockTimeoutSeconds : Nat)
    (stamp : Instant) : Result (Ledger × Nat) :=
  match stageSecurityAuditChain s previousSequence previousHash items with
  | .error e => .error e
  | .ok (chain, lastSequence, lastHash) =>
    if s.state.batch.isNone && batch.firstSequence = s.anchor + 1
        && decide (batch.firstSequence ≤ batch.lastSequence) && decide (batch.lastSequence ≤ lastSequence)
        && batch.eventCount + batch.firstSequence = batch.lastSequence + 1
        && decide (1 ≤ batch.eventCount) && decide (batch.eventCount ≤ 256) then
      match nextBigint s.state.batchGeneration with
      | .error e => .error e
      | .ok generation =>
        .ok ({ s with
          chain := chain
          state := s.state.openBatch generation lastSequence lastHash batch stamp
            (stamp + seconds lockTimeoutSeconds) },
          generation)
    else raise "audit batch open conflicts with the committed chain state"

def claimFresh (s : Ledger) (deploymentId : String) (limit maxEnvelopeBytes lockTimeoutSeconds : Nat)
    (stamp : Instant) : Result (Ledger × SecurityAuditBatchClaim) :=
  match claimSecurityAuditPending c s limit with
  | [] => .ok (s, .empty)
  | rows@(_ :: _) =>
    match assemble c deploymentId maxEnvelopeBytes ⟨s.state.lastSequence, s.state.lastHash, 0, [], []⟩ rows with
    | .error e => .error e
    | .ok a =>
      match a.deliveries.head?, a.deliveries.getLast? with
      | some first, some last =>
        let digest := deliveriesDigest c deploymentId first.sequence last.sequence first.previousHash
          last.eventHash a.deliveries
        match finalizeSecurityAuditClaim s s.state.lastSequence s.state.lastHash a.newEvents
            ⟨first.sequence, last.sequence, a.deliveries.length, some digest⟩ lockTimeoutSeconds stamp with
        | .error e => .error e
        | .ok (s', generation) =>
          .ok (s', .claimed ⟨generation, first.sequence, last.sequence, first.previousHash, last.eventHash, digest,
            0, a.deliveries⟩)
      | _, _ => raise "security audit event exceeds the committed envelope bound"

def claimBatch (s : Ledger) (deploymentId : String) (limit maxEnvelopeBytes lockTimeoutSeconds : Nat)
    (clock stamp : Instant) : Result (Ledger × SecurityAuditBatchClaim) :=
  if limit < 1 || 256 < limit || maxEnvelopeBytes < 128 * 1024 || 1024 * 1024 < maxEnvelopeBytes
      || lockTimeoutSeconds < 1 || 3600 < lockTimeoutSeconds || deploymentId.isEmpty
      || 255 < deploymentId.utf8ByteSize then
    raise "audit batch claim arguments are outside their safe bounds"
  else match s.state.batch with
    | some b => claimInflight c s b deploymentId lockTimeoutSeconds clock stamp
    | none => claimFresh c s deploymentId limit maxEnvelopeBytes lockTimeoutSeconds stamp

end Claim

/-! ## Reports -/

variable (st : ChainState)

/-- `WHERE batch_last_sequence IS NOT NULL AND batch_generation = p_generation`: the batch the
caller holds. -/
def ChainState.holds (generation : Nat) : Bool := st.batch.isSome && st.batchGeneration = generation

variable (s : Ledger)

def failSecurityAuditBatch (generation : Nat) (availableAt : Instant) (lastError : String)
    (blocked : Bool) (stamp : Instant) : Result (Ledger × Bool) :=
  if stamp + seconds 300 < availableAt || 128 < lastError.length then
    raise "audit batch failure arguments are invalid"
  else if s.state.holds generation then
    match nextInteger s.state.batchAttempts with
    | .error e => .error e
    | .ok attempts =>
      let state := { s.state with
        batchLockedUntil := none
        batchAvailableAt := some availableAt
        batchAttempts := attempts
        batchLastError := some lastError
        batchBlockedReason := if blocked then some lastError else none }
      .ok ({ s with state := state }, true)
  else .ok (s, false)

def unblockSecurityAuditBatch (stamp : Instant) : Ledger × Bool :=
  if s.state.batch.isSome && s.state.batchBlockedReason.isSome then
    let state := { s.state with
      batchBlockedReason := none, batchLockedUntil := none, batchAvailableAt := some stamp }
    ({ s with state := state }, true)
  else (s, false)

variable (deploymentId : String)

/-- `char_length(p_deployment_id) NOT BETWEEN 1 AND 255`. -/
def validDeploymentId : Bool := decide (1 ≤ deploymentId.length) && decide (deploymentId.length ≤ 255)

/-- The anchor belongs to no deployment or to this one. -/
def ChainState.anchoredBy : Bool :=
  st.anchorDeploymentId.all fun d => d = deploymentId

def recordSecurityAuditGenesis (headHash : Digest) (stamp : Instant) : Result (Ledger × Bool) :=
  if !validDeploymentId deploymentId then raise "audit anchor genesis is invalid"
  else if s.state.lastSequence = 0 && s.state.lastHash = headHash && s.state.anchoredBy deploymentId then
    let state := { s.state with
      anchorDeploymentId := some deploymentId
      anchorSequence := some 0
      anchorHash := some headHash
      anchorOccurredAt := some 0
      anchorAcceptedAt := some stamp
      anchorObservedAt := some stamp }
    .ok ({ s with state := state }, true)
  else .ok (s, false)

/-- `nazo_observe_security_audit_anchor`; a CHECK constraint refuses a deployment without an
anchor. -/
def observeSecurityAuditAnchor (now : Instant) : Result (Ledger × Bool) :=
  if !validDeploymentId deploymentId then raise "audit anchor deployment identity is invalid"
  else if !s.state.anchoredBy deploymentId then .ok (s, false)
  else if s.state.anchorSequence.isNone then raise "ck_security_audit_anchor_checkpoint_complete"
  else
    let state := { s.state with anchorDeploymentId := some deploymentId, anchorObservedAt := some now }
    .ok ({ s with state := state }, true)

/-! ## Acknowledgement -/

/-- The acknowledgement names the batch in flight. -/
def ChainState.acknowledgedBy (ack : SecurityAuditBatchAck) : Bool :=
  st.anchoredBy ack.deploymentId && st.batchGeneration = ack.generation && st.batch.any fun b =>
    b.firstSequence = ack.firstSequence && b.lastSequence = ack.lastSequence && b.eventCount = ack.eventCount
      && b.digest = some ack.batchDigest

/-- The columns that an acknowledgement sets. -/
def ChainState.settle (ack : SecurityAuditBatchAck) (occurredAt now : Instant) : ChainState :=
  { st with
    anchorDeploymentId := some ack.deploymentId
    anchorSequence := some ack.lastSequence
    anchorHash := some ack.lastHash
    anchorOccurredAt := some occurredAt
    anchorAcceptedAt := some now
    anchorObservedAt := some now
    batch := none
    batchAttempts := 0
    batchAvailableAt := none
    batchLockedUntil := none
    batchLastError := none
    batchBlockedReason := none }

/-- The decisions among the members are kept without their payload. -/
def Ledger.retains (ids : List Uuid) (r : EventRow) : Bool :=
  ids.contains r.key && r.event.eventType = decisionEventType && r.exportedAt.isNone

/-- The other members are deleted. -/
def Ledger.reclaims (ids : List Uuid) (r : EventRow) : Bool :=
  ids.contains r.key && r.event.eventType ≠ decisionEventType

/-- The tables after the members `ids` of the range up to the acknowledged one were delivered. -/
def Ledger.deliver (ids : List Uuid) (ack : SecurityAuditBatchAck) (occurredAt now : Instant) : Ledger where
  events := (s.events.update (Ledger.retains ids) (EventRow.release now) (EventRow.release_key now)).delete
    (Ledger.reclaims ids)
  chain := s.chain.filter fun e => !(decide (s.anchor < e.sequence) && decide (e.sequence ≤ ack.lastSequence))
  state := s.state.settle ack occurredAt now

def ackSecurityAuditBatch (ack : SecurityAuditBatchAck) (now : Instant) : Result (Ledger × Bool) :=
  if !validDeploymentId ack.deploymentId || ack.eventCount < 1 || 256 < ack.eventCount then
    raise "audit batch acknowledgement arguments are invalid"
  else if !s.state.acknowledgedBy ack then .ok (s, false)
  else if ack.firstSequence ≠ s.anchor + 1 then
    raise "audit batch acknowledgement does not continue the anchor checkpoint"
  else
    let members := joinEvents s ((s.range ack.lastSequence).take 257)
    let ids := members.map fun m => m.2.key
    if members.length ≠ ack.eventCount
        || !(s.chain.any fun e => e.sequence = ack.lastSequence && e.eventHash = ack.lastHash) then
      raise "audit batch members no longer form the committed prefix"
    else if (s.range ack.lastSequence).length ≠ ack.eventCount then
      raise "audit batch acknowledgement reclaimed an unexpected chain count"
    else if s.events.rows.countP (Ledger.retains ids) + s.events.rows.countP (Ledger.reclaims ids)
        ≠ ack.eventCount then
      raise "audit batch acknowledgement reclaimed an unexpected event count"
    else match (s.chain.find? fun e => e.sequence = ack.lastSequence).bind fun e => s.events.find? e.eventId with
      | none => raise "ck_security_audit_anchor_checkpoint_complete"
      | some r =>
        -- the anchor is not accepted before its event occurred
        if now < r.event.occurredAt then raise "ck_security_audit_anchor_checkpoint_complete"
        else .ok (s.deliver ids ack r.event.occurredAt now, true)

/-! ## The machine -/

inductive Action where
  | append (events : List SecurityAuditEvent)
  /-- A decision is committed, with the event and the columns of its row. -/
  | decide (event : SecurityAuditEvent) (columns : DecisionColumns)
  | claim (deploymentId : String) (limit maxEnvelopeBytes lockTimeoutSeconds : Nat) (clock : Instant)
  | fail (generation : Nat) (availableAt : Instant) (lastError : String) (blocked : Bool)
  | ack (ack : SecurityAuditBatchAck)
  | unblock
  | recordGenesis (deploymentId : String) (headHash : Digest)
  | observe (deploymentId : String)
  | cleanup (held : List Uuid)

/-- A transaction: what it does, when it started, and the clock of the database under its locks. -/
structure Op where
  action : Action
  stamp : Instant
  now : Instant

inductive Outcome where
  | failed (error : LedgerError)
  /-- For each event, whether it was inserted. -/
  | appended (changed : List Bool)
  | decided (inserted : Bool)
  | claim (result : SecurityAuditBatchClaim)
  /-- The batch was acknowledged; these were its deliveries. -/
  | acknowledged (deliveries : List SecurityAuditPendingDelivery)
  | done

/-- The delivery of a chained event. -/
def delivery (c : Encodings) (e : ChainEntry) (r : EventRow) : SecurityAuditPendingDelivery :=
  (memberRow c (some e) r).delivery e.sequence e.previousHash e.eventHash

/-- What is delivered of the chain. -/
def Ledger.deliveries (c : Encodings) (s : Ledger) (entries : List ChainEntry) :
    List SecurityAuditPendingDelivery :=
  (joinEvents s entries).map fun (e, r) => delivery c e r

/-- A report that changed nothing is an error of the repository. -/
def reported (s : Ledger) (text : String) : Result (Ledger × Bool) → Ledger × Outcome
  | .error e => (s, .failed e)
  | .ok (s', true) => (s', .done)
  | .ok (_, false) => (s, .failed (.consistency text))

def staleMutation : String := "security audit mutation is stale or already terminal"

def exec (c : Encodings) (s : Ledger) (op : Op) : Ledger × Outcome :=
  match op.action with
  | .append events =>
    match appendBatch c s events with
    | .error e => (s, .failed e)
    | .ok (s', changed) => (s', .appended changed)
  | .decide event columns =>
    match insertDecision s event columns with
    | none => (s, .decided false)
    | some s' => (s', .decided true)
  | .claim deploymentId limit maxEnvelopeBytes lockTimeoutSeconds clock =>
    match claimBatch c s deploymentId limit maxEnvelopeBytes lockTimeoutSeconds clock op.stamp with
    | .error e => (s, .failed e)
    | .ok (s', result) => (s', .claim result)
  | .fail generation availableAt lastError blocked =>
    reported s "security audit batch generation is stale or already settled"
      (failSecurityAuditBatch s generation availableAt lastError blocked op.stamp)
  | .ack ack =>
    match ackSecurityAuditBatch s ack op.now with
    | .error e => (s, .failed e)
    | .ok (_, false) => (s, .failed (.consistency staleMutation))
    | .ok (s', true) => (s', .acknowledged (s.deliveries c (s.range ack.lastSequence)))
  | .unblock => ((unblockSecurityAuditBatch s op.stamp).1, .done)
  | .recordGenesis deploymentId headHash =>
    reported s staleMutation (recordSecurityAuditGenesis s deploymentId headHash op.stamp)
  | .observe deploymentId => reported s staleMutation (observeSecurityAuditAnchor s deploymentId op.now)
  | .cleanup held => (cleanupAuthorizationDecisions s held op.stamp, .done)

abbrev Log := List (Op × Outcome)

end NazoAuth.Audit
