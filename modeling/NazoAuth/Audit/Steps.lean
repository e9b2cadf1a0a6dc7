import NazoAuth.Audit.Export
import NazoAuth.Lib.Except
import NazoAuth.Lib.HashChain

/-!
# The security audit ledger — what one transaction can do

The loops first: what `append_batch` inserts, which places `claim_fresh` gives to the candidates
(`place`), and that the stored function stages exactly these. Then one inversion for a whole
transaction, `effect_of_exec`; the invariants use nothing else.
-/

namespace NazoAuth.Audit

open Lib

variable {c : Encodings} {s s' : Ledger}

/-! ## Appends -/

def insertedBy (e : Op × Outcome) : List SecurityAuditEvent :=
  match e.1.action, e.2 with
  | .append events, .appended changed => (events.zip changed).filterMap fun (event, inserted) =>
      if inserted then some event else none
  | .decide event _, .decided true =>
    [{ event with eventType := decisionEventType, eventCategory := "authorization" }]
  | _, _ => []

def claimedBy (e : Op × Outcome) : Option SecurityAuditBatch :=
  match e.2 with
  | .claim (.claimed b) => some b
  | _ => none

def acknowledgedBy (e : Op × Outcome) : Option (List SecurityAuditPendingDelivery) :=
  match e.2 with
  | .acknowledged deliveries => some deliveries
  | _ => none

/-- Pending rows were added, and nothing else changed. -/
structure Grown (s s' : Ledger) (news : List EventRow) : Prop where
  rows : s'.events.rows = news ++ s.events.rows
  pending : ∀ r ∈ news, r.pending = true
  chain : s'.chain = s.chain
  state : s'.state = s.state

theorem Grown.trans {s₁ s₂ s₃ : Ledger} {news news' : List EventRow} (h : Grown s₁ s₂ news)
    (h' : Grown s₂ s₃ news') : Grown s₁ s₃ (news' ++ news) := by
  refine ⟨by rw [h'.rows, h.rows, List.append_assoc], fun r hr => ?_,
    h'.chain.trans h.chain, h'.state.trans h.state⟩
  rcases List.mem_append.mp hr with hr | hr
  · exact h'.pending r hr
  · exact h.pending r hr

variable {event : SecurityAuditEvent} {changed : List Bool} {events : List SecurityAuditEvent}

theorem persist_spec {changed : Bool} (he : persistSecurityAuditEvent c s event = .ok (s', changed)) :
    Grown s s' (if changed then [⟨event, none, none⟩] else []) := by
  unfold persistSecurityAuditEvent at he
  by_cases hty : event.eventType = decisionEventType
  · rw [if_pos hty] at he
    cases he
  rw [if_neg hty] at he
  split at he
  · cases he
  cases hi : s.events.insert? ⟨event, none, none⟩ with
  | some =>
    simp only [hi] at he
    cases he
    exact ⟨Table.rows_of_insert? hi, by simp [EventRow.pending], rfl, rfl⟩
  | none =>
    simp only [hi] at he
    split at he
    · cases he
      exact ⟨rfl, by simp, rfl, rfl⟩
    · cases he

theorem persistAll_spec (he : persistAll c s events = .ok (s', changed)) :
    ∃ news, Grown s s' news ∧ (∀ r ∈ news, r.decision = none)
      ∧ (events.zip changed).filterMap (fun (event, inserted) =>
      if inserted then some event else none) = (news.map (·.event)).reverse := by
  induction events generalizing s changed with
  | nil =>
    cases he
    exact ⟨[], ⟨rfl, by simp, rfl, rfl⟩, by simp, rfl⟩
  | cons event events ih =>
    obtain ⟨⟨s₁, b⟩, hfirst, htail⟩ := of_bind he
    obtain ⟨⟨s₂, rest⟩, hrest, hpair⟩ := of_bind htail
    cases pure_eq_ok.mp hpair
    obtain ⟨news, hgrown, hplain, hnews⟩ := ih hrest
    refine ⟨_, (persist_spec hfirst).trans hgrown, ?_, ?_⟩
    · intro r hr
      rcases List.mem_append.mp hr with hr | hr
      · exact hplain r hr
      · cases b <;> simp_all
    · cases b with
      | true | false => simpa using hnews

theorem appendBatch_spec (he : appendBatch c s events = .ok (s', changed)) :
    ∃ news, Grown s s' news ∧ (∀ r ∈ news, r.decision = none)
      ∧ (events.zip changed).filterMap (fun (event, inserted) =>
      if inserted then some event else none) = (news.map (·.event)).reverse := by
  obtain ⟨_, -, h⟩ := of_bind he
  exact persistAll_spec h

theorem insertDecision_spec {columns : DecisionColumns} (he : insertDecision s event columns = some s') :
    Grown s s' [⟨{ event with eventType := decisionEventType, eventCategory := "authorization" }, some columns,
      none⟩] := by
  unfold insertDecision at he
  split at he
  · cases he
  obtain ⟨events, hi, rfl⟩ := Option.map_eq_some_iff.mp he
  exact ⟨Table.rows_of_insert? hi, by simp [EventRow.pending], rfl, rfl⟩

/-! ## Places in the chain -/

def rowHash (c : Encodings) (sequence : Nat) (previousHash : Digest) (r : EventRow) : Digest :=
  securityAuditEventHash c sequence previousHash r.event.eventId r.event.eventType r.event.eventCategory
    r.event.occurredAt (c.payloadText r.event.payload)

def nextEntry (c : Encodings) (n : Nat) (h : Digest) (r : EventRow) : ChainEntry :=
  ⟨r.event.eventId, n + 1, h, rowHash c (n + 1) h r⟩

/-- The events, each with the entry that the head `(n, h)` gives it. -/
def place (c : Encodings) : Nat → Digest → List EventRow → List (ChainEntry × EventRow)
  | _, _, [] => []
  | n, h, r :: rs => (nextEntry c n h r, r) :: place c (n + 1) (rowHash c (n + 1) h r) rs

def placeTip (c : Encodings) : Nat → Digest → List EventRow → Digest
  | _, h, [] => h
  | n, h, r :: rs => placeTip c (n + 1) (rowHash c (n + 1) h r) rs

def sent (c : Encodings) (placed : List (ChainEntry × EventRow)) : List SecurityAuditPendingDelivery :=
  placed.map fun (e, r) => delivery c e r

def staged (placed : List (ChainEntry × EventRow)) : List (Uuid × Digest) :=
  placed.map fun (e, _) => (e.eventId, e.eventHash)

variable {n : Nat} {rs : List EventRow} {deploymentId : String} {h : Digest}

theorem length_place : (place c n h rs).length = rs.length := by
  induction rs generalizing n h with
  | nil => rfl
  | cons r rs ih => simp [place, ih]

theorem chainRow_pending (a : Assembly) (r : EventRow) {d : SecurityAuditPendingDelivery}
    {newlyChained : Bool} (he : chainRow c a (memberRow c none r) = .ok (d, newlyChained)) :
    d = delivery c (nextEntry c a.nextSequence a.nextHash r) r ∧ newlyChained = true := by
  simp only [chainRow, memberRow] at he
  split_ifs at he
  · cases he
    exact ⟨rfl, rfl⟩
  · cases he

/-- What the loop of `claim_fresh` makes of pending candidates: it places a first part of them. -/
theorem assemble_spec {budget : Nat} {a a' : Assembly}
    (he : assemble c deploymentId budget a (rs.map (memberRow c none)) = .ok a') :
    ∃ taken, taken <+: rs ∧ a'.deliveries = a.deliveries ++ sent c (place c a.nextSequence a.nextHash taken)
      ∧ a'.newEvents = a.newEvents ++ staged (place c a.nextSequence a.nextHash taken) := by
  induction rs generalizing a with
  | nil =>
    cases he
    exact ⟨[], List.nil_prefix, by simp [sent, place], by simp [staged, place]⟩
  | cons r rs ih =>
    simp only [List.map_cons, assemble] at he
    cases hc : chainRow c a (memberRow c none r) with
    | error =>
      rw [hc] at he
      cases he
    | ok p =>
      obtain ⟨d, newlyChained⟩ := p
      obtain ⟨rfl, rfl⟩ := chainRow_pending a r hc
      rw [hc] at he
      simp only at he
      split_ifs at he
      · -- the envelope is full
        cases he
        exact ⟨[], List.nil_prefix, by simp [sent, place], by simp [staged, place]⟩
      · cases he
      · obtain ⟨taken, hpart, hdel, hnew⟩ := ih he
        refine ⟨r :: taken, List.cons_prefix_cons.mpr ⟨rfl, hpart⟩, ?_, ?_⟩
        · rw [hdel]
          simp [Assembly.push, sent, place, delivery, nextEntry, SecurityAuditBatchMemberRow.delivery]
        · rw [hnew]
          simp [Assembly.push, staged, place, delivery, nextEntry, SecurityAuditBatchMemberRow.delivery, memberRow]

theorem stageEntries_spec {chain chain' : List ChainEntry} {n' : Nat} {h' : Digest}
    (he : stageEntries s chain n h (staged (place c n h rs)) = .ok (chain', n', h')) :
    chain' = chain ++ (place c n h rs).map Prod.fst ∧ n' = n + rs.length ∧ h' = placeTip c n h rs := by
  induction rs generalizing chain n h with
  | nil =>
    cases he
    exact ⟨by simp [place], rfl, rfl⟩
  | cons r rs ih =>
    simp only [place, staged, List.map_cons, stageEntries] at he
    split at he
    · cases he
    unfold nextBigint at he
    by_cases hn : n + 1 < 2 ^ 63
    · rw [if_pos hn] at he
      simp only at he
      split at he
      · cases he
      obtain ⟨rfl, rfl, rfl⟩ := ih he
      refine ⟨by simp [place, nextEntry], ?_, rfl⟩
      rw [List.length_cons]
      omega
    · rw [if_neg hn] at he
      cases he

/-! ## Claims -/

/-- The columns of a batch over its own deliveries. -/
structure Delivers (b : SecurityAuditBatch) (ds : List SecurityAuditPendingDelivery) : Prop where
  deliveries : b.deliveries = ds
  previousHash : ds.head?.map (·.previousHash) = some b.previousHash
  lastHash : ds.getLast?.map (·.eventHash) = some b.lastHash

/-- A new batch over the pending events `taken`. -/
structure Opened (c : Encodings) (s s' : Ledger) (b : SecurityAuditBatch) (taken : List EventRow) : Prop where
  pending : ∀ r ∈ taken, r ∈ s.events.rows ∧ r.pending = true
  nodup : (taken.map EventRow.key).Nodup
  idle : s.state.batch = none
  events : s'.events = s.events
  chain : s'.chain = (place c s.state.lastSequence s.state.lastHash taken).map Prod.fst
  anchor : s'.anchor = s.anchor
  lastSequence : s'.state.lastSequence = s.state.lastSequence + taken.length
  lastHash : s'.state.lastHash = placeTip c s.state.lastSequence s.state.lastHash taken
  batch : s'.state.batch = some ⟨b.firstSequence, b.lastSequence, taken.length, some b.digest⟩
  generation : s'.state.batchGeneration = s.state.batchGeneration + 1
  claimed : b.generation = s.state.batchGeneration + 1
  first : b.firstSequence = s.anchor + 1
  count : taken.length + b.firstSequence = b.lastSequence + 1
  delivers : Delivers b (sent c (place c s.state.lastSequence s.state.lastHash taken))

/-- The batch in flight, under a new generation. -/
structure Reclaimed (c : Encodings) (s s' : Ledger) (b : SecurityAuditBatch) (b₀ : OpenBatch) : Prop where
  inflight : s.state.batch = some b₀
  digest : b₀.digest = none ∨ b₀.digest = some b.digest
  events : s'.events = s.events
  chain : s'.chain = s.chain
  anchor : s'.anchor = s.anchor
  lastSequence : s'.state.lastSequence = s.state.lastSequence
  lastHash : s'.state.lastHash = s.state.lastHash
  batch : s'.state.batch = some { b₀ with digest := some b.digest }
  generation : s'.state.batchGeneration = s.state.batchGeneration + 1
  claimed : b.generation = s.state.batchGeneration + 1
  first : b.firstSequence = b₀.firstSequence
  last : b.lastSequence = b₀.lastSequence
  delivers : Delivers b (s.deliveries c (s.range b₀.lastSequence))

theorem nextBigint_eq_ok {m : Nat} (h : nextBigint n = .ok m) : m = n + 1 := by
  unfold nextBigint at h
  split_ifs at h
  · exact (Except.ok.inj h).symm
  · cases h

theorem mapM_memberDelivery (members : List (ChainEntry × EventRow)) :
    (members.map fun (e, r) => memberRow c (some e) r).mapM memberDelivery = .ok
    (members.map fun (e, r) => delivery c e r) := by
  induction members with
  | nil => rfl
  | cons m members ih =>
    rw [List.map_cons, List.mapM_cons, ih]
    rfl

variable {generation lockTimeoutSeconds : Nat} {stamp : Instant} {result : SecurityAuditBatchClaim}

theorem reclaim_spec {digest : Digest} {b : OpenBatch} (hb : s.state.batch = some b)
    (he : reclaimSecurityAuditBatch s digest lockTimeoutSeconds stamp = .ok (s', generation)) :
    generation = s.state.batchGeneration + 1
      ∧ ∃ t, s' = { s with state := s.state.lease generation { b with digest := some digest } t } := by
  simp only [reclaimSecurityAuditBatch, hb] at he
  split_ifs at he
  · cases he
  · cases he
  · obtain ⟨g, hg, hpair⟩ := of_bind he
    cases pure_eq_ok.mp hpair
    exact ⟨nextBigint_eq_ok hg, _, rfl⟩

variable {clock : Instant} {limit maxEnvelopeBytes : Nat}

theorem claimInflight_spec {b₀ : OpenBatch} (hb : s.state.batch = some b₀)
    (he : claimInflight c s b₀ deploymentId lockTimeoutSeconds clock stamp = .ok (s', result)) :
    (s' = s ∧ ∀ b, result ≠ .claimed b) ∨ ∃ b, result = .claimed b ∧ Reclaimed c s s' b b₀ := by
  unfold claimInflight at he
  cases hr : s.state.batchBlockedReason with
  | some =>
    simp only [hr] at he
    cases he
    exact .inl ⟨rfl, by simp⟩
  | none =>
    simp only [hr] at he
    split_ifs at he with hbusy hfirst hmembers
    · cases he
      exact .inl ⟨rfl, by simp⟩
    · cases he
    · cases he
    obtain ⟨deliveries, hdel, he⟩ := of_bind he
    rw [securityAuditBatchMembers, mapM_memberDelivery] at hdel
    cases hdel
    split at he
    · rename_i first last hhead hlast
      split_ifs at he with hdigest
      · cases he
      obtain ⟨⟨s₁, generation⟩, hreclaim, hpair⟩ := of_bind he
      cases pure_eq_ok.mp hpair
      obtain ⟨rfl, t, rfl⟩ := reclaim_spec hb hreclaim
      refine .inr ⟨_, rfl, hb, ?_, rfl, rfl, rfl, rfl, rfl, rfl, rfl, rfl, rfl, rfl, rfl, ?_, ?_⟩
      · cases hd : b₀.digest with
        | none => exact .inl rfl
        | some => simpa [hd] using hdigest
      · exact congrArg (Option.map _) hhead
      · exact congrArg (Option.map _) hlast
    · cases he

/-- What `nazo_finalize_security_audit_claim` does with placed events, when the chain is empty. -/
theorem finalize_spec {taken : List EventRow} {batch : OpenBatch} (hchain : s.chain = [])
    (he : finalizeSecurityAuditClaim s s.state.lastSequence s.state.lastHash
      (staged (place c s.state.lastSequence s.state.lastHash taken)) batch lockTimeoutSeconds stamp = .ok
    (s', generation)) : generation = s.state.batchGeneration + 1 ∧ batch.firstSequence = s.anchor
      + 1 ∧ batch.eventCount + batch.firstSequence = batch.lastSequence + 1
      ∧ ∃ t, s' = { s with
          chain := (place c s.state.lastSequence s.state.lastHash taken).map Prod.fst
          state := s.state.openBatch generation (s.state.lastSequence + taken.length)
            (placeTip c s.state.lastSequence s.state.lastHash taken) batch stamp t } := by
  unfold finalizeSecurityAuditClaim at he
  cases hst : stageSecurityAuditChain s s.state.lastSequence s.state.lastHash
      (staged (place c s.state.lastSequence s.state.lastHash taken)) with
  | error =>
    rw [hst] at he
    cases he
  | ok r =>
    obtain ⟨chain, lastSequence, lastHash⟩ := r
    rw [hst] at he
    simp only at he
    have hstage : stageEntries s s.chain s.state.lastSequence s.state.lastHash
        (staged (place c s.state.lastSequence s.state.lastHash taken)) = .ok (chain, lastSequence, lastHash) := by
      unfold stageSecurityAuditChain at hst
      split_ifs at hst
      · cases hst
      · cases hst
      · exact hst
    rw [hchain] at hstage
    obtain ⟨rfl, rfl, rfl⟩ := stageEntries_spec hstage
    by_cases hopen : (s.state.batch.isNone && batch.firstSequence = s.anchor + 1
        && decide (batch.firstSequence ≤ batch.lastSequence)
        && decide (batch.lastSequence ≤ s.state.lastSequence + taken.length)
        && batch.eventCount + batch.firstSequence = batch.lastSequence + 1
        && decide (1 ≤ batch.eventCount) && decide (batch.eventCount ≤ 256)) = true
    · rw [if_pos hopen] at he
      simp only [Bool.and_eq_true, decide_eq_true_eq] at hopen
      cases hg : nextBigint s.state.batchGeneration with
      | error =>
        rw [hg] at he
        cases he
      | ok =>
        rw [hg] at he
        cases he
        exact ⟨nextBigint_eq_ok hg, hopen.1.1.1.1.1.2, hopen.1.1.2, _, rfl⟩
    · rw [if_neg hopen] at he
      cases he

theorem claimPending_spec (c : Encodings) (limit : Nat) (hchain : s.chain = []) :
    ∃ rs : List EventRow, claimSecurityAuditPending c s limit = rs.map (memberRow c none)
      ∧ (rs.map EventRow.key).Nodup ∧ ∀ r ∈ rs, r ∈ s.events.rows ∧ r.pending = true := by
  refine ⟨((s.events.rows.filter EventRow.pending).insertionSort EventRow.occursFirst).take limit, ?_, ?_, ?_⟩
  · simp [claimSecurityAuditPending, hchain, joinEvents]
  · have hperm := List.perm_insertionSort EventRow.occursFirst (s.events.rows.filter EventRow.pending)
    have hnodup : ((s.events.rows.filter EventRow.pending).map EventRow.key).Nodup :=
      s.events.nodup.sublist (List.filter_sublist.map _)
    exact ((hperm.map EventRow.key).nodup_iff.mpr hnodup).sublist ((List.take_sublist _ _).map _)
  · intro r hr
    exact List.mem_filter.mp ((List.mem_insertionSort _).mp (List.mem_of_mem_take hr))

/-- A claim with no batch in flight changes nothing, or opens a batch over pending events. -/
theorem claimFresh_spec (hb : s.state.batch = none) (hchain : s.chain = [])
    (he : claimFresh c s deploymentId limit maxEnvelopeBytes lockTimeoutSeconds stamp = .ok (s', result)) :
    (s' = s ∧ ∀ b, result ≠ .claimed b) ∨ ∃ b taken, result = .claimed b ∧ Opened c s s' b taken := by
  obtain ⟨rs, hrs, hnodup, hpending⟩ := claimPending_spec c limit hchain
  unfold claimFresh at he
  rw [hrs] at he
  split at he
  · cases he
    exact .inl ⟨rfl, by simp⟩
  rename_i hcons
  rw [← hcons] at he
  split at he
  · cases he
  rename_i a hasm
  obtain ⟨taken, hpart, hdel, hnew⟩ := assemble_spec hasm
  simp only [List.nil_append] at hdel hnew
  split at he
  · rename_i first last hhead hlast
    rw [hnew] at he
    dsimp only at he
    split at he
    · cases he
    rename_i s₁ generation hfin
    cases he
    obtain ⟨rfl, hfirst, hcount, t, rfl⟩ := finalize_spec hchain hfin
    have hlen : a.deliveries.length = taken.length := by rw [hdel, sent, List.length_map, length_place]
    refine .inr ⟨_, taken, rfl, ?_, ?_, hb, rfl, rfl, rfl, rfl, rfl, ?_, rfl, rfl, hfirst, ?_, hdel, ?_, ?_⟩
    · exact fun r hr => hpending r (hpart.subset hr)
    · exact hnodup.sublist (hpart.sublist.map _)
    · rw [← hlen]
      rfl
    · rw [← hlen]
      exact hcount
    · rw [← hdel, hhead]
      rfl
    · rw [← hdel, hlast]
      rfl
  · cases he

/-! ## Acknowledgements -/

def memberIds (s : Ledger) (last : Nat) : List Uuid := (joinEvents s (s.range last)).map fun m => m.2.key

/-- The batch in flight was acknowledged. -/
structure Acknowledged (s s' : Ledger) (ack : SecurityAuditBatchAck) (now : Instant) (b₀ : OpenBatch) : Prop where
  inflight : s.state.batch = some b₀
  last : b₀.lastSequence = ack.lastSequence
  result : ∃ t, s' = s.deliver (memberIds s ack.lastSequence) ack t now

variable {now : Instant}

theorem ack_spec {ack : SecurityAuditBatchAck} (he : ackSecurityAuditBatch s ack now = .ok (s', true)) :
    ∃ b₀, Acknowledged s s' ack now b₀ := by
  unfold ackSecurityAuditBatch raise at he
  dsimp only at he
  split_ifs at he with hargs hack _ hmembers hrange
  · cases he
  split at he
  · cases he
  split_ifs at he
  cases he
  simp only [Bool.or_eq_true, not_or, decide_eq_true_eq, ne_eq, Decidable.not_not] at hargs hrange
  simp only [Bool.not_eq_true', Bool.not_eq_false] at hack
  simp only [ChainState.acknowledgedBy, Bool.and_eq_true, decide_eq_true_eq, Option.any_eq_true] at hack
  obtain ⟨-, b₀, hb, ⟨⟨-, hlast⟩, -⟩, -⟩ := hack
  -- the bound of 257 rows is never reached
  have htake : (s.range ack.lastSequence).take 257 = s.range ack.lastSequence := by
    apply List.take_of_length_le
    omega
  rw [htake]
  exact ⟨b₀, hb, hlast, _, rfl⟩

/-! ## Transactions -/

/-- The transaction inserted, claimed and acknowledged nothing. -/
structure Quiet (e : Op × Outcome) : Prop where
  inserted : insertedBy e = []
  claimed : claimedBy e = none
  acknowledged : acknowledgedBy e = none

/-- The events and the chain are as before; a genesis may have set the anchor of an empty chain to
zero. -/
structure Held (s s' : Ledger) : Prop where
  events : s'.events = s.events
  chain : s'.chain = s.chain
  anchor : s'.anchor = s.anchor ∨ (s.state.lastSequence = 0 ∧ s'.anchor = 0)
  lastSequence : s'.state.lastSequence = s.state.lastSequence
  lastHash : s'.state.lastHash = s.state.lastHash
  batch : s'.state.batch = s.state.batch
  generation : s'.state.batchGeneration = s.state.batchGeneration

theorem Held.refl (s : Ledger) : Held s s := ⟨rfl, rfl, .inl rfl, rfl, rfl, rfl, rfl⟩

inductive Effect (c : Encodings) (s : Ledger) (op : Op) : Ledger × Outcome → Prop
  | held {s' : Ledger} {out} : Held s s' → Quiet (op, out) → Effect c s op (s', out)
  | grown {s' : Ledger} {news out} : Grown s s' news → insertedBy (op, out) = (news.map (·.event)).reverse →
      claimedBy (op, out) = none → acknowledgedBy (op, out) = none → Effect c s op (s', out)
  | cleaned {gone out} : (∀ r ∈ s.events.rows, gone r = true → r.pending = false) →
      Quiet (op, out) → Effect c s op ({ s with events := s.events.delete gone }, out)
  | opened {s' : Ledger} {b taken} : Opened c s s' b taken → Effect c s op (s', .claim (.claimed b))
  | reclaimed {s' : Ledger} {b b₀} : Reclaimed c s s' b b₀ → Effect c s op (s', .claim (.claimed b))
  | acknowledged {s' : Ledger} {ack b₀} : op.action = .ack ack → Acknowledged s s' ack op.now b₀ →
      Effect c s op (s', .acknowledged (s.deliveries c (s.range ack.lastSequence)))

variable {out : Outcome} {op : Op} {r : Result (Ledger × Bool)} {text : String}

/-- A report that only ever writes columns of the lease or of the anchor's observation. -/
theorem held_of_reported (hr : ∀ s₁, r = .ok (s₁, true) → Held s s₁) : Held s (reported s text r).1 := by
  match r, hr with
  | .error _, _ => exact .refl s
  | .ok (s₁, true), hr => exact hr s₁ rfl
  | .ok (_, false), _ => exact .refl s

theorem held_fail {availableAt : Instant} {lastError : String} {blocked : Bool}
    (he : failSecurityAuditBatch s generation availableAt lastError blocked stamp = .ok (s', true)) :
    Held s s' := by
  unfold failSecurityAuditBatch at he
  split at he
  · cases he
  split at he
  · split at he
    · cases he
    · cases he
      exact ⟨rfl, rfl, .inl rfl, rfl, rfl, rfl, rfl⟩
  · cases he

theorem held_recordGenesis {headHash : Digest}
    (he : recordSecurityAuditGenesis s deploymentId headHash stamp = .ok (s', true)) : Held s s' := by
  unfold recordSecurityAuditGenesis at he
  split_ifs at he with hid hgenesis
  · cases he
  · cases he
    simp only [Bool.and_eq_true, decide_eq_true_eq] at hgenesis
    exact ⟨rfl, rfl, .inr ⟨hgenesis.1.1, rfl⟩, rfl, rfl, rfl, rfl⟩
  · cases he

theorem held_observe (he : observeSecurityAuditAnchor s deploymentId now = .ok (s', true)) : Held s s' := by
  unfold observeSecurityAuditAnchor at he
  split_ifs at he
  · cases he
  · cases he
  · cases he
  · cases he
    exact ⟨rfl, rfl, .inl rfl, rfl, rfl, rfl, rfl⟩

theorem held_unblock (stamp : Instant) : Held s (unblockSecurityAuditBatch s stamp).1 := by
  unfold unblockSecurityAuditBatch
  split_ifs
  · exact ⟨rfl, rfl, .inl rfl, rfl, rfl, rfl, rfl⟩
  · exact .refl s

theorem delivered_of_due {held : List Uuid} {r : EventRow} (hr : r ∈ s.events.rows)
    (hdue : ((dueDecisions s held stamp).map EventRow.key).contains r.key = true) : r.pending = false := by
  obtain ⟨r', hr', hkey⟩ := List.mem_map.mp (List.contains_iff_mem.mp hdue)
  have hfilter := (List.mem_insertionSort _).mp (List.mem_of_mem_take hr')
  obtain ⟨hmem, hcond⟩ := List.mem_filter.mp hfilter
  have hsame : r' = r := List.inj_on_of_nodup_map s.events.nodup hmem hr hkey
  subst hsame
  simp only [Bool.and_eq_true] at hcond
  have hexported : r'.exportedAt.isSome = true := hcond.1.1.2
  cases hx : r'.exportedAt with
  | none => simp [hx] at hexported
  | some => simp [EventRow.pending, hx]

theorem quiet_failed (op : Op) (e : LedgerError) : Quiet (op, .failed e) := by
  refine ⟨?_, rfl, rfl⟩
  unfold insertedBy
  split <;> simp_all

theorem quiet_done (op : Op) : Quiet (op, .done) := by
  refine ⟨?_, rfl, rfl⟩
  unfold insertedBy
  split <;> simp_all

theorem insertedBy_claim : insertedBy (op, .claim result) = [] := by
  unfold insertedBy
  split <;> simp_all

theorem effect_failed (e : LedgerError) : Effect c s op (s, .failed e) := .held (.refl s) (quiet_failed op e)

theorem effect_of_reported (hr : ∀ s₁, r = .ok (s₁, true) → Held s s₁) : Effect c s op (reported s text r) := by
  match r, hr with
  | .error e, _ => exact effect_failed e
  | .ok (s₁, true), hr => exact .held (hr s₁ rfl) (quiet_done op)
  | .ok (_, false), _ => exact effect_failed _

theorem effect_claim (hidle : s.state.batch = none → s.chain = [])
    (he : claimBatch c s deploymentId limit maxEnvelopeBytes lockTimeoutSeconds clock op.stamp
    = .ok (s', result)) : Effect c s op (s', .claim result) := by
  have hquiet : (∀ b, result ≠ .claimed b) → Quiet (op, .claim result) := by
    intro hno
    refine ⟨insertedBy_claim, ?_, rfl⟩
    cases result with
    | claimed b => exact absurd rfl (hno b)
    | _ => rfl
  unfold claimBatch at he
  split at he
  · cases he
  cases hb : s.state.batch with
  | some =>
    simp only [hb] at he
    rcases claimInflight_spec hb he with ⟨rfl, hno⟩ | ⟨b, rfl, hre⟩
    · exact .held (.refl _) (hquiet hno)
    · exact .reclaimed hre
  | none =>
    simp only [hb] at he
    rcases claimFresh_spec hb (hidle hb) he with ⟨rfl, hno⟩ | ⟨b, taken, rfl, hopen⟩
    · exact .held (.refl _) (hquiet hno)
    · exact .opened hopen

/-- **What one transaction can do**, when no entry of the chain is left over without a batch. -/
theorem effect_of_exec (hidle : s.state.batch = none → s.chain = [])
    (he : exec c s op = (s', out)) : Effect c s op (s', out) := by
  rw [← he, exec]
  cases ha : op.action with
  | append events =>
    dsimp only
    split
    · exact effect_failed _
    rename_i s₁ changed hap
    obtain ⟨news, hgrown, -, hnews⟩ := appendBatch_spec hap
    refine .grown hgrown ?_ rfl rfl
    simp only [insertedBy, ha]
    exact hnews
  | decide event columns =>
    dsimp only
    split
    · exact .held (.refl _) ⟨by simp [insertedBy], rfl, rfl⟩
    · rename_i s₁ hins
      exact .grown (insertDecision_spec hins) (by simp [insertedBy, ha]) rfl rfl
  | claim deploymentId limit maxEnvelopeBytes lockTimeoutSeconds clock =>
    dsimp only
    split
    · exact effect_failed _
    · rename_i s₁ result hclaim
      exact effect_claim hidle hclaim
  | fail => exact effect_of_reported fun _ h => held_fail h
  | ack ack =>
    dsimp only
    split
    · exact effect_failed _
    · exact effect_failed _
    rename_i s₁ hack
    obtain ⟨b₀, hspec⟩ := ack_spec hack
    exact .acknowledged ha hspec
  | unblock => exact .held (held_unblock _) (quiet_done op)
  | recordGenesis => exact effect_of_reported fun _ h => held_recordGenesis h
  | observe => exact effect_of_reported fun _ h => held_observe h
  | cleanup => exact .cleaned (fun r hr hgone => delivered_of_due hr hgone) (quiet_done op)

end NazoAuth.Audit
