import NazoAuth.Audit.Steps
import NazoAuth.Decision.Commit

/-!
# Authorization decisions — what one step can do

`Effect` says what a step of the commit transactions does to the ledger, the grants and the open
transactions; `effect_of_exec` is the inversion of `exec`. A step on the ledger is taken further:
`decided_of_exec` says which decisions it leaves in the event table.
-/

namespace NazoAuth.Decision

open Lib Audit

variable {f : Formats} {w w' : World} {op : Op} {out : Outcome} {log : Log}

/-! ## What one step can do -/

/-- A transaction writes the columns of its input, and the grant of its input's user. -/
structure Prepared (input : AuthorizationDecisionCommit) (fact : Fact) (key : GrantKey) : Prop where
  columns : decisionColumns input = some fact.columns
  tenant : key.1 = input.tenantId
  user : key.2.1 = input.userId

/-- Nothing was reserved, rolled back, committed, or done to the ledger. -/
def Silent : Outcome → Prop
  | .reserved _ | .rolledBack _ _ | .committed _ _ | .ledger _ _ => False
  | _ => True

/-- The world after the commit of a transaction. -/
def World.committed (w : World) (t : Inserted) (ledger : Ledger) : World :=
  { w.without t.tx with
    ledger := ledger
    grants := match t.granted with
      | some row => putGrant w.grants row
      | none => w.grants }

inductive Effect (f : Formats) (w : World) (op : Op) : World × Outcome → Prop
  | same {w' : World} {out : Outcome} : w'.ledger = w.ledger → w'.grants = w.grants → w'.inserted = w.inserted →
      (∀ t ∈ w'.started, t ∈ w.started ∨ Prepared t.input t.fact t.grantKey) → Silent out → Effect f w op (w', out)
  | reserved {t} : t ∈ w.started → conflicts w.ledger t.fact = false →
      (∀ q ∈ w.inserted, q.tx ≠ t.tx ∧ t.fact.shares q.fact = false) → Effect f w op
        ({ w with
          started := w.started.filter fun q => q.tx ≠ t.tx
          inserted := ⟨t.tx, t.input, t.fact, t.grantKey, t.locked, op.now, none, none⟩ :: w.inserted },
          .reserved ⟨t.tx, t.input, t.fact, t.grantKey, t.locked, op.now, none, none⟩)
  | granted {t row} : t ∈ w.inserted → t.input.decision = .approve →
      w.grantLocked t.tx t.grantKey = false → row = approvedGrant t.input t.grantKey (w.grant? t.grantKey) →
      Effect f w op (w.modify t.tx fun t => { t with granted := some row }, .granted)
  | answered {t} : t ∈ w.inserted → (t.input.decision = .approve → t.granted.isSome = true) →
      op.now < t.input.validUntil → Effect f w op
      (w.modify t.tx fun t => { t with answeredAt := some op.now }, .answered)
  | rolledBack {tx result} : Effect f w op (w.without tx, .rolledBack tx result)
  | committed {t a ledger} : w.inserted.find? (fun q => q.tx = t.tx) = some t →
      t.answeredAt = some a → insertDecision w.ledger t.fact.event t.fact.columns = some ledger →
      Effect f w op (w.committed t ledger, .committed t a)
  | ledger {action outcome ledger} : op.action = .ledger action →
      ledgerBlocked w action = false → Audit.exec f.ledger w.ledger ⟨action, op.stamp, op.now⟩ = (ledger, outcome)
      → Effect f w op ({ w with ledger := ledger }, .ledger outcome (deletedBy w.ledger action op.stamp))

theorem effect_same (hs : Silent out) : Effect f w op (w, out) := .same rfl rfl rfl (fun _ ht => .inl ht) hs

variable {input : AuthorizationDecisionCommit} {tenantId : Uuid} {tx : Nat}

theorem columns_of_prepare {fact : Fact} (hp : prepare f tenantId input = .ok fact) :
    decisionColumns input = some fact.columns := by
  unfold prepare at hp
  dsimp only at hp
  split_ifs at hp
  split at hp
  · cases hp
  · rename_i columns hcolumns
    cases hp
    exact hcolumns

theorem effect_begin : Effect f w op (begin_ f w tx tenantId input op.now) := by
  unfold begin_
  cases hp : prepare f tenantId input with
  | error => exact effect_same trivial
  | ok fact =>
    dsimp only
    split
    · exact effect_same trivial
    rename_i client _
    have hstart : ∀ locked, Effect f w op (if input.validUntil ≤ op.now then (w, .returned (.ok .expired))
        else ({ w with started := ⟨tx, input, fact, (input.tenantId, input.userId, client.id), locked⟩
          :: w.started }, .started)) := by
      intro locked
      split_ifs
      · exact effect_same trivial
      refine .same rfl rfl rfl (fun t ht => ?_) trivial
      rcases List.mem_cons.mp ht with rfl | ht
      · exact .inr ⟨columns_of_prepare hp, rfl, rfl⟩
      · exact .inl ht
    split
    · exact effect_same trivial
    split
    · exact hstart _
    · split
      · exact effect_same trivial
      · exact hstart _
    · split
      · exact effect_same trivial
      split
      · exact hstart _
      · exact effect_same trivial

theorem effect_insert : Effect f w op (insert_ w tx op.now) := by
  unfold insert_
  split
  · exact effect_same trivial
  rename_i t ht
  obtain rfl : t.tx = tx := by simpa using List.find?_some ht
  split_ifs with hconf hbusy
  · exact .same rfl rfl rfl (fun q hq => .inl (List.mem_filter.mp hq).1) trivial
  · exact effect_same trivial
  refine .reserved (List.mem_of_find?_eq_some ht) (by simpa using hconf) fun q hq => ?_
  have hno : ¬ (decide (q.tx = t.tx) || t.fact.shares q.fact) = true :=
    fun h => hbusy (List.any_eq_true.mpr ⟨q, hq, h⟩)
  simpa using hno

theorem effect_grant : Effect f w op (grant_ w tx) := by
  unfold grant_
  split
  · exact effect_same trivial
  rename_i t ht
  obtain rfl : t.tx = tx := by simpa using List.find?_some ht
  dsimp only
  split_ifs with hwait hcount
  · exact effect_same trivial
  · exact .rolledBack
  · simp only [Bool.or_eq_true, not_or, Bool.not_eq_true, decide_eq_true_eq, Decidable.not_not] at hwait
    exact .granted (List.mem_of_find?_eq_some ht) hwait.1.1 hwait.2 rfl

theorem effect_answer : Effect f w op (answer_ w tx op.now) := by
  unfold answer_
  split
  · exact effect_same trivial
  rename_i t ht
  obtain rfl : t.tx = tx := by simpa using List.find?_some ht
  split_ifs with hwait hlate
  · exact effect_same trivial
  · exact .rolledBack
  simp only [Bool.or_eq_true, not_or, Bool.and_eq_true, decide_eq_true_eq] at hwait
  refine .answered (List.mem_of_find?_eq_some ht) (fun hap => ?_) (Int.not_le.mp hlate)
  cases hg : t.granted with
  | none => exact absurd ⟨hap, by simp [hg]⟩ hwait.1
  | some => rfl

theorem effect_commit : Effect f w op (commit_ w tx) := by
  unfold commit_
  split
  · exact effect_same trivial
  rename_i t ht
  obtain rfl : t.tx = tx := by simpa using List.find?_some ht
  split
  · rename_i a ledger ha hins
    exact .committed ht ha hins
  · exact effect_same trivial

/-- **What one step can do.** -/
theorem effect_of_exec (he : exec f w op = (w', out)) : Effect f w op (w', out) := by
  rw [← he, exec]
  cases ha : op.action with
  | begin =>
    dsimp only
    split
    · exact effect_same trivial
    · exact effect_begin
  | insert => exact effect_insert
  | grant => exact effect_grant
  | answer => exact effect_answer
  | commit => exact effect_commit
  | abort => exact .rolledBack
  | ledger action =>
    dsimp only
    split
    · exact effect_same trivial
    · rename_i hblocked
      exact .ledger ha (by simpa using hblocked) rfl
  | principals => exact .same rfl rfl rfl (fun t ht => .inl ht) trivial

/-! ## The decisions of the event table -/

/-- The decisions that are stored, with their event identifiers. -/
def decided (s : Ledger) : List (Uuid × DecisionColumns) :=
  s.events.rows.filterMap fun r => r.decision.map fun d => (r.key, d)

/-- A stored decision is an event of the decision type. -/
def Marked (s : Ledger) : Prop := ∀ r ∈ s.events.rows, r.decision.isSome = true →
    r.event.eventType = decisionEventType

section Ledger

variable {s s' : Ledger} {news : List EventRow}

theorem decided_of_events (h : s'.events = s.events) : decided s' = decided s := by rw [decided, h, decided]

theorem marked_of_events (hm : Marked s) (h : s'.events = s.events) : Marked s' := by rwa [Marked, h]

theorem decided_of_grown (h : Grown s s' news) (hplain : ∀ r ∈ news, r.decision = none) :
    decided s' = decided s := by
  have hnews : news.filterMap (fun r => r.decision.map fun d => (r.key, d)) = [] :=
    List.filterMap_eq_nil_iff.mpr fun r hr => by rw [hplain r hr, Option.map_none]
  rw [decided, h.rows, List.filterMap_append, hnews, List.nil_append, decided]

theorem marked_of_grown (hm : Marked s) (h : Grown s s' news)
    (hnews : ∀ r ∈ news, r.decision.isSome = true → r.event.eventType = decisionEventType) : Marked s' := by
  intro r hr hd
  rw [h.rows] at hr
  rcases List.mem_append.mp hr with hr | hr
  · exact hnews r hr hd
  · exact hm r hr hd

variable {columns : DecisionColumns} {event : SecurityAuditEvent} {stamp : Instant} {c : Encodings}

theorem decided_of_insertDecision (h : insertDecision s event columns = some s') :
    decided s' = (event.eventId, columns) :: decided s := by
  rw [decided, (insertDecision_spec h).rows]
  rfl

theorem marked_of_insertDecision (hm : Marked s) (h : insertDecision s event columns = some s') : Marked s' := by
  refine marked_of_grown hm (insertDecision_spec h) fun r hr _ => ?_
  obtain rfl := List.mem_singleton.mp hr
  rfl

/-- An acknowledgement keeps every decision: it takes away the payload only. -/
theorem decided_of_deliver (hm : Marked s) (ids : List Uuid) (ack : SecurityAuditBatchAck)
    (t now : Instant) : decided (s.deliver ids ack t now) = decided s := by
  unfold decided Ledger.deliver Table.delete Table.update
  simp only [List.filterMap_filter, List.filterMap_map]
  refine List.filterMap_congr fun r hr => ?_
  simp only [Function.comp]
  cases hd : r.decision with
  | none => split_ifs <;> simp [EventRow.release, hd]
  | some =>
    have hty := hm r hr (by simp [hd])
    have hkept : Ledger.reclaims ids (if Ledger.retains ids r then r.release now else r) = false := by
      split_ifs <;> simp [Ledger.reclaims, EventRow.release, hty]
    simp only [hkept, Bool.not_false]
    split_ifs <;> simp [EventRow.release, EventRow.key, hd]

theorem marked_of_deliver (hm : Marked s) (ids : List Uuid) (ack : SecurityAuditBatchAck)
    (t now : Instant) : Marked (s.deliver ids ack t now) := by
  intro r hr hd
  obtain ⟨r₀, hr₀, rfl⟩ := Table.mem_update.mp (List.mem_filter.mp hr).1
  split_ifs at hd ⊢
  · exact hm r₀ hr₀ hd
  · exact hm r₀ hr₀ hd

theorem decided_of_cleanup (held : List Uuid) (stamp : Instant) :
    decided (cleanupAuthorizationDecisions s held stamp)
      = (decided s).filter fun p => !((dueDecisions s held stamp).map EventRow.key).contains p.1 := by
  unfold decided cleanupAuthorizationDecisions Table.delete
  simp only [List.filterMap_filter, List.filter_filterMap]
  refine List.filterMap_congr fun r hr => ?_
  cases r.decision <;> simp [Option.filter]

theorem retained_of_due {held : List Uuid} {p : Uuid × DecisionColumns} (hp : p ∈ decided s)
    (hdue : ((dueDecisions s held stamp).map EventRow.key).contains p.1 = true) : p.2.retainUntil ≤ stamp := by
  obtain ⟨r, hr, hrp⟩ := List.mem_filterMap.mp hp
  obtain ⟨d, hd, rfl⟩ := Option.map_eq_some_iff.mp hrp
  obtain ⟨r', hr', hkey⟩ := List.mem_map.mp (List.contains_iff_mem.mp hdue)
  have hr'' := List.mem_filter.mp ((List.mem_insertionSort _).mp (List.mem_of_mem_take hr'))
  obtain rfl : r' = r := List.inj_on_of_nodup_map s.events.nodup hr''.1 hr hkey
  have hretain := hr''.2
  simp only [hd, Option.any_some, Bool.and_eq_true, decide_eq_true_eq] at hretain
  exact hretain.1.2

theorem events_of_claim {deploymentId : String} {limit maxEnvelopeBytes lockTimeoutSeconds : Nat}
    {clock : Instant} {result : SecurityAuditBatchClaim} (hidle : s.state.batch = none → s.chain = [])
    (he : claimBatch c s deploymentId limit maxEnvelopeBytes lockTimeoutSeconds clock stamp = .ok (s', result)) :
    s'.events = s.events := by
  unfold claimBatch at he
  split at he
  · cases he
  cases hb : s.state.batch with
  | some =>
    simp only [hb] at he
    rcases claimInflight_spec hb he with ⟨rfl, -⟩ | ⟨b, -, hre⟩
    · rfl
    · exact hre.events
  | none =>
    simp only [hb] at he
    rcases claimFresh_spec hb (hidle hb) he with ⟨rfl, -⟩ | ⟨b, taken, -, hopen⟩
    · rfl
    · exact hopen.events

/-- **What the other writers leave of the decisions**: a cleanup deletes those that are due, and
nothing else deletes one. -/
theorem decided_of_exec {op : Audit.Op} {out : Audit.Outcome} (hm : Marked s)
    (hidle : s.state.batch = none → s.chain = []) (hno : ∀ event columns, op.action ≠ .decide event columns)
    (he : Audit.exec c s op = (s', out)) :
    decided s' = (decided s).filter (fun p => !(deletedBy s op.action op.stamp).contains p.1) ∧ Marked s' := by
  obtain rfl : (Audit.exec c s op).1 = s' := congrArg Prod.fst he
  obtain ⟨action, stamp, now⟩ := op
  -- every action but a cleanup keeps all decisions
  have hkeep : ∀ {s' : Ledger}, decided s' = decided s →
      decided s' = (decided s).filter fun p => !([] : List Uuid).contains p.1 :=
    fun heq => by simp [heq]
  have hevents : ∀ {s' : Ledger}, s'.events = s.events →
      decided s' = (decided s).filter (fun p => !([] : List Uuid).contains p.1) ∧ Marked s' :=
    fun heq => ⟨hkeep (decided_of_events heq), marked_of_events hm heq⟩
  unfold Audit.exec
  cases action with
  | append events =>
    dsimp only
    split
    · exact hevents rfl
    rename_i s₁ changed hap
    obtain ⟨news, hgrown, hplain, -⟩ := appendBatch_spec hap
    refine ⟨hkeep (decided_of_grown hgrown hplain), marked_of_grown hm hgrown fun r hr hd => ?_⟩
    rw [hplain r hr] at hd
    cases hd
  | decide event columns => exact absurd rfl (hno event columns)
  | claim deploymentId limit maxEnvelopeBytes lockTimeoutSeconds clock =>
    dsimp only
    split
    · exact hevents rfl
    · rename_i s₁ result hclaim
      exact hevents (events_of_claim hidle hclaim)
  | fail => exact hevents (held_of_reported fun _ h => held_fail h).events
  | ack ack =>
    dsimp only
    split
    · exact hevents rfl
    · exact hevents rfl
    rename_i s₁ hack
    obtain ⟨b₀, hspec⟩ := ack_spec hack
    obtain ⟨t, rfl⟩ := hspec.result
    exact ⟨hkeep (decided_of_deliver hm _ _ _ _), marked_of_deliver hm _ _ _ _⟩
  | unblock => exact hevents (held_unblock _).events
  | recordGenesis => exact hevents (held_of_reported fun _ h => held_recordGenesis h).events
  | observe => exact hevents (held_of_reported fun _ h => held_observe h).events
  | cleanup held => exact ⟨decided_of_cleanup held stamp, fun r hr hd => hm r (List.mem_filter.mp hr).1 hd⟩

end Ledger

end NazoAuth.Decision
