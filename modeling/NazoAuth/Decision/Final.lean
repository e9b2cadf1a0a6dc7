import NazoAuth.Audit.Delivery
import NazoAuth.Decision.Steps

/-!
# Authorization decisions — a decision is final

The decisions of the event table are a fence (`NazoAuth.Lib.Fence`): `fenceEvent` reads each step as
one on the fence, under the keys of the two unique indexes. The ledger under them runs as
`NazoAuth.Audit` says (`ledger_run`), so that an acknowledgement empties a decision but keeps its
keys, and a cleanup deletes it only after its retention. A decision is retained at least until its
deadline and answered before it, so a second decision of the request is answered after the deadline
of the first.

The grant that an approval writes is computed from the stored row, which no other transaction can
change before the commit (`OpenInv.alone`).
-/

namespace NazoAuth.Decision

open Lib Audit

variable {f : Formats} {w w' : World} {op : Op} {out : Outcome} {log : Log}

/-! ## The ledger under the decisions -/

def ledgerEvent (e : Op × Outcome) : Option (Audit.Op × Audit.Outcome) :=
  match e.1.action, e.2 with
  | .ledger action, .ledger outcome _ => some (⟨action, e.1.stamp, e.1.now⟩, outcome)
  | _, .committed t _ => some (⟨.decide t.fact.event t.fact.columns, e.1.stamp, e.1.now⟩, .decided true)
  | _, _ => none

variable {action : Audit.Action} {outcome : Audit.Outcome}

theorem ledgerEvent_ledger {deleted : List Uuid} (ha : op.action = .ledger action) :
    ledgerEvent (op, .ledger outcome deleted) = some (⟨action, op.stamp, op.now⟩, outcome) := by
  simp only [ledgerEvent, ha]

variable {t : Inserted}

theorem ledgerEvent_committed {a : Instant} :
    ledgerEvent (op, .committed t a)
    = some (⟨.decide t.fact.event t.fact.columns, op.stamp, op.now⟩, .decided true) := by
  unfold ledgerEvent
  split <;> simp_all

theorem ledgerEvent_none (hc : ∀ t a, out ≠ .committed t a)
    (hl : ∀ outcome deleted, out ≠ .ledger outcome deleted) : ledgerEvent (op, out) = none := by
  unfold ledgerEvent
  split
  · exact absurd ‹_› (hl _ _)
  · exact absurd ‹_› (hc _ _)
  · rfl

/-- **Every history of the ledger is one of `NazoAuth.Audit`.** -/
theorem ledger_run (hr : Run (exec f) World.initial log w) :
    Run (Audit.exec f.ledger) Ledger.initial (log.filterMap ledgerEvent) w.ledger := by
  refine Run.simulate World.ledger ledgerEvent (fun _ _ _ => trivial) ?_ ?_ hr trivial
  · intro log w op w' out _ _ he hev
    cases effect_of_exec he with
    | same hledger => exact hledger
    | reserved | granted | answered | rolledBack => rfl
    | committed => simp [ledgerEvent_committed] at hev
    | ledger ha => simp [ledgerEvent_ledger ha] at hev
  · intro log w op w' out o' r' _ _ _ he hev
    have hnone : (∀ t a, out ≠ .committed t a) → (∀ outcome deleted, out ≠ .ledger outcome deleted) →
        Audit.exec f.ledger w.ledger o' = (w'.ledger, r') := by
      intro hc hl
      rw [ledgerEvent_none hc hl] at hev
      cases hev
    cases effect_of_exec he with
    | same _ _ _ _ hs =>
      exact hnone (fun _ _ h => by simp [h, Silent] at hs) fun _ _ h => by simp [h, Silent] at hs
    | reserved | granted | answered | rolledBack => exact hnone (by simp) (by simp)
    | committed _ _ hins =>
      rw [ledgerEvent_committed] at hev
      cases hev
      simp only [Audit.exec, hins, World.committed]
    | ledger ha _ hexec =>
      rw [ledgerEvent_ledger ha] at hev
      cases hev
      exact hexec

theorem idle_of_run (hr : Run (exec f) World.initial log w) : w.ledger.state.batch = none → w.ledger.chain = [] :=
  (ledgerInv_of_run (ledger_run hr)).chain.idle

theorem decided_of_ledger {ledger : Ledger} (hr : Run (exec f) World.initial log w)
    (hm : Marked w.ledger) (hb : ledgerBlocked w action = false)
    (he : Audit.exec f.ledger w.ledger ⟨action, op.stamp, op.now⟩ = (ledger, outcome)) :
    decided ledger = (decided w.ledger).filter (fun p => !(deletedBy w.ledger action op.stamp).contains p.1)
      ∧ Marked ledger := by
  refine decided_of_exec hm (idle_of_run hr) (fun event columns ha => ?_) he
  obtain rfl : action = .decide event columns := ha
  cases hb

theorem marked_of_run (hr : Run (exec f) World.initial log w) : Marked w.ledger := by
  refine Run.invariant (I := fun _ w => Marked w.ledger) (fun _ _ _ => trivial)
    (fun r hrow => absurd hrow List.not_mem_nil) ?_ hr trivial
  intro log w op w' out hr _ hm he
  cases effect_of_exec he with
  | same hledger => exact hledger ▸ hm
  | reserved | granted | answered | rolledBack => exact hm
  | committed _ _ hins => exact marked_of_insertDecision hm hins
  | ledger _ hb hexec => exact (decided_of_ledger hr hm hb hexec).2

/-! ## The fence -/

def Inserted.row (t : Inserted) : Uuid × DecisionColumns := (t.fact.event.eventId, t.fact.columns)

/-- The keys of the two unique indexes: tenant and request, tenant and pushed-request URI. -/
def fenceKeys (r : Uuid × DecisionColumns) : List (Uuid × (String ⊕ String)) :=
  (r.2.tenantId, .inl r.2.requestId) :: r.2.parUri.toList.map fun uri => (r.2.tenantId, .inr uri)

def fenceRetain (r : Uuid × DecisionColumns) : Int := r.2.retainUntil

def Inserted.reservation (t : Inserted) : Reservation Nat (Uuid × DecisionColumns) := ⟨t.tx, t.row, t.reservedAt⟩

def World.fence (w : World) : Fence Nat (Uuid × DecisionColumns) :=
  ⟨decided w.ledger, w.inserted.map Inserted.reservation⟩

def fenceEvent (e : Op × Outcome) :
    Option (Fence.Op Nat (Uuid × DecisionColumns) × Fence.Outcome (Uuid × DecisionColumns)) :=
  match e.2 with
  | .reserved t => some (⟨.reserve t.tx t.row, e.1.now⟩, .reserved)
  | .rolledBack tx _ => some (⟨.abandon tx, e.1.now⟩, .done)
  | .committed t _ => some (⟨.settle t.tx, e.1.now⟩, .settled t.row t.reservedAt)
  | .ledger _ deleted => some (⟨.sweep fun r => deleted.contains r.1, e.1.now⟩, .done)
  | _ => none

theorem shares_fenceKeys (r r' : Uuid × DecisionColumns) : Fence.shares fenceKeys r r' = r.2.collides r'.2 := by
  rw [Bool.eq_iff_iff]
  unfold Fence.shares fenceKeys DecisionColumns.collides
  cases hp : r.2.parUri with
  | none => simp
  | some => cases hp' : r'.2.parUri <;> simp [and_or_left]

theorem fenceEvent_silent (hs : Silent out) : fenceEvent (op, out) = none := by
  cases out <;> first | rfl | exact absurd hs (by simp [Silent])

variable {tx : Nat} {g : Inserted → Inserted}

theorem fence_modify (hg : ∀ t, (g t).reservation = t.reservation) : (w.modify tx g).fence = w.fence := by
  unfold World.fence World.modify
  simp only [List.map_map, Fence.mk.injEq, true_and]
  refine List.map_congr_left fun t _ => ?_
  simp only [Function.comp]
  split_ifs
  · exact hg t
  · rfl

theorem map_reservation_filter (ts : List Inserted) (tx : Nat) :
    (ts.filter fun t => t.tx ≠ tx).map Inserted.reservation
      = (ts.map Inserted.reservation).filter fun p => p.tx ≠ tx := by
  rw [List.filter_map]
  rfl

theorem fence_skip (he : exec f w op = (w', out)) (hev : fenceEvent (op, out) = none) : w'.fence = w.fence := by
  cases effect_of_exec he with
  | same hledger _ hinserted => rw [World.fence, hledger, hinserted, World.fence]
  | granted | answered => exact fence_modify fun _ => rfl
  | reserved | rolledBack | committed | ledger => cases hev

theorem fence_step {o' : Fence.Op Nat (Uuid × DecisionColumns)} {r' : Fence.Outcome (Uuid × DecisionColumns)}
    (hr : Run (exec f) World.initial log w) (hstamp : op.stamp ≤ op.now)
    (he : exec f w op = (w', out)) (hev : fenceEvent (op, out) = some (o', r')) :
    Fence.exec fenceKeys fenceRetain w.fence o' = (w'.fence, r') := by
  have hsilent : Silent out → Fence.exec fenceKeys fenceRetain w.fence o' = (w'.fence, r') := by
    intro hs
    rw [fenceEvent_silent hs] at hev
    cases hev
  cases effect_of_exec he with
  | same _ _ _ _ hs => exact hsilent hs
  | granted | answered => exact hsilent trivial
  | @reserved t hstarted hconf hopen =>
    cases hev
    have hrows : ¬ w.fence.rows.any (Fence.shares fenceKeys (t.fact.event.eventId, t.fact.columns)) = true := by
      intro h
      obtain ⟨p, hp, hshare⟩ := List.any_eq_true.mp h
      obtain ⟨r, hrow, hrp⟩ := List.mem_filterMap.mp hp
      obtain ⟨d, hd, rfl⟩ := Option.map_eq_some_iff.mp hrp
      rw [shares_fenceKeys] at hshare
      have : conflicts w.ledger t.fact = true := List.any_eq_true.mpr ⟨r, hrow, by simp [hd, hshare]⟩
      cases this.symm.trans hconf
    have hpend : ¬ w.fence.pending.any (fun p => p.tx = t.tx
        || Fence.shares fenceKeys (t.fact.event.eventId, t.fact.columns) p.row) = true := by
      intro h
      obtain ⟨p, hp, hshare⟩ := List.any_eq_true.mp h
      obtain ⟨q, hq, rfl⟩ := List.mem_map.mp hp
      obtain ⟨htx, hno⟩ := hopen q hq
      rw [shares_fenceKeys] at hshare
      simp only [Fact.shares, Bool.or_eq_false_iff] at hno
      simp only [Inserted.reservation, Inserted.row, hno.2, Bool.or_false] at hshare
      exact htx (of_decide_eq_true hshare)
    exact (if_neg hrows).trans (if_neg hpend)
  | rolledBack =>
    cases hev
    simp only [Fence.exec, World.fence, World.without, map_reservation_filter]
  | @committed t a ledger hfind hanswer hins =>
    cases hev
    have hpend : w.fence.pending.find? (fun p => p.tx = t.tx) = some t.reservation := by
      rw [World.fence, List.find?_map]
      exact congrArg (Option.map Inserted.reservation) hfind
    have hafter : (w.committed t ledger).fence
        = ⟨t.row :: w.fence.rows, w.fence.pending.filter fun q => q.tx ≠ t.tx⟩ := by
      simp only [World.fence, World.committed, World.without, decided_of_insertDecision hins,
        map_reservation_filter]
      rfl
    simp only [Fence.exec, hpend, hafter]
    rfl
  | @ledger action _ _ ha hb hexec =>
    cases hev
    simp only [Fence.exec, World.fence, (decided_of_ledger hr (marked_of_run hr) hb hexec).1]
    congr 2
    -- a decision that a cleanup takes is past its retention
    refine List.filter_congr fun p hp => ?_
    cases hdel : (deletedBy w.ledger action op.stamp).contains p.1 with
    | false => rfl
    | true =>
      have hdue : fenceRetain p ≤ op.stamp := by
        unfold deletedBy at hdel
        split at hdel
        · exact retained_of_due hp hdel
        · cases hdel
      simp [hdue.trans hstamp]

/-- **Every history of the decisions is a history of a fence.** -/
theorem fence_run (hr : Run (exec f) World.initial log w) (ht : Timed log) :
    Run (Fence.exec fenceKeys fenceRetain) Fence.empty (log.filterMap fenceEvent) w.fence :=
  Run.simulate World.fence fenceEvent (fun _ _ hg => hg.1) (fun _ _ _ _ _ _ _ he hev => fence_skip he hev)
    (fun _ _ _ _ _ _ _ hr _ ht he hev => fence_step hr ht.2.2 he hev) hr ht

theorem fence_timed (ht : Timed log) : Fence.Timed (log.filterMap fenceEvent) := by
  refine Fence.timed_filterMap (fun _ _ h => ⟨h.1, h.2.1⟩) (fun e e' h => ?_) ht
  unfold fenceEvent at h
  split at h <;> simp_all <;> rw [← h]

/-! ## Open transactions -/

/-- The decision is answered after its reservation and before its deadline, with the grant of an
approval. -/
structure InTime (t : Inserted) (answeredAt : Instant) : Prop where
  deadline : answeredAt < t.input.validUntil
  reserved : t.reservedAt ≤ answeredAt
  approved : t.input.decision = .approve → t.granted.isSome = true

/-- A transaction that has reserved its decision. -/
structure OpenTx (log : Log) (grants : List GrantRow) (t : Inserted) : Prop where
  prepared : Prepared t.input t.fact t.grantKey
  reserved : ∃ e ∈ log, t.reservedAt = e.1.now
  /-- A written grant is made from the stored one. -/
  granted : ∀ row, t.granted = some row →
    t.input.decision = .approve ∧ row = approvedGrant t.input t.grantKey (grants.find? fun g => g.key = t.grantKey)
  answered : ∀ a, t.answeredAt = some a → InTime t a

structure OpenInv (log : Log) (w : World) : Prop where
  started : ∀ t ∈ w.started, Prepared t.input t.fact t.grantKey
  inserted : ∀ t ∈ w.inserted, OpenTx log w.grants t
  same : ∀ t ∈ w.inserted, ∀ q ∈ w.inserted, t.tx = q.tx → t = q
  /-- One transaction writes a grant at a time. -/
  alone : ∀ t ∈ w.inserted, ∀ q ∈ w.inserted, t.tx ≠ q.tx → t.granted.isSome = true →
    q.granted.isSome = true → t.grantKey ≠ q.grantKey

theorem openInv_initial : OpenInv [] World.initial := by
  constructor <;> simp [World.initial]

variable {e : Op × Outcome}

/-- A transaction stays as it is while the grant that it has written does. -/
theorem OpenTx.later (h : OpenTx log w.grants t)
    (hgrant : t.granted.isSome = true → w'.grant? t.grantKey = w.grant? t.grantKey) :
    OpenTx (e :: log) w'.grants t := by
  refine ⟨h.prepared, ?_, fun row hrow => ?_, h.answered⟩
  · obtain ⟨e', he', hnow⟩ := h.reserved
    exact ⟨e', .tail _ he', hnow⟩
  · obtain ⟨happrove, rfl⟩ := h.granted row hrow
    exact ⟨happrove, congrArg _ (hgrant (by simp [hrow])).symm⟩

/-- Fewer transactions are open, and the grants that the others have written are as before. -/
theorem OpenInv.shrink (hi : OpenInv log w)
    (hstarted : ∀ t ∈ w'.started, Prepared t.input t.fact t.grantKey) (hsub : ∀ t ∈ w'.inserted, t ∈ w.inserted)
    (hgrants : ∀ t ∈ w'.inserted, t.granted.isSome = true → w'.grant? t.grantKey = w.grant? t.grantKey) :
    OpenInv (e :: log) w' where
  started := hstarted
  inserted t ht := (hi.inserted t (hsub t ht)).later (hgrants t ht)
  same t ht q hq := hi.same t (hsub t ht) q (hsub q hq)
  alone t ht q hq := hi.alone t (hsub t ht) q (hsub q hq)

theorem find?_putGrant (grants : List GrantRow) (row : GrantRow) (key : GrantKey) :
    (putGrant grants row).find? (fun g => g.key = key)
      = if row.key = key then some row else grants.find? fun g => g.key = key := by
  unfold putGrant
  by_cases hkey : row.key = key
  · rw [if_pos hkey, List.find?_cons_of_pos (by simpa using hkey)]
  rw [if_neg hkey, List.find?_cons_of_neg (by simpa using hkey), List.find?_filter]
  congr 1
  funext g
  simp only [decide_eq_true_eq, decide_eq_decide, and_iff_right_iff_imp]
  intro hg
  simp [hg, Ne.symm hkey]

variable {q : Inserted} {key : GrantKey}

theorem mem_modify (hq : q ∈ (w.modify tx g).inserted) : ∃ t ∈ w.inserted, t.tx = tx ∧ q = g t
      ∨ t.tx ≠ tx ∧ q = t := by
  obtain ⟨t, ht, rfl⟩ := List.mem_map.mp hq
  refine ⟨t, ht, ?_⟩
  split_ifs with htx
  · exact .inl ⟨htx, rfl⟩
  · exact .inr ⟨htx, rfl⟩

/-- A transaction goes on; if it writes a grant, no other one has written that. -/
theorem OpenInv.modify (hi : OpenInv log w) (htx : ∀ t, (g t).tx = t.tx) (hkey : ∀ t, (g t).grantKey = t.grantKey)
    (hone : ∀ t ∈ w.inserted, t.tx = tx → OpenTx (e :: log) w.grants (g t))
    (hfree : ∀ t ∈ w.inserted, t.tx = tx → (g t).granted = t.granted ∨ w.grantLocked tx t.grantKey = false) :
    OpenInv (e :: log) (w.modify tx g) := by
  have hapart : ∀ t ∈ w.inserted, ∀ q ∈ w.inserted, t.tx = tx → q.tx ≠ tx →
      (g t).granted.isSome = true → q.granted.isSome = true → t.grantKey ≠ q.grantKey := by
    intro t ht q hq heq hne hg hg'
    rcases hfree t ht heq with hsame | hfree
    · exact hi.alone t ht q hq (fun h => hne (h.symm.trans heq)) (hsame ▸ hg) hg'
    intro hkey
    have hlocked : w.grantLocked tx t.grantKey = true := by
      unfold World.grantLocked
      rw [Bool.or_eq_true]
      exact .inr (List.any_eq_true.mpr ⟨q, hq, by simp [hne, hg', hkey]⟩)
    cases hlocked.symm.trans hfree
  refine ⟨hi.started, fun q hq => ?_, fun q hq q' hq' heq => ?_, fun q hq q' hq' hne hg hg' => ?_⟩
  · rcases mem_modify hq with ⟨t, ht, ⟨hmine, rfl⟩ | ⟨-, rfl⟩⟩
    · exact hone t ht hmine
    · exact (hi.inserted q ht).later fun _ => rfl
  · rcases mem_modify hq with ⟨t, ht, ⟨hmine, rfl⟩ | ⟨hother, rfl⟩⟩ <;>
      rcases mem_modify hq' with ⟨t', ht', ⟨hmine', rfl⟩ | ⟨hother', rfl⟩⟩
    · rw [hi.same t ht t' ht' (hmine.trans hmine'.symm)]
    · exact absurd (heq.symm.trans ((htx t).trans hmine)) hother'
    · exact absurd (heq.trans ((htx t').trans hmine')) hother
    · exact hi.same q ht q' ht' heq
  · rcases mem_modify hq with ⟨t, ht, ⟨hmine, rfl⟩ | ⟨hother, rfl⟩⟩ <;>
      rcases mem_modify hq' with ⟨t', ht', ⟨hmine', rfl⟩ | ⟨hother', rfl⟩⟩
    · exact absurd ((htx t).trans (hmine.trans (hmine'.symm.trans (htx t').symm))) hne
    · exact hkey t ▸ hapart t ht q' ht' hmine hother' hg hg'
    · exact hkey t' ▸ (hapart t' ht' q ht hmine' hother hg' hg).symm
    · exact hi.alone q ht q' ht' hne hg hg'

theorem OpenInv.insert (hi : OpenInv log w) {p : Inserted} {started : List Started}
    (hstarted : ∀ t ∈ started, t ∈ w.started) (hp : Prepared p.input p.fact p.grantKey)
    (hnow : p.reservedAt = op.now) (hnew : ∀ q ∈ w.inserted, q.tx ≠ p.tx)
    (hgranted : p.granted = none) (hanswered : p.answeredAt = none) :
    OpenInv ((op, out) :: log) { w with started := started, inserted := p :: w.inserted } where
  started t ht := hi.started t (hstarted t ht)
  inserted t ht := by
    rcases List.mem_cons.mp ht with rfl | ht
    · exact ⟨hp, ⟨(op, out), List.mem_cons_self, hnow⟩, by simp [hgranted], by simp [hanswered]⟩
    · exact (hi.inserted t ht).later fun _ => rfl
  same t ht q hq htx := by
    rcases List.mem_cons.mp ht with rfl | htold
    · rcases List.mem_cons.mp hq with rfl | hqold
      · rfl
      · exact absurd htx.symm (hnew q hqold)
    · rcases List.mem_cons.mp hq with rfl | hqold
      · exact absurd htx (hnew t htold)
      · exact hi.same t htold q hqold htx
  alone t ht q hq hne hg hg' := by
    rcases List.mem_cons.mp ht with rfl | ht
    · simp [hgranted] at hg
    · rcases List.mem_cons.mp hq with rfl | hq
      · simp [hgranted] at hg'
      · exact hi.alone t ht q hq hne hg hg'

theorem grant?_of_committed (hi : OpenInv log w) (ht : t ∈ w.inserted)
    (hgrants : w'.grants = match t.granted with | some row => putGrant w.grants row | none => w.grants)
    (key : GrantKey) : w'.grant? key = if t.granted.isSome = true ∧ t.grantKey = key
      then some (approvedGrant t.input key (w.grant? key)) else w.grant? key := by
  rw [World.grant?, hgrants]
  cases hg : t.granted with
  | none => simp [World.grant?]
  | some row =>
    obtain ⟨-, hrow⟩ := (hi.inserted t ht).granted row hg
    simp only [find?_putGrant, Option.isSome_some, true_and]
    have hkey : row.key = t.grantKey := by rw [hrow]; rfl
    rw [hkey]
    split_ifs with heq
    · rw [hrow, heq]
      rfl
    · rfl

theorem openInv_step (ht : Timed ((op, out) :: log)) (hi : OpenInv log w)
    (he : exec f w op = (w', out)) : OpenInv ((op, out) :: log) w' := by
  cases effect_of_exec he with
  | same hledger hgrants hinserted hstarted =>
    refine hi.shrink (fun t hmem => ?_) (fun t hmem => hinserted ▸ hmem) fun t _ _ => by
      rw [World.grant?, hgrants, World.grant?]
    exact (hstarted t hmem).elim (hi.started t) id
  | reserved hmem hconf hopen =>
    exact hi.insert (fun t h => (List.mem_filter.mp h).1) (hi.started _ hmem)
      rfl (fun q hq => (hopen q hq).1) rfl rfl
  | @granted t row hmem hap hfree hrow =>
    refine hi.modify (fun _ => rfl) (fun _ => rfl) (fun q hq htx => ?_) fun q hq htx => ?_
    · obtain rfl := hi.same q hq t hmem htx
      have hq' : OpenTx ((op, .granted) :: log) w.grants q := (hi.inserted q hq).later fun _ => rfl
      refine ⟨hq'.prepared, hq'.reserved, fun row' hrow' => ?_, fun a ha => ?_⟩
      · cases hrow'
        exact ⟨hap, hrow⟩
      · exact ⟨(hq'.answered a ha).deadline, (hq'.answered a ha).reserved, fun _ => rfl⟩
    · obtain rfl := hi.same q hq t hmem htx
      exact .inr hfree
  | @answered t hmem hgranted hlate =>
    refine hi.modify (fun _ => rfl) (fun _ => rfl) (fun q hq htx => ?_) fun _ _ _ => .inl rfl
    obtain rfl := hi.same q hq t hmem htx
    have hq' : OpenTx ((op, .answered) :: log) w.grants q := (hi.inserted q hq).later fun _ => rfl
    refine ⟨hq'.prepared, hq'.reserved, hq'.granted, fun a ha => ?_⟩
    cases ha
    obtain ⟨e, hmem', hnow⟩ := (hi.inserted q hq).reserved
    exact ⟨hlate, hnow ▸ ht.2.1 e hmem', hgranted⟩
  | rolledBack =>
    exact hi.shrink (fun t h => hi.started t (List.mem_filter.mp h).1) (fun t h => (List.mem_filter.mp h).1)
      fun _ _ _ => rfl
  | @committed t a ledger hfind =>
    have hmem := List.mem_of_find?_eq_some hfind
    have hrest : ∀ q ∈ (w.committed t ledger).inserted, q ∈ w.inserted ∧ q.tx ≠ t.tx :=
      fun q hq => by simpa using List.mem_filter.mp hq
    refine hi.shrink (fun q hq => hi.started q (List.mem_filter.mp hq).1) (fun q hq => (hrest q hq).1)
      fun q hq hsome => ?_
    rw [grant?_of_committed hi hmem rfl, if_neg]
    rintro ⟨hg, hkey⟩
    exact hi.alone t hmem q (hrest q hq).1 (hrest q hq).2.symm hg hsome hkey
  | ledger => exact hi.shrink hi.started (fun _ h => h) fun _ _ _ => rfl

theorem openInv_of_run (hr : Run (exec f) World.initial log w) (ht : Timed log) : OpenInv log w :=
  Run.invariant (fun _ _ h => h.1) openInv_initial (fun _ _ _ _ _ _ ht hi he => openInv_step ht hi he) hr ht

/-! ## Result -/

/-- What a committed decision was for: a request or a pushed-request URI of a tenant. -/
inductive RequestKey where
  | request (tenantId : Uuid) (requestId : String)
  | pushedRequest (tenantId : Uuid) (uri : String)

def RequestKey.names (key : RequestKey) (input : AuthorizationDecisionCommit) : Bool :=
  match key with
  | .request tenantId requestId => input.tenantId = tenantId && input.requestId = requestId
  | .pushedRequest tenantId uri => input.tenantId = tenantId && input.pushedRequestUri = some uri

/-- The event is the commit of a decision of the request. -/
def commits (key : RequestKey) (e : Op × Outcome) : Bool :=
  match e.2 with
  | .committed t _ => key.names t.input
  | _ => false

def approval (key : GrantKey) : Outcome → Option AuthorizationDecisionCommit
  | .committed t _ => if t.input.decision = .approve ∧ t.grantKey = key then some t.input else none
  | _ => none

/-- Decisions are final, in the history `log` that ends in `w`. -/
structure DecisionsFinal (f : Formats) (log : Log) (w : World) : Prop where
  /-- The last clock reading of a committed decision is strictly before its deadline (the commit itself may come
  later), and its grant is of its own tenant and user. -/
  inTime : ∀ op t answeredAt, (op, .committed t answeredAt) ∈ log → answeredAt < t.input.validUntil
    ∧ t.grantKey.1 = t.input.tenantId ∧ t.grantKey.2.1 = t.input.userId
  /-- Until the deadline of a committed decision has passed, no other decision of its request is committed. -/
  apart : ∀ (key : RequestKey) newer op₂ t₂ answeredAt₂ older op₁ t₁ answeredAt₁,
    log = newer ++ (op₂, .committed t₂ answeredAt₂) :: older → (op₁, .committed t₁ answeredAt₁) ∈ older →
    key.names t₁.input = true → key.names t₂.input = true → t₁.input.validUntil ≤ answeredAt₂
  /-- A request with one deadline has at most one committed decision. -/
  once : ∀ (key : RequestKey) (deadline : Instant),
    (∀ op t answeredAt, (op, .committed t answeredAt) ∈ log → key.names t.input = true →
    t.input.validUntil = deadline) → log.countP (commits key) ≤ 1
  /-- The next step changes the grants that it approves, to the values of the decision, and no others. -/
  grants : ∀ op w' out, exec f w op = (w', out) → ∀ key, w'.grant? key =
    match approval key out with
    | some input => some {
        key := key
        firstAuthorizedAt := ((w.grant? key).map (·.firstAuthorizedAt)).getD input.occurredAt
        lastAuthorizedAt := input.occurredAt
        lastScopes := .arr (input.scopes.map .str)
        lastResourceIndicators := .arr (input.resourceIndicators.map .str)
        lastAuthorizationDetails := input.authorizationDetails
        authorizationCount := ((w.grant? key).map (·.authorizationCount)).getD 0 + 1 }
    | none => w.grant? key
  /-- An approval always is a change: it is counted. -/
  changed : ∀ op w' out, exec f w op = (w', out) → ∀ key,
    w'.grant? key ≠ w.grant? key ↔ (approval key out).isSome = true

theorem approvedGrant_ne (input : AuthorizationDecisionCommit) (key : GrantKey)
    (stored : Option GrantRow) : some (approvedGrant input key stored) ≠ stored := by
  intro h
  have hcount := congrArg (Option.map (·.authorizationCount)) h
  rw [← h] at hcount
  simp [approvedGrant] at hcount

theorem grant_step (hi : OpenInv log w) (he : exec f w op = (w', out)) (key : GrantKey) :
    w'.grant? key = match approval key out with
      | some input => some (approvedGrant input key (w.grant? key))
      | none => w.grant? key := by
  cases effect_of_exec he with
  | same _ hgrants _ _ hs =>
    have hnone : approval key out = none := by
      cases out <;> first | rfl | exact absurd hs (by simp [Silent])
    rw [hnone, World.grant?, hgrants, World.grant?]
  | reserved | granted | answered | rolledBack | ledger => rfl
  | @committed t a _ hfind hanswer =>
    have hmem := List.mem_of_find?_eq_some hfind
    have hsome : t.granted.isSome = true ↔ t.input.decision = .approve := by
      refine ⟨fun h => ?_, ((hi.inserted t hmem).answered a hanswer).approved⟩
      obtain ⟨row, hrow⟩ := Option.isSome_iff_exists.mp h
      exact ((hi.inserted t hmem).granted row hrow).1
    rw [grant?_of_committed hi hmem rfl, approval]
    simp only [hsome]
    split_ifs <;> rfl

theorem committed_of_run (hr : Run (exec f) World.initial log w) (ht : Timed log) :
    ∀ op t a, (op, .committed t a) ∈ log → Prepared t.input t.fact t.grantKey ∧ InTime t a := by
  refine Run.invariant (I := fun log _ => ∀ op t a, (op, Outcome.committed t a) ∈ log →
    Prepared t.input t.fact t.grantKey ∧ InTime t a) (fun _ _ h => h.1) (by simp) ?_ hr ht
  intro log w op w' out hr ht hlog he op' t a hmem
  rcases List.mem_cons.mp hmem with heq | hmem
  · cases heq
    have hi := openInv_of_run hr ht.1
    cases effect_of_exec he with
    | same _ _ _ _ hs => exact absurd hs (by simp [Silent])
    | committed hfind hanswer =>
      have hopen := hi.inserted _ (List.mem_of_find?_eq_some hfind)
      exact ⟨hopen.prepared, hopen.answered _ hanswer⟩
  · exact hlog op' t a hmem

theorem columns_of_prepared {input : AuthorizationDecisionCommit} {fact : Fact} (h : Prepared input fact key) :
    fact.columns.tenantId = input.tenantId ∧ fact.columns.requestId = input.requestId
      ∧ fact.columns.parUri = input.pushedRequestUri ∧ fact.columns.validUntil = input.validUntil := by
  have hc := h.columns
  unfold decisionColumns at hc
  split_ifs at hc
  obtain hc := Option.some.inj hc
  rw [← hc]
  exact ⟨rfl, rfl, rfl, rfl⟩

variable {key : RequestKey}

theorem shares_of_names (ht : Prepared t.input t.fact t.grantKey)
    (hq : Prepared q.input q.fact q.grantKey) (hnt : key.names t.input = true)
    (hnq : key.names q.input = true) : Fence.shares fenceKeys t.row q.row = true := by
  obtain ⟨t1, t2, t3, -⟩ := columns_of_prepared ht
  obtain ⟨q1, q2, q3, -⟩ := columns_of_prepared hq
  rw [shares_fenceKeys]
  unfold DecisionColumns.collides Inserted.row
  cases key with
  | request =>
    simp only [RequestKey.names, Bool.and_eq_true, decide_eq_true_eq] at hnt hnq
    simp [t1, t2, q1, q2, hnt.1, hnt.2, hnq.1, hnq.2]
  | pushedRequest =>
    simp only [RequestKey.names, Bool.and_eq_true, decide_eq_true_eq] at hnt hnq
    simp [t1, t3, q1, q3, hnt.1, hnt.2, hnq.1, hnq.2]

theorem decision_apart (hr : Run (exec f) World.initial log w) (ht : Timed log) {newer older : Log}
    {op₁ op₂ : Op} {t₁ t₂ : Inserted} {a₁ a₂ : Instant} (hsplit : log = newer ++ (op₂, .committed t₂ a₂) :: older)
    (hmem : (op₁, .committed t₁ a₁) ∈ older) (h₁ : key.names t₁.input = true)
    (h₂ : key.names t₂.input = true) : t₁.input.validUntil ≤ a₂ := by
  have hc := committed_of_run hr ht
  have hmem₂ : (op₂, Outcome.committed t₂ a₂) ∈ log := by simp [hsplit]
  have hmem₁ : (op₁, Outcome.committed t₁ a₁) ∈ log := by simp [hsplit, hmem]
  obtain ⟨hp₁, -⟩ := hc op₁ t₁ a₁ hmem₁
  obtain ⟨hp₂, hin₂⟩ := hc op₂ t₂ a₂ hmem₂
  have hfence := fence_run hr ht
  have htimed := fence_timed ht
  rw [hsplit, List.filterMap_append]
    at hfence htimed
  have hretain := Fence.settled_apart _ hfence htimed rfl (List.mem_filterMap.mpr ⟨_, hmem, rfl⟩) rfl
    (shares_of_names hp₂ hp₁ h₂ h₁)
  calc t₁.input.validUntil = t₁.fact.columns.validUntil := (columns_of_prepared hp₁).2.2.2.symm
    _ ≤ fenceRetain t₁.row := t₁.fact.columns.retained
    _ ≤ t₂.reservedAt := hretain
    _ ≤ a₂ := hin₂.reserved

theorem commits_eq_true (h : commits key e = true) : ∃ t a, e.2 = .committed t a ∧ key.names t.input = true := by
  unfold commits at h
  split at h
  · exact ⟨_, _, ‹_›, h⟩
  · cases h

theorem decision_once (hr : Run (exec f) World.initial log w) (ht : Timed log) {deadline : Instant}
    (hfixed : ∀ op t a, (op, .committed t a) ∈ log → key.names t.input = true → t.input.validUntil = deadline) :
    log.countP (commits key) ≤ 1 := by
  refine countP_le_one fun newer e₂ older hsplit h₂ e₁ hmem => ?_
  by_contra h₁
  obtain ⟨t₂, a₂, hout₂, hn₂⟩ := commits_eq_true h₂
  obtain ⟨t₁, a₁, hout₁, hn₁⟩ := commits_eq_true (by simpa using h₁)
  obtain ⟨op₂, out₂⟩ := e₂
  obtain ⟨op₁, out₁⟩ := e₁
  obtain rfl : out₂ = .committed t₂ a₂ := hout₂
  obtain rfl : out₁ = .committed t₁ a₁ := hout₁
  have hmem₂ : (op₂, Outcome.committed t₂ a₂) ∈ log := by simp [hsplit]
  have hmem₁ : (op₁, Outcome.committed t₁ a₁) ∈ log := by simp [hsplit, hmem]
  have hle := decision_apart hr ht hsplit hmem hn₁ hn₂
  have hlt := (committed_of_run hr ht op₂ t₂ a₂ hmem₂).2.deadline
  rw [hfixed op₁ t₁ a₁ hmem₁ hn₁] at hle
  rw [hfixed op₂ t₂ a₂ hmem₂ hn₂] at hlt
  exact absurd hle (not_le.mpr hlt)

/-- **Authorization decisions are final**, in every history of decision commits, audit transactions
and cleanups under one clock. -/
theorem decision_final (f : Formats) (log : Log) (w : World) (hr : Run (exec f) World.initial log w)
    (ht : Timed log) : DecisionsFinal f log w where
  inTime op t a hmem := by
    obtain ⟨hprepared, hin⟩ := committed_of_run hr ht op t a hmem
    exact ⟨hin.deadline, hprepared.tenant, hprepared.user⟩
  apart _ _ _ _ _ _ _ _ _ hsplit hmem h₁ h₂ := decision_apart hr ht hsplit hmem h₁ h₂
  once _ _ hfixed := decision_once hr ht hfixed
  grants _ _ _ he key := grant_step (openInv_of_run hr ht) he key
  changed op w' out he key := by
    rw [grant_step (openInv_of_run hr ht) he key]
    cases approval key out with
    | none => simp
    | some input => simpa using approvedGrant_ne input key (w.grant? key)

/-! ## A race for one request -/

def raceFormats : Formats where
  ledger := { sampleEncodings with payloadBytes := fun _ => 600 }
  compactText := fun _ => ""
  canonicalDetails := fun _ => some ""
  instantText := fun _ => ""

def raceInput (decision : AuthorizationDecisionKind) (eventId : Uuid) : AuthorizationDecisionCommit where
  tenantId := 1
  userId := 2
  clientId := "web"
  requestId := "request"
  pushedRequestUri := none
  validUntil := 100
  retainUntil := 200
  decision := decision
  eventId := eventId
  occurredAt := 5
  auditFields := .obj (if decision = .deny then [] else
    let digest := Json.str (String.ofList (toHex 64 0))
    [("code_id", .str "code"), ("code_hash", digest), ("code_payload_digest", digest)])
  scopes := ["openid"]
  resourceIndicators := []
  authorizationDetails := .arr []

/-- The chain hash of the first decision, and the acknowledgement of its batch. -/
def raceAck (fact : Fact) : SecurityAuditBatchAck :=
  let hash := rowHash raceFormats.ledger 1 genesisHash ⟨fact.event, some fact.columns, none⟩
  ⟨1, "main", 1, 1, 1, hash, securityAuditBatchDigest raceFormats.ledger "main" 1 1 1 genesisHash hash [hash]⟩

/-- An approval and a denial of one request overlap. The denial waits for the approval and loses; a
later denial loses against the decision that is exported but still retained. -/
def raceOps : List Op :=
  [⟨.principals [⟨1, 3, "web", true⟩] [⟨1, 2, true⟩], 0, 0⟩, ⟨.begin 1 1 (raceInput .approve 11), 10, 10⟩,
    ⟨.begin 2 1 (raceInput .deny 12), 11, 11⟩, ⟨.insert 1, 12, 12⟩, ⟨.insert 2, 13, 13⟩,
    ⟨.grant 1, 14, 14⟩, ⟨.answer 1, 15, 15⟩, ⟨.commit 1, 16, 16⟩, ⟨.insert 2, 17, 17⟩,
    ⟨.ledger (.claim "main" 1 131072 60 18), 18, 18⟩]
    ++ ((prepare raceFormats 1 (raceInput .approve 11)).toOption.toList.map fun fact =>
      (⟨.ledger (.ack (raceAck fact)), 19, 19⟩ : Op))
    ++ [⟨.ledger (.cleanup []), 20, 20⟩, ⟨.begin 3 1 (raceInput .deny 13), 21, 21⟩, ⟨.insert 3, 22, 22⟩]

def race : Log × World := execAll (exec raceFormats) World.initial [] raceOps

def raceResults : List (Option AuthorizationDecisionCommitResult) :=
  race.1.filterMap fun e => match e.2 with
    | .returned result => some result.toOption
    | .committed _ _ => some (some .committed)
    | _ => none

theorem decision_final_race :
    DecisionsFinal raceFormats race.1 race.2 ∧ raceResults = [some .conflict, some .conflict, some .committed]
      ∧ race.2.ledger.anchor = 1 ∧ race.2.grants.map (fun g => (g.key, g.authorizationCount)) = [((1, 2, 3), 1)] :=
  ⟨decision_final raceFormats race.1 race.2 (run_execAll _ _) (by decide +kernel), by decide +kernel⟩

end NazoAuth.Decision
