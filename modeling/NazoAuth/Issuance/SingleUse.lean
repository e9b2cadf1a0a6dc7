import NazoAuth.Issuance.Commit

/-!
# Token issuance — a single-use grant issues at most once

The receipts are a fence (`NazoAuth.Lib.Fence`): `fenceEvent` reads each operation as one on the
fence, and `fence_run` says that every history of the machine is a history of the fence. A receipt
is retained at least until the deadline of its grant and a grant is redeemed before it, so
`Fence.settled_apart` leaves no room for a second redemption: it would have been reserved after the
deadline.
-/

namespace NazoAuth.Issuance

open Lib Refresh

variable {h : Hashes} {s s' : IssuanceStore} {op : Op} {out : Outcome}

/-! ## What one operation can do -/

/-- No receipt and no open transaction stands in the way of the insertion. -/
structure Unhindered (h : Hashes) (s : IssuanceStore) (tx : Nat) (input : CommitTokenIssuance) : Prop where
  rows : ∀ r ∈ s.receipts.rows, sameGrant h input r = false ∧ sameIdentity input r = false
  pending : ∀ p ∈ s.receipts.pending, p.tx ≠ tx ∧ sameGrant h input p.row = false
    ∧ sameIdentity input p.row = false

inductive Effect (h : Hashes) (s : IssuanceStore) (op : Op) : IssuanceStore × Outcome → Prop
  | answered {input result} : result ≠ .ok .committed → Effect h s op (s, .returned input result)
  | waited : Effect h s op (s, .waiting)
  | started {tx input principals key deadline} :
      op.action = .begin tx input principals → input.mode.grant = some (key, deadline) →
      op.now < deadline → Unhindered h s tx input → Effect h s op
        ({ s with receipts := { s.receipts with pending := ⟨tx, input, op.now⟩ :: s.receipts.pending } },
          .started ⟨tx, input, op.now⟩)
  | startedFresh {p} : p.row.mode.grant = none → Effect h s op ({ s with fresh := p :: s.fresh }, .startedFresh p)
  | ended {p stored result} :
      s.receipts.pending.find? (fun q => q.tx = p.tx) = some p → (result = .ok .committed → stored = true) →
        Effect h s op ({ s with receipts := ⟨if stored then p.row :: s.receipts.rows else s.receipts.rows,
          s.receipts.pending.filter fun q => q.tx ≠ p.tx⟩ }, .ended p stored result)
  | endedFresh {p result} :
      p ∈ s.fresh → Effect h s op ({ s with fresh := s.fresh.filter fun q => q.tx ≠ p.tx }, .endedFresh p result)
  | aborted {tx} : op.action = .abort tx → Effect h s op
      (⟨{ s.receipts with pending := s.receipts.pending.filter fun q => q.tx ≠ tx },
        s.fresh.filter fun q => q.tx ≠ tx⟩, .aborted)
  | cleaned {cutoff held deleted} : op.action = .cleanup cutoff held →
      deleted = (dueReceipts s.receipts.rows cutoff held).map (·.issuanceId) → Effect h s op
        ({ s with receipts := { s.receipts with
          rows := s.receipts.rows.filter fun r => !deleted.contains r.issuanceId } }, .cleaned deleted)

variable {input : CommitTokenIssuance} {deadline : Instant} {key : String}

theorem stored_of_committed {refresh : Except TokenPortError RefreshTokenPersistResult}
    {rest : Except CommitTransactionError Unit} {acknowledged : Bool}
    (hc : (transactionEnd input refresh rest acknowledged).2 = .ok .committed) :
    (transactionEnd input refresh rest acknowledged).1 = true := by
  unfold transactionEnd at hc ⊢
  cases ha : afterReceipt input refresh rest with
  | error e => cases e <;> simp [ha, resultOfError] at hc
  | ok r =>
    obtain ⟨result, stored⟩ := r
    simp only [ha] at hc ⊢
    split_ifs at hc
    have hres : result = .committed := by simpa using hc
    unfold afterReceipt at ha
    split at ha <;> simp_all

variable {principals : PrincipalOutcome} {tx : Nat}

theorem effect_insertReceipt (ha : op.action = .begin tx input principals)
    (hgrant : input.mode.grant = some (key, deadline))
    (htx : s.receipts.pending.any (fun p => p.tx = tx) = false) :
    Effect h s op (insertReceipt h s tx input deadline op.now) := by
  unfold insertReceipt
  split_ifs with h1 h2 h3 h4 h5
  · exact .answered (by simp)
  · exact .waited
  · exact .answered (by simp)
  · exact .waited
  · refine .started ha hgrant h5 ⟨fun r hr => ?_, fun p hp => ?_⟩
    · exact ⟨by simpa using fun h => h1 (List.any_eq_true.mpr ⟨r, hr, h⟩),
        by simpa using fun h => h3 (List.any_eq_true.mpr ⟨r, hr, h⟩)⟩
    · refine ⟨by simpa using List.any_eq_false.mp htx p hp, ?_, ?_⟩
      · simpa using fun h => h2 (List.any_eq_true.mpr ⟨p, hp, h⟩)
      · simpa using fun h => h4 (List.any_eq_true.mpr ⟨p, hp, h⟩)
  · exact .answered (by simp)

theorem effect_begin (ha : op.action = .begin tx input principals)
    (htx : s.receipts.pending.any (fun p => p.tx = tx) = false) :
    Effect h s op (begin_ h s tx input principals op.now) := by
  unfold begin_
  cases hp : prepareCommit h input with
  | error => exact .answered (by simp)
  | ok =>
    cases principals with
    | clientInactive | subjectInactive | failed => exact .answered (by simp)
    | ok =>
      dsimp only
      cases hg : input.mode.grant with
      | none => exact .startedFresh hg
      | some g => exact effect_insertReceipt ha hg htx

/-- **What one operation can do.** -/
theorem effect_of_exec (he : exec h s op = (s', out)) : Effect h s op (s', out) := by
  rw [← he, exec]
  cases ha : op.action with
  | begin tx =>
    dsimp only
    split_ifs with hb
    · exact .waited
    · simp only [Bool.or_eq_true, not_or, Bool.not_eq_true] at hb
      exact effect_begin ha hb.1
  | finish tx =>
    dsimp only
    cases hp : s.receipts.pending.find? (fun p => p.tx = tx) with
    | some p =>
      have htx : p.tx = tx := by simpa using List.find?_some hp
      subst htx
      exact .ended hp stored_of_committed
    | none =>
      dsimp only
      cases hf : s.fresh.find? (fun p => p.tx = tx) with
      | some p =>
        have htx : p.tx = tx := by simpa using List.find?_some hf
        subst htx
        exact .endedFresh (List.mem_of_find?_eq_some hf)
      | none => exact .waited
  | abort => exact .aborted ha
  | cleanup => exact .cleaned ha rfl

/-! ## The receipts are a fence -/

/-- The event of the fence behind an event of the machine. -/
def fenceEvent (e : Op × Outcome) :
    Option (Fence.Op Nat CommitTokenIssuance × Fence.Outcome CommitTokenIssuance) :=
  match e.1.action, e.2 with
  | _, .started p => some (⟨.reserve p.tx p.row, e.1.now⟩, .reserved)
  | _, .ended p true _ => some (⟨.settle p.tx, e.1.now⟩, .settled p.row p.reservedAt)
  | _, .ended p false _ => some (⟨.abandon p.tx, e.1.now⟩, .done)
  | .abort tx, .aborted => some (⟨.abandon tx, e.1.now⟩, .done)
  | _, .cleaned deleted => some (⟨.sweep fun r => deleted.contains r.issuanceId, e.1.now⟩, .done)
  | _, _ => none

theorem shares_receiptKeys (a b : CommitTokenIssuance) :
    Fence.shares (receiptKeys h) a b = (sameGrant h a b || sameIdentity a b) := by
  unfold Fence.shares receiptKeys sameGrant sameIdentity
  cases ha : singleUseKey h a <;> cases hb : singleUseKey h b <;>
    simp [eq_comm]

variable {cutoff : Instant} {held : List Uuid} {r : CommitTokenIssuance}

/-- A due receipt is past its retention time, and is the only one with its identifier. -/
theorem retain_of_due {log : List (Fence.Op Nat CommitTokenIssuance × Fence.Outcome CommitTokenIssuance)}
    (hr : Run (Fence.exec (receiptKeys h) retainUntil) Fence.empty log s.receipts) (hmem : r ∈ s.receipts.rows)
    (hdue : ((dueReceipts s.receipts.rows cutoff held).map (·.issuanceId)).contains r.issuanceId = true) :
    retainUntil r ≤ cutoff := by
  obtain ⟨r', hr', hid⟩ := List.mem_map.mp (List.contains_iff_mem.mp hdue)
  have hsel := List.mem_filter.mp ((List.mem_insertionSort _).mp (List.mem_of_mem_take hr'))
  simp only [Bool.and_eq_true, decide_eq_true_eq] at hsel
  have hshare : Fence.shares (receiptKeys h) r' r = true := by
    simp only [shares_receiptKeys, sameIdentity, hid, decide_true, Bool.true_or, Bool.or_true]
  have heq := (Fence.disjoint_of_run hr).eq_of_shares hsel.1 hmem hshare
  exact heq ▸ hsel.2.1

variable {log : Log}

theorem cutoff_le (ht : Timed ((op, out) :: log)) (ha : op.action = .cleanup cutoff held) : cutoff ≤ op.now := by
  have := ht.2.2
  simpa [Op.clockRead, ha] using this

theorem fence_step (hr : Run (Fence.exec (receiptKeys h) retainUntil) Fence.empty
    (log.filterMap fenceEvent) s.receipts)
    (ht : Timed ((op, out) :: log)) (he : exec h s op = (s', out)) {op' : Fence.Op Nat CommitTokenIssuance}
    {out' : Fence.Outcome CommitTokenIssuance} (hev : fenceEvent (op, out) = some (op', out')) :
    Fence.exec (receiptKeys h) retainUntil s.receipts op' = (s'.receipts, out') := by
  cases effect_of_exec he with
  | answered | waited | startedFresh | endedFresh => simp [fenceEvent] at hev
  | started ha hg hnow hun =>
    rename_i tx input principals key deadline
    cases hev
    have hrows : s.receipts.rows.any (Fence.shares (receiptKeys h) input) = false :=
      List.any_eq_false.mpr fun r hr => by simp [shares_receiptKeys, hun.rows r hr]
    have hpend : s.receipts.pending.any (fun p => p.tx = tx || Fence.shares (receiptKeys h) input p.row) = false :=
      List.any_eq_false.mpr fun p hp => by simp [shares_receiptKeys, hun.pending p hp]
    simp only [Fence.exec, hrows, hpend, Bool.false_eq_true, if_false]
  | ended hp hstored =>
    rename_i p stored result
    cases stored with
    | true =>
      cases hev
      simp [Fence.exec, hp]
    | false =>
      simp only [fenceEvent] at hev
      cases hev
      simp [Fence.exec]
  | aborted ha =>
    simp only [fenceEvent, ha] at hev
    cases hev
    rfl
  | cleaned ha hdel =>
    rename_i cutoff held deleted
    cases hev
    subst hdel
    have hcut : cutoff ≤ op.now := cutoff_le ht ha
    simp only [Fence.exec, Prod.mk.injEq, and_true]
    congr 1
    refine List.filter_congr fun r hmem => ?_
    -- every deleted receipt is past its retention time
    cases hc : ((dueReceipts s.receipts.rows cutoff held).map (·.issuanceId)).contains r.issuanceId with
    | false => simp
    | true => simp [(retain_of_due hr hmem hc).trans hcut]

theorem fence_skip (he : exec h s op = (s', out)) (hev : fenceEvent (op, out) = none) :
    s'.receipts = s.receipts := by
  cases effect_of_exec he with
  | answered | waited | startedFresh | endedFresh => rfl
  | started | cleaned => simp [fenceEvent] at hev
  | @ended _ stored =>
    cases stored <;> simp [fenceEvent] at hev
  | aborted ha => simp [fenceEvent, ha] at hev

/-- **Every history of the receipts is a history of a fence.** -/
theorem fence_run (hr : Run (exec h) IssuanceStore.empty log s) (ht : Timed log) :
    Run (Fence.exec (receiptKeys h) retainUntil) Fence.empty (log.filterMap fenceEvent) s.receipts :=
  Run.simulate IssuanceStore.receipts fenceEvent (fun _ _ hg => hg.1)
    (fun _ _ _ _ _ _ _ he hev => fence_skip he hev)
    (fun _ _ _ _ _ _ _ _ hf ht he hev => fence_step hf ht he hev) hr ht

/-! ## Transactions of a history -/

/-- The transaction was begun in the history, and redeems its grant before the deadline. -/
structure Begun (log : Log) (p : Transaction) : Prop where
  action : ∃ e ∈ log, ∃ tx principals, e.1.action = .begin tx p.row principals
  inTime : ∃ key deadline, p.row.mode.grant = some (key, deadline) ∧ p.reservedAt < deadline

variable {p : Transaction}

theorem Begun.cons (hp : Begun log p) (e : Op × Outcome) : Begun (e :: log) p := by
  obtain ⟨e', he', ha⟩ := hp.action
  exact ⟨⟨e', .tail _ he', ha⟩, hp.inTime⟩

/-- What the answers in a history say. -/
structure AnswerInv (log : Log) (s : IssuanceStore) : Prop where
  pending : ∀ p ∈ s.receipts.pending, Begun log p
  fresh : ∀ p ∈ s.fresh, p.row.mode.grant = none
  returned : ∀ e ∈ log, ∀ input, e.2 ≠ .returned input (.ok .committed)
  endedFresh : ∀ e ∈ log, ∀ p result, e.2 = .endedFresh p result → p.row.mode.grant = none
  ended : ∀ e ∈ log, ∀ p stored result, e.2 = .ended p stored result →
    Begun log p ∧ (result = .ok .committed → stored = true)

theorem pending_step (hinv : AnswerInv log s) (he : exec h s op = (s', out))
    (hp : p ∈ s'.receipts.pending) : Begun ((op, out) :: log) p := by
  cases effect_of_exec he with
  | answered | waited | startedFresh | endedFresh | cleaned => exact (hinv.pending p hp).cons _
  | started ha hg hnow =>
    rcases List.mem_cons.mp hp with rfl | hp
    · exact ⟨⟨_, List.mem_cons_self, _, _, ha⟩, _, _, hg, hnow⟩
    · exact (hinv.pending p hp).cons _
  | ended | aborted => exact (hinv.pending p (List.mem_filter.mp hp).1).cons _

theorem fresh_step (hinv : AnswerInv log s) (he : exec h s op = (s', out)) (hp : p ∈ s'.fresh) :
    p.row.mode.grant = none := by
  cases effect_of_exec he with
  | answered | waited | started | ended | cleaned => exact hinv.fresh p hp
  | startedFresh hg =>
    rcases List.mem_cons.mp hp with rfl | hp
    · exact hg
    · exact hinv.fresh p hp
  | endedFresh | aborted => exact hinv.fresh p (List.mem_filter.mp hp).1

theorem answerInv_step (hinv : AnswerInv log s) (he : exec h s op = (s', out)) :
    AnswerInv ((op, out) :: log) s' where
  pending := fun p hp => pending_step hinv he hp
  fresh := fun p hp => fresh_step hinv he hp
  returned := by
    intro e hmem input heq
    rcases List.mem_cons.mp hmem with rfl | hmem
    · cases effect_of_exec he with
      | answered hne => exact hne (Outcome.returned.inj heq).2
      | _ => cases heq
    · exact hinv.returned e hmem input heq
  endedFresh := by
    intro e hmem p result heq
    rcases List.mem_cons.mp hmem with rfl | hmem
    · cases effect_of_exec he with
      | endedFresh hp => exact (Outcome.endedFresh.inj heq).1 ▸ hinv.fresh _ hp
      | _ => cases heq
    · exact hinv.endedFresh e hmem p result heq
  ended := by
    intro e hmem p stored result heq
    rcases List.mem_cons.mp hmem with rfl | hmem
    · cases effect_of_exec he with
      | ended hp hstored =>
        cases heq
        exact ⟨(hinv.pending _ (List.mem_of_find?_eq_some hp)).cons _, hstored⟩
      | _ => cases heq
    · obtain ⟨hb, hs⟩ := hinv.ended e hmem p stored result heq
      exact ⟨hb.cons _, hs⟩

theorem answerInv_of_run (hr : Run (exec h) IssuanceStore.empty log s) : AnswerInv log s := by
  refine Run.invariant (fun _ _ _ => trivial) ⟨?_, ?_, ?_, ?_, ?_⟩
    (fun _ _ _ _ _ _ _ hi he => answerInv_step hi he) hr trivial
  · exact fun p hp => absurd hp List.not_mem_nil
  · exact fun p hp => absurd hp List.not_mem_nil
  · simp
  · simp
  · simp

/-! ## The result -/

def committedInput (e : Op × Outcome) : Option CommitTokenIssuance :=
  match e.2 with
  | .returned input (.ok .committed) => some input
  | .ended p _ (.ok .committed) => some p.row
  | .endedFresh p (.ok .committed) => some p.row
  | _ => none

/-- The input redeems the grant with this key for this client. -/
def redeems (clientId : Uuid) (grantKey : String) (input : CommitTokenIssuance) : Bool :=
  input.clientId = clientId && input.mode.grant.map (·.1) = some grantKey

/-- The deadline that a call of the commit states for the grant. -/
def attemptedDeadline (clientId : Uuid) (grantKey : String) (e : Op × Outcome) : Option Instant :=
  match e.1.action with
  | .begin _ input _ => if redeems clientId grantKey input then input.mode.grant.map (·.2) else none
  | _ => none

variable {clientId : Uuid} {grantKey : String}

/-- Behind a redemption stands a transaction that stored its receipt and was in time. -/
theorem ended_of_committed (hinv : AnswerInv log s) {e : Op × Outcome} (he : e ∈ log)
    (hc : (committedInput e).any (redeems clientId grantKey) = true) :
    ∃ p result, e.2 = .ended p true result ∧ Begun log p ∧ redeems clientId grantKey p.row = true := by
  obtain ⟨input, hin, hred⟩ := (Option.any_eq_true _ _).mp hc
  unfold committedInput at hin
  split at hin
  · rename_i heq
    exact absurd heq (hinv.returned e he _)
  · rename_i p stored heq
    cases hin
    obtain ⟨hb, hs⟩ := hinv.ended e he p stored _ heq
    have := hs rfl
    subst this
    exact ⟨p, _, heq, hb, hred⟩
  · rename_i p heq
    cases hin
    have := hinv.endedFresh e he p _ heq
    simp [redeems, this] at hred
  · exact absurd hin (by simp)

theorem deadline_le_retainUntil (hg : input.mode.grant = some (key, deadline)) : deadline ≤ retainUntil input := by
  simp only [retainUntil, hg]
  exact le_max_right _ _

theorem fence_timed (ht : Timed log) : Fence.Timed (log.filterMap fenceEvent) := by
  refine Fence.timed_filterMap (fun _ _ h => ⟨h.1, h.2.1⟩) (fun e e' h => ?_) ht
  unfold fenceEvent at h
  split at h <;> simp_all <;> rw [← h]

/-- A grant whose deadline is the same in every attempt is redeemed at most once in a history. -/
theorem redeemed_once (hr : Run (exec h) IssuanceStore.empty log s) (ht : Timed log)
    (hfixed : ∀ e ∈ log, ∀ d ∈ attemptedDeadline clientId grantKey e, d = deadline) :
    (log.filter fun e => (committedInput e).any (redeems clientId grantKey)).length ≤ 1 := by
  -- the deadline of a redemption is the fixed one
  have hdl : ∀ log' : Log, (∀ e ∈ log', e ∈ log) → ∀ p, Begun log' p → redeems clientId grantKey p.row = true →
      p.reservedAt < deadline ∧ deadline ≤ retainUntil p.row := by
    intro log' hsub p hb hred
    obtain ⟨key, d, hg, hlt⟩ := hb.inTime
    obtain ⟨e, he, tx, principals, ha⟩ := hb.action
    have hd : d ∈ attemptedDeadline clientId grantKey e := by simp [attemptedDeadline, ha, hred, hg]
    obtain rfl := hfixed e (hsub e he) d hd
    exact ⟨hlt, deadline_le_retainUntil hg⟩
  induction hr with
  | nil => simp
  | cons hr he ih =>
    rename_i log s₁ s₂ op out
    have hlog := ih ht.1 (fun e hmem => hfixed e (.tail _ hmem))
      (fun log' hsub => hdl log' fun e hmem => .tail _ (hsub e hmem))
    rw [List.filter_cons]
    split_ifs with hnew
    · -- a second redemption would have been reserved after the deadline
      have hnone : log.filter (fun e => (committedInput e).any (redeems clientId grantKey)) = [] := by
        refine List.filter_eq_nil_iff.mpr fun e₁ hmem hold => ?_
        have hrun := Run.cons hr he
        obtain ⟨p₂, res₂, hout₂, hb₂, hred₂⟩ := ended_of_committed (answerInv_of_run hrun) (.head _) hnew
        obtain ⟨p₁, res₁, hout₁, hb₁, hred₁⟩ := ended_of_committed (answerInv_of_run hr) hmem hold
        obtain ⟨hlt, -⟩ := hdl _ (fun e h => h) p₂ hb₂ hred₂
        obtain ⟨-, hle⟩ := hdl log (fun e h => .tail _ h) p₁ hb₁ hred₁
        have hev₂ : fenceEvent (op, out) = some (⟨.settle p₂.tx, op.now⟩, .settled p₂.row p₂.reservedAt) := by
          simp only at hout₂
          simp [fenceEvent, hout₂]
        have hev₁ : fenceEvent e₁ = some (⟨.settle p₁.tx, e₁.1.now⟩, .settled p₁.row p₁.reservedAt) := by
          simp [fenceEvent, hout₁]
        have hfence := fence_run hrun ht
        have hftimed := fence_timed ht
        rw [List.filterMap_cons_some hev₂] at hfence hftimed
        have hshare : Fence.shares (receiptKeys h) p₂.row p₁.row = true := by
          simp only [redeems, Bool.and_eq_true, decide_eq_true_eq, Option.map_eq_some_iff] at hred₁ hred₂
          obtain ⟨hc₁, g₁, hg₁, hk₁⟩ := hred₁
          obtain ⟨hc₂, g₂, hg₂, hk₂⟩ := hred₂
          simp [shares_receiptKeys, sameGrant, singleUseKey, hg₁, hg₂, hk₁, hk₂, hc₁, hc₂]
        have := Fence.settled_apart [] hfence hftimed rfl (List.mem_filterMap.mpr ⟨e₁, hmem, hev₁⟩) rfl hshare
        exact absurd (hle.trans this) (not_le.mpr hlt)
      simp [hnone]
    · exact hlog

/-- A receipt leaves the store only when the deadline of its grant has passed. -/
theorem receipt_kept (hr : Run (exec h) IssuanceStore.empty log s) (ht : Timed ((op, out) :: log))
    (he : exec h s op = (s', out)) (hmem : r ∈ s.receipts.rows)
    (hg : r.mode.grant = some (key, deadline)) (hnow : op.now < deadline) :
    r ∈ s'.receipts.rows := by
  cases effect_of_exec he with
  | @ended _ stored =>
    cases stored
    · exact hmem
    · exact .tail _ hmem
  | cleaned ha hdel =>
    refine List.mem_filter.mpr ⟨hmem, ?_⟩
    by_contra hdue
    simp only [hdel, Bool.not_eq_true', Bool.not_eq_false] at hdue
    have hret := retain_of_due (fence_run hr ht.1) hmem hdue
    exact absurd ((deadline_le_retainUntil hg).trans (hret.trans (cutoff_le ht ha))) (not_le.mpr hnow)
  | _ => exact hmem

/-- **A single-use grant issues at most once, forever.** In every history under one clock, and for a
grant whose deadline is the same in every attempt, at most one commit returns `Committed`, and a
stored receipt of the grant stays until the deadline. -/
theorem single_use_issues_once {log : Log} (clientId : Uuid) (grantKey : String)
    (deadline : Instant) (hr : Run (exec h) IssuanceStore.empty log s) (ht : Timed log)
    (hfixed : ∀ e ∈ log, ∀ d ∈ attemptedDeadline clientId grantKey e, d = deadline) :
    (log.filter fun e => (committedInput e).any (redeems clientId grantKey)).length ≤ 1
    ∧ ∀ op s' out r key d, Timed ((op, out) :: log) → exec h s op = (s', out) →
        r ∈ s.receipts.rows → r.mode.grant = some (key, d) → r ∉ s'.receipts.rows → d ≤ op.now := by
  refine ⟨redeemed_once hr ht hfixed, ?_⟩
  intro op s' out r key d ht' he hmem hg hgone
  by_contra hnow
  exact hgone (receipt_kept hr ht' he hmem hg (not_le.mp hnow))

/-! ## A sample history -/

section Sample

def redemptionHashes : Hashes := ⟨fun raw => BitVec.ofNat 256 raw.length, fun _ => 1⟩

def redemptionInput (issuanceId : Uuid) (jti : String) : CommitTokenIssuance where
  authorizationId := none
  principalState := ⟨0, some 0, true⟩
  subject := "alice"
  issuanceId := issuanceId
  tenantId := 1
  clientId := 2
  userId := some 3
  mode := .authorizationCode "authorization_code:v2:k" (seconds 600) ⟨1, true, none, none, none, none⟩
  accessTokenJti := jti
  accessTokenExpiresAt := 300
  refreshToken := none
  nativeSsoSource := none

/-- Two concurrent redemptions of one code, a replay, a cleanup after the deadline, and a late
attempt. -/
def redemptionOps : List Op :=
  [⟨.begin 1 (redemptionInput 11 "a") .ok, seconds 10⟩, ⟨.begin 2 (redemptionInput 12 "b") .ok, seconds 11⟩,
   ⟨.finish 1 (.ok .inserted) (.ok ()) true, seconds 12⟩, ⟨.begin 2 (redemptionInput 12 "b") .ok, seconds 13⟩,
   ⟨.cleanup (seconds 599) [], seconds 599⟩, ⟨.begin 3 (redemptionInput 13 "c") .ok, seconds 599⟩,
   ⟨.cleanup (seconds 600) [], seconds 601⟩, ⟨.begin 4 (redemptionInput 14 "d") .ok, seconds 602⟩]

def redemptionHistory : Log × IssuanceStore := execAll (exec redemptionHashes) IssuanceStore.empty [] redemptionOps

theorem single_use_issues_once_sample :
    (redemptionHistory.1.filter fun e => (committedInput e).any (redeems 2 "authorization_code:v2:k")).length = 1
    ∧ redemptionHistory.2.receipts.rows = [] := by
  have hle := (single_use_issues_once (h := redemptionHashes) 2 "authorization_code:v2:k" (seconds 600)
    (run_execAll IssuanceStore.empty redemptionOps) (by decide) (by decide)).1
  exact ⟨le_antisymm hle (by decide), by decide⟩

end Sample

end NazoAuth.Issuance
