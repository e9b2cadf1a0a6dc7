import NazoAuth.Openid4vci.Store

/-!
# OpenID4VCI — a credential is issued at most once

Every statement of the store is described by what it does to the leases of nonces and transactions,
and by the responses and notifications that it adds (`Statement`). A transaction is the composition
of its statements, so the histories of the store are histories of leases.
-/

namespace NazoAuth.Openid4vci

open Lib

/-- What is worked on under a lease. -/
inductive Subject
  | nonce (nonceHash : String)
  | transaction (transactionHash : String)
  deriving DecidableEq

abbrev Events := List (Subject × LeaseEvent String)

/-- What is stored with a consumption. -/
inductive Artifact
  | response (r : ResponseRow)
  | notification (n : NotificationRow)

def Artifact.In (s : Store) : Artifact → Prop
  | .response r => r ∈ s.responses.rows
  | .notification n => n ∈ s.notifications.rows

def Artifact.expiresAt : Artifact → Instant
  | .response r => r.expiresAt
  | .notification n => n.expiresAt

def leased (claim : Option Claim) (consumedAt : Option Instant) : Leased String :=
  ⟨claim.map Claim.id, consumedAt.isSome⟩

def leaseOf (s : Store) : Subject → Option (Leased String)
  | .nonce h => (s.nonces.find? h).map fun r => leased r.claim r.consumedAt
  | .transaction h => (s.deferred.find? h).map fun r => leased r.claim r.consumedAt

def finished (nonceClaim : Option IssuanceClaim) : Events :=
  nonceClaim.toList.map fun c => (.nonce c.nonceHash, .finished c.claimId)

/-- What an operation does when it is applied, newest first. -/
def Op.leases : Op → Events
  | .issueNonce h _ _ => [(.nonce h, .opened)]
  | .claimNonce c _ => [(.nonce c.nonceHash, .claimed c.claimId)]
  | .releaseNonce c => [(.nonce c.nonceHash, .released c.claimId)]
  | .commitPending (.immediate _ nonceClaim) _ _ _ => finished nonceClaim
  | .commitPending (.deferred credential nonceClaim) _ _ _ =>
    finished nonceClaim ++ [(.transaction credential.transactionHash, .opened)]
  | .claimDeferred h _ id _ _ _ _ => [(.transaction h, .claimed id)]
  | .releaseDeferred h _ id => [(.transaction h, .released id)]
  | .finalizeDeferred h _ id _ _ _ _ => [(.transaction h, .finished id)]
  | .cleanup _ _ => []

def Op.artifacts : Op → List Artifact
  | .commitPending (.immediate handle _) response _ _ => [.notification handle, .response response]
  | .commitPending (.deferred _ _) response _ _ => [.response response]
  | .finalizeDeferred _ _ _ handle response _ _ => [.notification handle, .response response]
  | _ => []

def eventsOf (subject : Subject) (events : Events) : List (LeaseEvent String) :=
  events.filterMap fun e => if e.1 = subject then some e.2 else none

/-- The history of a nonce or a transaction, newest first. -/
def history (subject : Subject) (log : Log) : List (LeaseEvent String) :=
  log.flatMap fun e => if e.2 = .applied then eventsOf subject e.1.leases else []

/-! ## Statements -/

structure Statement (s s' : Store) (events : Events) (artifacts : List Artifact) : Prop where
  leases : ∀ subject, LeaseSteps (leaseOf s subject) (eventsOf subject events) (leaseOf s' subject)
  adds : ∀ a : Artifact, a.In s' ↔ a ∈ artifacts ∨ a.In s

section Statements

variable {s s' s'' : Store} {events events' : Events} {artifacts artifacts' : List Artifact}
  {subject : Subject} {e : LeaseEvent String} {hash id : String} {log : List (LeaseEvent String)}
  {claim : Option Claim} {consumedAt : Option Instant}

theorem Statement.comp (h : Statement s s' events artifacts) (h' : Statement s' s'' events' artifacts') :
    Statement s s'' (events' ++ events) (artifacts' ++ artifacts) := by
  constructor
  · intro subject
    rw [eventsOf, List.filterMap_append]
    exact (h.leases subject).append (h'.leases subject)
  · intro a
    rw [h'.adds, h.adds, List.mem_append, or_assoc]

/-- A statement on one row under a lease. -/
theorem statement_of_lease (hresponses : s'.responses = s.responses)
    (hnotifications : s'.notifications = s.notifications)
    (hother : ∀ other ≠ subject, leaseOf s' other = leaseOf s other)
    (hstep : LeaseStep (leaseOf s subject) e (leaseOf s' subject)) :
    Statement s s' [(subject, e)] [] := by
  constructor
  · intro other
    by_cases h : other = subject
    · subst h
      simpa [eventsOf, LeaseSteps] using hstep
    · simpa [eventsOf, LeaseSteps, Ne.symm h] using hother other h
  · intro a
    cases a <;> simp [Artifact.In, hresponses, hnotifications]

theorem statement_of_artifact {a : Artifact} (hnonces : s'.nonces = s.nonces)
    (hdeferred : s'.deferred = s.deferred) (hadds : ∀ b : Artifact, b.In s' ↔ b = a ∨ b.In s) :
    Statement s s' [] [a] := by
  constructor
  · intro other
    show leaseOf s' other = leaseOf s other
    cases other <;> simp [leaseOf, hnonces, hdeferred]
  · simpa using hadds

theorem statement_nonce {p : NonceRow → Bool} {f : NonceRow → NonceRow} {hf : ∀ r, (f r).nonceHash = r.nonceHash}
    (h : (s.nonces.updateOne hash p f hf).map (fun t => { s with nonces := t }) = some s')
    (hstep : ∀ r, p r = true → LeaseStep (some (leased r.claim r.consumedAt)) e
    (some (leased (f r).claim (f r).consumedAt))) : Statement s s' [(.nonce hash, e)] [] := by
  obtain ⟨t, ht, rfl⟩ := Option.map_eq_some_iff.mp h
  obtain ⟨r, hr, hp, hfind⟩ := Table.updateOne_eq_some ht
  refine statement_of_lease rfl rfl (fun other hne => ?_) ?_
  · cases other with
    | nonce => simp only [leaseOf, hfind, if_neg fun heq => hne (congrArg _ heq)]
    | transaction => rfl
  · simp only [leaseOf, hfind, hr]
    exact hstep r hp

theorem statement_deferred {p : DeferredRow → Bool} {f : DeferredRow → DeferredRow}
    {hf : ∀ r, (f r).transactionHash = r.transactionHash}
    (h : (s.deferred.updateOne hash p f hf).map (fun t => { s with deferred := t }) = some s')
    (hstep : ∀ r, p r = true → LeaseStep (some (leased r.claim r.consumedAt)) e
    (some (leased (f r).claim (f r).consumedAt))) : Statement s s' [(.transaction hash, e)] [] := by
  obtain ⟨t, ht, rfl⟩ := Option.map_eq_some_iff.mp h
  obtain ⟨r, hr, hp, hfind⟩ := Table.updateOne_eq_some ht
  refine statement_of_lease rfl rfl (fun other hne => ?_) ?_
  · cases other with
    | nonce => rfl
    | transaction => simp only [leaseOf, hfind, if_neg fun heq => hne (congrArg _ heq)]
  · simp only [leaseOf, hfind, hr]
    exact hstep r hp

theorem leased_unfinished (hnone : consumedAt.isNone = true) :
    leased claim consumedAt = ⟨claim.map Claim.id, false⟩ := by
  rw [Option.isNone_iff_eq_none.mp hnone]
  rfl

theorem leased_held (hheld : heldBy claim id = true) (hnone : consumedAt.isNone = true) :
    leased claim consumedAt = ⟨some id, false⟩ := by
  obtain ⟨c, rfl, hc⟩ := (Option.any_eq_true _ _).mp hheld
  rw [leased_unfinished hnone, Option.map_some, of_decide_eq_true hc]

variable {c : IssuanceClaim} {now : Instant} {tokenId : Uuid}

theorem nonceIssue_statement {expiresAt : Instant} (h : s.nonceIssue hash expiresAt now = some s') :
    Statement s s' [(.nonce hash, .opened)] [] := by
  obtain ⟨t, ht, rfl⟩ := Option.map_eq_some_iff.mp h
  refine statement_of_lease rfl rfl (fun other hne => ?_) ?_
  · cases other with
    | nonce => simp only [leaseOf, Table.find?_of_insert? ht, if_neg fun heq => hne (congrArg _ heq)]
    | transaction => rfl
  · simp only [leaseOf, Table.find?_of_insert? ht, Table.find?_none_of_insert? ht]
    exact .opened

theorem insertDeferred_statement {credential : DeferredCredential} (h : s.insertDeferred credential = some s') :
    Statement s s' [(.transaction credential.transactionHash, .opened)] [] := by
  obtain ⟨t, ht, rfl⟩ := Option.map_eq_some_iff.mp h
  refine statement_of_lease rfl rfl (fun other hne => ?_) ?_
  · cases other with
    | nonce => rfl
    | transaction => simp only [leaseOf, Table.find?_of_insert? ht, if_neg fun heq => hne (congrArg _ heq)]
  · simp only [leaseOf, Table.find?_of_insert? ht, Table.find?_none_of_insert? ht]
    exact .opened

theorem nonceClaim_statement (h : s.nonceClaim c now = some s') :
    Statement s s' [(.nonce c.nonceHash, .claimed c.claimId)] [] := by
  refine statement_nonce h fun r hp => ?_
  simp only [Bool.and_eq_true] at hp
  rw [leased_unfinished hp.1.1, leased_unfinished hp.1.1]
  exact .claimed _ c.claimId

theorem nonceRelease_statement (h : s.nonceRelease c = some s') :
    Statement s s' [(.nonce c.nonceHash, .released c.claimId)] [] := by
  refine statement_nonce h fun r hp => ?_
  simp only [Bool.and_eq_true] at hp
  rw [leased_held hp.1 hp.2, leased_unfinished hp.2]
  exact .released _

theorem consumeNonce_statement (h : s.consumeNonce c now = some s') :
    Statement s s' [(.nonce c.nonceHash, .finished c.claimId)] [] := by
  refine statement_nonce h fun r hp => ?_
  simp only [Bool.and_eq_true] at hp
  rw [leased_held hp.1.1 hp.1.2]
  exact .finished _

theorem acceptDeferred_statement {currentExpiresAt acceptedAt : Instant}
    (h : s.acceptDeferred hash tokenId id currentExpiresAt acceptedAt = some s') :
    Statement s s' [(.transaction hash, .claimed id)] [] := by
  refine statement_deferred h fun r hp => ?_
  simp only [Bool.and_eq_true] at hp
  rw [leased_unfinished hp.1.1.1.1, leased_unfinished hp.1.1.1.1]
  exact .claimed _ id

theorem deferredRelease_statement (h : s.deferredRelease hash tokenId id = some s') :
    Statement s s' [(.transaction hash, .released id)] [] := by
  refine statement_deferred h fun r hp => ?_
  simp only [Store.DeferredRow.owned, Bool.and_eq_true] at hp
  rw [leased_held hp.1.2 hp.2, leased_unfinished hp.2]
  exact .released _

theorem consumeDeferred_statement (h : s.consumeDeferred hash tokenId id now = some s') :
    Statement s s' [(.transaction hash, .finished id)] [] := by
  refine statement_deferred h fun r hp => ?_
  simp only [Store.DeferredRow.owned, Bool.and_eq_true] at hp
  rw [leased_held hp.1.1.2 hp.1.2]
  exact .finished _

theorem insertIssuanceResponse_statement {r : ResponseRow}
    (h : s.insertIssuanceResponse r = some s') : Statement s s' [] [.response r] := by
  unfold Store.insertIssuanceResponse at h
  split_ifs at h
  obtain ⟨t, ht, rfl⟩ := Option.map_eq_some_iff.mp h
  refine statement_of_artifact rfl rfl fun b => ?_
  cases b <;> simp [Artifact.In, Table.mem_of_insert? ht]

theorem insertNotification_statement {n : NotificationRow} (h : s.insertNotification n = some s') :
    Statement s s' [] [.notification n] := by
  obtain ⟨t, ht, rfl⟩ := Option.map_eq_some_iff.mp h
  refine statement_of_artifact rfl rfl fun b => ?_
  cases b <;> simp [Artifact.In, Table.mem_of_insert? ht]

theorem finalizeNonce_statement {nonceClaim : Option IssuanceClaim}
    (h : s.finalizeNonce nonceClaim now = some s') : Statement s s' (finished nonceClaim) [] := by
  cases nonceClaim with
  | some => exact consumeNonce_statement h
  | none =>
    cases h
    exact ⟨fun _ => rfl, fun a => by simp⟩

end Statements

/-! ## Transactions -/

section Transactions

variable {s s' : Store} {op : Op} {out : Outcome} {log : Log}

theorem orInvalid_eq_ok {α : Type} {x : Option α} {a : α} (h : orInvalid x = .ok a) : x = some a := by
  cases x with
  | none => cases h
  | some => rw [Except.ok.inj h]

theorem commitPending_statement {commit : IssuanceCommit} {response : ResponseRow} {now : Instant}
    (through : Bool) (h : s.commitPending commit response now = some s') :
    Statement s s' (Op.commitPending commit response now through).leases
    (Op.commitPending commit response now through).artifacts := by
  cases commit with
  | immediate =>
    obtain ⟨s₁, h₁, h⟩ := Option.bind_eq_some_iff.mp h
    obtain ⟨s₂, h₂, h₃⟩ := Option.bind_eq_some_iff.mp h
    have hinserts := (insertIssuanceResponse_statement h₁).comp (insertNotification_statement h₂)
    simpa [Op.leases, Op.artifacts] using hinserts.comp (finalizeNonce_statement h₃)
  | deferred =>
    obtain ⟨s₁, h₁, h⟩ := Option.bind_eq_some_iff.mp h
    obtain ⟨s₂, h₂, h₃⟩ := Option.bind_eq_some_iff.mp h
    have hinserts := (insertDeferred_statement h₁).comp (insertIssuanceResponse_statement h₂)
    simpa [Op.leases, Op.artifacts] using hinserts.comp (finalizeNonce_statement h₃)

theorem claimDeferred_statement {hash id : String} {tokenId : Uuid}
    {authority : DeferredRow → Instant → Bool} {currentExpiresAt ownerNow acceptedAt : Instant}
    (h : s.deferredClaimReady hash tokenId id authority currentExpiresAt ownerNow acceptedAt = .ok s') :
    Statement s s' [(.transaction hash, .claimed id)] [] := by
  unfold Store.deferredClaimReady at h
  split at h
  · cases h
  split_ifs at h
  split at h
  · cases h
  · exact acceptDeferred_statement (orInvalid_eq_ok h)

def Op.isCleanup : Op → Bool
  | .cleanup _ _ => true
  | _ => false

theorem statement_of_apply (h : s.apply op = .ok s') (hop : op.isCleanup = false) :
    Statement s s' op.leases op.artifacts := by
  cases op with
  | issueNonce => exact nonceIssue_statement (orInvalid_eq_ok h)
  | claimNonce => exact nonceClaim_statement (orInvalid_eq_ok h)
  | releaseNonce => exact nonceRelease_statement (orInvalid_eq_ok h)
  | commitPending commit response now through =>
    simp only [Store.apply] at h
    split_ifs at h
    exact commitPending_statement through (orInvalid_eq_ok h)
  | claimDeferred => exact claimDeferred_statement h
  | releaseDeferred => exact deferredRelease_statement (orInvalid_eq_ok h)
  | finalizeDeferred =>
    simp only [Store.apply] at h
    split_ifs at h
    obtain ⟨s₁, h₁, h⟩ := Option.bind_eq_some_iff.mp (orInvalid_eq_ok h)
    obtain ⟨s₂, h₂, h₃⟩ := Option.bind_eq_some_iff.mp h
    exact ((insertIssuanceResponse_statement h₁).comp (insertNotification_statement h₂)).comp
      (consumeDeferred_statement h₃)
  | cleanup => cases hop

/-- A cleanup loses rows, of the stored ones those that have expired. -/
theorem cleanup_leaseOf (now : Instant) (chosen : Sweep) (subject : Subject) :
    leaseOf (s.credentialCleanup now chosen) subject = leaseOf s subject
      ∨ leaseOf (s.credentialCleanup now chosen) subject = none := by
  cases subject with
  | nonce h =>
    simp only [leaseOf, Store.credentialCleanup, Table.find?_delete]
    cases s.nonces.find? h with
    | none => exact .inl rfl
    | some r => by_cases hp : (decide (r.expiresAt ≤ now) && chosen.nonces r) = true <;> simp [Option.filter, hp]
  | transaction h =>
    simp only [leaseOf, Store.credentialCleanup, Table.find?_delete]
    cases s.deferred.find? h with
    | none => exact .inl rfl
    | some r => by_cases hp : (decide (r.expiresAt ≤ now) && chosen.deferred r) = true <;> simp [Option.filter, hp]

theorem cleanup_in (now : Instant) (chosen : Sweep) {a : Artifact} :
    (a.In (s.credentialCleanup now chosen) → a.In s)
      ∧ (a.In s → a.In (s.credentialCleanup now chosen) ∨ a.expiresAt ≤ now) := by
  cases a with
  | response r =>
    simp only [Artifact.In, Store.credentialCleanup, Table.mem_delete]
    refine ⟨fun h => h.1, fun h => ?_⟩
    by_cases hexpired : r.expiresAt ≤ now
    · exact .inr hexpired
    · exact .inl ⟨h, by simp [hexpired]⟩
  | notification n =>
    simp only [Artifact.In, Store.credentialCleanup, Table.mem_delete]
    refine ⟨fun h => h.1, fun h => ?_⟩
    by_cases hexpired : n.expiresAt ≤ now
    · exact .inr hexpired
    · exact .inl ⟨h, by simp [hexpired]⟩

theorem exec_cases (h : exec s op = (s', out)) : (out = .applied ∧ s.apply op = .ok s')
      ∨ (out ≠ .applied ∧ s' = s) := by
  unfold exec at h
  split at h
  · rename_i s₁ hs
    cases h
    exact .inl ⟨rfl, hs⟩
  · cases h
    exact .inr ⟨nofun, rfl⟩

/-! ## Runs -/

/-- **The history of a nonce or a transaction is one of a lease.** -/
theorem lease_of_run (hrun : Run exec Store.empty log s) (subject : Subject) :
    LeaseRun (history subject log) (leaseOf s subject) := by
  induction hrun with
  | nil => cases subject <;> exact .nil
  | cons hrun he ih =>
    rename_i op out
    rw [history, List.flatMap_cons]
    rcases exec_cases he with ⟨rfl, happly⟩ | ⟨hout, rfl⟩
    · cases hop : op.isCleanup with
      | false => exact ih.steps ((statement_of_apply happly hop).leases subject)
      | true =>
        cases op <;> cases hop
        cases happly
        rcases cleanup_leaseOf _ _ subject with hsame | hlost
        · rw [hsame]
          exact ih
        · rw [hlost]
          exact ih.lost
    · rw [if_neg hout]
      exact ih

/-- Stored responses and notifications were committed, and stay until they expire. -/
theorem artifacts_of_run (hrun : Run exec Store.empty log s) (a : Artifact) :
    (a.In s → ∃ op, (op, .applied) ∈ log ∧ a ∈ op.artifacts)
    ∧ ∀ newer op older, log = newer ++ (op, .applied) :: older → a ∈ op.artifacts →
      a.In s ∨ ∃ now chosen, (.cleanup now chosen, .applied) ∈ newer ∧ a.expiresAt ≤ now := by
  induction hrun with
  | nil =>
    constructor
    · intro h
      cases a <;> cases h
    · intro newer _ _ hlog
      cases newer <;> cases hlog
  | cons hrun he ih =>
    rename_i before after op out
    have hstep : (a.In after → a.In before ∨ out = .applied ∧ a ∈ op.artifacts)
        ∧ (out = .applied → a ∈ op.artifacts → a.In after)
        ∧ (a.In before → a.In after ∨ ∃ now chosen, (op, out) = (.cleanup now chosen, .applied)
          ∧ a.expiresAt ≤ now) := by
      rcases exec_cases he with ⟨rfl, happly⟩ | ⟨hout, rfl⟩
      · cases hop : op.isCleanup with
        | false =>
          have hadds := (statement_of_apply happly hop).adds a
          exact ⟨fun h => (hadds.mp h).elim (fun hnew => .inr ⟨rfl, hnew⟩) .inl,
            fun _ hnew => hadds.mpr (.inl hnew), fun h => .inl (hadds.mpr (.inr h))⟩
        | true =>
          cases op <;> cases hop
          rename_i now chosen
          cases happly
          exact ⟨fun h => .inl ((cleanup_in now chosen).1 h), nofun,
            fun h => ((cleanup_in now chosen).2 h).imp_right fun hexpired => ⟨now, chosen, rfl, hexpired⟩⟩
      · exact ⟨.inl, fun h => absurd h hout, .inl⟩
    refine ⟨fun h => ?_, fun newer op' older hlog hop' => ?_⟩
    · rcases hstep.1 h with hbefore | ⟨rfl, hnew⟩
      · obtain ⟨op', hmem, hop'⟩ := ih.1 hbefore
        exact ⟨op', .tail _ hmem, hop'⟩
      · exact ⟨op, .head _, hnew⟩
    · cases newer with
      | nil =>
        obtain ⟨heq, -⟩ := List.cons.inj hlog
        cases heq
        exact .inl (hstep.2.1 rfl hop')
      | cons e newer =>
        cases hlog
        rcases ih.2 newer op' older rfl hop' with hbefore | ⟨now, chosen, hmem, hexpired⟩
        · rcases hstep.2.2 hbefore with hafter | ⟨now, chosen, heq, hexpired⟩
          · exact .inl hafter
          · exact .inr ⟨now, chosen, heq ▸ .head _, hexpired⟩
        · exact .inr ⟨now, chosen, .tail _ hmem, hexpired⟩

end Transactions

/-- Credential issuance, over a history of the store. -/
structure IssuedOnce (log : Log) (s : Store) : Prop where
  /-- A nonce or a transaction is consumed at most once for each time that it was stored. -/
  once : ∀ subject, (history subject log).countP LeaseEvent.isFinished
    ≤ (history subject log).countP LeaseEvent.isOpened
  /-- Whose lease was taken over neither finalises nor releases it, unless it claims it again. -/
  fenced : ∀ subject newer older id id', history subject log = newer ++ .claimed id' :: older →
    id' ≠ id → .claimed id ∉ newer → .finished id ∉ newer ∧ .released id ∉ newer
  /-- The next transaction changes nothing, or it consumes what it finalises and stores its response and
  notification. -/
  atomic : ∀ op s' out, exec s op = (s', out) → (out ≠ .applied → s' = s)
    ∧ (out = .applied → (∀ subject id, eventsOf subject op.leases = [.finished id] →
      leaseOf s subject = some ⟨some id, false⟩ ∧ leaseOf s' subject = some ⟨none, true⟩)
        ∧ ∀ a ∈ op.artifacts, a.In s')
  /-- What is stored was committed. -/
  stored : ∀ a : Artifact, a.In s → ∃ op, (op, .applied) ∈ log ∧ a ∈ op.artifacts
  /-- What was committed is stored, until it has expired. -/
  kept : ∀ a newer op older, log = newer ++ (op, .applied) :: older → a ∈ op.artifacts →
    a.In s ∨ ∃ now chosen, (.cleanup now chosen, .applied) ∈ newer ∧ a.expiresAt ≤ now

/-- **A credential is issued at most once.** -/
theorem issued_once {log : Log} {s : Store} (hrun : Run exec Store.empty log s) : IssuedOnce log s where
  once subject := (lease_of_run hrun subject).finished_le_opened
  fenced subject newer older id id' hlog hne hnew := by
    obtain ⟨-, hreleased, hfinished⟩ := LeaseRun.fenced (hlog ▸ lease_of_run hrun subject) hne hnew
    exact ⟨hfinished, hreleased⟩
  atomic op s' out he := by
    rcases exec_cases he with ⟨rfl, happly⟩ | ⟨hout, rfl⟩
    · refine ⟨fun h => absurd rfl h, fun _ => ?_⟩
      cases hop : op.isCleanup with
      | false =>
        have hstatement := statement_of_apply happly hop
        refine ⟨fun subject id hevents => ?_, fun a ha => (hstatement.adds a).mpr (.inl ha)⟩
        obtain ⟨between, hbetween, hstep⟩ := hevents ▸ hstatement.leases subject
        obtain rfl : between = leaseOf s subject := hbetween
        generalize leaseOf s subject = before at hstep
        generalize leaseOf s' subject = after at hstep
        cases hstep
        exact ⟨rfl, rfl⟩
      | true =>
        cases op <;> cases hop
        exact ⟨nofun, nofun⟩
    · exact ⟨fun _ => rfl, fun h => absurd h hout⟩
  stored a := (artifacts_of_run hrun a).1
  kept a := (artifacts_of_run hrun a).2

/-- The lease of the first worker expires, and the second one takes it over; then the first one
wakes up. -/
def takenOverOps : List Op :=
  [.issueNonce "nonce" (seconds 600) 0,
   .claimNonce ⟨"nonce", "first"⟩ (seconds 1),
   .claimNonce ⟨"nonce", "second"⟩ (seconds 400),
   .commitPending (.immediate ⟨"lost", 7, seconds 900⟩ (some ⟨"nonce", "first"⟩)) ⟨1, 7, "digest", seconds 900⟩
   (seconds 401) true, .releaseNonce ⟨"nonce", "first"⟩,
   .commitPending (.immediate ⟨"issued", 7, seconds 900⟩ (some ⟨"nonce", "second"⟩)) ⟨2, 7, "digest", seconds 900⟩
   (seconds 402) true]

def takenOverRun : Log × Store := execAll exec Store.empty [] takenOverOps

theorem issued_once_takenOver : IssuedOnce takenOverRun.1 takenOverRun.2
    ∧ history (.nonce "nonce") takenOverRun.1 = [.finished "second", .claimed "second", .claimed "first", .opened]
    ∧ takenOverRun.2.notifications.rows = [⟨"issued", 7, seconds 900⟩] :=
  ⟨issued_once (run_execAll Store.empty takenOverOps), by decide +kernel, by decide +kernel⟩

end NazoAuth.Openid4vci
