import NazoAuth.Device.Steps

/-!
# Device authorization — one sound decision

For one device code, over every history of pollers, approvers, deniers, crashes, reclaims and
expiry.
-/

namespace NazoAuth.Device

open Lib

/-! ## The inversion of an operation -/

/-- What a committed approval did to the database. -/
structure Upserted (w w' : World) (write : DeviceGrantWrite) (written : Bool) : Prop where
  keys : w'.keys = w.keys
  wrote : written = true →
    w'.receipts = (write.tenantId, write.expiresAt) :: w.receipts ∧ w'.grants = write :: w.grants
  known : written = false →
    w'.receipts = w.receipts ∧ w'.grants = w.grants ∧ ∃ receipt ∈ w.receipts, receipt.1 = write.tenantId

variable {w : World} {env : Env} {w' : World}

theorem upserted_of_commit {write : DeviceGrantWrite} {written : Bool}
    (h : commitDeviceApproval w write env = .ok (w', written)) : w'.workers = w.workers
      ∧ Upserted w w' write written := by
  unfold commitDeviceApproval at h
  cases hdb : env.databaseError with
  | some => simp [hdb] at h
  | none =>
    simp only [hdb] at h
    split_ifs at h with h1 h2
    · cases h
      obtain ⟨receipt, hmem, heq⟩ := List.any_eq_true.mp h2
      exact ⟨rfl, rfl, (fun h => nomatch h), fun _ => ⟨rfl, rfl, receipt, hmem, of_decide_eq_true heq⟩⟩
    · cases h
      exact ⟨rfl, rfl, fun _ => ⟨rfl, rfl⟩, fun h => nomatch h⟩

/-- Nothing is stored or granted; keys and receipts may go. -/
structure Quieted (w w' : World) : Prop where
  device : w'.keys.device = w.keys.device ∨ w'.keys.device = none
  receipts : w'.receipts ⊆ w.receipts
  grants : w'.grants = w.grants
  workers : ∀ i p', w'.workers i = some p' → w.workers i = some p' ∨ Fresh w p'

structure Stored (w w' : World) (worker : Uuid) (p : Process)
    (before after : DeviceAuthorizationState) : Prop where
  running : w.workers worker = some p
  device : ∃ deadline, w.keys.device = some ⟨before, deadline⟩ ∧ w'.keys.device = some ⟨after, luaDouble deadline⟩
  receipts : w'.receipts = w.receipts
  grants : w'.grants = w.grants
  writes : Writes worker p before after
  workers : ∀ i p', w'.workers i = some p' → w.workers i = some p' ∨ Fresh w' p'

/-- An approval is committed, and its worker goes on to record it. -/
structure Committed (w w' : World) (worker : Uuid) (claim : DeviceAuthorizationState)
    (write : DeviceGrantWrite) (written : Bool) : Prop where
  upserted : Upserted w w' write written
  claimed : ∃ p attempt, w.workers worker = some p ∧ p.phase = .ready attempt claim
  workers : ∀ i p', w'.workers i = some p' → w.workers i = some p' ∨ p'.phase.stored = none ∨
    i = worker ∧ ∃ attempt, p'.phase = .record attempt claim

inductive Effect (deviceHash : String) (w w' : World) : Outcome → Prop
  | quiet : Quieted w w' → Effect deviceHash w w' .quiet
  | stored {worker p before after} : Stored w w' worker p before after →
      Effect deviceHash w w' (.stored worker before after)
  | upserted {worker payload approval startedAt client written} :
      Committed w w' worker (.approving payload approval worker false startedAt)
      (grantWrite deviceHash payload approval client) written →
      Effect deviceHash w w' (.upserted worker (grantWrite deviceHash payload approval client) written)

theorem Quieted.refl (w : World) : Quieted w w := ⟨.inl rfl, List.Subset.refl _, rfl, fun _ _ hi => .inl hi⟩

variable {p p' : Process} {deviceHash : String}

theorem setWorker_cases {worker i : Uuid} (h : (w.setWorker worker p).workers i = some p') :
    w.workers i = some p' ∨ i = worker ∧ p' = p := by
  simp only [World.setWorker] at h
  split_ifs at h with hi
  · exact .inr ⟨hi, (Option.some.inj h).symm⟩
  · exact .inl h

theorem lost_cases {q : Process} (h : q = if env.replyLost then p'.goto (.finished p.task.unavailable) else p') :
    q = p' ∨ q.phase.stored = none := by
  subst h
  split_ifs
  · exact .inr rfl
  · exact .inl rfl

/-- **The inversion of an operation.** -/
theorem effect_of_exec {op : Op} {outcome : Outcome} (h : exec deviceHash w op = (w', outcome)) :
    Effect deviceHash w w' outcome := by
  cases op with
  | start worker task =>
    simp only [exec] at h
    cases hw : w.workers worker with
    | some =>
      rw [hw] at h
      cases h
      exact .quiet (.refl _)
    | none =>
      rw [hw] at h
      cases h
      refine .quiet ⟨.inl rfl, List.Subset.refl _, rfl, fun i p' hi => ?_⟩
      rcases setWorker_cases hi with hi | ⟨-, rfl⟩
      · exact .inl hi
      · refine .inr (Fresh.of_none ?_)
        cases task <;> rfl
  | step worker env =>
    simp only [exec] at h
    cases hw : w.workers worker with
    | none =>
      rw [hw] at h
      cases h
      exact .quiet (.refl _)
    | some p =>
      simp only [hw] at h
      cases hs : workerStep deviceHash w worker p env with
      | mk w₁ rest =>
        obtain ⟨p₁, r⟩ := rest
        rw [hs] at h
        cases h
        generalize hq : (if env.replyLost then p₁.goto (.finished p.task.unavailable) else p₁) = q
        have hlost := lost_cases hq.symm
        cases workerEffect_of_step hs with
        | quiet hdev hframe hp =>
          refine .quiet ⟨hdev,
            by rw [World.setWorker, hframe.receipts]; exact List.Subset.refl _, hframe.grants, fun i p' hi => ?_⟩
          rcases setWorker_cases hi with hi | ⟨rfl, rfl⟩
          · exact .inl (by rw [← hframe.workers]; exact hi)
          rcases hlost with rfl | hlost
          · rcases hp with rfl | hp
            · exact .inl hw
            · exact .inr hp
          · exact .inr (Fresh.of_none hlost)
        | stored hb ha hframe hwrites hp =>
          refine .stored ⟨hw, ⟨_, hb, ha⟩, hframe.receipts, hframe.grants, hwrites, fun i p' hi => ?_⟩
          rcases setWorker_cases hi with hi | ⟨rfl, rfl⟩
          · exact .inl (by rw [← hframe.workers]; exact hi)
          · rcases hlost with rfl | hlost
            · exact .inr ⟨hp.stored, hp.record⟩
            · exact .inr (Fresh.of_none hlost)
        | upserted hphase hphase' hcommit =>
          obtain ⟨hworkers, hup⟩ := upserted_of_commit hcommit
          refine .upserted ⟨⟨hup.keys, hup.wrote, hup.known⟩, ⟨p, _, hw, hphase⟩, fun i p' hi => ?_⟩
          rcases setWorker_cases hi with hi | ⟨rfl, rfl⟩
          · exact .inl (by rw [← hworkers]; exact hi)
          · rcases hlost with rfl | hlost
            · exact .inr (.inr ⟨rfl, _, hphase'⟩)
            · exact .inr (.inl hlost)
  | expire now =>
    cases h
    refine .quiet { Quieted.refl w with device := ?_ }
    cases hv : visible now w.keys.device with
    | none => exact .inr rfl
    | some => exact .inl (eq_some_of_visible hv).symm
  | otherRequest =>
    cases h
    refine .quiet { Quieted.refl w with device := .inl ?_ }
    simp only [otherRequest]
    split_ifs <;> rfl
  | cleanup =>
    cases h
    exact .quiet { Quieted.refl w with receipts := List.filter_subset_self _ }

/-! ## The invariant -/

def written (e : Op × Outcome) : Option DeviceAuthorizationState :=
  match e.2 with
  | .stored _ _ after => some after
  | _ => none

/-- The state that a history leaves: the last one stored, at first the pending request. -/
def stateAfter (payload : DeviceAuthorizationPayload) (log : Log) : DeviceAuthorizationState :=
  latest written (.pending payload none 0) log

def grantWritten (e : Op × Outcome) : Option DeviceGrantWrite :=
  match e.2 with
  | .upserted _ write true => some write
  | _ => none

/-- The history has written the grant of this approval, with the user of the approval and the
scopes, resources and authorization details of the payload. -/
def GrantWrittenFor (deviceHash : String) (payload : DeviceAuthorizationPayload)
    (approval : DeviceAuthorizationApproval) (log : Log) : Prop :=
  ∃ op worker client, (op, Outcome.upserted worker (grantWrite deviceHash payload approval client) true) ∈ log

theorem GrantWrittenFor.cons {payload : DeviceAuthorizationPayload}
    {approval : DeviceAuthorizationApproval} {log : Log} (h : GrantWrittenFor deviceHash payload approval log)
    (e : Op × Outcome) : GrantWrittenFor deviceHash payload approval (e :: log) := by
  obtain ⟨op, worker, client, hmem⟩ := h
  exact ⟨op, worker, client, .tail e hmem⟩

/-- Every store of a history moves from the state left by the older events. -/
def Moves (payload : DeviceAuthorizationPayload) (log : Log) : Prop :=
  ∀ newer op worker before after older, log = newer ++ (op, Outcome.stored worker before after) :: older →
    before = stateAfter payload older ∧ Move worker before after

section Invariant

variable (deviceHash : String) (payload : DeviceAuthorizationPayload) (deadline : Int)

structure ProtocolInv (log : Log) (w : World) : Prop where
  store : ∀ e, w.keys.device = some e →
    e.value = stateAfter payload log ∧ (deadline.natAbs < 2 ^ 53 → e.deadline = deadline)
  moves : Moves payload log
  held : ∀ i p state, w.workers i = some p → p.phase.stored = some state → Precedes state (stateAfter payload log)
  recording : ∀ i p attempt state, w.workers i = some p → p.phase = .record attempt state →
    ∃ payload' approval startedAt, state = .approving payload' approval i false startedAt ∧
      GrantWrittenFor deviceHash payload' approval log
  receipts : ∀ receipt ∈ w.receipts, ∃ op worker write, (op, Outcome.upserted worker write true) ∈ log ∧
    write.tenantId = receipt.1
  writes : ∀ op worker write made, (op, Outcome.upserted worker write made) ∈ log →
    ∃ payload' approval client, approvalOf (stateAfter payload log) = some (payload', approval) ∧
      write = grantWrite deviceHash payload' approval client
  recorded : ∀ payload' approval, recordedOf (stateAfter payload log) = some (payload', approval) →
    GrantWrittenFor deviceHash payload' approval log
  grants : w.grants = log.filterMap grantWritten

variable {deviceHash payload deadline}

variable {log older base : Log} {after before : DeviceAuthorizationState} {op : Op}
  {worker owner : Uuid} {p : Process} {w w' : World} {approval : DeviceAuthorizationApproval}
  {payload' : DeviceAuthorizationPayload} {startedAt : Instant}

theorem moves_cons_of_not_stored {e : Op × Outcome} (h : Moves payload log)
    (he : written e = none) : Moves payload (e :: log) := by
  intro newer op worker before after older hsplit
  cases newer with
  | nil =>
    cases hsplit
    simp [written] at he
  | cons e' newer => exact h newer op worker before after older (List.cons.inj hsplit).2

theorem moves_cons (h : Moves payload log) (hb : before = stateAfter payload log)
    (hm : Move worker before after) : Moves payload ((op, .stored worker before after) :: log) := by
  intro newer op' worker' before' after' older hsplit
  cases newer with
  | nil =>
    obtain ⟨heq, rfl⟩ := List.cons.inj hsplit
    cases heq
    exact ⟨hb, hm⟩
  | cons e' newer => exact h newer op' worker' before' after' older (List.cons.inj hsplit).2

theorem Moves.of_append (newer : Log) (h : Moves payload (newer ++ older)) : Moves payload older :=
  fun newer' op worker before after older' hsplit =>
    h (newer ++ newer') op worker before after older' (by rw [hsplit, List.append_assoc])

theorem Moves.orderly (h : Moves payload log) : Orderly written (.pending payload none 0) Precedes log := by
  induction log with
  | nil => trivial
  | cons e log ih =>
    refine ⟨ih (Moves.of_append [e] h), fun v hv => ?_⟩
    obtain ⟨op, outcome⟩ := e
    cases outcome with
    | quiet | upserted => simp [written] at hv
    | stored worker before after =>
      obtain rfl := Option.some.inj hv
      obtain ⟨hb, hm⟩ := h [] op worker before after log rfl
      subst hb
      exact hm.precedes

theorem Moves.precedes (h : Moves payload log) {newer : Log} (hsplit : log = newer ++ older) :
    Precedes (stateAfter payload older) (stateAfter payload log) := by
  subst hsplit
  exact latest_le (R := Precedes) .refl (fun _ _ _ => Precedes.trans) newer h.orderly

section Steps

variable (hinv : ProtocolInv deviceHash payload deadline log w)

include hinv

theorem ProtocolInv.fresh {state : DeviceAuthorizationState} (hf : Fresh w p)
    (hs : p.phase.stored = some state) : state = stateAfter payload log := by
  obtain ⟨e, he, rfl⟩ := hf.stored state hs
  exact (hinv.store e he).1

theorem ProtocolInv.recording_cons (e : Op × Outcome) {i : Uuid} {attempt : Nat}
    {state : DeviceAuthorizationState} (hi : w.workers i = some p)
    (hp : p.phase = .record attempt state) :
    ∃ payload' approval startedAt, state = .approving payload' approval i false startedAt ∧
      GrantWrittenFor deviceHash payload' approval (e :: log) := by
  obtain ⟨payload', approval, startedAt, heq, hgrant⟩ := hinv.recording i p attempt state hi hp
  exact ⟨payload', approval, startedAt, heq, hgrant.cons e⟩

theorem ProtocolInv.receipts_cons (e : Op × Outcome) {receipt : Uuid × Instant} (hmem : receipt ∈ w.receipts) :
    ∃ op worker write, (op, Outcome.upserted worker write true) ∈ e :: log ∧ write.tenantId = receipt.1 := by
  obtain ⟨op, worker, write, hlog, ht⟩ := hinv.receipts receipt hmem
  exact ⟨op, worker, write, .tail e hlog, ht⟩

theorem quiet_step (h : Quieted w w') :
    ProtocolInv deviceHash payload deadline ((op, .quiet) :: log) w' where
  store := by
    intro e he
    rcases h.device with hdev | hdev
    · exact hinv.store e (hdev ▸ he)
    · simp [hdev] at he
  moves := moves_cons_of_not_stored hinv.moves rfl
  held := by
    intro i p' state hi hs
    rcases h.workers i p' hi with hi | hf
    · exact hinv.held i p' state hi hs
    · rw [hinv.fresh hf hs]
      exact .refl _
  recording := by
    intro i p' attempt state hi hp
    rcases h.workers i p' hi with hi | hf
    · exact hinv.recording_cons _ hi hp
    · exact absurd hp (hf.record attempt state)
  receipts := fun _ hmem => hinv.receipts_cons _ (h.receipts hmem)
  writes := by
    intro op' worker write made hmem
    rcases List.mem_cons.mp hmem with heq | hmem
    · cases heq
    · exact hinv.writes op' worker write made hmem
  recorded := fun payload' approval hst => (hinv.recorded payload' approval hst).cons _
  grants := h.grants.trans hinv.grants

/-- A worker's write is a move: a worker that records its grant holds the claim of the stored
state. -/
theorem ProtocolInv.move (hw : w.workers worker = some p) (h : Writes worker p before after) :
    Move worker before after := by
  cases h with
  | move h => exact h
  | record hp hb ha =>
    obtain ⟨payload', approval, startedAt, heq, -⟩ := hinv.recording worker p _ before hw hp
    rw [heq] at hb
    cases hb
    rw [heq, ha]
    exact .record

/-- The grant of a recorded state is in the history when the state is stored. -/
theorem ProtocolInv.granted (hw : w.workers worker = some p) (hb : before = stateAfter payload log)
    (h : Writes worker p before after) (ha : recordedOf after = some (payload', approval)) :
    GrantWrittenFor deviceHash payload' approval log := by
  cases h with
  | move _ hrec =>
    refine hinv.recorded payload' approval ?_
    rw [← hb]
    exact hrec _ ha
  | record hp hbefore hafter =>
    obtain ⟨p₁, a₁, startedAt, heq, hgrant⟩ := hinv.recording worker p _ before hw hp
    rw [heq] at hbefore
    cases hbefore
    subst hafter
    cases ha
    exact hgrant

theorem stored_step (h : Stored w w' worker p before after) :
    ProtocolInv deviceHash payload deadline ((op, .stored worker before after) :: log) w' := by
  obtain ⟨d, hb, ha⟩ := h.device
  obtain ⟨hbefore, hdeadline⟩ := hinv.store _ hb
  have hmove := hinv.move h.running h.writes
  have hup : Precedes (stateAfter payload log) after := by
    rw [← hbefore]
    exact hmove.precedes
  refine ⟨?_, moves_cons hinv.moves hbefore hmove, ?_, ?_, ?_, ?_, ?_, h.grants.trans hinv.grants⟩
  · intro e he
    rw [ha] at he
    cases he
    refine ⟨rfl, fun hsmall => ?_⟩
    obtain rfl : d = deadline := hdeadline hsmall
    exact luaDouble_of_small hsmall
  · intro i p' state hi hs
    rcases h.workers i p' hi with hi | hf
    · exact (hinv.held i p' state hi hs).trans hup
    obtain ⟨e, he, rfl⟩ := hf.stored state hs
    rw [ha] at he
    cases he
    exact .refl _
  · intro i p' attempt state hi hp
    rcases h.workers i p' hi with hi | hf
    · exact hinv.recording_cons _ hi hp
    · exact absurd hp (hf.record attempt state)
  · exact fun _ hmem => hinv.receipts_cons _ (h.receipts ▸ hmem)
  · intro op' i write made hmem
    rcases List.mem_cons.mp hmem with heq | hmem
    · cases heq
    · obtain ⟨payload', approval, client, happ, hwrite⟩ := hinv.writes op' i write made hmem
      exact ⟨payload', approval, client, hup.approvalOf happ, hwrite⟩
  · intro payload' approval hst
    exact (hinv.granted h.running hbefore h.writes hst).cons _

theorem upserted_step {client : OAuthClient} {made : Bool}
    (h : Committed w w' worker (.approving payload' approval worker false startedAt)
    (grantWrite deviceHash payload' approval client) made) : ProtocolInv deviceHash payload deadline
      ((op, .upserted worker (grantWrite deviceHash payload' approval client) made) :: log) w' := by
  obtain ⟨p, attempt, hw, hp⟩ := h.claimed
  have hheld : Precedes (.approving payload' approval worker false startedAt) (stateAfter payload log) :=
    hinv.held worker p _ hw (by rw [hp]; rfl)
  have happ : approvalOf (stateAfter payload log) = some (payload', approval) := hheld.approvalOf rfl
  -- a receipt that is already there was left by the write of the same approval
  have hgrant : GrantWrittenFor deviceHash payload' approval
      ((op, .upserted worker (grantWrite deviceHash payload' approval client) made) :: log) := by
    cases made with
    | true => exact ⟨op, worker, client, List.mem_cons_self⟩
    | false =>
      obtain ⟨-, -, receipt, hmem, -⟩ := h.upserted.known rfl
      obtain ⟨op', i, write, hlog, -⟩ := hinv.receipts receipt hmem
      obtain ⟨payload₂, approval₂, client₂, happ₂, rfl⟩ := hinv.writes op' i write true hlog
      rw [happ] at happ₂
      cases happ₂
      exact ⟨op', i, client₂, .tail _ hlog⟩
  refine ⟨?_, moves_cons_of_not_stored hinv.moves rfl, ?_, ?_, ?_, ?_, ?_, ?_⟩
  · intro e he
    rw [h.upserted.keys] at he
    exact hinv.store e he
  · intro i p' state hi hs
    rcases h.workers i p' hi with hi | hnone | ⟨rfl, _, hp'⟩
    · exact hinv.held i p' state hi hs
    · simp [hnone] at hs
    · rw [hp'] at hs
      cases hs
      exact hheld
  · intro i p' attempt' state hi hp'
    rcases h.workers i p' hi with hi | hnone | ⟨rfl, _, hp₂⟩
    · exact hinv.recording_cons _ hi hp'
    · simp [hp', Phase.stored] at hnone
    · rw [hp₂] at hp'
      cases hp'
      exact ⟨payload', approval, startedAt, rfl, hgrant⟩
  · intro receipt hmem
    cases made with
    | true =>
      rw [(h.upserted.wrote rfl).1] at hmem
      rcases List.mem_cons.mp hmem with rfl | hmem
      · exact ⟨op, worker, _, List.mem_cons_self, rfl⟩
      · exact hinv.receipts_cons _ hmem
    | false =>
      rw [(h.upserted.known rfl).1] at hmem
      exact hinv.receipts_cons _ hmem
  · intro op' i write made' hmem
    rcases List.mem_cons.mp hmem with heq | hmem
    · cases heq
      exact ⟨payload', approval, client, happ, rfl⟩
    · exact hinv.writes op' i write made' hmem
  · exact fun payload₂ approval₂ hst => (hinv.recorded payload₂ approval₂ hst).cons _
  · cases made with
    | true =>
      rw [(h.upserted.wrote rfl).2, hinv.grants]
      rfl
    | false =>
      rw [(h.upserted.known rfl).2.1, hinv.grants]
      rfl

end Steps

theorem protocolInv_of_run (hr : Run (exec deviceHash) (created deviceHash payload deadline) log w) :
    ProtocolInv deviceHash payload deadline log w := by
  refine Run.invariant (fun _ _ _ => trivial) ?_ ?_ hr trivial
  · refine ⟨?_, ?_, ?_, ?_, ?_, ?_, ?_, rfl⟩
    · intro e he
      cases he
      exact ⟨rfl, fun _ => rfl⟩
    · intro newer op worker before after older hsplit
      simp at hsplit
    · intro i p state hi
      cases hi
    · intro i p attempt state hi
      cases hi
    · intro receipt hmem
      cases hmem
    · intro op worker write made hmem
      cases hmem
    · intro payload' approval hst
      cases hst
  · intro log w op w' outcome _ _ hinv he
    cases effect_of_exec he with
    | quiet h => exact quiet_step hinv h
    | stored h => exact stored_step hinv h
    | upserted h => exact upserted_step hinv h

/-! ## The result -/

variable (deviceHash payload deadline)

variable {deviceHash payload deadline}

theorem gone_step {outcome : Outcome} (he : exec deviceHash w op = (w', outcome))
    (hw : w.keys.device = none) : w'.keys.device = none := by
  cases effect_of_exec he with
  | quiet h => exact h.device.elim (fun h => h.trans hw) id
  | stored h =>
    obtain ⟨_, hb, -⟩ := h.device
    simp [hw] at hb
  | upserted h => rw [h.upserted.keys, hw]

theorem gone_of_run (h : Run (exec deviceHash) w log w') (hw : w.keys.device = none) : w'.keys.device = none :=
  Run.state_invariant (I := fun w => w.keys.device = none) hw (fun _ _ _ _ hw he => gone_step he hw) h

end Invariant

/-! ## A reclaimed approval -/

def handoverPayload : DeviceAuthorizationPayload where
  clientId := "tv"
  clientName := "Television"
  scopes := ["openid"]
  resourceIndicators := ["https://api.example"]
  authorizationDetails := .arr []
  intervalSeconds := 5
  issuedAt := 0
  expiresAt := seconds 600

def handoverApproval : DeviceAuthorizationApproval := ⟨9, "subject", 0, ["pwd"], none⟩

def handoverClient : OAuthClient := ⟨7, 8, "tv", true⟩

/-- A step at a common time of all clocks, in seconds. -/
def handoverStep (worker : Uuid) (now : Int) : Op :=
  .step worker ⟨now * 1000, seconds now, seconds now, seconds now, none, false⟩

/-- Worker 1 claims and stalls; worker 2 reclaims, writes and records the grant; worker 1 goes
on. -/
def handoverOps : List Op :=
  [.start 1 (.approve handoverApproval handoverClient), handoverStep 1 100, handoverStep 1 100, handoverStep 1 100,
    .start 2 (.approve handoverApproval handoverClient), handoverStep 2 140, handoverStep 2 140,
    handoverStep 2 140,
    handoverStep 2 140, handoverStep 2 140, handoverStep 2 140, handoverStep 1 141, handoverStep 1 141]

def handover : Log × World := execAll (exec "hash") (created "hash" handoverPayload 600000) [] handoverOps

/-- **A device code grants what its request was admitted with**, to the user of its one approval. -/
theorem device_grants_admitted (input : DeviceAuthorizationRequestPolicy) (payload : DeviceAuthorizationPayload)
    (now : Int) (k k' : Keys) (deviceHash : String) (ttlSeconds : Nat) (log : Log) (w : World)
    (hadmitted : deviceAuthorizationRequestPayload input = .ok payload)
    (hcreated : createDevice now k deviceHash (.pending payload none 0) ttlSeconds = (k', .applied))
    (hr : Run (exec deviceHash) ⟨k', [], [], fun _ => none⟩ log w) :
    ∀ write ∈ w.grants, write.scopes = input.requestedScopes ∧ write.scopes ⊆ input.allowedScopes
      ∧ write.resourceIndicators ⊆ input.allowedResources ∧ write.expiresAt ≤ input.now + seconds input.ttlSeconds
      ∧ ∃ approval, approvalOf (stateAfter payload log) = some (payload, approval)
      ∧ write.userId = approval.userId := by
  have hstart : (⟨k', [], [], fun _ => none⟩ : World) = created deviceHash payload (now + ttlSeconds * 1000) := by
    unfold createDevice at hcreated
    split_ifs at hcreated <;> cases hcreated
    rfl
  have hinv := protocolInv_of_run (hstart ▸ hr)
  intro write hwrite
  obtain ⟨⟨op, outcome⟩, he, hwritten⟩ := List.mem_filterMap.mp (hinv.grants ▸ hwrite)
  unfold grantWritten at hwritten
  split at hwritten <;> cases hwritten
  rename_i hout
  cases hout
  obtain ⟨payload', approval, client, happroval, rfl⟩ := hinv.writes _ _ _ _ he
  cases (payload_of_approvalOf happroval).symm.trans ((hinv.moves.precedes (List.append_nil log).symm).payload rfl)
  unfold deviceAuthorizationRequestPayload at hadmitted
  extract_lets resources at hadmitted
  split_ifs at hadmitted with _ _ hscope hresource
  cases hadmitted
  rw [Bool.not_eq_true', Bool.not_eq_false, isSubset_iff] at hscope hresource
  exact ⟨rfl, hscope, hresource, min_le_left _ _, approval, happroval, rfl⟩

theorem device_grants_admitted_handover : handover.2.grants.length = 1
      ∧ ∀ write ∈ handover.2.grants, write.scopes ⊆ ["openid", "email"] := by
  have hall := device_grants_admitted ⟨true, true, true, "tv", "Television", ["openid"], ["openid", "email"], [],
    ["https://api.example"], "https://api.example", 5, 600, 0⟩ handoverPayload 0 ⟨none, none⟩ _
      "hash" 600 _ _ rfl rfl (run_execAll _ handoverOps)
  exact ⟨by decide, fun write hwrite => (hall write hwrite).2.1⟩

end NazoAuth.Device
