import NazoAuth.Device.Service

/-!
# Device authorization — what one step can do
-/

namespace NazoAuth.Device

open Lib

/-! ## Moves -/

/-- The transitions of the stored state. -/
inductive Move (worker : Uuid) : DeviceAuthorizationState → DeviceAuthorizationState → Prop
  | poll {payload last last' count count'} :
      Move worker (.pending payload last count) (.pending payload last' count')
  | deny {payload last count deniedAt} :
      Move worker (.pending payload last count) (.denied payload deniedAt)
  | claim {payload last count approval startedAt} :
      Move worker (.pending payload last count) (.approving payload approval worker false startedAt)
  | reclaim {payload approval claimId startedAt startedAt'} : claimId ≠ worker →
      Move worker (.approving payload approval claimId false startedAt)
      (.approving payload approval worker false startedAt')
  | record {payload approval startedAt} :
      Move worker (.approving payload approval worker false startedAt)
      (.approving payload approval worker true startedAt)
  | complete {payload approval claimId startedAt approvedAt} :
      Move worker (.approving payload approval claimId true startedAt) (.approved payload approval approvedAt)

/-- The payload and the approval of a request that is being approved or is approved. -/
def approvalOf : DeviceAuthorizationState → Option (DeviceAuthorizationPayload × DeviceAuthorizationApproval)
  | .approving payload approval _ _ _ => some (payload, approval)
  | .approved payload approval _ => some (payload, approval)
  | _ => none

/-- The payload and approval of a state whose grant is recorded. -/
def recordedOf : DeviceAuthorizationState → Option (DeviceAuthorizationPayload × DeviceAuthorizationApproval)
  | .approving payload approval _ true _ => some (payload, approval)
  | .approved payload approval _ => some (payload, approval)
  | _ => none

/-- The second state may follow the first, immediately or later. -/
inductive Precedes : DeviceAuthorizationState → DeviceAuthorizationState → Prop
  | refl (state : DeviceAuthorizationState) : Precedes state state
  | pending {payload last count state} :
      deviceAuthorizationPayload state = some payload → Precedes (.pending payload last count) state
  | approving {payload approval claimId recorded startedAt state} :
      approvalOf state = some (payload, approval) →
      Precedes (.approving payload approval claimId recorded startedAt) state

variable {approval : DeviceAuthorizationApproval} {s t : DeviceAuthorizationState} {worker : Uuid}

theorem payload_of_approvalOf {state : DeviceAuthorizationState}
    {payload : DeviceAuthorizationPayload} (h : approvalOf state = some (payload, approval)) :
    deviceAuthorizationPayload state = some payload := by
  cases state <;> simp_all [approvalOf, deviceAuthorizationPayload]

theorem Precedes.payload {payload : DeviceAuthorizationPayload} (h : Precedes s t)
    (hs : deviceAuthorizationPayload s = some payload) : deviceAuthorizationPayload t = some payload := by
  cases h with
  | refl => exact hs
  | pending ht => exact ht.trans hs
  | approving ht => exact (payload_of_approvalOf ht).trans hs

theorem Precedes.approvalOf {a : DeviceAuthorizationPayload × DeviceAuthorizationApproval}
    (h : Precedes s t) (hs : approvalOf s = some a) : approvalOf t = some a := by
  cases h with
  | refl => exact hs
  | pending => simp [Device.approvalOf] at hs
  | approving ht => exact ht.trans hs

theorem Precedes.trans {u : DeviceAuthorizationState} (h1 : Precedes s t) (h2 : Precedes t u) : Precedes s u := by
  cases h1 with
  | refl => exact h2
  | pending ht => exact .pending (h2.payload ht)
  | approving ht => exact .approving (h2.approvalOf ht)

theorem Precedes.denied {payload : DeviceAuthorizationPayload} {deniedAt : Instant}
    (h : Precedes (.denied payload deniedAt) t) : t = .denied payload deniedAt := by
  cases h
  rfl

theorem Move.precedes (h : Move worker s t) : Precedes s t := by
  cases h with
  | poll | deny | claim => exact .pending rfl
  | reclaim | record | complete => exact .approving rfl

/-- What a compare-and-set does to the state key. -/
inductive Replaced (k : Keys) (expected replacement : DeviceAuthorizationState) : Keys × DeviceAtomicResult → Prop
  | conflict {k' : Keys} : k'.device = k.device → Replaced k expected replacement (k', .conflict)
  | elapsed {k' : Keys} : k'.device = none → Replaced k expected replacement (k', .deadlineElapsed)
  | applied {k' : Keys} {deadline : Int} : k.device = some ⟨expected, deadline⟩ →
      k'.device = some ⟨replacement, luaDouble deadline⟩ → Replaced k expected replacement (k', .applied)

variable {k : Keys} {deviceHash : String} {expected replacement : DeviceAuthorizationState} {now : Int}

theorem compareSetDevice_replaced {mapping : Option String} :
    Replaced k expected replacement (compareSetDevice now k expected replacement mapping) := by
  unfold compareSetDevice
  cases hv : visible now k.device with
  | none => exact .conflict rfl
  | some current =>
    have hcur : k.device = some current := eq_some_of_visible hv
    dsimp only
    split_ifs with h1 h2 h3
    · exact .conflict rfl
    · exact .conflict rfl
    · exact .elapsed rfl
    refine .applied ?_ rfl
    rw [hcur, ← not_not.mp h1]

theorem completeDeviceDecision_replaced :
    Replaced k expected replacement (completeDeviceDecision now k expected replacement deviceHash) := by
  unfold completeDeviceDecision
  have hr : Replaced k expected replacement (compareSetDevice now k expected replacement (some deviceHash)) :=
    compareSetDevice_replaced
  generalize compareSetDevice now k expected replacement (some deviceHash) = reply at hr
  cases hr with
  | conflict h => exact .conflict h
  | elapsed h => exact .elapsed h
  | applied h h' => exact .applied h h'

/-! ## Steps of a worker -/

/-- What a worker writes: a move, or, after its grant was written, the note that it was. -/
inductive Writes (worker : Uuid) (p : Process) (before after : DeviceAuthorizationState) : Prop
  | move : Move worker before after → (∀ a, recordedOf after = some a → recordedOf before = some a) →
      Writes worker p before after
  | record {attempt payload approval claimId recorded startedAt} : p.phase = .record attempt before →
      before = .approving payload approval claimId recorded startedAt →
      after = .approving payload approval claimId true startedAt → Writes worker p before after

/-- What a worker carries into its next step was read in this one. -/
structure Fresh (w : World) (p : Process) : Prop where
  stored : ∀ state, p.phase.stored = some state → ∃ e, w.keys.device = some e ∧ e.value = state
  record : ∀ attempt state, p.phase ≠ .record attempt state

variable {p : Process} {w : World}

theorem Fresh.of_none (h : p.phase.stored = none) : Fresh w p where
  stored := fun state hs => by simp [h] at hs
  record := fun attempt state hp => by simp [hp, Phase.stored] at h

/-- Only the keys may differ. -/
structure Framed (w w' : World) : Prop where
  receipts : w'.receipts = w.receipts
  grants : w'.grants = w.grants
  workers : w'.workers = w.workers

/-- The inversion of a worker's step. -/
inductive WorkerEffect (deviceHash : String) (w : World) (worker : Uuid) (p : Process) :
    World × Process × Outcome → Prop
  | quiet {w' p'} : (w'.keys.device = w.keys.device ∨ w'.keys.device = none) → Framed w w' →
      (p' = p ∨ Fresh w p') → WorkerEffect deviceHash w worker p (w', p', .quiet)
  | stored {w' p' before after deadline} : w.keys.device = some ⟨before, deadline⟩ →
      w'.keys.device = some ⟨after, luaDouble deadline⟩ → Framed w w' → Writes worker p before after →
      Fresh w' p' → WorkerEffect deviceHash w worker p (w', p', .stored worker before after)
  | upserted {w' p' attempt payload approval startedAt client env written} :
      p.phase = .ready attempt (.approving payload approval worker false startedAt) →
      p'.phase = .record attempt (.approving payload approval worker false startedAt) →
      commitDeviceApproval w (grantWrite deviceHash payload approval client) env = .ok (w', written) →
      WorkerEffect deviceHash w worker p
      (w', p', .upserted worker (grantWrite deviceHash payload approval client) written)

theorem Process.again_none_stored (p : Process) (attempt : Nat) : (p.again attempt none).stored = none := by
  unfold Process.again
  split_ifs <;> rfl

variable {attempt : Nat} {env : Env} {stored : DeviceAuthorizationState}

theorem replace_effect {before after : DeviceAuthorizationState} {reply : Keys × DeviceAtomicResult}
    {a c e : Phase} (hr : Replaced w.keys before after reply) (hw : Writes worker p before after)
    (ha : a.stored = none ∨ ∃ attempt, a = .ready attempt after) (hc : c.stored = none) (he : e.stored = none) :
    WorkerEffect deviceHash w worker p (w.replace worker p before after reply a c e) := by
  cases hr with
  | conflict hk => exact .quiet (.inl hk) ⟨rfl, rfl, rfl⟩ (.inr (Fresh.of_none hc))
  | elapsed hk => exact .quiet (.inr hk) ⟨rfl, rfl, rfl⟩ (.inr (Fresh.of_none he))
  | applied hk hk' =>
    refine .stored hk hk' ⟨rfl, rfl, rfl⟩ hw ?_
    rcases ha with ha | ⟨attempt, rfl⟩
    · exact Fresh.of_none ha
    · refine ⟨fun state hs => ?_, fun _ _ hp => by cases hp⟩
      cases hs
      exact ⟨_, hk', rfl⟩

theorem finished_effect {phase : Phase} (hs : phase.stored = none) :
    WorkerEffect deviceHash w worker p (w, p.goto phase, .quiet) :=
  .quiet (.inl rfl) ⟨rfl, rfl, rfl⟩ (.inr (Fresh.of_none hs))

theorem pollTurn_effect : WorkerEffect deviceHash w worker p (pollTurn w worker p attempt stored env) := by
  have hreplace : ∀ {next a}, (evaluateDevicePoll stored env.now = .authorizationPending next ∨
      evaluateDevicePoll stored env.now = .slowDown next) → a.stored = none → WorkerEffect deviceHash w worker p
        (w.replace worker p stored next (compareSetDevice env.storeNow w.keys stored next none) a
          (p.again attempt none) (.finished (.polled .expired))) := by
    intro next a hev ha
    obtain ⟨payload, last, count, last', count', rfl, rfl⟩ := evaluateDevicePoll_next hev
    exact replace_effect compareSetDevice_replaced (.move .poll fun _ h => nomatch h) (.inl ha)
      (p.again_none_stored attempt) rfl
  unfold pollTurn
  cases hev : evaluateDevicePoll stored env.now with
  | authorizationPending => exact hreplace (.inl hev) rfl
  | slowDown => exact hreplace (.inr hev) rfl
  | _ => exact finished_effect rfl

theorem denyTurn_effect : WorkerEffect deviceHash w worker p
    (denyTurn deviceHash w worker p attempt stored env) := by
  cases stored with
  | pending =>
    simp only [denyTurn]
    split_ifs with hexp
    · exact finished_effect rfl
    · exact replace_effect completeDeviceDecision_replaced (.move .deny fun _ h => nomatch h) (.inl rfl)
        (p.again_none_stored attempt) rfl
  | approving | approved | denied | consumed => exact finished_effect rfl

variable {client : OAuthClient}

theorem approvingTurn_effect {claimed : DeviceAuthorizationApproval}
    {payload : DeviceAuthorizationPayload} {claimId : Uuid} {recorded : Bool} {startedAt : Instant}
    (hp : p.phase = .ready attempt (.approving payload claimed claimId recorded startedAt)) :
    WorkerEffect deviceHash w worker p
      (approvingTurn deviceHash w worker p approval client attempt payload claimed claimId recorded
        startedAt env) := by
  simp only [approvingTurn]
  split_ifs with huser hclient hexp hrec hown hstale
  · exact finished_effect rfl
  · exact finished_effect rfl
  · exact finished_effect rfl
  · -- the grant is recorded: completion
    subst hrec
    exact replace_effect completeDeviceDecision_replaced (.move .complete fun _ h => h) (.inl rfl)
      (p.again_none_stored attempt) rfl
  · exact finished_effect rfl
  · -- another worker's claim is stale: reclaim
    obtain rfl : recorded = false := Bool.eq_false_iff.mpr hrec
    exact replace_effect compareSetDevice_replaced (.move (.reclaim hown) fun _ h => nomatch h)
      (.inl (p.again_none_stored attempt)) (p.again_none_stored attempt) rfl
  · -- the worker's own claim: the grant is written
    obtain rfl : recorded = false := Bool.eq_false_iff.mpr hrec
    obtain rfl : claimId = worker := not_not.mp hown
    cases hc : commitDeviceApproval w (grantWrite deviceHash payload claimed client) env with
    | error => exact finished_effect rfl
    | ok => exact .upserted hp rfl hc

theorem approveTurn_effect (hp : p.phase = .ready attempt stored) :
    WorkerEffect deviceHash w worker p (approveTurn deviceHash w worker p approval client attempt stored env) := by
  cases stored with
  | pending =>
    simp only [approveTurn]
    split_ifs with hexp hclient
    · exact finished_effect rfl
    · exact finished_effect rfl
    · exact replace_effect compareSetDevice_replaced (.move .claim fun _ h => nomatch h)
        (.inl (p.again_none_stored attempt)) (p.again_none_stored attempt) rfl
  | approving => exact approvingTurn_effect hp
  | approved | denied | consumed => exact finished_effect rfl

theorem recordTurn_effect (hp : p.phase = .record attempt stored) :
    WorkerEffect deviceHash w worker p (recordTurn w worker p attempt stored env) := by
  cases stored with
  | approving =>
    refine replace_effect compareSetDevice_replaced (.record hp rfl rfl) ?_ (p.again_none_stored attempt) rfl
    unfold Process.again
    split_ifs
    · exact .inr ⟨_, rfl⟩
    · exact .inl rfl
  | pending | approved | denied | consumed => exact .quiet (.inl rfl) ⟨rfl, rfl, rfl⟩ (.inl rfl)

theorem fresh_reload (w : World) (p : Process) (attempt : Nat) (env : Env) : Fresh w (reload w p attempt env) := by
  have hread : ∀ {current attempt}, visible env.storeNow w.keys.device = some current →
      Fresh w (p.goto (.ready attempt current.value)) := by
    intro current attempt hv
    refine ⟨fun state hs => ?_, fun _ _ hp => by cases hp⟩
    cases hs
    exact ⟨current, eq_some_of_visible hv, rfl⟩
  unfold reload
  cases hv : visible env.storeNow w.keys.device with
  | none => exact Fresh.of_none rfl
  | some =>
    cases p.task with
    | poll | deny | approve =>
      simp only
      split_ifs
      · exact Fresh.of_none rfl
      · exact hread hv

theorem fresh_prepareDecision (w : World) (p : Process) (env : Env) : Fresh w (prepareDecision w p env) := by
  unfold prepareDecision
  cases hv : visible env.storeNow w.keys.device with
  | none => exact Fresh.of_none rfl
  | some current =>
    have hready : ∀ payload, Fresh w
        { p with expectedPayload := some payload, phase := .ready 0 current.value } := by
      intro payload
      refine ⟨fun state hs => ?_, fun _ _ hp => by cases hp⟩
      cases hs
      exact ⟨current, eq_some_of_visible hv, rfl⟩
    cases hst : current.value with
    | pending payload =>
      rw [hst] at hready
      simp only [hst]
      split_ifs
      · exact Fresh.of_none rfl
      · exact hready payload
    | approving payload =>
      rw [hst] at hready
      simp only [hst]
      split_ifs
      · exact Fresh.of_none rfl
      · exact hready payload
    | approved | denied | consumed => simp only [hst]; exact Fresh.of_none rfl

/-- **The inversion of a worker's step.** -/
theorem workerEffect_of_step {w' : World} {p' : Process} {outcome : Outcome}
    (h : workerStep deviceHash w worker p env = (w', p', outcome)) :
    WorkerEffect deviceHash w worker p (w', p', outcome) := by
  rw [← h, workerStep]
  cases hp : p.phase with
  | resolve =>
    dsimp only
    split_ifs
    · exact finished_effect rfl
    · exact finished_effect rfl
  | prepare => exact .quiet (.inl rfl) ⟨rfl, rfl, rfl⟩ (.inr (fresh_prepareDecision w p env))
  | reload attempt => exact .quiet (.inl rfl) ⟨rfl, rfl, rfl⟩ (.inr (fresh_reload w p attempt env))
  | ready =>
    dsimp only
    cases p.task with
    | poll => exact pollTurn_effect
    | deny => exact denyTurn_effect
    | approve => exact approveTurn_effect hp
  | record => exact recordTurn_effect hp
  | dropUserCode =>
    refine .quiet (.inl ?_) ⟨rfl, rfl, rfl⟩ (.inr (Fresh.of_none rfl))
    simp only [deleteUserCodeIfMatches]
    split_ifs <;> rfl
  | finished => exact .quiet (.inl rfl) ⟨rfl, rfl, rfl⟩ (.inl rfl)

end NazoAuth.Device
