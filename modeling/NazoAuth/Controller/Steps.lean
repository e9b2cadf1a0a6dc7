import NazoAuth.Controller.Registry
import NazoAuth.Lib.Run
import Mathlib.Logic.Relation

/-!
# Controllers — what the transactions do

One inversion lemma for each part of a transaction, and one for each transaction as a whole. What a
transaction does to the slots, the roots and the challenges is a sequence of changes (`Change`) of
nine kinds (`changes_of_exec`), so that an invariant of the tables has one case for each of them.
-/

namespace NazoAuth.Controller

open Lib

variable {crypto : ControllerCrypto} {tables tables' : Tables} {now : Instant}
  {deploymentId controllerId tokenHash actionSha256 : String}

/-! ## The parts -/

variable {action : ControllerIdentityAction}

theorem consumeApproval_eq_ok
    (h : consumeApproval tables tokenHash deploymentId action actionSha256 now = .ok tables') :
    tables' = tables.useApproval tokenHash now := by
  unfold consumeApproval at h
  split at h
  · cases h
  split_ifs at h
  exact (Except.ok.inj h).symm

variable {stored : ControllerSlot}

theorem insertSlot_eq_ok {slot : NewControllerSlot}
    (h : insertSlot tables slot controllerId now = .ok (tables', stored)) :
    (∃ slots, tables.slots.insert? stored = some slots ∧ tables' = { tables with slots })
      ∧ lowestFreeSlotIndex (activeSlots tables slot.deploymentId) = some stored.slotIndex
      ∧ stored.deploymentId = slot.deploymentId ∧ stored.status = .active ∧ stored.kid = slot.kid
      ∧ stored.label = slot.label ∧ stored.publicKey = slot.publicKey := by
  unfold insertSlot at h
  dsimp only at h
  split at h
  · cases h
  rename_i slotIndex hindex
  split_ifs at h
  split at h
  · cases h
  · rename_i slots hslots
    cases h
    exact ⟨⟨slots, hslots, rfl⟩, hindex, rfl, rfl, rfl, rfl, rfl⟩

/-- A slot after a change: it stays where it is, and it stays revoked. -/
structure SlotStep (slot slot' : ControllerSlot) : Prop where
  slotIndex : slot'.slotIndex = slot.slotIndex
  active : slot'.status = .active → slot.status = .active

theorem SlotStep.refl (slot : ControllerSlot) : SlotStep slot slot := ⟨rfl, id⟩

theorem rotateSlot_eq_ok {rotation : RotateControllerKey}
    (h : rotateSlot tables rotation now = .ok (tables', stored)) :
    ∃ p f, ∃ hf : ∀ slot, (f slot).key = slot.key, (∀ slot, SlotStep slot (f slot))
      ∧ tables' = { tables with slots := tables.slots.update p f hf } := by
  unfold rotateSlot at h
  split at h
  · cases h
  split_ifs at h
  cases h
  exact ⟨_, (·.rotate rotation now), _, fun slot => ⟨rfl, id⟩, rfl⟩

theorem revoke_step (now : Instant) (slot : ControllerSlot) : SlotStep slot (slot.revoke now) :=
  ⟨rfl, nofun⟩

theorem revokeSlot_eq_ok (h : revokeSlot tables deploymentId controllerId now = .ok (tables', stored)) :
    ∃ p f, ∃ hf : ∀ slot, (f slot).key = slot.key, (∀ slot, SlotStep slot (f slot))
      ∧ tables' = { tables with slots := tables.slots.update p f hf } := by
  unfold revokeSlot at h
  split at h
  · cases h
  · cases h
    exact ⟨_, _, _, revoke_step now, rfl⟩

variable {root : NewRecoveryRoot}

theorem recordFreshRootKey_eq_ok (h : recordFreshRootKey tables root = .ok tables') :
    ∃ rootKeys, tables.rootKeys.insert? (root.deploymentId, root.publicKey) = some rootKeys
      ∧ tables' = { tables with rootKeys } := by
  unfold recordFreshRootKey at h
  split at h
  · cases h
  · rename_i rootKeys hkeys
    exact ⟨rootKeys, hkeys, (Except.ok.inj h).symm⟩

theorem enrollInitialRoot_eq_ok (h : enrollInitialRoot tables root now = .ok (tables', true)) :
    ∃ roots rootKeys, tables.roots.insert? (root.row now) = some roots
      ∧ tables.rootKeys.insert? (root.deploymentId, root.publicKey) = some rootKeys
      ∧ tables' = { tables with roots, rootKeys } := by
  unfold enrollInitialRoot at h
  split at h
  · cases h
  rename_i roots hroots
  obtain ⟨tables₁, hfresh, h⟩ := of_bind h
  obtain ⟨rootKeys, hkeys, rfl⟩ := recordFreshRootKey_eq_ok hfresh
  cases h
  exact ⟨roots, rootKeys, hroots, hkeys, rfl⟩

/-- The root of a deployment is set to a key, and no other one changes. -/
structure SetsRoot (tables : Tables) (root : NewRecoveryRoot)
    (roots : Table RecoveryRoot.deploymentId) (row : RecoveryRoot) : Prop where
  self : roots.find? root.deploymentId = some row
  others : ∀ d, d ≠ root.deploymentId → roots.find? d = tables.roots.find? d
  publicKey : row.recoveryPublicKey = root.publicKey
  generation : ∀ old, tables.roots.find? root.deploymentId = some old → row.generation = old.generation + 1

variable {row : RecoveryRoot}

theorem upsertRoot_eq_ok (h : upsertRoot tables root now = .ok (tables', row)) :
    ∃ roots, SetsRoot tables root roots row ∧ tables' = { tables with roots } := by
  unfold upsertRoot at h
  split at h
  · rename_i hnone
    split at h
    · cases h
    rename_i roots hroots
    cases h
    refine ⟨roots, ⟨?_, fun d hd => ?_, rfl, fun old hold => ?_⟩, rfl⟩
    · rw [Table.find?_of_insert? hroots]
      exact if_pos rfl
    · rw [Table.find?_of_insert? hroots]
      exact if_neg hd
    · cases hnone.symm.trans hold
  · rename_i old hold
    split_ifs at h
    cases h
    have hdeployment : old.deploymentId = root.deploymentId := Table.find?_key hold
    refine ⟨_, ⟨?_, fun d hd => ?_, rfl, fun old' hold' => ?_⟩, rfl⟩
    · refine (Table.find?_update _).trans ?_
      rw [hold]
      exact congrArg some (if_pos (decide_eq_true hdeployment))
    · refine (Table.find?_update _).trans ?_
      cases hd' : tables.roots.find? d with
      | none => rfl
      | some other =>
        have hother : other.deploymentId ≠ root.deploymentId :=
          fun heq => hd ((Table.find?_key hd').symm.trans heq)
        exact congrArg some (if_neg fun h => hother (of_decide_eq_true h))
    · cases hold.symm.trans hold'
      rfl

theorem replaceRoot_eq_ok (h : replaceRoot tables root now = .ok (tables', row)) :
    ∃ roots rootKeys, SetsRoot tables root roots row
      ∧ tables.rootKeys.insert? (root.deploymentId, root.publicKey) = some rootKeys
      ∧ tables' = ({ tables with roots, rootKeys } : Tables).endChallenges root.deploymentId now := by
  obtain ⟨⟨tables₁, row₁⟩, hupsert, h⟩ := of_bind h
  obtain ⟨tables₂, hfresh, h⟩ := of_bind h
  cases h
  obtain ⟨roots, hsets, rfl⟩ := upsertRoot_eq_ok hupsert
  obtain ⟨rootKeys, hkeys, rfl⟩ := recordFreshRootKey_eq_ok hfresh
  exact ⟨roots, rootKeys, hsets, hkeys, rfl⟩

/-! ## The transactions -/

variable {audit : AuditAnswers} {token : String}

theorem issueIdentityApproval_eq_ok {command : IdentityApprovalCommand} {expiresAt : Instant}
    (h : issueIdentityApproval crypto tables command token audit now = .ok (tables', expiresAt)) :
    ∃ approvals, tables' = { tables with approvals } := by
  unfold issueIdentityApproval at h
  split at h
  · cases h
  dsimp only at h
  split at h
  · cases h
  rename_i approvals _
  split at h
  · cases h
  · cases h
    exact ⟨approvals, rfl⟩

variable {α ε : Type}

theorem commitWithApproval_eq_ok {approvalError : IdentityApprovalError → ε}
    {transport : String → ε} {mutate : Tables → Except ε (Tables × α)} {stored : α}
    (h : commitWithApproval crypto approvalError transport tables token deploymentId action actionSha256 audit now
      mutate = .ok (tables', stored)) :
    mutate (tables.useApproval (crypto.blake3 token) now) = .ok (tables', stored) := by
  unfold commitWithApproval at h
  by_cases hactor : (!audit.authorized) = true
  · rw [if_pos hactor] at h
    cases h
  rw [if_neg hactor] at h
  obtain ⟨tables₁, hconsume, hrest⟩ := of_bind h
  obtain ⟨⟨tables₂, stored₂⟩, hmutate, happend⟩ := of_bind hrest
  obtain rfl := consumeApproval_eq_ok (mapError_eq_ok.mp hconsume)
  dsimp only at happend
  split at happend
  · cases happend
  · cases happend
    exact hmutate

theorem enrollWithSlot_eq_ok {initialRoot : Option NewRecoveryRoot}
    (h : enrollWithSlot tables initialRoot now = .ok tables') :
    (initialRoot = none ∧ tables' = tables) ∨ ∃ root, initialRoot = some root
      ∧ enrollInitialRoot tables root now = .ok (tables', true) := by
  unfold enrollWithSlot at h
  split at h
  · exact .inl ⟨rfl, (Except.ok.inj h).symm⟩
  rename_i root
  split at h
  · cases h
  · cases h
  · rename_i tables₁ henroll
    cases h
    exact .inr ⟨root, rfl, henroll⟩

/-- A challenge that was allocated or found again. -/
structure Allocates (crypto : ControllerCrypto) (tables tables' : Tables)
    (challenge : NewRecoveryChallenge) (now : Instant) : Prop where
  proof : ∃ root, tables.roots.find? challenge.deploymentId = some root
    ∧ challenge.proposal.verifyAllocation crypto challenge.allocationNonce root.recoveryPublicKey
    challenge.allocationSignature = true
  stored : tables' = sweepExpired tables challenge.deploymentId now
    ∨ ∃ challengeId nonce challenges, priorChallenge (sweepExpired tables challenge.deploymentId now)
          challenge.deploymentId challenge.allocationNonce = none
        ∧ (sweepExpired tables challenge.deploymentId now).challenges.insert? (challenge.row challengeId nonce now)
        = some challenges ∧ tables' = { sweepExpired tables challenge.deploymentId now with challenges }

variable {challenge : NewRecoveryChallenge}

theorem issueRecoveryChallenge_eq_ok {challengeId : Uuid} {nonce : List UInt8}
    {issued : IssuedRecoveryChallenge}
    (h : issueRecoveryChallenge crypto tables challenge challengeId nonce now = .ok (tables', issued)) :
    Allocates crypto tables tables' challenge now := by
  unfold issueRecoveryChallenge at h
  split at h
  · cases h
  rename_i root hroot
  split at h
  · cases h
  rename_i hproof
  have hverified : challenge.proposal.verifyAllocation crypto challenge.allocationNonce root.recoveryPublicKey
      challenge.allocationSignature = true := by simpa using hproof
  refine ⟨⟨root, hroot, hverified⟩, ?_⟩
  dsimp only at h
  split at h
  · cases h
  split at h
  · split_ifs at h
    cases h
    exact .inl rfl
  · rename_i hprior
    split at h
    · cases h
    · rename_i challenges hchallenges
      cases h
      exact .inr ⟨challengeId, nonce, challenges, hprior, hchallenges, rfl⟩

/-- A recovery that was committed. -/
structure Recovers (crypto : ControllerCrypto) (tables tables' : Tables)
    (submission : RecoverySubmission) (now : Instant) (commit : RecoveredSlotCommit) : Prop where
  challenge : ∃ row root, tables.challenges.find? submission.challengeId = some row
    ∧ row.deploymentId = submission.deploymentId
    ∧ row.consumedAt = none ∧ now < row.expiresAt ∧ row.nonce = submission.nonce
    ∧ tables.roots.find? submission.deploymentId = some root
    ∧ row.proposal.verifyChallenge crypto submission.challengeId submission.nonce root.recoveryPublicKey
    submission.signature = true ∧ ∃ controllerId tables₁ tables₂ newRoot receipt,
      insertSlot (tables.revokeSlots submission.deploymentId now)
          ⟨row.deploymentId, row.controllerLabel, row.controllerKid, row.controllerPublicKey⟩ controllerId now
          = .ok (tables₁, commit.slot)
        ∧ replaceRoot tables₁ ⟨submission.deploymentId, row.recoveryKid, row.recoveryPublicKey⟩ now
        = .ok (tables₂, newRoot) ∧ commit.recoveryGeneration = newRoot.generation
        ∧ tables' = tables₂.storeReceipt submission.challengeId receipt now
  unadmitted : ∀ slot ∈ tables.slots.rows, slot.admits submission.deploymentId now = false

variable {submission : RecoverySubmission}

theorem submit_eq_ok {result : SubmissionResult}
    (h : submitRecoveryChallenge crypto tables submission controllerId now = .ok (tables', result)) :
    (tables' = tables ∧ ∃ commit, result = .receipt commit)
      ∨ ∃ commit, result = .committed commit ∧ Recovers crypto tables tables' submission now commit := by
  unfold submitRecoveryChallenge at h
  split at h
  · cases h
  split at h
  · cases h
  rename_i row hrow
  obtain ⟨hfind, hdeployment⟩ := Option.filter_eq_some_iff.mp hrow
  split at h
  · obtain ⟨commit, -, h⟩ := of_bind h
    cases h
    exact .inl ⟨rfl, commit, rfl⟩
  · rename_i hpending
    split at h
    · cases h
    rename_i hlive
    obtain ⟨⟨tables₃, commit⟩, hsubmit, h⟩ := of_bind h
    cases h
    refine .inr ⟨commit, rfl, ?_⟩
    unfold submitPending at hsubmit
    split at hsubmit
    · cases hsubmit
    rename_i hnonce
    split at hsubmit
    · cases hsubmit
    rename_i root hroot
    split_ifs at hsubmit with hsignature hadmitted
    obtain ⟨⟨tables₁, slot⟩, hslot, hsubmit⟩ := of_bind hsubmit
    obtain ⟨⟨tables₂, newRoot⟩, hreplaced, hsubmit⟩ := of_bind hsubmit
    cases hsubmit
    refine ⟨⟨row, root, hfind, of_decide_eq_true hdeployment, Option.not_isSome_iff_eq_none.mp hpending,
      Int.not_le.mp hlive,
      Decidable.not_not.mp hnonce, hroot, by simpa using hsignature, controllerId, tables₁, tables₂, newRoot, _,
      mapError_eq_ok.mp hslot, hreplaced, rfl, rfl⟩, ?_⟩
    intro slot hmem
    by_contra hadmits
    exact hadmitted (List.any_eq_true.mpr ⟨slot, hmem, by simpa using hadmits⟩)

/-! ## Changes of the tables -/

/-- A challenge after a change: it stays consumed. -/
structure ChallengeStep (row row' : RecoveryChallenge) : Prop where
  deploymentId : row'.deploymentId = row.deploymentId
  allocationNonce : row'.allocationNonce = row.allocationNonce
  expiresAt : row'.expiresAt = row.expiresAt
  consumed : row.consumedAt.isSome → row'.consumedAt.isSome

theorem ChallengeStep.refl (row : RecoveryChallenge) : ChallengeStep row row := ⟨rfl, rfl, rfl, id⟩

theorem ChallengeStep.trans (a b c : RecoveryChallenge) (h : ChallengeStep a b)
    (h' : ChallengeStep b c) : ChallengeStep a c :=
  ⟨h'.deploymentId.trans h.deploymentId, h'.allocationNonce.trans h.allocationNonce,
    h'.expiresAt.trans h.expiresAt, fun ha => h'.consumed (h.consumed ha)⟩

/-- A challenge after a change that counts no attempt and stores no receipt. -/
structure ChallengeKept (row row' : RecoveryChallenge) : Prop extends ChallengeStep row row' where
  attempts : row'.attempts = row.attempts
  receipt : row'.receipt = row.receipt

/-- What only some requests do to a challenge. -/
inductive ChallengeEffect where
  | count
  | receipt (challengeId : Uuid)

/-- The changes of the tables; the last two only where they are allowed. -/
inductive Change (allowed : ChallengeEffect → Bool) : Tables → Tables → Prop
  | approvals (tables : Tables) (approvals : Table Approval.tokenHash) :
      Change allowed tables { tables with approvals }
  | slots (tables : Tables) (p : ControllerSlot → Bool) (f : ControllerSlot → ControllerSlot)
      (hf : ∀ slot, (f slot).key = slot.key)
      (hstep : ∀ slot, SlotStep slot (f slot)) : Change allowed tables
      { tables with slots := tables.slots.update p f hf }
  | insertSlot {tables tables' slot controllerId now stored}
      (h : insertSlot tables slot controllerId now = .ok (tables', stored)) : Change allowed tables tables'
  | enroll {tables tables' : Tables} {root : NewRecoveryRoot} {now : Instant}
      (h : enrollInitialRoot tables root now = .ok (tables', true)) : Change allowed tables tables'
  | replace {tables tables' : Tables} {root : NewRecoveryRoot} {now : Instant} {row : RecoveryRoot}
      (h : replaceRoot tables root now = .ok (tables', row)) : Change allowed tables tables'
  | challenges (tables : Tables) (p : RecoveryChallenge → Bool) (f : RecoveryChallenge → RecoveryChallenge)
      (hf : ∀ row, (f row).challengeId = row.challengeId)
      (hstep : ∀ row, p row = true → ChallengeKept row (f row)) :
      Change allowed tables { tables with challenges := tables.challenges.update p f hf }
  | allocate (tables : Tables) (row : RecoveryChallenge) (challenges : Table RecoveryChallenge.challengeId)
      (hprior : priorChallenge tables row.deploymentId row.allocationNonce = none) (hattempts : row.attempts = 0)
      (hreceipt : row.receipt = none)
      (hinsert : tables.challenges.insert? row = some challenges) : Change allowed tables
      { tables with challenges }
  | attempt (tables : Tables) (attempt : FailedAttempt) (hallowed : allowed .count = true) :
      Change allowed tables (recordFailedAttempt tables attempt)
  | receipt (tables : Tables) (challengeId : Uuid) (receipt : RecoveryReceipt) (now : Instant)
      (hallowed : allowed (.receipt challengeId) = true) :
      Change allowed tables (tables.storeReceipt challengeId receipt now)

abbrev Changes (allowed : ChallengeEffect → Bool) : Tables → Tables → Prop :=
  Relation.ReflTransGen (Change allowed)

def anyEffect (_ : ChallengeEffect) : Bool := true

variable {allowed : ChallengeEffect → Bool}

theorem Change.any (h : Change allowed tables tables') : Change anyEffect tables tables' := by
  cases h with
  | approvals approvals => exact .approvals tables approvals
  | slots p f hf hstep => exact .slots tables p f hf hstep
  | insertSlot h => exact .insertSlot h
  | enroll h => exact .enroll h
  | replace h => exact .replace h
  | challenges p f hf hstep => exact .challenges tables p f hf hstep
  | allocate row challenges hprior hattempts hreceipt hinsert =>
    exact .allocate tables row challenges hprior hattempts hreceipt hinsert
  | attempt attempt => exact .attempt tables attempt rfl
  | receipt challengeId receipt now => exact .receipt tables challengeId receipt now rfl

theorem changes_useApproval (tables : Tables) (tokenHash : String) (now : Instant) :
    Changes allowed tables (tables.useApproval tokenHash now) :=
  .single (.approvals tables _)

theorem changes_of_createSlot {command : SlotCreationCommand}
    (h : commitSlotCreation crypto tables command controllerId audit now = .ok (tables', stored)) :
    Changes allowed tables tables' := by
  have hmutate := commitWithApproval_eq_ok h
  obtain ⟨tables₁, henroll, hinsert⟩ := of_bind hmutate
  have hslot : Changes allowed tables₁ tables' := .single (.insertSlot (mapError_eq_ok.mp hinsert))
  refine (changes_useApproval tables (crypto.blake3 command.approvalToken) now).trans (.trans ?_ hslot)
  rcases enrollWithSlot_eq_ok henroll with ⟨-, rfl⟩ | ⟨root, -, henrolled⟩
  · exact .refl
  · exact .single (.enroll henrolled)

theorem changes_of_recovers {commit : RecoveredSlotCommit}
    (hallowed : allowed (.receipt submission.challengeId) = true)
    (h : Recovers crypto tables tables' submission now commit) : Changes allowed tables tables' := by
  obtain ⟨row, root, -, -, -, -, -, -, -, controllerId, tables₁, tables₂, newRoot, receipt, hslot, hreplaced, -,
    rfl⟩ := h.challenge
  refine .head (.slots tables (·.isActive submission.deploymentId) (·.revoke now) (fun _ => rfl) (revoke_step now))
    ?_
  refine .head (.insertSlot hslot) (.head (.replace hreplaced) (.single ?_))
  exact .receipt tables₂ submission.challengeId receipt now hallowed

theorem changes_of_allocates (h : Allocates crypto tables tables' challenge now) :
    Changes allowed tables tables' := by
  have hsweep : Change allowed tables (sweepExpired tables challenge.deploymentId now) :=
    .challenges tables _ (fun row => { row with consumedAt := some row.expiresAt }) (fun _ => rfl)
      fun row _ => ⟨⟨rfl, rfl, rfl, fun _ => rfl⟩, rfl, rfl⟩
  rcases h.stored with rfl | ⟨challengeId, nonce, challenges, hprior, hinsert, rfl⟩
  · exact .single hsweep
  · exact .head hsweep (.single (.allocate _ _ challenges hprior rfl rfl hinsert))

theorem attempted_step {attempt : FailedAttempt} {row : RecoveryChallenge}
    (hcounts : attempt.counts row = true) : ChallengeStep row (row.attempted attempt.now) := by
  refine ⟨rfl, rfl, rfl, fun hsome => ?_⟩
  simp only [FailedAttempt.counts, Bool.and_eq_true] at hcounts
  simp [Option.isNone_iff_eq_none.mp hcounts.1.1.2] at hsome

theorem storeReceipt_step (receipt : RecoveryReceipt) (now : Instant) (row : RecoveryChallenge) :
    ChallengeStep row { row with consumedAt := some now, receipt := some receipt } :=
  ⟨rfl, rfl, rfl, fun _ => rfl⟩

/-- What a request does to a challenge that others do not. -/
def Request.allows : Request → ChallengeEffect → Bool
  | .record _, .count => true
  | .submit submission _, .receipt challengeId => submission.challengeId = challengeId
  | _, _ => false

variable {registry registry' : Registry} {outcome : Outcome}

theorem settle_cases {result : Except ε (Tables × α)} {done : α → Outcome}
    {failed : ε → Outcome} (h : registry.settle result done failed = (registry', outcome)) :
    (∃ error, result = .error error ∧ registry' = registry ∧ outcome = failed error)
      ∨ ∃ tables' answer, result = .ok (tables', answer) ∧ registry' = ⟨tables', registry.failures⟩
      ∧ outcome = done answer := by
  cases result with
  | error error =>
    cases h
    exact .inl ⟨error, rfl, rfl, rfl⟩
  | ok answer =>
    cases h
    exact .inr ⟨answer.1, answer.2, rfl, rfl, rfl⟩

/-- **What an operation does to the tables.** -/
theorem changes_of_exec {call : Call} (h : execRegistry crypto registry call = (registry', outcome)) :
    Changes call.request.allows registry.tables registry'.tables := by
  have hsettle : ∀ {allowed : ChallengeEffect → Bool} {ε α : Type} {result : Except ε (Tables × α)} {done : α →
    Outcome} {failed : ε → Outcome},
      (∀ tables' answer, result = .ok (tables', answer) → Changes allowed registry.tables tables') →
      registry.settle result done failed = (registry', outcome) →
      Changes allowed registry.tables registry'.tables := by
    intro allowed ε α result done failed hok h
    rcases settle_cases h with ⟨error, -, rfl, -⟩ | ⟨tables', answer, hresult, rfl, -⟩
    · exact .refl
    · exact hok tables' answer hresult
  obtain ⟨now, request⟩ := call
  cases request with
  | issueApproval =>
    refine hsettle (fun tables' answer hok => ?_) h
    obtain ⟨approvals, rfl⟩ := issueIdentityApproval_eq_ok hok
    exact .single (.approvals _ approvals)
  | createSlot => exact hsettle (fun tables' answer hok => changes_of_createSlot hok) h
  | rotateSlot =>
    refine hsettle (fun tables' answer hok => ?_) h
    have hmutate := commitWithApproval_eq_ok hok
    obtain ⟨p, f, hf, hstep, rfl⟩ := rotateSlot_eq_ok (mapError_eq_ok.mp hmutate)
    exact (changes_useApproval _ _ now).tail (.slots _ p f hf hstep)
  | revokeSlot =>
    refine hsettle (fun tables' answer hok => ?_) h
    have hmutate := commitWithApproval_eq_ok hok
    obtain ⟨p, f, hf, hstep, rfl⟩ := revokeSlot_eq_ok (mapError_eq_ok.mp hmutate)
    exact (changes_useApproval _ _ now).tail (.slots _ p f hf hstep)
  | rotateRoot =>
    refine hsettle (fun tables' answer hok => ?_) h
    have hmutate := commitWithApproval_eq_ok hok
    exact (changes_useApproval _ _ now).tail (.replace (mapError_eq_ok.mp hmutate))
  | allocate =>
    exact hsettle (fun tables' answer hok => changes_of_allocates (issueRecoveryChallenge_eq_ok hok)) h
  | submit submission controllerId =>
    simp only [execRegistry, Registry.submit] at h
    split at h
    · rename_i tables' result hok
      cases h
      rcases submit_eq_ok hok with ⟨rfl, -⟩ | ⟨commit, -, hrecovers⟩
      · exact .refl
      · exact changes_of_recovers (decide_eq_true rfl) hrecovers
    · cases h
      exact .refl
    · cases h
      exact .refl
    · cases h
      exact .refl
  | record attempt =>
    simp only [execRegistry, Registry.record] at h
    split_ifs at h
    · cases h
      exact .single (.attempt _ attempt rfl)
    · cases h
      exact .refl
  | cleanup =>
    cases h
    exact .single (.approvals _ _)

theorem Changes.keeps {P : Tables → Prop} (hstep : ∀ t t', Change allowed t t' → P t → P t')
    (h : Changes allowed tables tables') (hP : P tables) : P tables' := by
  induction h with
  | refl => exact hP
  | tail _ hchange ih => exact hstep _ _ hchange ih

/-- A relation that every change is in relates what is before and after some operations. -/
theorem Changes.relates {R : Tables → Tables → Prop} (hrefl : ∀ t, R t t) (htrans : ∀ a b c, R a b → R b c → R a c)
    (hstep : ∀ t t', Change allowed t t' → R t t') (h : Changes allowed tables tables') : R tables tables' := by
  induction h with
  | refl => exact hrefl _
  | tail _ hchange ih => exact htrans _ _ _ ih (hstep _ _ hchange)

theorem Changes.any (h : Changes allowed tables tables') : Changes anyEffect tables tables' :=
  h.relates (fun _ => .refl) (fun _ _ _ hab hbc => hab.trans hbc) fun _ _ hchange => .single hchange.any

theorem changes_of_run {log : List (Call × Outcome)}
    (h : Run (execRegistry crypto) registry log registry') :
    Changes anyEffect registry.tables registry'.tables := by
  induction h with
  | nil => exact .refl
  | cons _ he ih => exact ih.trans (changes_of_exec he).any

end NazoAuth.Controller
