import NazoAuth.Controller.Recovery

/-!
# Controllers — wrong answers to a recovery challenge

A wrong answer is counted by a statement that runs after its transaction has ended. While a
challenge is not consumed, its count is the number of these statements that have run
(`AttemptsInv`), and it is below the limit. An answer that comes while some counts are outstanding
is compared all the same, so the number of wrong answers is bounded by the limit and the outstanding
counts together (`AnswersInv`): by the limit, if every wrong answer is counted before the next
answer comes.
-/

namespace NazoAuth.Controller

open Lib

variable {crypto : ControllerCrypto} {tables tables' : Tables} {allowed : ChallengeEffect → Bool}
  {registry registry' : Registry} {log : List (Call × Outcome)} {challengeId : Uuid}

/-! ## Events -/

/-- The nonce or the signature was compared, and is wrong. -/
def RecoveryRootError.isMismatch : RecoveryRootError → Bool
  | .nonceMismatch => true
  | .invalidSignature => true
  | _ => false

def isAnswer (challengeId : Uuid) (e : Call × Outcome) : Bool :=
  match e.1.request with
  | .submit submission _ => submission.challengeId = challengeId
  | _ => false

/-- An event is an answer to a challenge that was compared and is wrong. -/
def isWrong (challengeId : Uuid) (e : Call × Outcome) : Bool :=
  isAnswer challengeId e && match e.2 with
    | .submissionFailed error => error.isMismatch
    | _ => false

/-- An event is the count of a wrong answer to a challenge. -/
def isCount (challengeId : Uuid) (e : Call × Outcome) : Bool :=
  match e.1.request, e.2 with
  | .record attempt, .recorded => attempt.challengeId = challengeId
  | _, _ => false

/-- At most `k` wrong answers to a challenge are not counted when another answer comes. -/
def CountedWithin (k : Nat) (challengeId : Uuid) : List (Call × Outcome) → Prop
  | [] => True
  | e :: older => (isAnswer challengeId e = true → older.countP (isWrong challengeId)
      ≤ older.countP (isCount challengeId) + k) ∧ CountedWithin k challengeId older

instance CountedWithin.decidable (k : Nat) (challengeId : Uuid) : (log : List (Call × Outcome)) →
    Decidable (CountedWithin k challengeId log)
  | [] => .isTrue trivial
  | _ :: older => @instDecidableAnd _ _ _ (CountedWithin.decidable k challengeId older)

variable {k : Nat}

theorem CountedWithin.of_append {newer : List (Call × Outcome)}
    (h : CountedWithin k challengeId (newer ++ log)) : CountedWithin k challengeId log := by
  induction newer with
  | nil => exact h
  | cons e newer ih => exact ih h.2

/-! ## What becomes of one challenge -/

/-- A challenge after a change that counts no attempt. -/
structure RowKept (stores : Bool) (row row' : RecoveryChallenge) : Prop extends ChallengeStep row row' where
  attempts : row'.attempts = row.attempts
  receipt : stores = false → row'.receipt = row.receipt

/-- The row of a challenge before and after changes that count no attempt; `stores` if a receipt may
be stored. -/
structure RowChange (stores : Bool) (old new : Option RecoveryChallenge) : Prop where
  kept : ∀ row, old = some row → ∃ row', new = some row' ∧ RowKept stores row row'
  created : old = none → ∀ row', new = some row' → row'.attempts = 0 ∧ (stores = false → row'.receipt = none)

theorem RowKept.refl (stores : Bool) (row : RecoveryChallenge) : RowKept stores row row :=
  ⟨.refl row, rfl, fun _ => rfl⟩

theorem RowChange.refl (stores : Bool) (old : Option RecoveryChallenge) : RowChange stores old old :=
  ⟨fun row h => ⟨row, h, .refl stores row⟩, fun h row' h' => by cases h.symm.trans h'⟩

theorem RowChange.trans {stores : Bool} {a b c : Option RecoveryChallenge}
    (h : RowChange stores a b) (h' : RowChange stores b c) : RowChange stores a c := by
  constructor
  · intro row ha
    obtain ⟨row', hb, hkept⟩ := h.kept row ha
    obtain ⟨row'', hc, hkept'⟩ := h'.kept row' hb
    exact ⟨row'', hc, .trans _ _ _ hkept.toChallengeStep hkept'.toChallengeStep,
      hkept'.attempts.trans hkept.attempts, fun hs => (hkept'.receipt hs).trans (hkept.receipt hs)⟩
  · intro ha row'' hc
    cases hb : b with
    | none => exact h'.created hb row'' hc
    | some row' =>
      obtain ⟨hattempts, hreceipt⟩ := h.created ha row' hb
      obtain ⟨row₂, hc', hkept'⟩ := h'.kept row' hb
      cases hc'.symm.trans hc
      exact ⟨hkept'.attempts.trans hattempts, fun hs => (hkept'.receipt hs).trans (hreceipt hs)⟩

theorem RowChange.map {stores : Bool} {p : RecoveryChallenge → Bool} {f : RecoveryChallenge → RecoveryChallenge}
    (hf : ∀ row, p row = true → RowKept stores row (f row)) (old : Option RecoveryChallenge) :
    RowChange stores old (old.map fun row => if p row then f row else row) := by
  refine ⟨fun row h => ⟨_, congrArg (Option.map _) h, ?_⟩, fun h row' h' => by rw [h] at h'; cases h'⟩
  dsimp only
  split_ifs with hp
  · exact hf row hp
  · exact .refl stores row

theorem rowChange_of_change (hcount : allowed .count = false) (h : Change allowed tables tables') :
    RowChange (allowed (.receipt challengeId)) (tables.challenges.find? challengeId)
    (tables'.challenges.find? challengeId) := by
  cases h with
  | approvals | slots => exact .refl _ _
  | insertSlot hinsert =>
    obtain ⟨⟨slots, -, rfl⟩, -⟩ := insertSlot_eq_ok hinsert
    exact .refl _ _
  | enroll henroll =>
    obtain ⟨roots, rootKeys, -, -, rfl⟩ := enrollInitialRoot_eq_ok henroll
    exact .refl _ _
  | replace hreplace =>
    obtain ⟨roots, rootKeys, -, -, rfl⟩ := replaceRoot_eq_ok hreplace
    simp only [Tables.endChallenges, Table.find?_update]
    exact RowChange.map (f := fun row => { row with consumedAt := some _ })
      (fun row _ => ⟨⟨rfl, rfl, rfl, fun _ => rfl⟩, rfl, fun _ => rfl⟩) _
  | challenges p f hf hstep =>
    simp only [Table.find?_update]
    exact RowChange.map (fun row hp =>
      ⟨(hstep row hp).toChallengeStep, (hstep row hp).attempts, fun _ => (hstep row hp).receipt⟩) _
  | allocate row challenges hprior hattempts hreceipt hinsert =>
    refine ⟨fun old hold => ?_, fun hnone row' hrow' => ?_⟩
    · exact Table.grows_insert? (RowKept.refl _) hinsert challengeId old hold
    rw [Table.find?_of_insert? hinsert] at hrow'
    split_ifs at hrow'
    · cases hrow'
      exact ⟨hattempts, fun _ => hreceipt⟩
    · cases hnone.symm.trans hrow'
  | attempt attempt hallowed => cases hcount.symm.trans hallowed
  | receipt stored receipt now hallowed =>
    simp only [Tables.storeReceipt, Table.find?_update]
    by_cases hsame : stored = challengeId
    · subst hsame
      exact RowChange.map (fun row _ =>
        ⟨storeReceipt_step receipt now row, rfl, fun hs => by cases hs.symm.trans hallowed⟩) _
    cases hrow : tables.challenges.find? challengeId with
    | none => exact .refl _ _
    | some row =>
      have hother : row.challengeId ≠ stored := fun heq => hsame (heq.symm.trans (Table.find?_key hrow))
      rw [Option.map_some, if_neg fun h => hother (of_decide_eq_true h)]
      exact .refl _ _

variable {call : Call} {outcome : Outcome}

theorem rowChange_of_exec (h : execRegistry crypto registry call = (registry', outcome))
    (hcount : call.request.allows .count = false) (challengeId : Uuid) :
    RowChange (call.request.allows (.receipt challengeId)) (registry.tables.challenges.find? challengeId)
      (registry'.tables.challenges.find? challengeId) :=
  (changes_of_exec h).relates
    (fun _ => .refl _ _) (fun _ _ _ hab hbc => hab.trans hbc) fun _ _ => rowChange_of_change hcount

/-! ## Answers -/

/-- A challenge that can be answered. -/
structure Answerable (tables : Tables) (submission : RecoverySubmission) (now : Instant)
    (row : RecoveryChallenge) : Prop where
  found : tables.challenges.find? submission.challengeId = some row
  deploymentId : row.deploymentId = submission.deploymentId
  pending : row.consumedAt = none
  live : now < row.expiresAt

variable {controllerId : String} {now : Instant} {submission : RecoverySubmission}

theorem answerable_of_mismatch {error : RecoveryRootError}
    (h : submitRecoveryChallenge crypto tables submission controllerId now = .error error)
    (hmismatch : error.isMismatch = true) : ∃ row, Answerable tables submission now row := by
  unfold submitRecoveryChallenge at h
  split at h
  · cases h
    cases hmismatch
  split at h
  · cases h
    cases hmismatch
  rename_i row hrow
  obtain ⟨hfind, hdeployment⟩ := Option.filter_eq_some_iff.mp hrow
  split at h
  · -- the errors of a consumed challenge are no mismatches
    unfold submitConsumed at h
    split at h
    · cases h
      cases hmismatch
    split at h
    · cases h
      cases hmismatch
    split at h
    · cases h
      cases hmismatch
    · cases h
  · rename_i hpending
    split at h
    · cases h
      cases hmismatch
    · rename_i hlive
      exact ⟨row, hfind, of_decide_eq_true hdeployment, Option.not_isSome_iff_eq_none.mp hpending,
        Int.not_le.mp hlive⟩

/-- A submission, by its outcome. -/
inductive Submitted (crypto : ControllerCrypto) (registry registry' : Registry)
    (submission : RecoverySubmission) (now : Instant) : Outcome → Prop
  | committed (commit : RecoveredSlotCommit)
      (h : Recovers crypto registry.tables registry'.tables submission now commit)
      (hfailures : registry'.failures = registry.failures) :
      Submitted crypto registry registry' submission now (.submitted (.committed commit))
  | receipt (commit : RecoveredSlotCommit) (h : registry' = registry) :
      Submitted crypto registry registry' submission now (.submitted (.receipt commit))
  | refused (error : RecoveryRootError) (h : registry' = registry) (hmismatch : error.isMismatch = false) :
      Submitted crypto registry registry' submission now (.submissionFailed error)
  | wrong (error : RecoveryRootError) (row : RecoveryChallenge)
      (hrow : Answerable registry.tables submission now row)
      (h : registry' = ⟨registry.tables,
        ⟨submission.deploymentId, submission.challengeId, now⟩ :: registry.failures⟩)
      (hmismatch : error.isMismatch = true) : Submitted crypto registry registry' submission now
      (.submissionFailed error)

theorem submitted_of_exec
    (h : execRegistry crypto registry ⟨now, .submit submission controllerId⟩ = (registry', outcome)) :
    Submitted crypto registry registry' submission now outcome := by
  simp only [execRegistry, Registry.submit] at h
  split at h
  · rename_i tables' result hok
    cases h
    rcases submit_eq_ok hok with ⟨rfl, commit, rfl⟩ | ⟨commit, rfl, hrecovers⟩
    · exact .receipt commit rfl
    · exact .committed commit hrecovers rfl
  · rename_i herror
    cases h
    obtain ⟨row, hrow⟩ := answerable_of_mismatch herror rfl
    exact .wrong _ row hrow rfl rfl
  · rename_i herror
    cases h
    obtain ⟨row, hrow⟩ := answerable_of_mismatch herror rfl
    exact .wrong _ row hrow rfl rfl
  · rename_i error hnonce hsignature herror
    cases h
    refine .refused error rfl ?_
    cases error with
    | nonceMismatch => exact absurd rfl hnonce
    | invalidSignature => exact absurd rfl hsignature
    | _ => rfl

/-! ## The counts -/

structure AttemptsInv (log : List (Call × Outcome)) (registry : Registry) : Prop where
  counted : ∀ challengeId row, registry.tables.challenges.find? challengeId = some row → row.consumedAt = none →
    row.attempts = log.countP (isCount challengeId) ∧ row.attempts < maxRecoveryChallengeAttempts
  absent : ∀ challengeId, registry.tables.challenges.find? challengeId = none →
    log.countP (isCount challengeId) = 0
  /-- The counts that are outstanding are of answers in time. -/
  failures : ∀ attempt ∈ registry.failures, ∃ row, registry.tables.challenges.find? attempt.challengeId = some row
    ∧ row.deploymentId = attempt.deploymentId ∧ attempt.now < row.expiresAt

theorem pending_of_step {row row' : RecoveryChallenge} (h : ChallengeStep row row')
    (hpending : row'.consumedAt = none) : row.consumedAt = none := by
  by_contra hsome
  have hconsumed := h.consumed (Option.isSome_iff_ne_none.mpr hsome)
  rw [hpending] at hconsumed
  cases hconsumed

variable {e : Call × Outcome}

theorem attemptsInv_of_uncounted {stores : Uuid → Bool} (hinv : AttemptsInv log registry)
    (hrows : ∀ c, RowChange (stores c) (registry.tables.challenges.find? c) (registry'.tables.challenges.find? c))
    (hevent : ∀ c, isCount c e = false)
    (hfailures : ∀ attempt ∈ registry'.failures, attempt ∈ registry.failures ∨ ∃ row,
      registry.tables.challenges.find? attempt.challengeId = some row
        ∧ row.deploymentId = attempt.deploymentId ∧ attempt.now < row.expiresAt) :
    AttemptsInv (e :: log) registry' := by
  have hcount : ∀ c, (e :: log).countP (isCount c) = log.countP (isCount c) :=
    fun c => List.countP_cons_of_neg (by simp [hevent c])
  refine ⟨fun c row' hrow' hpending => ?_, fun c hnone => ?_, fun attempt hattempt => ?_⟩
  · rw [hcount c]
    cases hold : registry.tables.challenges.find? c with
    | none =>
      obtain ⟨hattempts, -⟩ := (hrows c).created hold row' hrow'
      rw [hattempts, hinv.absent c hold]
      exact ⟨rfl, by decide⟩
    | some row =>
      obtain ⟨row'', hrow'', hkept⟩ := (hrows c).kept row hold
      cases hrow''.symm.trans hrow'
      rw [hkept.attempts]
      exact hinv.counted c row hold (pending_of_step hkept.toChallengeStep hpending)
  · rw [hcount c]
    refine hinv.absent c ?_
    by_contra hsome
    obtain ⟨row, hrow⟩ := Option.ne_none_iff_exists'.mp hsome
    obtain ⟨row', hrow', -⟩ := (hrows c).kept row hrow
    cases hnone.symm.trans hrow'
  · obtain ⟨row, hrow, hdeployment, hlive⟩ := (hfailures attempt hattempt).elim (hinv.failures attempt) id
    obtain ⟨row', hrow', hkept⟩ := (hrows _).kept row hrow
    exact ⟨row', hrow', hkept.deploymentId.trans hdeployment, hkept.expiresAt ▸ hlive⟩

theorem find?_recordFailedAttempt (attempt : FailedAttempt) (c : Uuid) :
    (recordFailedAttempt tables attempt).challenges.find? c
    = (tables.challenges.find? c).map fun row => if attempt.counts row then row.attempted attempt.now else row :=
  @Table.find?_update _ _ _ _ tables.challenges attempt.counts (·.attempted attempt.now) (fun _ => rfl) c

/-- The invariant over a count: the challenge of an outstanding count is there, and in time. -/
theorem attemptsInv_of_count {attempt : FailedAttempt} (hinv : AttemptsInv log registry)
    (hmem : attempt ∈ registry.failures) :
    AttemptsInv ((⟨now, .record attempt⟩, .recorded) :: log)
      ⟨recordFailedAttempt registry.tables attempt, registry.failures.erase attempt⟩ := by
  obtain ⟨row, hrow, hdeployment, hlive⟩ := hinv.failures attempt hmem
  refine ⟨fun c row' hrow' hpending => ?_, fun c hnone => ?_, fun other hother => ?_⟩
  · rw [find?_recordFailedAttempt, Option.map_eq_some_iff] at hrow'
    obtain ⟨old, hold, rfl⟩ := hrow'
    by_cases hsame : attempt.challengeId = c
    · subst hsame
      cases hrow.symm.trans hold
      have hunconsumed : row.consumedAt = none := by
        split_ifs at hpending with hcounts
        · exact pending_of_step (attempted_step hcounts) hpending
        · exact hpending
      obtain ⟨hattempts, hlimit⟩ := hinv.counted _ row hrow hunconsumed
      have hcounts : attempt.counts row = true := by
        simp [FailedAttempt.counts, Table.find?_key hrow, hdeployment, hunconsumed, hlive, hlimit]
      rw [if_pos hcounts] at hpending ⊢
      rw [List.countP_cons_of_pos (by exact decide_eq_true rfl)]
      refine ⟨congrArg (· + 1) hattempts, ?_⟩
      show row.attempts + 1 < maxRecoveryChallengeAttempts
      by_contra hreached
      simp only [RecoveryChallenge.attempted, if_pos (Nat.le_of_not_lt hreached)] at hpending
      cases hpending
    · have hother : attempt.counts old = false := by
        have hne : old.challengeId ≠ attempt.challengeId :=
          fun heq => hsame (heq.symm.trans (Table.find?_key hold))
        simp [FailedAttempt.counts, hne]
      rw [hother] at hpending ⊢
      rw [List.countP_cons_of_neg (by simp [isCount, hsame])]
      exact hinv.counted c old hold hpending
  · rw [find?_recordFailedAttempt, Option.map_eq_none_iff] at hnone
    have hne : attempt.challengeId ≠ c := fun heq => by cases (heq ▸ hrow).symm.trans hnone
    rw [List.countP_cons_of_neg (by simp [isCount, hne])]
    exact hinv.absent c hnone
  · obtain ⟨old, hold, hdeployment', hlive'⟩ := hinv.failures other (List.mem_of_mem_erase hother)
    refine ⟨_, (find?_recordFailedAttempt attempt _).trans (congrArg _ hold), ?_⟩
    dsimp only
    split_ifs
    · exact ⟨hdeployment', hlive'⟩
    · exact ⟨hdeployment', hlive'⟩

theorem isCount_of_not_record (hcount : call.request.allows .count = false) (outcome : Outcome)
    (c : Uuid) : isCount c (call, outcome) = false := by
  obtain ⟨now, request⟩ := call
  cases request with
  | record => cases hcount
  | _ => rfl

theorem failures_of_exec (h : execRegistry crypto registry call = (registry', outcome)) :
    ∀ attempt ∈ registry'.failures, attempt ∈ registry.failures ∨ ∃ row,
      registry.tables.challenges.find? attempt.challengeId = some row
        ∧ row.deploymentId = attempt.deploymentId ∧ attempt.now < row.expiresAt := by
  intro attempt hattempt
  have hsettle : ∀ {ε α : Type} {result : Except ε (Tables × α)} {done : α → Outcome} {failed : ε → Outcome},
      registry.settle result done failed = (registry', outcome) → registry'.failures = registry.failures := by
    intro ε α result done failed h
    rcases settle_cases h with ⟨error, -, rfl, -⟩ | ⟨tables', answer, -, rfl, -⟩
    · rfl
    · rfl
  obtain ⟨now, request⟩ := call
  cases request with
  | submit =>
    cases submitted_of_exec h with
    | committed commit _ hfailures => exact .inl (hfailures ▸ hattempt)
    | receipt commit hsame | refused error hsame => exact .inl (hsame ▸ hattempt)
    | wrong error row hrow hsame =>
      subst hsame
      rcases List.mem_cons.mp hattempt with rfl | hold
      · exact .inr ⟨row, hrow.found, hrow.deploymentId, hrow.live⟩
      · exact .inl hold
  | record =>
    simp only [execRegistry, Registry.record] at h
    split_ifs at h
    · cases h
      exact .inl (List.mem_of_mem_erase hattempt)
    · cases h
      exact .inl hattempt
  | cleanup =>
    cases h
    exact .inl hattempt
  | _ => exact .inl (hsettle h ▸ hattempt)

theorem attemptsInv_step (hinv : AttemptsInv log registry)
    (h : execRegistry crypto registry call = (registry', outcome)) :
    AttemptsInv ((call, outcome) :: log) registry' := by
  cases hcount : call.request.allows .count with
  | false =>
    exact attemptsInv_of_uncounted hinv (rowChange_of_exec h hcount) (isCount_of_not_record hcount outcome)
      (failures_of_exec h)
  | true =>
    obtain ⟨now, request⟩ := call
    cases request with
    | record attempt =>
      simp only [execRegistry, Registry.record] at h
      split_ifs at h with hmem
      · cases h
        exact attemptsInv_of_count hinv hmem
      · cases h
        exact attemptsInv_of_uncounted hinv (fun c => RowChange.refl false _) (fun c => rfl) fun attempt => .inl
    | _ => cases hcount

theorem attemptsInv_of_run (h : Run (execRegistry crypto) Registry.empty log registry) :
    AttemptsInv log registry := by
  induction h with
  | nil => exact ⟨fun c row hrow => (by cases hrow), fun c _ => rfl, fun attempt hattempt => (by cases hattempt)⟩
  | cons _ hexec ih => exact attemptsInv_step ih hexec

/-! ## Wrong answers -/

/-- What is known of one challenge, if at most `k` wrong answers are not counted when an answer
comes. -/
structure AnswersInv (k : Nat) (challengeId : Uuid) (log : List (Call × Outcome))
    (registry : Registry) : Prop where
  wrong : log.countP (isWrong challengeId) ≤ maxRecoveryChallengeAttempts + k
  /-- The limit was not reached before a recovery. -/
  receipt : ∀ row, registry.tables.challenges.find? challengeId = some row → row.receipt.isSome →
    row.consumedAt.isSome ∧ log.countP (isWrong challengeId) < maxRecoveryChallengeAttempts + k

theorem wrong_lt_of_pending {row : RecoveryChallenge} (hinv : AttemptsInv log registry)
    (hcounted : CountedWithin k challengeId (e :: log)) (hanswer : isAnswer challengeId e = true)
    (hrow : registry.tables.challenges.find? challengeId = some row) (hpending : row.consumedAt = none) :
    log.countP (isWrong challengeId) < maxRecoveryChallengeAttempts + k := by
  obtain ⟨hattempts, hlimit⟩ := hinv.counted challengeId row hrow hpending
  have hwithin := hcounted.1 hanswer
  omega

theorem isWrong_eq_false (h : isAnswer challengeId e = false) : isWrong challengeId e = false := by
  rw [isWrong, h, Bool.false_and]

/-- A receipt that is there after an event that is no answer was there before it. -/
theorem receipt_of_exec {row' : RecoveryChallenge}
    (h : execRegistry crypto registry call = (registry', outcome))
    (hanswer : isAnswer challengeId (call, outcome) = false)
    (hrow' : registry'.tables.challenges.find? challengeId = some row') (hsome : row'.receipt.isSome) :
    ∃ row, registry.tables.challenges.find? challengeId = some row ∧ row.receipt.isSome
      ∧ ChallengeStep row row' := by
  cases hcount : call.request.allows .count with
  | false =>
    have hstores : call.request.allows (.receipt challengeId) = false := by
      obtain ⟨now, request⟩ := call
      cases request with
      | submit => exact hanswer
      | _ => rfl
    have hchange := rowChange_of_exec h hcount challengeId
    cases hold : registry.tables.challenges.find? challengeId with
    | none =>
      rw [(hchange.created hold row' hrow').2 hstores] at hsome
      cases hsome
    | some row =>
      obtain ⟨row'', hrow'', hkept⟩ := hchange.kept row hold
      cases hrow''.symm.trans hrow'
      exact ⟨row, rfl, hkept.receipt hstores ▸ hsome, hkept.toChallengeStep⟩
  | true =>
    obtain ⟨now, request⟩ := call
    cases request with
    | record =>
      simp only [execRegistry, Registry.record] at h
      split_ifs at h with hmem
      · cases h
        rw [find?_recordFailedAttempt, Option.map_eq_some_iff] at hrow'
        obtain ⟨row, hrow, rfl⟩ := hrow'
        refine ⟨row, hrow, ?_⟩
        split_ifs at hsome ⊢ with hcounts
        · exact ⟨hsome, attempted_step hcounts⟩
        · exact ⟨hsome, .refl row⟩
      · cases h
        exact ⟨row', hrow', hsome, .refl row'⟩
    | _ => cases hcount

theorem answersInv_step (hattempts : AttemptsInv log registry)
    (hcounted : CountedWithin k challengeId ((call, outcome) :: log))
    (hinv : AnswersInv k challengeId log registry)
    (h : execRegistry crypto registry call = (registry', outcome)) :
    AnswersInv k challengeId ((call, outcome) :: log) registry' := by
  -- unless the event is a wrong answer, the number of wrong answers stays
  have hsame : isWrong challengeId (call, outcome) = false →
    (∀ row', registry'.tables.challenges.find? challengeId = some row' →
      row'.receipt.isSome → row'.consumedAt.isSome
        ∧ log.countP (isWrong challengeId) < maxRecoveryChallengeAttempts + k) →
      AnswersInv k challengeId ((call, outcome) :: log) registry' := by
    intro hright hreceipt
    have hcount : ((call, outcome) :: log).countP (isWrong challengeId) = log.countP (isWrong challengeId) :=
      List.countP_cons_of_neg (by simp [hright])
    exact ⟨hcount ▸ hinv.wrong, fun row' hrow' hsome => hcount ▸ hreceipt row' hrow' hsome⟩
  cases hanswer : isAnswer challengeId (call, outcome) with
  | false =>
    refine hsame (isWrong_eq_false hanswer) fun row' hrow' hsome => ?_
    obtain ⟨row, hrow, hreceipt, hstep⟩ := receipt_of_exec h hanswer hrow' hsome
    obtain ⟨hconsumed, hlt⟩ := hinv.receipt row hrow hreceipt
    exact ⟨hstep.consumed hconsumed, hlt⟩
  | true =>
    obtain ⟨now, request⟩ := call
    cases request with
    | submit submission =>
      obtain rfl : submission.challengeId = challengeId := of_decide_eq_true hanswer
      cases submitted_of_exec h with
      | committed commit hrecovers =>
        refine hsame (by simp [isWrong]) fun row' hrow' _ => ?_
        have hsafe := safe_of_recovers hrecovers
        obtain ⟨row, root, hrow, -, hpending, -⟩ := hsafe.signed
        obtain ⟨row'', hrow'', hconsumed⟩ := hsafe.consumed
        cases hrow''.symm.trans hrow'
        exact ⟨hconsumed, wrong_lt_of_pending hattempts hcounted hanswer hrow hpending⟩
      | receipt commit hregistry => exact hsame (by simp [isWrong]) (hregistry ▸ hinv.receipt)
      | refused error hregistry hmismatch => exact hsame (by simp [isWrong, hmismatch]) (hregistry ▸ hinv.receipt)
      | wrong error row hrow hregistry hmismatch =>
        subst hregistry
        have hlt := wrong_lt_of_pending hattempts hcounted hanswer hrow.found hrow.pending
        refine ⟨?_, fun row' hrow' hsome => ?_⟩
        · rw [List.countP_cons_of_pos (by simp [isWrong, hanswer, hmismatch])]
          exact hlt
        cases hrow.found.symm.trans hrow'
        have hconsumed := (hinv.receipt row hrow.found hsome).1
        rw [hrow.pending] at hconsumed
        cases hconsumed
    | _ => cases hanswer

theorem answersInv_of_run (h : Run (execRegistry crypto) Registry.empty log registry)
    (hcounted : CountedWithin k challengeId log) : AnswersInv k challengeId log registry := by
  refine h.invariant (fun _ _ h => h.2) ?_ ?_ hcounted
  · exact ⟨Nat.zero_le _, fun row hrow => (by cases hrow)⟩
  · intro log registry call registry' outcome hrun hcounted hinv hexec
    exact answersInv_step (attemptsInv_of_run hrun) hcounted hinv hexec

/-- The errors of a submission whose nonce and signature are not compared. -/
def RecoveryRootError.isUncompared : RecoveryRootError → Bool
  | .invalidIdentity reason => reason = "deployment_id is invalid"
  | .challengeUnknown => true
  | .challengeExhausted => true
  | .challengeReplayed => true
  | _ => false

theorem refused_of_consumed
    (h : execRegistry crypto registry ⟨now, .submit submission controllerId⟩ = (registry', outcome))
    (hconsumed : ∀ row, registry.tables.challenges.find? submission.challengeId = some row →
      row.consumedAt.isSome ∧ row.receipt = none) :
    ∃ error, outcome = .submissionFailed error ∧ error.isUncompared = true := by
  have herror : ∃ error, submitRecoveryChallenge crypto registry.tables submission controllerId now = .error error
      ∧ error.isUncompared = true := by
    unfold submitRecoveryChallenge
    split
    · exact ⟨_, rfl, rfl⟩
    split
    · exact ⟨_, rfl, rfl⟩
    rename_i row hrow
    obtain ⟨hsome, hreceipt⟩ := hconsumed row (Option.filter_eq_some_iff.mp hrow).1
    rw [submitConsumed, hreceipt]
    split_ifs
    · exact ⟨_, rfl, rfl⟩
    · exact ⟨_, rfl, rfl⟩
  obtain ⟨error, herror, huncompared⟩ := herror
  simp only [execRegistry, Registry.submit, herror] at h
  refine ⟨error, ?_, huncompared⟩
  cases error with
  | nonceMismatch | invalidSignature => cases huncompared
  | _ => exact (Prod.mk.inj h).2.symm

/-- At most five wrong answers to a challenge; after them every answer is refused without a
comparison. -/
structure FiveWrongAnswers (crypto : ControllerCrypto) (challengeId : Uuid)
    (log : List (Call × Outcome)) : Prop where
  wrong : log.countP (isWrong challengeId) ≤ 5
  refused : ∀ newer older before now submission controllerId outcome,
    log = newer ++ (⟨now, .submit submission controllerId⟩, outcome) :: older →
    submission.challengeId = challengeId →
    Run (execRegistry crypto) Registry.empty older before → 5 ≤ older.countP (isWrong challengeId) →
    (∀ row, before.tables.challenges.find? challengeId = some row → row.consumedAt.isSome ∧ row.receipt = none)
      ∧ ∃ error, outcome = .submissionFailed error ∧ error.isUncompared = true

/-- **Five wrong answers**, if each one is counted before the next answer comes. -/
theorem five_wrong_answers (h : Run (execRegistry crypto) Registry.empty log registry)
    (hcounted : CountedWithin 0 challengeId log) : FiveWrongAnswers crypto challengeId log where
  wrong := (answersInv_of_run h hcounted).wrong
  refused := by
    intro newer older before now submission controllerId outcome hlog hchallenge hbefore hfive
    subst hchallenge
    subst hlog
    obtain ⟨after, hafter, -⟩ := h.split
    cases hafter with
    | cons hrun hexec =>
      obtain rfl := hbefore.unique hrun
      have hanswer : isAnswer submission.challengeId (⟨now, .submit submission controllerId⟩, outcome) = true :=
        decide_eq_true rfl
      have hwithin := hcounted.of_append
      have hconsumed : ∀ row, before.tables.challenges.find? submission.challengeId = some row →
          row.consumedAt.isSome ∧ row.receipt = none := by
        intro row hrow
        constructor
        · by_contra hnone
          have hlt := wrong_lt_of_pending (attemptsInv_of_run hrun) hwithin hanswer hrow
            (Option.not_isSome_iff_eq_none.mp hnone)
          exact Nat.not_lt_of_le hfive hlt
        · by_contra hsome
          have hlt := ((answersInv_of_run hrun hwithin.2).receipt row hrow (Option.isSome_iff_ne_none.mpr hsome)).2
          exact Nat.not_lt_of_le hfive hlt
      exact ⟨hconsumed, refused_of_consumed hexec hconsumed⟩

def wrongCall : Call := ⟨seconds 2592002, .submit ⟨"site", 9, [0], [7]⟩ "controller-2"⟩

def countCall : Call := ⟨seconds 2592002, .record ⟨"site", 9, seconds 2592002⟩⟩

/-- Five wrong answers, each one counted, and the right one. -/
def countedCalls : List Call :=
  lockedOutCalls ++ [wrongCall, countCall, wrongCall, countCall, wrongCall, countCall, wrongCall, countCall,
  wrongCall, countCall, ⟨seconds 2592003, .submit ⟨"site", 9, [6], [7]⟩ "controller-2"⟩]

theorem five_wrong_answers_counted :
    (execAll (execRegistry plainCrypto) Registry.empty [] countedCalls).1.countP (isWrong 9) = 5
      ∧ ((execAll (execRegistry plainCrypto) Registry.empty [] countedCalls).1.head?.map Prod.snd)
      = some (.submissionFailed .challengeExhausted)
      ∧ FiveWrongAnswers plainCrypto 9 (execAll (execRegistry plainCrypto) Registry.empty [] countedCalls).1 :=
  ⟨by decide +kernel, by decide +kernel, five_wrong_answers (run_execAll _ _) (by decide +kernel)⟩

/-- Six answers are compared before the first one is counted. -/
def uncountedCalls : List Call := lockedOutCalls ++ List.replicate 6 wrongCall

theorem six_wrong_answers_compared : ∃ log registry, Run (execRegistry plainCrypto) Registry.empty log registry
    ∧ log.countP (isWrong 9) = 6 :=
  ⟨_, _, run_execAll _ uncountedCalls, by decide +kernel⟩

end NazoAuth.Controller
