import NazoAuth.Operator.Durability

/-!
# Operator journal — cleanup

The server removes the records of operations that were completed long enough ago. It looks for them
without the task lock, so that it may meet the files of an operation at any moment of an attempt;
before it removes a record it takes the lock, which no attempt holds then, and looks again. A round
of cleanup is a sequence of such entries, with attempts between them: its batches and its time
budget only decide where it pauses or ends.
-/

namespace NazoAuth.Operator

open Lib Prog

def maxCleanupRecordBytes : Nat := maxControlResultBytes + 4096

section Model

variable {δ : Type} [DecidableEq δ] (f : DataFormat δ) (recordLength : OperationJournalRecord δ → Nat)

/-- The record, if its serialization is within the limit. -/
def readBounded : Content δ → Except String (OperationJournalRecord δ)
  | .torn => decodeRecord f .torn
  | .json record =>
    if maxCleanupRecordBytes < recordLength record
      then .error "control journal cleanup record exceeds its read budget"
    else decodeRecord f (.json record)

def OperationJournalRecord.completedBy (record : OperationJournalRecord δ) (cutoff : Int) : Bool :=
  record.phase = .completed && record.result.any fun result => result.completedAt.any (· ≤ cutoff)

/-- Only a record has a name that ends in `.journal.json`. -/
def expiredCleanupCandidate (file : FileName) (cutoff : Int) : Journal δ Bool :=
  match file with
  | .record id =>
    .call (.present (.record id)) fun present =>
      if !present.toOption.getD false then .pure false
      else .call (.present (.temporary id)) fun temporary =>
        if temporary.toOption.getD true then .pure false
        else .call (.read (.record id)) fun reply =>
          .pure ((reply >>= readBounded f recordLength).toOption.any fun record =>
            decide (record.operationId = id) && record.completedBy cutoff)
  | _ => .pure false

/-- The argument `lock` is the answer when the task lock is opened and tried: it may be held by an
attempt. -/
def deleteExpiredCleanupCandidate (lock : Except String Bool) (file : FileName) (cutoff : Int) :
    Journal δ Bool := do
  if !(← transport lock) then return false
  if !(← expiredCleanupCandidate f recordLength file cutoff) then return false
  .call (.removeFile file) fun reply => do
    transport reply
    return true

/-- One entry of a round. -/
structure CleanupOp (δ : Type) where
  file : FileName
  cutoff : Int
  /-- What the calls of the first look meet. -/
  scan : List (Directory δ × Input δ)
  lock : Except String Bool
  /-- What the calls under the lock meet. The process is stopped where they end. -/
  inputs : List (Input δ)

def cleanupEntry (d : Directory δ) (op : CleanupOp δ) : Directory δ × Option (Except JournalFlowError Bool) :=
  let hint := (expiredCleanupCandidate f recordLength op.file op.cutoff).execute
    (fun _ c (i : Directory δ × Input δ) => ((), (handle i.1 c i.2).2)) () op.scan
  match hint.result with
  | some (.ok true) =>
    let e := (deleteExpiredCleanupCandidate f recordLength op.lock op.file op.cutoff).execute handle d op.inputs
    (e.state, e.result)
  | result => (d, result)

inductive Turn (δ : Type) where
  | attempt (op : Op δ)
  | cleanup (op : CleanupOp δ)

/-- Attempts and cleanup on one journal directory, in the order in which they hold the lock. Of an
attempt only the files count here. -/
def turn (d : Directory δ) : Turn δ → Directory δ × Option (Except JournalFlowError Bool)
  | .attempt op => ((exec f d op).1, none)
  | .cleanup op => cleanupEntry f recordLength d op

abbrev Turns (δ : Type) := List (Turn δ × Option (Except JournalFlowError Bool))

end Model

variable {δ : Type} {f : DataFormat δ} {recordLength : OperationJournalRecord δ → Nat}
  {clean : Prop} {cutoff : Int} {d d' d'' : Directory δ}

/-! ## What cleanup removes -/

/-- The operation is completed since `cutoff`, and no temporary is beside its record. -/
structure Finished (cutoff : Int) (x : Files δ) (r : OperationJournalRecord δ) : Prop where
  record : x.record = some (.json r)
  completed : r.completedBy cutoff = true
  temporary : x.temporary = none

/-- Without a temporary a restart finds the published record. -/
theorem Finished.recorded {x : Files δ} {r : OperationJournalRecord δ} (h : Finished cutoff x r) :
    x.recorded? = some r := by
  rw [Files.recorded?, h.temporary, Files.published?, h.record]

/-- Every file is as before, or it was the record of an operation that is finished. -/
def Cleaned (cutoff : Int) (d d' : Directory δ) : Prop :=
  ∀ file, d' file = d file ∨ ∃ id r, file = .record id ∧ Finished cutoff (d.files id) r ∧ d' file = none

theorem Cleaned.refl (d : Directory δ) : Cleaned cutoff d d := fun _ => .inl rfl

theorem Cleaned.files (h : Cleaned cutoff d d') (id : String) :
    d'.files id = d.files id ∨ ∃ r, Finished cutoff (d.files id) r ∧ d'.files id = ⟨none, none⟩ := by
  have htemporary : d' (.temporary id) = d (.temporary id) := by
    rcases h (.temporary id) with hsame | ⟨id', r, hfile, -⟩
    · exact hsame
    · cases hfile
  rcases h (.record id) with hsame | ⟨id', r, hfile, hfinished, hnone⟩
  · exact .inl (by rw [Directory.files, hsame, htemporary, Directory.files])
  · cases hfile
    exact .inr ⟨r, hfinished, by rw [Directory.files, hnone, htemporary]; exact congrArg _ hfinished.temporary⟩

theorem Cleaned.trans (d d' d'' : Directory δ) (h : Cleaned cutoff d d')
    (h' : Cleaned cutoff d' d'') : Cleaned cutoff d d'' := by
  intro file
  rcases h file with hsame | ⟨id, r, hfile, hfinished, hnone⟩
  · rcases h' file with hsame' | ⟨id, r, hfile, hfinished, hnone⟩
    · exact .inl (hsame'.trans hsame)
    · rcases h.files id with hfiles | ⟨-, -, hfiles⟩
      · exact .inr ⟨id, r, hfile, hfiles ▸ hfinished, hnone⟩
      · cases (hfiles ▸ hfinished).record
  · rcases h' file with hsame' | ⟨-, -, -, -, hnone'⟩
    · exact .inr ⟨id, r, hfile, hfinished, hsame'.trans hnone⟩
    · exact .inr ⟨id, r, hfile, hfinished, hnone'⟩

theorem readBounded_eq_ok {c : Content δ} {r : OperationJournalRecord δ}
    (h : readBounded f recordLength c = .ok r) : c = .json r := by
  cases c with
  | torn => cases h
  | json record =>
    simp only [readBounded, decodeRecord] at h
    split_ifs at h
    obtain ⟨_, -, h⟩ := of_bind h
    cases h
    rfl

theorem read_of_handle (d : Directory δ) (file : FileName) (i : Input δ) :
    (handle d (.read file) i).1 = d ∧ ∀ c, (handle d (.read file) i).2 = .ok c → d file = some c := by
  by_cases hio : i.io = .done
  · cases hfile : d file with
    | none => simp [handle, hio, hfile]
    | some => simp [handle, hio, hfile]
  · simp [handle, hio]

/-- The check leaves all files, and what passes it is finished. -/
theorem spec_expiredCleanupCandidate (file : FileName) (d : Directory δ) :
    Spec handle (fun _ => True) (fun _ _ => True) (Cleaned cutoff)
    (expiredCleanupCandidate f recordLength file cutoff) d
      fun result d' => d' = d ∧ (result = .ok true → ∃ id r, file = .record id
        ∧ Finished cutoff (d.files id) r) := by
  cases file with
  | temporary | publish => exact spec_pure (.refl d) ⟨rfl, nofun⟩
  | record id =>
    refine spec_call Cleaned.trans (.refl d) trivial fun i _ => ?_
    have hstate : (handle d (.present (.record id)) i).1 = d := by simp only [handle]; split_ifs <;> rfl
    rw [hstate]
    refine ⟨.refl d, ?_⟩
    split_ifs
    · exact spec_pure (.refl d) ⟨rfl, nofun⟩
    refine spec_call Cleaned.trans (.refl d) trivial fun j _ => ?_
    by_cases hio : j.io = .done
    swap
    · simp only [handle, if_neg hio]
      exact ⟨.refl d, spec_pure (.refl d) ⟨rfl, nofun⟩⟩
    simp only [handle, if_pos hio]
    refine ⟨.refl d, ?_⟩
    split_ifs with htemporary
    · exact spec_pure (.refl d) ⟨rfl, nofun⟩
    have hnone : d (.temporary id) = none := Option.not_isSome_iff_eq_none.mp htemporary
    refine spec_call Cleaned.trans (.refl d) trivial fun k _ => ?_
    obtain ⟨hstate, hread⟩ := read_of_handle d (.record id) k
    rw [hstate]
    refine ⟨.refl d, spec_pure (.refl d) ⟨rfl, fun hpasses => ?_⟩⟩
    obtain ⟨r, hr, hpasses⟩ := (Option.any_eq_true _ _).mp (Except.ok.inj hpasses)
    obtain ⟨c, hc, hr⟩ := of_bind (toOption_eq_some.mp hr)
    cases readBounded_eq_ok hr
    exact ⟨id, r, rfl, hread _ hc, (Bool.and_eq_true _ _ ▸ hpasses).2, hnone⟩

theorem spec_deleteExpiredCleanupCandidate (lock : Except String Bool) (file : FileName)
    (d : Directory δ) : Spec handle (fun _ => True) (fun _ _ => True) (Cleaned cutoff)
      (deleteExpiredCleanupCandidate f recordLength lock file cutoff) d fun _ _ => True := by
  refine spec_bind Cleaned.trans (spec_ofExcept (.refl d) ?_)
  cases lock with
  | error => exact trivial
  | ok held =>
    cases held with
    | false => exact spec_pure (.refl d) trivial
    | true =>
      refine spec_bind Cleaned.trans
        (spec_mono (spec_expiredCleanupCandidate file d) (fun _ _ h => h) fun result d' _ hresult => ?_)
      obtain ⟨rfl, hpassed⟩ := hresult
      cases result with
      | error => exact trivial
      | ok passes =>
        cases passes with
        | false => exact spec_pure (.refl _) trivial
        | true =>
          obtain ⟨id, r, rfl, hfinished⟩ := hpassed rfl
          refine spec_call Cleaned.trans (.refl _) trivial fun i _ => ⟨?_, ?_⟩
          · intro file
            simp only [handle]
            split_ifs
            · by_cases hfile : file = .record id
              · exact .inr ⟨id, r, hfile, hfinished, by rw [hfile]; exact Function.update_self ..⟩
              · exact .inl (Function.update_of_ne hfile ..)
            · exact .inl rfl
          · refine spec_bind Cleaned.trans (spec_ofExcept (.refl _) ?_)
            split
            · exact spec_pure (.refl _) trivial
            · trivial

/-- **An entry of a round removes at most the record of a finished operation.** -/
theorem cleaned_of_entry (d : Directory δ) (op : CleanupOp δ) :
    Cleaned op.cutoff d (cleanupEntry f recordLength d op).1 := by
  unfold cleanupEntry
  dsimp only
  split
  · exact (spec_deleteExpiredCleanupCandidate op.lock op.file d op.inputs fun _ _ => trivial).2.1
  · exact .refl d

theorem inv_of_cleaned (hi : Inv f clean d) (h : Cleaned cutoff d d') : Inv f clean d' := by
  intro id
  rcases h.files id with hfiles | ⟨-, -, hfiles⟩
  · exact hfiles ▸ hi id
  · rw [hfiles]
    exact inv_empty id

theorem entry_unlocked (d : Directory δ) (op : CleanupOp δ) (hlock : op.lock ≠ .ok true) :
    (cleanupEntry f recordLength d op).1 = d := by
  unfold cleanupEntry
  dsimp only
  split
  · cases h : op.lock with
    | error => rfl
    | ok held =>
      cases held with
      | false => rfl
      | true => exact absurd h hlock
  · rfl

/-! ## Whole histories -/

variable [DecidableEq δ]

section Histories

variable (f : DataFormat δ) (recordLength : OperationJournalRecord δ → Nat) (d : Directory δ)
  (log : Turns δ) (id : String) (r : OperationJournalRecord δ)

/-- A cleanup of the history found the record, or a later phase of it, completed at or before its
cutoff. -/
def Removed : Prop :=
  ∃ op out older d₁ r', (.cleanup op, out) :: older <:+ log ∧ Run (turn f recordLength) d older d₁
    ∧ (d₁.files id).recorded? = some r' ∧ r.Le r' ∧ r'.completedBy op.cutoff = true

/-- The operation has kept its record, or it was removed. -/
def Kept (d' : Directory δ) : Prop :=
  (∃ r', (d'.files id).recorded? = some r' ∧ r.Le r') ∨ Removed f recordLength d log id r

end Histories

theorem kept_of_turn {t : Turn δ} {out : Option (Except JournalFlowError Bool)} (hi : Inv f False d)
    (he : turn f recordLength d t = (d', out)) :
    Inv f False d' ∧ ∀ id r, (d.files id).recorded? = some r → (∃ r', (d'.files id).recorded? = some r' ∧ r.Le r')
      ∨ ∃ op, t = .cleanup op ∧ r.completedBy op.cutoff = true := by
  cases t with
  | attempt op =>
    cases he
    have hlater := later_of_exec op hi False.elim
    exact ⟨hlater.inv, fun id r hr => .inl ((hlater id).recorded r hr)⟩
  | cleanup op =>
    have hstate : (cleanupEntry f recordLength d op).1 = d' := congrArg Prod.fst he
    have hcleaned : Cleaned op.cutoff d d' := hstate ▸ cleaned_of_entry d op
    refine ⟨inv_of_cleaned hi hcleaned, fun id r hr => ?_⟩
    rcases hcleaned.files id with hfiles | ⟨r', hfinished, -⟩
    · exact .inl ⟨r, by rw [hfiles, hr], .refl r⟩
    · cases hfinished.recorded.symm.trans hr
      exact .inr ⟨op, rfl, hfinished.completed⟩

theorem kept_of_run {log : Turns δ} (hi : Inv f False d) (hr : Run (turn f recordLength) d log d') :
    Inv f False d' ∧ ∀ id r, (d.files id).recorded? = some r → Kept f recordLength d log id r d' := by
  induction hr with
  | nil => exact ⟨hi, fun id r hr => .inl ⟨r, hr, .refl r⟩⟩
  | cons hold he ih =>
    obtain ⟨hinv, hkept⟩ := kept_of_turn ih.1 he
    refine ⟨hinv, fun id r hr => ?_⟩
    rcases ih.2 id r hr with ⟨r', hr', hle⟩ | ⟨op, out, older, d₁, r', hsuffix, hremoved⟩
    · rcases hkept id r' hr' with ⟨r'', hr'', hle'⟩ | ⟨op, rfl, hby⟩
      · exact .inl ⟨r'', hr'', hle.trans hle'⟩
      · exact .inr ⟨op, _, _, _, r', List.suffix_rfl, hold, hr', hle, hby⟩
    · exact .inr ⟨op, out, older, d₁, r', hsuffix.trans (List.suffix_cons ..), hremoved⟩

/-- What cleanup does from a directory `d` on. -/
structure CleanupSafe (f : DataFormat δ) (recordLength : OperationJournalRecord δ → Nat)
    (d : Directory δ) : Prop where
  /-- It removes at most a record that is completed, since the cutoff or before, and has no temporary beside it. -/
  removes : ∀ op, Cleaned op.cutoff d (cleanupEntry f recordLength d op).1
  /-- It leaves the files of an operation whose record is not completed. -/
  unfinished : ∀ op id r, (d.files id).recorded? = some r → r.phase ≠ .completed →
    (cleanupEntry f recordLength d op).1.files id = d.files id
  /-- It removes nothing while an attempt holds the lock. -/
  locked : ∀ op, op.lock ≠ .ok true → (cleanupEntry f recordLength d op).1 = d
  /-- What a restart finds of an operation stays or moves on, until a cleanup finds it completed at or before its
  cutoff. -/
  kept : ∀ newer d', Run (turn f recordLength) d newer d' →
    ∀ id r, (d.files id).recorded? = some r → Kept f recordLength d newer id r d'

/-- **Cleanup removes only finished work.** -/
theorem cleanup_safe (f : DataFormat δ) (recordLength : OperationJournalRecord δ → Nat) (log : Turns δ)
    (d : Directory δ) (hr : Run (turn f recordLength) Directory.empty log d) : CleanupSafe f recordLength d where
  removes := cleaned_of_entry d
  unfinished := by
    intro op id r hr hphase
    rcases (cleaned_of_entry d op).files id with hfiles | ⟨r', hfinished, -⟩
    · exact hfiles
    · cases hfinished.recorded.symm.trans hr
      exact absurd (of_decide_eq_true (Bool.and_eq_true _ _ ▸ hfinished.completed).1) hphase
  locked := entry_unlocked d
  kept := fun _ _ hnewer => (kept_of_run (kept_of_run inv_empty hr).1 hnewer).2

/-- A cleanup that finds the record completed, when it looks for the first time. -/
def expiringCleanup : CleanupOp Nat where
  file := .record resumeOperation.operationId
  cutoff := 200
  scan := List.replicate 3 ((exec resumeFormat Directory.empty ⟨resumeOperation, List.replicate 28 resumeInput⟩).1,
    resumeInput)
  lock := .ok true
  inputs := List.replicate 4 resumeInput

/-- An attempt that is stopped, a cleanup, an attempt that ends, and a cleanup. -/
def expiring : Turns Nat × Directory Nat :=
  execAll (turn resumeFormat fun _ => 0) Directory.empty []
    [.attempt ⟨resumeOperation, List.replicate 12 resumeInput⟩, .cleanup expiringCleanup,
      .attempt ⟨resumeOperation, List.replicate 28 resumeInput⟩, .cleanup expiringCleanup]

/-- The first cleanup leaves the record, the second one removes it. -/
theorem cleanup_safe_expiring : CleanupSafe resumeFormat (fun _ => 0) expiring.2
    ∧ expiring.1.map (fun e => e.2.map Except.toOption) = [some (some true), none, some (some false), none]
    ∧ (expiring.2 (.record resumeOperation.operationId)).isNone = true :=
  ⟨cleanup_safe resumeFormat _ expiring.1 expiring.2 (run_execAll _ _), by decide +kernel⟩

end NazoAuth.Operator
