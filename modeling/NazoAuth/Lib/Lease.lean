import Mathlib.Data.List.Basic

/-!
# Leases — work that is finished once, by whoever holds the lease

A row is opened, claimed under an identifier, released or finished by its holder, and may be claimed
again by another one while it is not finished. `LeaseRun` are the histories of one row, newest event
first; a row may be lost at any time.
-/

namespace NazoAuth.Lib

structure Leased (ι : Type) where
  holder : Option ι
  done : Bool

inductive LeaseEvent (ι : Type)
  | opened
  | claimed (id : ι)
  | released (id : ι)
  | finished (id : ι)
  deriving DecidableEq

def LeaseEvent.isOpened {ι : Type} : LeaseEvent ι → Bool
  | .opened => true
  | _ => false

def LeaseEvent.isFinished {ι : Type} : LeaseEvent ι → Bool
  | .finished _ => true
  | _ => false

/-- An event of a row that is there before or after it. -/
inductive LeaseStep {ι : Type} : Option (Leased ι) → LeaseEvent ι → Option (Leased ι) → Prop
  | opened : LeaseStep none .opened (some ⟨none, false⟩)
  | claimed (holder : Option ι) (id : ι) : LeaseStep (some ⟨holder, false⟩) (.claimed id) (some ⟨some id, false⟩)
  | released (id : ι) : LeaseStep (some ⟨some id, false⟩) (.released id) (some ⟨none, false⟩)
  | finished (id : ι) : LeaseStep (some ⟨some id, false⟩) (.finished id) (some ⟨none, true⟩)

def LeaseSteps {ι : Type} (row : Option (Leased ι)) : List (LeaseEvent ι) → Option (Leased ι) → Prop
  | [], row' => row' = row
  | e :: events, row' => ∃ between, LeaseSteps row events between ∧ LeaseStep between e row'

/-- The history of a row, and the row. -/
inductive LeaseRun {ι : Type} : List (LeaseEvent ι) → Option (Leased ι) → Prop
  | nil : LeaseRun [] none
  | lost {log : List (LeaseEvent ι)} {row : Option (Leased ι)} (h : LeaseRun log row) : LeaseRun log none
  | step {log : List (LeaseEvent ι)} {row row' : Option (Leased ι)} {e : LeaseEvent ι}
      (h : LeaseRun log row) (hstep : LeaseStep row e row') : LeaseRun (e :: log) row'

variable {ι : Type} {log newer older events events' : List (LeaseEvent ι)}
  {row row' row'' : Option (Leased ι)} {id id' : ι}

theorem LeaseSteps.append (h : LeaseSteps row events row') (h' : LeaseSteps row' events' row'') :
    LeaseSteps row (events' ++ events) row'' := by
  induction events' generalizing row'' with
  | nil =>
    obtain rfl : row'' = row' := h'
    exact h
  | cons e events' ih =>
    obtain ⟨between, hsteps, hstep⟩ := h'
    exact ⟨between, ih hsteps, hstep⟩

theorem LeaseRun.steps (h : LeaseRun log row) (hsteps : LeaseSteps row events row') :
    LeaseRun (events ++ log) row' := by
  induction events generalizing row' with
  | nil =>
    obtain rfl : row' = row := hsteps
    exact h
  | cons e events ih =>
    obtain ⟨between, hsteps, hstep⟩ := hsteps
    exact (ih hsteps).step hstep

/-- A row that is there and not finished is one that was opened and not finished. -/
theorem LeaseRun.finished_add_le (h : LeaseRun log row) :
    log.countP LeaseEvent.isFinished + (row.any fun r => !r.done).toNat ≤ log.countP LeaseEvent.isOpened := by
  induction h with
  | nil => exact Nat.le_refl 0
  | lost _ ih => exact Nat.le_trans (Nat.le_add_right _ _) ih
  | step _ hstep ih =>
    cases hstep <;> simpa [List.countP_cons, LeaseEvent.isOpened, LeaseEvent.isFinished] using ih

/-- **A row is finished at most as often as it was opened.** -/
theorem LeaseRun.finished_le_opened (h : LeaseRun log row) :
    log.countP LeaseEvent.isFinished ≤ log.countP LeaseEvent.isOpened :=
  Nat.le_trans (Nat.le_add_right _ _) h.finished_add_le

/-- **A lease that was taken over is gone**: its holder does not release or finish the row without a
new claim. -/
theorem LeaseRun.fenced (h : LeaseRun (newer ++ .claimed id' :: older) row) (hne : id' ≠ id)
    (hnew : .claimed id ∉ newer) :
    row.bind Leased.holder ≠ some id ∧ .released id ∉ newer ∧ .finished id ∉ newer := by
  generalize hlog : newer ++ .claimed id' :: older = log at h
  induction h generalizing newer with
  | nil => cases (List.append_eq_nil_iff.mp hlog).2
  | lost _ ih => exact ⟨nofun, (ih hnew hlog).2⟩
  | step _ hstep ih =>
    cases newer with
    | nil =>
      cases hlog
      cases hstep
      exact ⟨fun h => hne (Option.some.inj h), nofun, nofun⟩
    | cons =>
      cases hlog
      obtain ⟨hholder, hreleased, hfinished⟩ := ih (fun hmem => hnew (.tail _ hmem)) rfl
      cases hstep <;> simp_all [eq_comm]

end NazoAuth.Lib
