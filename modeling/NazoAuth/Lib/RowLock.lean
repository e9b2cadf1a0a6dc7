import Mathlib.Data.List.Basic

/-!
# Row locks

A transaction locks rows until it ends. A lock is given unless another transaction holds one of a
conflicting mode on the row, so that the holders of conflicting locks are one transaction
(`Exclusive`).
-/

namespace NazoAuth.Lib

inductive LockMode
  | keyShare
  | update
  deriving DecidableEq

def LockMode.conflicts : LockMode → LockMode → Bool
  | .keyShare, .keyShare => false
  | _, _ => true

theorem LockMode.conflicts_comm (mode mode' : LockMode) : mode.conflicts mode' = mode'.conflicts mode := by
  cases mode <;> cases mode' <;> rfl

theorem LockMode.update_conflicts (mode : LockMode) : LockMode.conflicts .update mode = true := by
  cases mode <;> rfl

structure RowLock (ρ : Type) where
  holder : Nat
  row : ρ
  mode : LockMode

variable {ρ : Type} [DecidableEq ρ] {locks locks' : List (RowLock ρ)} {t : Nat} {row : ρ} {mode : LockMode}

/-- Takes the lock, unless another transaction holds a conflicting one. -/
def lock? (locks : List (RowLock ρ)) (t : Nat) (row : ρ) (mode : LockMode) : Option (List (RowLock ρ)) :=
  if locks.all fun l => l.holder = t || l.row ≠ row || !l.mode.conflicts mode then some (⟨t, row, mode⟩ :: locks)
    else none

/-- The transaction has ended. -/
def release (locks : List (RowLock ρ)) (t : Nat) : List (RowLock ρ) := locks.filter fun l => l.holder ≠ t

/-- Conflicting locks on a row have one holder. -/
def Exclusive (locks : List (RowLock ρ)) : Prop :=
  ∀ l ∈ locks, ∀ l' ∈ locks, l.row = l'.row → l.mode.conflicts l'.mode = true → l.holder = l'.holder

theorem eq_of_lock? (h : lock? locks t row mode = some locks') : locks' = ⟨t, row, mode⟩ :: locks := by
  unfold lock? at h
  split_ifs at h
  exact (Option.some.inj h).symm

theorem exclusive_lock? (hlocks : Exclusive locks) (h : lock? locks t row mode = some locks') :
    Exclusive locks' := by
  obtain rfl := eq_of_lock? h
  unfold lock? at h
  split_ifs at h with hfree
  have hother : ∀ l ∈ locks, l.row = row → l.mode.conflicts mode = true → l.holder = t := by
    intro l hl hrow hconflicts
    simpa [hrow, hconflicts] using List.all_eq_true.mp hfree l hl
  intro l hl l' hl' hrow hconflicts
  rcases List.mem_cons.mp hl with rfl | hl <;> rcases List.mem_cons.mp hl' with rfl | hl'
  · rfl
  · exact (hother l' hl' hrow.symm (LockMode.conflicts_comm _ _ ▸ hconflicts)).symm
  · exact hother l hl hrow hconflicts
  · exact hlocks l hl l' hl' hrow hconflicts

omit [DecidableEq ρ] in
theorem mem_release {l : RowLock ρ} : l ∈ release locks t ↔ l ∈ locks ∧ l.holder ≠ t := by
  simp [release]

omit [DecidableEq ρ] in
theorem exclusive_release (hlocks : Exclusive locks) (t : Nat) : Exclusive (release locks t) :=
  fun l hl l' hl' => hlocks l (mem_release.mp hl).1 l' (mem_release.mp hl').1

end NazoAuth.Lib
