import Mathlib.Data.List.Basic

/-!
# Runs — finite histories of a deterministic machine

A machine is a function `exec : σ → op → σ × out`: it executes one operation atomically and reports
an outcome. A history is the list of executed operations with their outcomes, **newest first**, so
that the last thing that happened is the head of the list and an induction on the run is an
induction on the history.
-/

namespace NazoAuth.Lib

section Machine

variable {σ op out : Type} (exec : σ → op → σ × out)

/-- Histories of the machine, newest event first. -/
inductive Run (s₀ : σ) : List (op × out) → σ → Prop
  | nil : Run s₀ [] s₀
  | cons {log : List (op × out)} {s s' : σ} {o : op} {r : out} :
      Run s₀ log s → exec s o = (s', r) → Run s₀ ((o, r) :: log) s'

/-- The executable run: the operations are given oldest first, the history is newest first. -/
def execAll (s : σ) (log : List (op × out)) : List op → List (op × out) × σ
  | [] => (log, s)
  | o :: os => execAll (exec s o).1 ((o, (exec s o).2) :: log) os

variable {exec}

variable {log : List (op × out)} {s s₀ : σ}

theorem Run.execAll (h : Run exec s₀ log s) (ops : List op) :
    Run exec s₀ (execAll exec s log ops).1 (execAll exec s log ops).2 := by
  induction ops generalizing s log with
  | nil => exact h
  | cons o os ih => exact ih (Run.cons h rfl)

theorem run_execAll (s₀ : σ) (ops : List op) : Run exec s₀ (execAll exec s₀ [] ops).1 (execAll exec s₀ [] ops).2 :=
  Run.nil.execAll ops

/-- **The invariant rule.** `G` is a guard on histories that is closed under dropping the newest
event; `I` relates a history to the state it ends in. -/
theorem Run.invariant {I : List (op × out) → σ → Prop} {G : List (op × out) → Prop}
    (hG : ∀ e log, G (e :: log) → G log) (h0 : I [] s₀)
    (hstep : ∀ log s o s' r, Run exec s₀ log s → G ((o, r) :: log) → I log s → exec s o = (s', r) →
      I ((o, r) :: log) s')
    (h : Run exec s₀ log s) (hg : G log) : I log s := by
  induction h with
  | nil => exact h0
  | cons hr he ih => exact hstep _ _ _ _ _ hr hg (ih (hG _ _ hg)) he

/-- The invariant rule for a property of the state alone. -/
theorem Run.state_invariant {I : σ → Prop} (h0 : I s₀)
    (hstep : ∀ s o s' r, I s → exec s o = (s', r) → I s') (h : Run exec s₀ log s) : I s := by
  induction h with
  | nil => exact h0
  | cons hr he ih => exact hstep _ _ _ _ ih he

/-- A run may be continued by another one. -/
theorem Run.append {s₁ : σ} {new old : List (op × out)} (h1 : Run exec s₀ old s₁)
    (h2 : Run exec s₁ new s) : Run exec s₀ (new ++ old) s := by
  induction h2 with
  | nil => exact h1
  | cons _ he ih => exact Run.cons ih he

/-- A run may be cut at any point of its history. -/
theorem Run.split {new old : List (op × out)} (h : Run exec s₀ (new ++ old) s) :
    ∃ s₁, Run exec s₀ old s₁ ∧ Run exec s₁ new s := by
  induction new generalizing s with
  | nil => exact ⟨s, h, Run.nil⟩
  | cons e new ih =>
    cases h with
    | cons hr he =>
      obtain ⟨s₁, h1, h2⟩ := ih hr
      exact ⟨s₁, h1, Run.cons h2 he⟩

/-- A history determines the state it ends in. -/
theorem Run.unique {s' : σ} (h : Run exec s₀ log s) (h' : Run exec s₀ log s') : s = s' := by
  induction h generalizing s' with
  | nil => cases h'; rfl
  | cons hr he ih =>
    cases h' with
    | cons hr' he' =>
      obtain rfl := ih hr'
      exact congrArg Prod.fst (he.symm.trans he')

/-- **Simulation.** `abs` maps states and `ev` maps events to those of a second machine; an event
that `ev` drops leaves the abstract state alone. A step is matched in a state of a guarded run whose
abstract history is already a run. -/
theorem Run.simulate {σ' op' out' : Type} {exec' : σ' → op' → σ' × out'} (abs : σ → σ')
    (ev : op × out → Option (op' × out')) {G : List (op × out) → Prop} (hG : ∀ e log, G (e :: log) → G log)
    (hskip : ∀ log s o s' r, Run exec s₀ log s → G ((o, r) :: log) → exec s o = (s', r) → ev (o, r) = none →
      abs s' = abs s)
    (hstep : ∀ log s o s' r o' r', Run exec s₀ log s → Run exec' (abs s₀) (log.filterMap ev) (abs s) →
      G ((o, r) :: log) → exec s o = (s', r) → ev (o, r) = some (o', r') →
    exec' (abs s) o' = (abs s', r')) (h : Run exec s₀ log s) (hg : G log) :
    Run exec' (abs s₀) (log.filterMap ev) (abs s) := by
  induction h with
  | nil => exact Run.nil
  | cons hr he ih =>
    rename_i log s s' o r
    have ih := ih (hG _ _ hg)
    cases hev : ev (o, r) with
    | none =>
      rw [List.filterMap_cons_none hev, hskip log s o s' r hr hg he hev]
      exact ih
    | some e =>
      rw [List.filterMap_cons_some hev]
      exact Run.cons ih (hstep log s o s' r e.1 e.2 hr ih hg he hev)

end Machine

/-- Something happens at most once in a history, when it never happens after it has happened. -/
theorem countP_le_one {ε : Type} {p : ε → Bool} {log : List ε}
    (h : ∀ newer e older, log = newer ++ e :: older → p e = true → ∀ e' ∈ older, p e' = false) :
    log.countP p ≤ 1 := by
  induction log with
  | nil => exact Nat.zero_le 1
  | cons e log ih =>
    have hlog : log.countP p ≤ 1 :=
      ih fun newer e' older hsplit => h (e :: newer) e' older (by rw [hsplit, List.cons_append])
    by_cases he : p e = true
    · have hnone : log.countP p = 0 := List.countP_eq_zero.mpr fun e' he' => by simp [h [] e log rfl he e' he']
      exact Nat.le_of_eq (by rw [List.countP_cons_of_pos he, hnone])
    · rwa [List.countP_cons_of_neg he]

/-- What happens at most once is one event. -/
theorem eq_of_countP_le_one {ε : Type} {p : ε → Bool} {log : List ε} (h : log.countP p ≤ 1)
    {e e' : ε} (he : e ∈ log) (he' : e' ∈ log) (hp : p e = true) (hp' : p e' = true) : e = e' := by
  have hlength : (log.filter p).length ≤ 1 := List.countP_eq_length_filter ▸ h
  have hmem : e ∈ log.filter p := List.mem_filter.mpr ⟨he, hp⟩
  have hmem' : e' ∈ log.filter p := List.mem_filter.mpr ⟨he', hp'⟩
  match hfilter : log.filter p with
  | [] => rw [hfilter] at hmem; cases hmem
  | [first] =>
    rw [hfilter, List.mem_singleton] at hmem hmem'
    rw [hmem, hmem']
  | _ :: _ :: _ => rw [hfilter] at hlength; simp at hlength

end NazoAuth.Lib
