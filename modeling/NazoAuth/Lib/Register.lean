import Mathlib.Data.List.Basic

/-!
# Registers — one key of a shared store and the history of its values

A key of the store holds a value and an absolute deadline in the store's own clock. Clients read it,
compute, and write back with a comparison; what they know of the key between the two is old.
-/

namespace NazoAuth.Lib

/-- A stored value with its absolute deadline. -/
structure Entry (ν : Type) where
  value : ν
  deadline : Int
  deriving DecidableEq

/-- What a read at time `now` finds. -/
def visible {ν : Type} (now : Int) (key : Option (Entry ν)) : Option (Entry ν) :=
  key.filter fun e => now ≤ e.deadline

theorem eq_some_of_visible {ν : Type} {now : Int} {key : Option (Entry ν)} {e : Entry ν}
    (h : visible now key = some e) : key = some e := (Option.filter_eq_some_iff.mp h).1

/-- The value that a script has put over a visible one. -/
def overwritten {ν : Type} [DecidableEq ν] (now : Int) (before after : Option (Entry ν)) : Option (ν × ν) :=
  match visible now before, after with
  | some b, some a => if b.value = a.value then none else some (b.value, a.value)
  | _, _ => none

theorem overwritten_self {ν : Type} [DecidableEq ν] (now : Int) (key : Option (Entry ν)) :
    overwritten now key key = none := by
  unfold overwritten
  cases hv : visible now key with
  | none => rfl
  | some =>
    rw [eq_some_of_visible hv]
    simp

theorem overwritten_edit {ν : Type} [DecidableEq ν] {now : Int} {key : Option (Entry ν)}
    {b : Entry ν} {v : ν} {d : Int} (hv : visible now key = some b) :
    overwritten now key (some ⟨v, d⟩) = if b.value = v then none else some (b.value, v) := by
  simp only [overwritten, hv]

section History

variable {ε ν : Type} (written : ε → Option ν) (init : ν)

/-- The last value written in a history, newest event first. -/
def latest : List ε → ν
  | [] => init
  | e :: log => (written e).getD (latest log)

/-- Every write of the history is related to the value before it. -/
def Orderly (R : ν → ν → Prop) : List ε → Prop
  | [] => True
  | e :: log => Orderly R log ∧ ∀ v, written e = some v → R (latest written init log) v

variable {written init}

theorem latest_of_none {e : ε} (h : written e = none) (log : List ε) :
    latest written init (e :: log) = latest written init log := by simp [latest, h]

theorem latest_of_some {e : ε} {v : ν} (h : written e = some v) (log : List ε) :
    latest written init (e :: log) = v := by simp [latest, h]

/-- What holds of the first value and of every value written holds of the last one. -/
theorem latest_of_all {P : ν → Prop} {log : List ε} (h0 : P init)
    (h : ∀ e ∈ log, ∀ v, written e = some v → P v) : P (latest written init log) := by
  induction log with
  | nil => exact h0
  | cons e log ih =>
    cases hw : written e with
    | none =>
      rw [latest_of_none hw]
      exact ih fun e' he' => h e' (.tail e he')
    | some v =>
      rw [latest_of_some hw]
      exact h e (.head _) v hw

/-- **Values only go up.** -/
theorem latest_le {R : ν → ν → Prop} (hrefl : ∀ v, R v v) (htrans : ∀ u v w, R u v → R v w → R u w)
    (newer : List ε) {older : List ε} (h : Orderly written init R (newer ++ older)) :
    R (latest written init older) (latest written init (newer ++ older)) := by
  induction newer with
  | nil => exact hrefl _
  | cons e newer ih =>
    have ih := ih h.1
    cases hw : written e with
    | none => rw [List.cons_append, latest_of_none hw]; exact ih
    | some v =>
      rw [List.cons_append, latest_of_some hw]
      exact htrans _ _ _ ih (h.2 v hw)

end History

end NazoAuth.Lib
