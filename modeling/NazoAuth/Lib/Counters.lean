import Mathlib.Data.List.Count
import Mathlib.Data.List.Nodup

/-!
# Counters — how many objects of each key are live

A table has one entry for each key that is in use. An object that is made raises the counter of its
key, an object that goes lowers it, and the last one takes the entry with it.
-/

namespace NazoAuth.Lib

section Counters

variable {κ : Type} [DecidableEq κ] {k k' : κ} {table : List (κ × Nat)} {live : List κ}

/-- The counter of a key; a key without an entry counts zero. -/
def countOf (k : κ) : List (κ × Nat) → Nat
  | [] => 0
  | (k', n) :: rest => if k' = k then n else countOf k rest

def increment (k : κ) : List (κ × Nat) → List (κ × Nat)
  | [] => [(k, 1)]
  | (k', n) :: rest => if k' = k then (k', n + 1) :: rest else (k', n) :: increment k rest

/-- One object less; the entry goes with the last one. -/
def decrement (k : κ) : List (κ × Nat) → List (κ × Nat)
  | [] => []
  | (k', n) :: rest =>
    if k' = k then (if n - 1 = 0 then rest else (k', n - 1) :: rest) else (k', n) :: decrement k rest

/-- The keys with an entry. -/
def keysOf (table : List (κ × Nat)) : List κ := table.map Prod.fst

theorem countOf_of_notMem (h : k ∉ keysOf table) : countOf k table = 0 := by
  induction table with
  | nil => rfl
  | cons e rest ih =>
    rw [keysOf, List.map_cons, List.mem_cons, not_or] at h
    rw [countOf, if_neg fun he => h.1 he.symm]
    exact ih h.2

theorem countOf_increment : countOf k' (increment k table) = countOf k' table + if k' = k then 1 else 0 := by
  induction table with
  | nil =>
    by_cases h : k' = k
    · simp [increment, countOf, h]
    · simp [increment, countOf, h, Ne.symm h]
  | cons e rest ih =>
    by_cases he : e.1 = k
    · by_cases h : k' = k
      · simp [increment, countOf, he, h]
      · simp [increment, countOf, he, h, Ne.symm h]
    · by_cases h : e.1 = k'
      · simp [increment, countOf, h, show k' ≠ k from fun hk => he (h.trans hk)]
      · simp [increment, countOf, he, h, ih]

theorem countOf_decrement (hnodup : (keysOf table).Nodup) :
    countOf k' (decrement k table) = countOf k' table - if k' = k then 1 else 0 := by
  induction table with
  | nil => simp [decrement, countOf]
  | cons e rest ih =>
    obtain ⟨hfirst, hrest⟩ := List.nodup_cons.mp hnodup
    by_cases he : e.1 = k
    · by_cases hlast : e.2 - 1 = 0
      · by_cases h : k' = k
        · have hnone : countOf k rest = 0 := countOf_of_notMem (he ▸ hfirst)
          simp [decrement, countOf, he, hlast, h, hnone]
        · simp [decrement, countOf, he, hlast, h, Ne.symm h]
      · by_cases h : k' = k
        · simp [decrement, countOf, he, hlast, h]
        · simp [decrement, countOf, he, hlast, h, Ne.symm h]
    · by_cases h : e.1 = k'
      · simp [decrement, countOf, h, show k' ≠ k from fun hk => he (h.trans hk)]
      · simp [decrement, countOf, he, h, ih hrest]

theorem mem_keysOf_increment : k' ∈ keysOf (increment k table) ↔ k' = k ∨ k' ∈ keysOf table := by
  induction table with
  | nil => simp [increment, keysOf]
  | cons e rest ih =>
    by_cases he : e.1 = k
    · simp [increment, keysOf, he]
    · simp only [keysOf] at ih
      simp only [increment, keysOf, he, if_false, List.map_cons, List.mem_cons, ih]
      exact or_left_comm

theorem nodup_increment (h : (keysOf table).Nodup) : (keysOf (increment k table)).Nodup := by
  induction table with
  | nil => exact List.nodup_singleton k
  | cons e rest ih =>
    obtain ⟨hfirst, hrest⟩ := List.nodup_cons.mp h
    by_cases he : e.1 = k
    · rw [increment, if_pos he]
      exact h
    rw [increment, if_neg he]
    refine List.nodup_cons.mpr ⟨fun hmem => ?_, ih hrest⟩
    rcases mem_keysOf_increment.mp hmem with hk | hmem
    · exact he hk
    · exact hfirst hmem

theorem keysOf_decrement_sublist : (keysOf (decrement k table)).Sublist (keysOf table) := by
  induction table with
  | nil => exact List.Sublist.refl []
  | cons e rest ih =>
    by_cases he : e.1 = k
    · by_cases hlast : e.2 - 1 = 0
      · rw [decrement, if_pos he, if_pos hlast]
        exact List.sublist_cons_self e.1 (keysOf rest)
      · rw [decrement, if_pos he, if_neg hlast]
        exact List.Sublist.refl _
    · rw [decrement, if_neg he]
      exact ih.cons_cons e.1

/-- The entries count something. -/
def Positive (table : List (κ × Nat)) : Prop := ∀ e ∈ table, 0 < e.2

theorem Positive.increment (h : Positive table) : Positive (increment k table) := by
  induction table with
  | nil =>
    intro e he
    rw [List.mem_singleton.mp he]
    exact Nat.one_pos
  | cons d rest ih =>
    have hrest : Positive rest := fun e he => h e (.tail d he)
    intro e he
    rw [NazoAuth.Lib.increment] at he
    split at he
    · rcases List.mem_cons.mp he with rfl | he
      · exact Nat.succ_pos _
      · exact hrest e he
    · rcases List.mem_cons.mp he with rfl | he
      · exact h _ (.head _)
      · exact ih hrest e he

theorem Positive.decrement (h : Positive table) : Positive (decrement k table) := by
  induction table with
  | nil => exact h
  | cons d rest ih =>
    have hrest : Positive rest := fun e he => h e (.tail d he)
    intro e he
    rw [NazoAuth.Lib.decrement] at he
    split at he
    · split at he
      · exact hrest e he
      rename_i hlast
      rcases List.mem_cons.mp he with rfl | he
      · exact Nat.pos_of_ne_zero hlast
      · exact hrest e he
    · rcases List.mem_cons.mp he with rfl | he
      · exact h _ (.head _)
      · exact ih hrest e he

theorem Positive.mem_keysOf (h : Positive table) : k ∈ keysOf table ↔ 0 < countOf k table := by
  induction table with
  | nil => simp [keysOf, countOf]
  | cons e rest ih =>
    have hrest : Positive rest := fun d hd => h d (.tail e hd)
    by_cases he : e.1 = k
    · simp [keysOf, countOf, he, h e List.mem_cons_self]
    · rw [countOf, if_neg he, ← ih hrest, keysOf, List.map_cons, List.mem_cons]
      exact or_iff_right fun hk => he hk.symm

/-- **The table counts the live objects.** -/
structure Tallies (table : List (κ × Nat)) (live : List κ) : Prop where
  nodup : (keysOf table).Nodup
  positive : Positive table
  count : ∀ k, countOf k table = live.count k

namespace Tallies

theorem nil : Tallies ([] : List (κ × Nat)) [] := ⟨List.nodup_nil, nofun, fun _ => rfl⟩

theorem increment (h : Tallies table live) : Tallies (increment k table) (k :: live) where
  nodup := nodup_increment h.nodup
  positive := h.positive.increment
  count k' := by
    rw [countOf_increment, h.count]
    by_cases hk : k' = k
    · simp [hk]
    · simp [hk, Ne.symm hk]

/-- An object goes. -/
theorem erase {α : Type} [BEq α] [LawfulBEq α] {f : α → κ} {objects : List α} {a : α}
    (h : Tallies table (objects.map f)) (hmem : a ∈ objects) :
    Tallies (decrement (f a) table) ((objects.erase a).map f) where
  nodup := h.nodup.sublist keysOf_decrement_sublist
  positive := h.positive.decrement
  count k' := by
    have hperm : (objects.map f).Perm (f a :: (objects.erase a).map f) := (List.perm_cons_erase hmem).map f
    rw [countOf_decrement h.nodup, h.count, hperm.count_eq]
    by_cases hk : k' = f a
    · simp [hk]
    · simp [hk, Ne.symm hk]

theorem mem_keys (h : Tallies table live) : k ∈ keysOf table ↔ k ∈ live := by
  rw [h.positive.mem_keysOf, h.count, List.count_pos_iff]

/-- The counter of a key is the number of live objects with it. -/
theorem countOf_eq {α : Type} {f : α → κ} {objects : List α} (h : Tallies table (objects.map f))
    (k : κ) : countOf k table = objects.countP fun a => decide (f a = k) := by
  rw [h.count, List.count, List.countP_map]
  refine List.countP_congr fun a _ => ?_
  simp

end Tallies

end Counters

end NazoAuth.Lib
