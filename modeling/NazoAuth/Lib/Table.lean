import Mathlib.Data.List.Basic
import Mathlib.Data.List.Nodup

/-!
# Tables — rows under a primary key

A `Table key` is a list of rows that no two rows share the key of; the primary-key constraint is a
field, so a table that violates it cannot be built. The operations are those of a relational store:
look-up, insertion, conditional update and conditional deletion. Each operation has two lemmas: what
a member of the result is, and what the look-up of the result returns. The look-up equations are the
simp set; a proof about a sequence of statements rewrites with them and is left with a goal about
`Option`.

`Grows` says what becomes of the rows over several statements, and `Unique` is a unique index.
-/

namespace NazoAuth.Lib

/-- Rows under a primary key. -/
structure Table {κ ρ : Type} (key : ρ → κ) where
  rows : List ρ
  nodup : (rows.map key).Nodup

namespace Table

variable {κ ρ : Type} [DecidableEq κ] {key : ρ → κ}

/-- The table without rows. -/
def empty : Table key := ⟨[], List.nodup_nil⟩

variable (t : Table key)

/-- The row stored under a key. -/
def find? (k : κ) : Option ρ := t.rows.find? fun r => key r = k

/-- The rows that satisfy `p` are replaced by their image under `f`, which keeps the key. -/
def update (p : ρ → Bool) (f : ρ → ρ) (hf : ∀ r, key (f r) = key r) : Table key :=
  ⟨t.rows.map fun r => if p r then f r else r, by
    have h : (key ∘ fun r => if p r then f r else r) = key := by
      funext r
      simp only [Function.comp]
      split_ifs
      · exact hf r
      · rfl
    rw [List.map_map, h]
    exact t.nodup⟩

/-- The row under a key is replaced; nothing, if there is none that satisfies `p`. -/
def updateOne (k : κ) (p : ρ → Bool) (f : ρ → ρ) (hf : ∀ r, key (f r) = key r) : Option (Table key) :=
  if (t.find? k).any p then some (t.update (fun r => key r = k) f hf) else none

/-- The rows that satisfy `p` are removed. -/
def delete (p : ρ → Bool) : Table key :=
  ⟨t.rows.filter fun r => !p r, t.nodup.sublist (List.filter_sublist.map key)⟩

/-- A row is added, if its key is not in use. -/
def insert? (r : ρ) : Option (Table key) :=
  if h : key r ∈ t.rows.map key then none
  else some ⟨r :: t.rows, by rw [List.map_cons]; exact List.nodup_cons.mpr ⟨h, t.nodup⟩⟩

section Lookup

variable {k : κ} {r : ρ} {t : Table key}

theorem find?_eq_some : t.find? k = some r ↔ r ∈ t.rows ∧ key r = k := by
  unfold find?
  constructor
  · intro h
    exact ⟨List.mem_of_find?_eq_some h, by simpa using List.find?_some h⟩
  rintro ⟨hr, rfl⟩
  cases hf : t.rows.find? (fun r' => key r' = key r) with
  | none => exact absurd (List.find?_eq_none.mp hf r hr) (by simp)
  | some r' =>
    -- both rows have the key of `r`, and keys are not repeated
    have hk : key r' = key r := by simpa using List.find?_some hf
    have hm : r' ∈ t.rows := List.mem_of_find?_eq_some hf
    rw [List.inj_on_of_nodup_map t.nodup hm hr hk]

theorem find?_eq_none : t.find? k = none ↔ ∀ r ∈ t.rows, key r ≠ k := by
  simp [find?]

theorem find?_key (h : t.find? k = some r) : key r = k :=
  (find?_eq_some.mp h).2

theorem mem_of_find? (h : t.find? k = some r) : r ∈ t.rows :=
  (find?_eq_some.mp h).1

theorem find?_of_mem (h : r ∈ t.rows) : t.find? (key r) = some r :=
  find?_eq_some.mpr ⟨h, rfl⟩

@[simp] theorem find?_empty (k : κ) : (empty : Table key).find? k = none := rfl

omit [DecidableEq κ] in
@[simp] theorem not_mem_empty : r ∉ (empty : Table key).rows := List.not_mem_nil

end Lookup

section Update

variable {t : Table key} {p : ρ → Bool} {f : ρ → ρ} {hf : ∀ r, key (f r) = key r}

omit [DecidableEq κ] in
theorem mem_update {r : ρ} : r ∈ (t.update p f hf).rows ↔ ∃ r₀ ∈ t.rows, (if p r₀ then f r₀ else r₀) = r := by
  simp [update]

@[simp] theorem find?_update (k : κ) :
    (t.update p f hf).find? k = (t.find? k).map fun r => if p r then f r else r := by
  have hk : ∀ r, key (if p r then f r else r) = key r := by
    intro r
    split_ifs
    · exact hf r
    · rfl
  cases h : t.find? k with
  | none =>
    rw [Option.map_none, find?_eq_none]
    intro r hr
    obtain ⟨r₀, h0, rfl⟩ := mem_update.mp hr
    rw [hk]
    exact find?_eq_none.mp h r₀ h0
  | some r =>
    obtain ⟨hm, rfl⟩ := find?_eq_some.mp h
    exact find?_eq_some.mpr ⟨mem_update.mpr ⟨r, hm, rfl⟩, hk r⟩

theorem updateOne_eq_some {t' : Table key} {k : κ} (h : t.updateOne k p f hf = some t') :
    ∃ r, t.find? k = some r ∧ p r = true ∧ ∀ k', t'.find? k' = if k' = k then some (f r) else t.find? k' := by
  unfold updateOne at h
  split_ifs at h with hp
  cases h
  obtain ⟨r, hr, hp⟩ := (Option.any_eq_true _ _).mp hp
  refine ⟨r, hr, hp, fun k' => ?_⟩
  rw [find?_update]
  by_cases hk : k' = k
  · subst hk
    simp [hr, find?_key hr]
  rw [if_neg hk]
  cases hr' : t.find? k' with
  | none => rfl
  | some => simp [find?_key hr', hk]

end Update

section Delete

variable {t : Table key} {p : ρ → Bool}

omit [DecidableEq κ] in
theorem mem_delete {r : ρ} : r ∈ (t.delete p).rows ↔ r ∈ t.rows ∧ p r = false := by
  simp [delete]

@[simp] theorem find?_delete (k : κ) : (t.delete p).find? k = (t.find? k).filter fun r => !p r := by
  cases h : t.find? k with
  | none =>
    rw [Option.filter_none, find?_eq_none]
    intro r hr
    exact find?_eq_none.mp h r (mem_delete.mp hr).1
  | some r =>
    obtain ⟨hm, rfl⟩ := find?_eq_some.mp h
    cases hp : p r with
    | false =>
      simp only [Option.filter, hp]
      exact find?_of_mem (mem_delete.mpr ⟨hm, hp⟩)
    | true =>
      simp only [Option.filter, hp]
      refine find?_eq_none.mpr fun r' hr' hk => ?_
      obtain ⟨hm', hp'⟩ := mem_delete.mp hr'
      have : r' = r := List.inj_on_of_nodup_map t.nodup hm' hm hk
      subst this
      rw [hp] at hp'
      exact absurd hp' (by simp)

end Delete

section Insert

variable {t t' : Table key} {r : ρ}

theorem insert?_eq_none : t.insert? r = none ↔ ∃ r', t.find? (key r) = some r' := by
  constructor
  · intro h
    unfold insert? at h
    split_ifs at h with hm
    obtain ⟨r', h1, h2⟩ := List.mem_map.mp hm
    exact ⟨r', find?_eq_some.mpr ⟨h1, h2⟩⟩
  · rintro ⟨r', h⟩
    obtain ⟨h1, h2⟩ := find?_eq_some.mp h
    unfold insert?
    rw [dif_pos (List.mem_map.mpr ⟨r', h1, h2⟩)]

section

variable (h : t.insert? r = some t')

include h

theorem rows_of_insert? : t'.rows = r :: t.rows := by
  unfold insert? at h
  split_ifs at h with hm
  cases h
  rfl

theorem find?_of_insert? (k : κ) : t'.find? k = if k = key r then some r else t.find? k := by
  by_cases hk : key r = k
  · simp [find?, rows_of_insert? h, hk]
  · simp [find?, rows_of_insert? h, hk, Ne.symm hk]

theorem find?_none_of_insert? : t.find? (key r) = none := by
  cases hf : t.find? (key r) with
  | none => rfl
  | some r' =>
    rw [insert?_eq_none.mpr ⟨r', hf⟩] at h
    exact absurd h (by simp)

theorem mem_of_insert? {r' : ρ} : r' ∈ t'.rows ↔ r' = r ∨ r' ∈ t.rows := by
  rw [rows_of_insert? h, List.mem_cons]

end

end Insert

section Grows

variable {t t' t'' : Table key} {R : ρ → ρ → Prop}

/-- Every row is still there, changed at most by the relation. -/
def Grows (R : ρ → ρ → Prop) (t t' : Table key) : Prop :=
  ∀ k r, t.find? k = some r → ∃ r', t'.find? k = some r' ∧ R r r'

theorem Grows.refl (hR : ∀ r, R r r) (t : Table key) : Grows R t t := fun _ r h => ⟨r, h, hR r⟩

theorem Grows.trans (hR : ∀ a b c, R a b → R b c → R a c) (h : Grows R t t') (h' : Grows R t' t'') :
    Grows R t t'' := by
  intro k r hr
  obtain ⟨r', hr', h1⟩ := h k r hr
  obtain ⟨r'', hr'', h2⟩ := h' k r' hr'
  exact ⟨r'', hr'', hR r r' r'' h1 h2⟩

theorem grows_insert? {r : ρ} (hR : ∀ r, R r r) (h : t.insert? r = some t') : Grows R t t' := by
  intro k s hs
  exact ⟨s, find?_eq_some.mpr ⟨(mem_of_insert? h).mpr (.inr (mem_of_find? hs)), find?_key hs⟩, hR s⟩

theorem grows_update {p : ρ → Bool} {f : ρ → ρ} (hf : ∀ r, key (f r) = key r) (hR : ∀ r, R r r)
    (h : ∀ r, R r (f r)) : Grows R t (t.update p f hf) := by
  intro k r hr
  rw [find?_update, hr]
  refine ⟨_, rfl, ?_⟩
  dsimp only
  split_ifs
  · exact h r
  · exact hR r

end Grows

section Unique

variable {t t' : Table key} {U : ρ → ρ → Prop}

/-- A unique index: no two rows are in conflict. -/
def Unique (U : ρ → ρ → Prop) (t : Table key) : Prop := ∀ r ∈ t.rows, ∀ r' ∈ t.rows, U r r' → r = r'

omit [DecidableEq κ] in
theorem unique_update {p : ρ → Bool} {f : ρ → ρ} {hf : ∀ r, key (f r) = key r} (h : Unique U t)
    (hU : ∀ r r', U (if p r then f r else r) (if p r' then f r' else r') → U r r') :
    Unique U (t.update p f hf) := by
  intro r hr r' hr' hconflict
  obtain ⟨r₀, h₀, rfl⟩ := mem_update.mp hr
  obtain ⟨r₁, h₁, rfl⟩ := mem_update.mp hr'
  rw [h r₀ h₀ r₁ h₁ (hU r₀ r₁ hconflict)]

theorem unique_insert? {r : ρ} (h : Unique U t) (hsymm : ∀ a b, U a b → U b a)
    (hinsert : t.insert? r = some t') (hnew : ∀ r' ∈ t.rows, ¬ U r r') : Unique U t' := by
  intro a ha b hb hconflict
  rcases (mem_of_insert? hinsert).mp ha with rfl | ha
  · rcases (mem_of_insert? hinsert).mp hb with rfl | hb
    · rfl
    · exact absurd hconflict (hnew b hb)
  · rcases (mem_of_insert? hinsert).mp hb with rfl | hb
    · exact absurd (hsymm _ _ hconflict) (hnew a ha)
    · exact h a ha b hb hconflict

omit [DecidableEq κ] in
/-- A condition that two rows cannot satisfy. -/
theorem length_filter_le_one {p : ρ → Bool} (h : ∀ r ∈ t.rows, ∀ r' ∈ t.rows, p r = true → p r' = true → r = r') :
    (t.rows.filter p).length ≤ 1 := by
  have hnodup : (t.rows.filter p).Nodup := t.nodup.of_map.filter p
  cases hrows : t.rows.filter p with
  | nil => exact Nat.zero_le 1
  | cons a rest =>
    cases rest with
    | nil => exact Nat.le_refl 1
    | cons b =>
      rw [hrows] at hnodup
      have ha : a ∈ t.rows.filter p := hrows ▸ List.mem_cons_self
      have hb : b ∈ t.rows.filter p := hrows ▸ .tail _ (.head _)
      obtain ⟨ha, hpa⟩ := List.mem_filter.mp ha
      obtain ⟨hb, hpb⟩ := List.mem_filter.mp hb
      refine absurd (h a ha b hb hpa hpb) fun heq => ?_
      exact (List.nodup_cons.mp hnodup).1 (heq ▸ List.mem_cons_self)

end Unique

end Table

end NazoAuth.Lib
