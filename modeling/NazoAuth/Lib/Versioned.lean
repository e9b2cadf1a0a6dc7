import NazoAuth.Lib.Table

/-!
# Versioned rows — what was read holds while the version stands

A writer that reads some rows, decides, and writes another row does not see what happens in between.
If every write of a row raises its version, then what was read of a row still holds as long as the
version is the one that was read (`Observed`), however many writes of other rows there were. A write
that compares the versions again may use it.
-/

namespace NazoAuth.Lib

namespace Table

variable {κ ρ : Type} [DecidableEq κ] {key : ρ → κ} (version : ρ → Nat)

/-- Every row is as it was, or has a greater version. -/
def Ahead (t t' : Table key) : Prop :=
  ∀ k r', t'.find? k = some r' → ∃ r, t.find? k = some r ∧ (r' = r ∨ version r < version r')

/-- The row under a key has at least a version, and with this version it satisfies a condition. -/
def Observed (P : ρ → Prop) (k : κ) (v : Nat) (t : Table key) : Prop :=
  ∀ r, t.find? k = some r → v ≤ version r ∧ (version r = v → P r)

variable {version} {t t' : Table key} {P : ρ → Prop} {k : κ} {v : Nat}

theorem ahead_update {p : ρ → Bool} {f : ρ → ρ} (hf : ∀ r, key (f r) = key r)
    (h : ∀ r ∈ t.rows, p r = true → version r < version (f r)) : Ahead version t (t.update p f hf) := by
  intro k r' hr'
  rw [find?_update, Option.map_eq_some_iff] at hr'
  obtain ⟨r, hr, rfl⟩ := hr'
  refine ⟨r, hr, ?_⟩
  split_ifs with hp
  · exact .inr (h r (mem_of_find? hr) hp)
  · exact .inl rfl

theorem observed_of_find? {r : ρ} (h : t.find? k = some r) (hP : P r) : Observed version P k (version r) t := by
  intro r' hr'
  cases h.symm.trans hr'
  exact ⟨Nat.le_refl _, fun _ => hP⟩

theorem Observed.ahead (h : Observed version P k v t) (hahead : Ahead version t t') :
    Observed version P k v t' := by
  intro r' hr'
  obtain ⟨r, hr, rfl | hlt⟩ := hahead k r' hr'
  · exact h r' hr
  · have hle := (h r hr).1
    exact ⟨by omega, fun hv => by omega⟩

end Table

end NazoAuth.Lib
