import Mathlib.Data.List.Pairwise
import NazoAuth.Lib.Run

/-!
# Fences — unique keys that are kept until a retention time

A fence is a set of rows with unique keys that decides which of several concurrent transactions may
go through. A transaction *reserves* a row: it fails when a stored row shares a key, and waits while
a row of another open transaction does. A reservation is then *settled*, which stores the row, or
*abandoned*. A *sweep* deletes rows whose retention time has passed.

The fence forgets, so a key can be settled twice; `settled_apart` says what remains: the later of
the two was reserved when the retention time of the earlier one had passed. All clocks are one
clock: the guard `Timed` on histories says that it does not run backwards.
-/

namespace NazoAuth.Lib

/-- A reservation of an open transaction. -/
structure Reservation (τ ρ : Type) where
  tx : τ
  row : ρ
  reservedAt : Int

/-- Stored rows and open reservations. -/
structure Fence (τ ρ : Type) where
  rows : List ρ
  pending : List (Reservation τ ρ)

namespace Fence

/-- A fence without rows and reservations. -/
def empty {τ ρ : Type} : Fence τ ρ := ⟨[], []⟩

inductive Action (τ ρ : Type) where
  | reserve (tx : τ) (row : ρ)
  | settle (tx : τ)
  | abandon (tx : τ)
  /-- Delete the selected rows among those whose retention time has passed. -/
  | sweep (selected : ρ → Bool)

structure Op (τ ρ : Type) where
  action : Action τ ρ
  now : Int

inductive Outcome (ρ : Type) where
  /-- A stored row has one of the keys. -/
  | conflict
  /-- An open transaction has one of the keys. -/
  | busy
  | reserved
  /-- The row was stored; `reservedAt` is the clock at its reservation. -/
  | settled (row : ρ) (reservedAt : Int)
  | done

section Machine

variable {τ ρ κ : Type} [DecidableEq τ] [DecidableEq κ] (keys : ρ → List κ) (retainUntil : ρ → Int)

/-- The rows have a key in common. -/
def shares (r r' : ρ) : Bool := (keys r).any fun k => (keys r').contains k

/-- One operation of the fence. -/
def exec (f : Fence τ ρ) (op : Op τ ρ) : Fence τ ρ × Outcome ρ :=
  match op.action with
  | .reserve tx row =>
    if f.rows.any (shares keys row) then (f, .conflict)
    else if f.pending.any (fun p => p.tx = tx || shares keys row p.row) then (f, .busy)
    else ({ f with pending := ⟨tx, row, op.now⟩ :: f.pending }, .reserved)
  | .settle tx =>
    match f.pending.find? (fun p => p.tx = tx) with
    | none => (f, .done)
    | some p => (⟨p.row :: f.rows, f.pending.filter fun q => q.tx ≠ tx⟩, .settled p.row p.reservedAt)
  | .abandon tx => ({ f with pending := f.pending.filter fun q => q.tx ≠ tx }, .done)
  | .sweep selected =>
    ({ f with rows := f.rows.filter fun r => !(selected r && decide (retainUntil r ≤ op.now)) }, .done)

/-- The clock does not run backwards. -/
def Timed : List (Op τ ρ × Outcome ρ) → Prop
  | [] => True
  | e :: log => Timed log ∧ ∀ e' ∈ log, e'.1.now ≤ e.1.now

omit [DecidableEq τ] [DecidableEq κ] in
/-- A history that is read as one of the fence, clock by clock, is timed when its clock does not run
backwards. -/
theorem timed_filterMap {ε : Type} {T : List ε → Prop} {now : ε → Int} {ev : ε → Option (Op τ ρ × Outcome ρ)}
    (hT : ∀ e log, T (e :: log) → T log ∧ ∀ e' ∈ log, now e' ≤ now e)
    (hnow : ∀ e e', ev e = some e' → e'.1.now = now e) {log : List ε} (ht : T log) : Timed (log.filterMap ev) := by
  induction log with
  | nil => trivial
  | cons e log ih =>
    obtain ⟨hlog, hclock⟩ := hT e log ht
    cases hev : ev e with
    | none => rw [List.filterMap_cons_none hev]; exact ih hlog
    | some e' =>
      rw [List.filterMap_cons_some hev]
      refine ⟨ih hlog, fun e₁' hmem => ?_⟩
      obtain ⟨e₁, hmem₁, hev₁⟩ := List.mem_filterMap.mp hmem
      rw [hnow e e' hev, hnow e₁ e₁' hev₁]
      exact hclock e₁ hmem₁

variable {keys retainUntil}

/-- **What one operation can do.** -/
inductive Effect (keys : ρ → List κ) (retainUntil : ρ → Int) (f f' : Fence τ ρ) (op : Op τ ρ)
    (out : Outcome ρ) : Prop
  | same : f' = f → (∀ r t, out ≠ .settled r t) → Effect keys retainUntil f f' op out
  | reserved {tx : τ} {row : ρ} : op.action = .reserve tx row → out = .reserved →
      (∀ r ∈ f.rows, shares keys row r = false) →
      (∀ p ∈ f.pending, p.tx ≠ tx ∧ shares keys row p.row = false) →
      f' = { f with pending := ⟨tx, row, op.now⟩ :: f.pending } → Effect keys retainUntil f f' op out
  | settled {p : Reservation τ ρ} : p ∈ f.pending → out = .settled p.row p.reservedAt →
      f' = ⟨p.row :: f.rows, f.pending.filter fun q => q.tx ≠ p.tx⟩ → Effect keys retainUntil f f' op out
  | abandoned {tx : τ} : (∀ r t, out ≠ .settled r t) →
      f' = { f with pending := f.pending.filter fun q => q.tx ≠ tx } → Effect keys retainUntil f f' op out
  | swept {gone : ρ → Bool} : (∀ r t, out ≠ .settled r t) → (∀ r, gone r = true → retainUntil r ≤ op.now) →
      f' = { f with rows := f.rows.filter fun r => !gone r } → Effect keys retainUntil f f' op out

theorem effect_of_exec {f f' : Fence τ ρ} {op : Op τ ρ} {out : Outcome ρ}
    (he : exec keys retainUntil f op = (f', out)) : Effect keys retainUntil f f' op out := by
  unfold exec at he
  cases ha : op.action with
  | reserve tx row =>
    simp only [ha] at he
    by_cases hc : f.rows.any (shares keys row) = true
    · rw [if_pos hc] at he
      cases he
      exact .same rfl (by simp)
    rw [if_neg hc] at he
    by_cases hb : f.pending.any (fun p => p.tx = tx || shares keys row p.row) = true
    · rw [if_pos hb] at he
      cases he
      exact .same rfl (by simp)
    rw [if_neg hb] at he
    cases he
    refine .reserved ha rfl (fun r hr => ?_) (fun p hp => ?_) rfl
    · simpa using fun h => hc (List.any_eq_true.mpr ⟨r, hr, h⟩)
    · have hno : ¬ (decide (p.tx = tx) || shares keys row p.row) = true :=
        fun h => hb (List.any_eq_true.mpr ⟨p, hp, h⟩)
      simpa using hno
  | settle tx =>
    simp only [ha] at he
    cases hp : f.pending.find? (fun p => p.tx = tx) with
    | none =>
      simp only [hp] at he
      cases he
      exact .same rfl (by simp)
    | some p =>
      simp only [hp] at he
      cases he
      have htx : p.tx = tx := by simpa using List.find?_some hp
      subst htx
      exact .settled (List.mem_of_find?_eq_some hp) rfl rfl
  | abandon =>
    simp only [ha] at he
    cases he
    exact .abandoned (by simp) rfl
  | sweep =>
    simp only [ha] at he
    cases he
    refine .swept (by simp) (fun r hr => ?_) rfl
    simp only [Bool.and_eq_true, decide_eq_true_eq] at hr
    exact hr.2

/-! ## Histories -/

/-- No two reservations and rows have a key in common, and a transaction has one reservation. -/
structure Disjoint (keys : ρ → List κ) (f : Fence τ ρ) : Prop where
  stored : f.rows.Pairwise fun r r' => shares keys r r' = false
  rows : ∀ p ∈ f.pending, ∀ r ∈ f.rows, shares keys p.row r = false
  pending : ∀ p ∈ f.pending, ∀ q ∈ f.pending, p.tx ≠ q.tx → shares keys p.row q.row = false
  tx : ∀ p ∈ f.pending, ∀ q ∈ f.pending, p.tx = q.tx → p = q

omit [DecidableEq τ] in
theorem shares_comm (r r' : ρ) : shares keys r r' = shares keys r' r := by
  have h : ∀ a b : ρ, shares keys a b = true → shares keys b a = true := by
    intro a b h
    obtain ⟨k, hk, hk'⟩ := List.any_eq_true.mp h
    exact List.any_eq_true.mpr ⟨k, List.contains_iff_mem.mp hk', List.contains_iff_mem.mpr hk⟩
  exact Bool.eq_iff_iff.mpr ⟨h r r', h r' r⟩

variable {f f' : Fence τ ρ} {op : Op τ ρ} {out : Outcome ρ}

omit [DecidableEq τ] in
/-- A key belongs to one stored row. -/
theorem Disjoint.eq_of_shares (hd : Disjoint keys f) {r r' : ρ} (hr : r ∈ f.rows)
    (hr' : r' ∈ f.rows) (hs : shares keys r r' = true) : r = r' := by
  by_contra hne
  have hsymm : Std.Symm fun r r' : ρ => shares keys r r' = false := ⟨fun _ _ h => (shares_comm _ _).trans h⟩
  exact absurd (hs.symm.trans (hd.stored.forall hr hr' hne)) (by simp)

theorem disjoint_step (hd : Disjoint keys f) (he : exec keys retainUntil f op = (f', out)) : Disjoint keys f' := by
  cases effect_of_exec he with
  | same hf => rw [hf]; exact hd
  | reserved _ _ hrows hpend hf =>
    subst hf
    refine ⟨hd.stored, fun p hp r hr => ?_, fun p hp q hq hne => ?_, fun p hp q hq heq => ?_⟩
    · rcases List.mem_cons.mp hp with rfl | hp
      · exact hrows r hr
      · exact hd.rows p hp r hr
    · rcases List.mem_cons.mp hp with rfl | hp
      · rcases List.mem_cons.mp hq with rfl | hq
        · exact absurd rfl hne
        · exact (hpend q hq).2
      · rcases List.mem_cons.mp hq with rfl | hq
        · rw [shares_comm]
          exact (hpend p hp).2
        · exact hd.pending p hp q hq hne
    · rcases List.mem_cons.mp hp with rfl | hp
      · rcases List.mem_cons.mp hq with rfl | hq
        · rfl
        · exact absurd heq.symm (hpend q hq).1
      · rcases List.mem_cons.mp hq with rfl | hq
        · exact absurd heq (hpend p hp).1
        · exact hd.tx p hp q hq heq
  | settled hp hout hf =>
    rename_i p
    subst hf
    refine ⟨List.pairwise_cons.mpr ⟨hd.rows p hp, hd.stored⟩, fun q hq r hr => ?_, fun q hq q' hq' hne => ?_,
      fun q hq q' hq' heq => ?_⟩
    · obtain ⟨hq, hne⟩ := List.mem_filter.mp hq
      rcases List.mem_cons.mp hr with rfl | hr
      · exact hd.pending q hq p hp (by simpa using hne)
      · exact hd.rows q hq r hr
    · exact hd.pending q (List.mem_filter.mp hq).1 q' (List.mem_filter.mp hq').1 hne
    · exact hd.tx q (List.mem_filter.mp hq).1 q' (List.mem_filter.mp hq').1 heq
  | abandoned _ hf =>
    subst hf
    refine ⟨hd.stored, fun q hq r hr => ?_, fun q hq q' hq' hne => ?_, fun q hq q' hq' heq => ?_⟩
    · exact hd.rows q (List.mem_filter.mp hq).1 r hr
    · exact hd.pending q (List.mem_filter.mp hq).1 q' (List.mem_filter.mp hq').1 hne
    · exact hd.tx q (List.mem_filter.mp hq).1 q' (List.mem_filter.mp hq').1 heq
  | swept _ _ hf =>
    subst hf
    exact ⟨hd.stored.sublist List.filter_sublist, fun q hq r hr => hd.rows q hq r (List.mem_filter.mp hr).1,
      hd.pending, hd.tx⟩

variable {log : List (Op τ ρ × Outcome ρ)}

theorem disjoint_of_run (hr : Run (exec keys retainUntil) empty log f) : Disjoint keys f := by
  refine Run.state_invariant ⟨List.Pairwise.nil, ?_, ?_, ?_⟩ (fun _ _ _ _ hd he => disjoint_step hd he) hr
  · exact fun p hp => absurd hp List.not_mem_nil
  · exact fun p hp => absurd hp List.not_mem_nil
  · exact fun p hp => absurd hp List.not_mem_nil

/-- A row that was settled is still stored or past its retention time, and every open reservation
that shares a key with it was made after that time. -/
def SettledInv (keys : ρ → List κ) (retainUntil : ρ → Int) (log : List (Op τ ρ × Outcome ρ))
    (f : Fence τ ρ) : Prop :=
  ∀ e ∈ log, ∀ r t, e.2 = .settled r t →
    (r ∈ f.rows ∨ ∃ e' ∈ log, retainUntil r ≤ e'.1.now)
    ∧ ∀ p ∈ f.pending, shares keys p.row r = true → retainUntil r ≤ p.reservedAt

theorem settledInv_step (hd : Disjoint keys f) (ht : Timed ((op, out) :: log))
    (hi : SettledInv keys retainUntil log f) (he : exec keys retainUntil f op = (f', out)) :
    SettledInv keys retainUntil ((op, out) :: log) f' := by
  -- what was known of the older events, with the newest event added to the clock
  have hold : ∀ e ∈ log, ∀ r t, e.2 = .settled r t →
      (r ∈ f.rows ∨ ∃ e' ∈ (op, out) :: log, retainUntil r ≤ e'.1.now)
      ∧ ∀ p ∈ f.pending, shares keys p.row r = true → retainUntil r ≤ p.reservedAt := by
    intro e hmem r t hs
    obtain ⟨h1, h2⟩ := hi e hmem r t hs
    refine ⟨h1.imp_right ?_, h2⟩
    rintro ⟨e', he', hle⟩
    exact ⟨e', .tail _ he', hle⟩
  intro e hmem r t hs
  cases effect_of_exec he with
  | same hf hout =>
    subst hf
    rcases List.mem_cons.mp hmem with rfl | hmem
    · exact absurd hs (hout r t)
    · exact hold e hmem r t hs
  | reserved _ hout hrows hpend hf =>
    rcases List.mem_cons.mp hmem with rfl | hmem
    · cases hout.symm.trans hs
    obtain ⟨h1, h2⟩ := hold e hmem r t hs
    subst hf
    refine ⟨h1, fun p hp hsh => ?_⟩
    rcases List.mem_cons.mp hp with rfl | hp
    · -- no stored row shares a key with the new reservation, so `r` is past its retention time
      rcases (hi e hmem r t hs).1 with hstored | ⟨e', he', hle⟩
      · exact absurd (hrows r hstored) (by simp [hsh])
      · exact Int.le_trans hle (ht.2 e' he')
    · exact h2 p hp hsh
  | settled hp hout hf =>
    rename_i p
    subst hf
    rcases List.mem_cons.mp hmem with rfl | hmem
    · simp only [hout] at hs
      cases hs
      refine ⟨.inl (.head _), fun q hq hsh => ?_⟩
      obtain ⟨hq, hne⟩ := List.mem_filter.mp hq
      have := hd.pending q hq p hp (by simpa using hne)
      cases hsh.symm.trans this
    · obtain ⟨h1, h2⟩ := hold e hmem r t hs
      exact ⟨h1.imp_left (List.mem_cons_of_mem _), fun q hq hsh => h2 q (List.mem_filter.mp hq).1 hsh⟩
  | abandoned hout hf =>
    subst hf
    rcases List.mem_cons.mp hmem with rfl | hmem
    · exact absurd hs (hout r t)
    · obtain ⟨h1, h2⟩ := hold e hmem r t hs
      exact ⟨h1, fun q hq hsh => h2 q (List.mem_filter.mp hq).1 hsh⟩
  | swept hout hgone hf =>
    rename_i gone
    subst hf
    rcases List.mem_cons.mp hmem with rfl | hmem
    · exact absurd hs (hout r t)
    obtain ⟨h1, h2⟩ := hold e hmem r t hs
    refine ⟨?_, h2⟩
    cases hg : gone r with
    | true => exact .inr ⟨(op, out), List.mem_cons_self, hgone r hg⟩
    | false => exact h1.imp_left fun hr => List.mem_filter.mpr ⟨hr, by simp [hg]⟩

theorem settledInv_of_run (hr : Run (exec keys retainUntil) empty log f) (ht : Timed log) :
    SettledInv keys retainUntil log f := by
  refine Run.invariant (fun _ _ h => h.1) (fun e he => absurd he List.not_mem_nil) ?_ hr ht
  intro log f op f' out hr ht hi he
  exact settledInv_step (disjoint_of_run hr) ht hi he

/-- **Settled rows are kept apart.** If a row is settled that shares a key with a row settled
before, then it was reserved when the retention time of the earlier row had passed. -/
theorem settled_apart (newer : List (Op τ ρ × Outcome ρ)) {older : List (Op τ ρ × Outcome ρ)}
    {e₁ e₂ : Op τ ρ × Outcome ρ} {r₁ r₂ : ρ} {t₁ t₂ : Int}
    (hr : Run (exec keys retainUntil) empty (newer ++ e₂ :: older) f) (ht : Timed (newer ++ e₂ :: older))
    (h₂ : e₂.2 = .settled r₂ t₂) (hmem : e₁ ∈ older) (h₁ : e₁.2 = .settled r₁ t₁)
    (hshare : shares keys r₂ r₁ = true) : retainUntil r₁ ≤ t₂ := by
  obtain ⟨f₂, hr₂, -⟩ := hr.split
  have ht₂ : Timed (e₂ :: older) := by
    clear hr hr₂
    induction newer with
    | nil => exact ht
    | cons e newer ih => exact ih ht.1
  cases hr₂ with
  | cons hr₀ he =>
    obtain ⟨-, hpend⟩ := settledInv_of_run hr₀ ht₂.1 e₁ hmem r₁ t₁ h₁
    cases effect_of_exec he with
    | same _ hout => exact absurd h₂ (hout r₂ t₂)
    | reserved _ hout => cases hout.symm.trans h₂
    | settled hp hout _ =>
      simp only [hout] at h₂
      cases h₂
      exact hpend _ hp hshare
    | abandoned hout | swept hout => exact absurd h₂ (hout r₂ t₂)

end Machine

end Fence

end NazoAuth.Lib
