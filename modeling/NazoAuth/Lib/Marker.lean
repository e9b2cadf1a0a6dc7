import Mathlib.Data.List.Pairwise
import NazoAuth.Lib.Register
import NazoAuth.Lib.Run

/-!
# Markers — keys that can be set once until they expire

A marker is a key without a value: it is set if it is not there, and goes at its deadline. It says
that something was used, and it forgets, so a key may be set again.

The clock of the store does not run backwards: the guard `TimedBy` on histories.
-/

namespace NazoAuth.Lib

/-- Markers under their keys. -/
abbrev Markers (κ : Type) := κ → Option (Entry Unit)

/-- A marker that is set at time `now`. -/
structure Marking (κ : Type) where
  key : κ
  deadline : Int
  now : Int

/-- What a step does to the markers: it sets one that was not there, or none. -/
def Marks {κ : Type} [DecidableEq κ] (m m' : Markers κ) : Option (Marking κ) → Prop
  | none => m' = m
  | some a => visible a.now (m a.key) = none ∧ m' = Function.update m a.key (some ⟨(), a.deadline⟩)

/-- The clock does not run backwards in the history. -/
def TimedBy {ε : Type} (now : ε → Int) (log : List ε) : Prop :=
  log.Pairwise fun newer older => now older ≤ now newer

instance {ε : Type} (now : ε → Int) (log : List ε) : Decidable (TimedBy now log) :=
  inferInstanceAs (Decidable (log.Pairwise fun newer older => now older ≤ now newer))

/-- A marker that is not visible is over its deadline. -/
theorem deadline_lt_of_not_visible {now d : Int}
    (h : visible now (some (⟨(), d⟩ : Entry Unit)) = none) : d < now := by
  by_contra hle
  have hvisible : visible now (some (⟨(), d⟩)) = some ⟨(), d⟩ := if_pos (decide_eq_true (Int.not_lt.mp hle))
  rw [hvisible] at h
  cases h

section Histories

variable {σ op out κ : Type} [DecidableEq κ] {exec : σ → op → σ × out} {markers : σ → Markers κ}
  {marking : op × out → Option (Marking κ)} {now : op × out → Int}

/-- The last marker of a key is stored, and the others were gone when it was set. -/
def Remembers (markers : σ → Markers κ) (marking : op × out → Option (Marking κ))
    (now : op × out → Int) (log : List (op × out)) (s : σ) : Prop :=
  ∀ e ∈ log, ∀ a, marking e = some a →
    markers s a.key = some ⟨(), a.deadline⟩ ∨ ∃ e' ∈ log, a.deadline < now e'

theorem remembers_step (hnow : ∀ e a, marking e = some a → a.now = now e) {log : List (op × out)}
    {s s' : σ} {o : op} {r : out} (hm : Marks (markers s) (markers s') (marking (o, r)))
    (h : Remembers markers marking now log s) :
    Remembers markers marking now ((o, r) :: log) s' := by
  intro e he a ha
  rcases List.mem_cons.mp he with rfl | he
  · rw [ha] at hm
    exact .inl (by rw [hm.2, Function.update_self])
  rcases h e he a ha with hstored | ⟨e', he', hgone⟩
  · cases hnew : marking (o, r) with
    | none =>
      rw [hnew] at hm
      exact .inl (by rw [hm]; exact hstored)
    | some b =>
      rw [hnew] at hm
      by_cases hkey : a.key = b.key
      · -- The key is set again, so its marker is not visible any more.
        refine .inr ⟨(o, r), List.mem_cons_self, ?_⟩
        rw [← hnow _ b hnew]
        exact deadline_lt_of_not_visible (by rw [← hstored, hkey]; exact hm.1)
      · exact .inl (by rw [hm.2, Function.update_of_ne hkey]; exact hstored)
  · exact .inr ⟨e', .tail _ he', hgone⟩

variable {s₀ s : σ} {log : List (op × out)} (hnow : ∀ e a, marking e = some a → a.now = now e)
  (hmarks : ∀ s o s' r, exec s o = (s', r) → Marks (markers s) (markers s') (marking (o, r)))
  (hrun : Run exec s₀ log s) (htimed : TimedBy now log)

include hnow hmarks hrun htimed

/-- **Two markings of a key are apart**: the later one is after the deadline of the earlier one. -/
theorem markings_apart :
    log.Pairwise fun newer older => ∀ a b, marking newer = some a → marking older = some b →
      a.key = b.key → b.deadline < a.now := by
  refine (hrun.invariant (I := fun log s => Remembers markers marking now log s ∧ log.Pairwise fun newer older =>
    ∀ a b, marking newer = some a → marking older = some b → a.key = b.key → b.deadline < a.now)
    (fun e log h => (List.pairwise_cons.mp h).2) ⟨fun e he => absurd he List.not_mem_nil, .nil⟩ ?_ htimed).2
  rintro log s o s' r - htimed ⟨hremembers, hapart⟩ he
  have hm := hmarks s o s' r he
  refine ⟨remembers_step hnow hm hremembers, List.pairwise_cons.mpr ⟨fun e hmem a b ha hb hkey => ?_, hapart⟩⟩
  have hclock := (List.pairwise_cons.mp htimed).1
  rcases hremembers e hmem b hb with hstored | ⟨e', he', hgone⟩
  · rw [ha] at hm
    exact deadline_lt_of_not_visible (by rw [← hstored, ← hkey]; exact hm.1)
  · rw [hnow _ a ha]
    exact Int.lt_of_lt_of_le hgone (hclock e' he')

/-- **Used once.** All uses set one key, and each is before the deadline of the marker of every use
before it. -/
theorem countP_marked_le_one {p : op × out → Bool} (hmarked : ∀ e ∈ log, p e = true → ∃ a, marking e = some a)
    (hcovers : ∀ e ∈ log, ∀ e' ∈ log, p e = true → p e' = true → ∀ a b, marking e = some a → marking e' = some b →
      a.key = b.key ∧ (b.now ≤ a.now → a.now ≤ b.deadline)) : log.countP p ≤ 1 := by
  refine countP_le_one fun newer e older hsplit hp e' he' => ?_
  by_contra hp'
  replace hp' : p e' = true := by simpa using hp'
  have hmem : e ∈ log := by simp [hsplit]
  have hmem' : e' ∈ log := by simp [hsplit, he']
  obtain ⟨a, ha⟩ := hmarked e hmem hp
  obtain ⟨b, hb⟩ := hmarked e' hmem' hp'
  obtain ⟨hkey, hlive⟩ := hcovers e hmem e' hmem' hp hp' a b ha hb
  have hapart := markings_apart hnow hmarks hrun htimed
  rw [hsplit] at hapart htimed
  have hlate := (List.pairwise_cons.mp (List.pairwise_append.mp hapart).2.1).1 e' he' a b ha hb hkey
  have hclock := (List.pairwise_cons.mp (List.pairwise_append.mp htimed).2.1).1 e' he'
  rw [← hnow e a ha, ← hnow e' b hb] at hclock
  exact absurd (hlive hclock) (Int.not_le.mpr hlate)

end Histories

end NazoAuth.Lib
