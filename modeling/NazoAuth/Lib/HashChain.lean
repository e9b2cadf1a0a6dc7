import Mathlib.Data.List.Basic

/-!
# Hash chains — numbered entries that carry the hash of their predecessor

Entries of any type, with three readings: the number of an entry, the hash it carries as that of its
predecessor, and its own hash. `Chained n h es` says that the entries `es` are numbered from `n` on
and linked, the first one to the hash `h`; `tip h es` is the hash that the entry after them has to
carry. A chain is extended and cut with `chained_append`.
-/

namespace NazoAuth.Lib

section HashChain

variable {ε η : Type} (number : ε → Nat) (previous hash : ε → η)

/-- The entries are numbered from `n` on and linked, the first one to `h`. -/
def Chained : Nat → η → List ε → Prop
  | _, _, [] => True
  | n, h, e :: es => number e = n ∧ previous e = h ∧ Chained (n + 1) (hash e) es

/-- The hash that the next entry has to carry. -/
def tip : η → List ε → η
  | h, [] => h
  | _, e :: es => tip (hash e) es

variable {number previous hash} {n : Nat} {h : η}

theorem tip_append (a b : List ε) : tip hash h (a ++ b) = tip hash (tip hash h a) b := by
  induction a generalizing h with
  | nil => rfl
  | cons e a ih => exact ih

theorem chained_append {a b : List ε} : Chained number previous hash n h (a ++ b) ↔
      Chained number previous hash n h a ∧ Chained number previous hash (n + a.length) (tip hash h a) b := by
  induction a generalizing n h with
  | nil => simp [Chained, tip]
  | cons e a ih =>
    have hlen : n + (e :: a).length = n + 1 + a.length := by
      rw [List.length_cons]
      omega
    rw [hlen]
    simp only [List.cons_append, Chained, tip, ih, and_assoc]

/-- The numbers of a chain have no gap and no repetition. -/
theorem Chained.numbers {es : List ε} (hc : Chained number previous hash n h es) :
    es.map number = List.range' n es.length := by
  induction es generalizing n h with
  | nil => rfl
  | cons e es ih =>
    obtain ⟨hn, -, hrest⟩ := hc
    rw [List.map_cons, List.length_cons, List.range'_succ, hn, ih hrest]

theorem Chained.number_mem {es : List ε} (hc : Chained number previous hash n h es) {e : ε}
    (he : e ∈ es) : n ≤ number e ∧ number e < n + es.length := by
  have hmem : number e ∈ List.range' n es.length := hc.numbers ▸ List.mem_map_of_mem he
  exact List.mem_range'_1.mp hmem

end HashChain

end NazoAuth.Lib
