import Mathlib.Tactic.Ring

/-!
# Hexadecimal text of fixed width
-/

namespace NazoAuth.Lib

def hexDigit (n : Nat) : Char := if n < 10 then Char.ofNat (48 + n) else Char.ofNat (87 + n)

def hexValue? (c : Char) : Option Nat :=
  if 48 ≤ c.toNat ∧ c.toNat ≤ 57 then some (c.toNat - 48)
  else if 97 ≤ c.toNat ∧ c.toNat ≤ 102 then some (c.toNat - 87)
  else none

theorem hexDigit_spec {n : Nat} (h : n < 16) :
    hexValue? (hexDigit n) = some n ∧ hexDigit n ≠ '-' ∧ (hexDigit n).toLower = hexDigit n := by
  have hall : ∀ n : Fin 16, hexValue? (hexDigit n) = some n.1 ∧ hexDigit n ≠ '-'
      ∧ (hexDigit n).toLower = hexDigit n := by
    decide
  exact hall ⟨n, h⟩

/-- The lowest `k` digits. -/
def toHex : Nat → Nat → List Char
  | 0, _ => []
  | k + 1, n => hexDigit (n / 16 ^ k % 16) :: toHex k n

def ofHexFrom? (acc : Nat) : List Char → Option Nat
  | [] => some acc
  | c :: cs => match hexValue? c with
    | none => none
    | some v => ofHexFrom? (acc * 16 + v) cs

def ofHex? (cs : List Char) : Option Nat := ofHexFrom? 0 cs

theorem ofHexFrom?_toHex (k n acc : Nat) : ofHexFrom? acc (toHex k n) = some (acc * 16 ^ k + n % 16 ^ k) := by
  induction k generalizing acc with
  | zero => simp [toHex, ofHexFrom?, Nat.mod_one]
  | succ k ih =>
    have hdigit := (hexDigit_spec (Nat.mod_lt (n / 16 ^ k) (by decide))).1
    simp only [toHex, ofHexFrom?, hdigit]
    rw [ih, Nat.mod_pow_succ]
    exact congrArg some (by ring)

theorem ofHex?_toHex (k n : Nat) : ofHex? (toHex k n) = some (n % 16 ^ k) := by
  rw [ofHex?, ofHexFrom?_toHex, Nat.zero_mul, Nat.zero_add]

theorem of_mem_toHex {k n : Nat} {c : Char} (h : c ∈ toHex k n) : c ≠ '-' ∧ c.toLower = c := by
  induction k with
  | zero => cases h
  | succ k ih =>
    rcases List.mem_cons.mp h with rfl | h
    · exact (hexDigit_spec (Nat.mod_lt _ (by decide))).2
    · exact ih h

theorem length_toHex (k n : Nat) : (toHex k n).length = k := by
  induction k with
  | zero => rfl
  | succ k ih => simp [toHex, ih]

/-- Digits in the groups `8-4-4-4-12`. -/
def hyphenate (cs : List Char) : List Char :=
  cs.take 8 ++ '-' :: ((cs.drop 8).take 4 ++ '-'
    :: ((cs.drop 12).take 4 ++ '-' :: ((cs.drop 16).take 4 ++ '-' :: cs.drop 20)))

/-- The value of thirty-two digits in these groups, in either case. -/
def ofHyphenated? (cs : List Char) : Option Nat :=
  let digits := cs.filter fun c => c ≠ '-'
  if digits.length = 32 ∧ hyphenate digits = cs then ofHex? (digits.map Char.toLower) else none

theorem filter_hyphenate {cs : List Char} (h : ∀ c ∈ cs, c ≠ '-') :
    (hyphenate cs).filter (fun c => c ≠ '-') = cs := by
  have hkeep : ∀ l : List Char, (∀ c ∈ l, c ∈ cs) → l.filter (fun c => c ≠ '-') = l := by
    intro l hl
    exact List.filter_eq_self.mpr fun c hc => by simpa using h c (hl c hc)
  have htake : ∀ a b, ((cs.drop a).take b).filter (fun c => c ≠ '-') = (cs.drop a).take b := fun a b =>
    hkeep _ fun c hc => List.mem_of_mem_drop (List.mem_of_mem_take hc)
  have hhead : (cs.take 8).filter (fun c => c ≠ '-') = cs.take 8 := hkeep _ fun c hc => List.mem_of_mem_take hc
  have htail : (cs.drop 20).filter (fun c => c ≠ '-') = cs.drop 20 := hkeep _ fun c hc => List.mem_of_mem_drop hc
  have hyphen : ∀ l : List Char, ('-' :: l).filter (fun c => c ≠ '-') = l.filter fun c => c ≠ '-' :=
    fun l => by simp
  unfold hyphenate
  simp only [List.filter_append, hyphen, hhead, htake, htail]
  have hstep : ∀ a b, (cs.drop a).take b ++ cs.drop (a + b) = cs.drop a := fun a b => by
    rw [← List.drop_drop, List.take_append_drop]
  rw [hstep 16 4, hstep 12 4, hstep 8 4, List.take_append_drop]

theorem ofHyphenated?_hyphenate (n : Nat) (h : n < 16 ^ 32) : ofHyphenated? (hyphenate (toHex 32 n)) = some n := by
  have hfilter : (hyphenate (toHex 32 n)).filter (fun c => c ≠ '-') = toHex 32 n :=
    filter_hyphenate fun c hc => (of_mem_toHex hc).1
  have hlower : (toHex 32 n).map Char.toLower = toHex 32 n := by
    rw [List.map_congr_left fun c hc => (of_mem_toHex hc).2, List.map_id']
  simp only [ofHyphenated?, hfilter, hlower, length_toHex, and_self, if_true, ofHex?_toHex, Nat.mod_eq_of_lt h]

end NazoAuth.Lib
