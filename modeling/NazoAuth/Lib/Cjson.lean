import NazoAuth.Lib.Json

/-!
# Re-encoding in a script — what a JSON value becomes when Lua reads and writes it

The `cjson` module of the store's scripts decodes a document into tables and numbers and encodes it
again. On the way an empty array, which is an empty table, becomes an empty object, and a number is
written with fourteen significant digits: one that has more is written with an exponent. Everything
else survives; the order of members and the spelling of strings belong to the text, not to the
value. A number of a script is a double.
-/

namespace NazoAuth.Lib

/-! ## Numbers of a script -/

/-- Division to the nearest, ties to even. -/
def roundDiv (n d : Nat) : Nat :=
  if 2 * (n % d) < d then n / d
  else if 2 * (n % d) = d then n / d + n / d % 2
  else n / d + 1

/-- The double nearest to an integer: 53 bits of it are kept. -/
def luaDouble (n : Int) : Int :=
  let unit := 2 ^ (n.natAbs.log2 - 52)
  n.sign * (roundDiv n.natAbs unit * unit : Nat)

theorem luaDouble_of_small {n : Int} (h : n.natAbs < 2 ^ 53) : luaDouble n = n := by
  have hbits : n.natAbs.log2 - 52 = 0 := by
    by_cases hn : n.natAbs = 0
    · simp [hn]
    · have := (Nat.log2_lt hn).mpr h
      omega
  simp only [luaDouble, hbits, roundDiv, pow_zero, Nat.mod_one, Nat.div_one, Nat.mul_one]
  exact Int.sign_mul_natAbs n

/-- Only a positive integer becomes a positive double. -/
theorem pos_of_luaDouble_pos {n : Int} (h : 0 < luaDouble n) : 0 < n :=
  Int.sign_eq_one_iff_pos.mp <| by
    rcases Int.sign_trichotomy n with hs | hs | hs
    · exact hs
    · simp [luaDouble, hs] at h
    · simp only [luaDouble, hs] at h
      omega

/-! ## Documents -/

/-- The text of a stored document: its value, and the order of members and the spelling that an
encoder happens to choose. A comparison of texts compares both. -/
structure Text where
  document : Json
  layout : Nat
  deriving DecidableEq

namespace Json

/-- The first integer that needs more than fourteen digits. -/
def luaDigits : Nat := 10 ^ 14

/-- The number of digits that are cut off; a 64-bit integer has at most nineteen. -/
def luaExponent (n : Nat) : Nat := ((List.range 7).find? fun e => n / 10 ^ e < luaDigits).getD 7

/-- A number, read as a double and written in the format `%.14g`. -/
def luaNumber (n : Int) : Json :=
  if n.natAbs < luaDigits then .num n
  else
    let magnitude := (luaDouble n).natAbs
    .real (n.sign * roundDiv magnitude (10 ^ luaExponent magnitude)) (luaExponent magnitude)

mutual

/-- `cjson.encode(cjson.decode(...))`. -/
def reencode : Json → Json
  | .null => .null
  | .bool b => .bool b
  | .num n => luaNumber n
  | .real m e => .real m e
  | .str s => .str s
  | .arr [] => .obj []
  | .arr (x :: xs) => .arr (reencode x :: reencodeItems xs)
  | .obj members => .obj (reencodeMembers members)

def reencodeItems : List Json → List Json
  | [] => []
  | x :: xs => reencode x :: reencodeItems xs

def reencodeMembers : List (String × Json) → List (String × Json)
  | [] => []
  | (name, value) :: rest => (name, reencode value) :: reencodeMembers rest

end

theorem luaNumber_cases (n : Int) : luaNumber n = .num n ∨ ∃ m e, luaNumber n = .real m e := by
  unfold luaNumber
  split_ifs
  · exact .inl rfl
  · exact .inr ⟨_, _, rfl⟩

theorem get?_reencode (name : String) (j : Json) : (reencode j).get? name = (j.get? name).map reencode := by
  cases j with
  | obj members =>
    simp only [reencode]
    induction members with
    | nil => rfl
    | cons m rest ih =>
      obtain ⟨n, v⟩ := m
      simp only [reencodeMembers, get?] at ih ⊢
      by_cases hn : n = name
      · simp [hn]
      · simpa [hn] using ih
  | arr items => cases items <;> rfl
  | num n =>
    obtain h | ⟨m, e, h⟩ := luaNumber_cases n
    · simp [reencode, h, get?]
    · simp [reencode, h, get?]
  | null | bool | real | str => rfl

theorem str?_reencode (j : Json) : str? (reencode j) = str? j := by
  cases j with
  | arr items => cases items <;> rfl
  | num n =>
    obtain h | ⟨m, e, h⟩ := luaNumber_cases n
    · simp [reencode, h]
    · simp [reencode, h, str?]
  | null | bool | real | str | obj => rfl

theorem bind_str?_reencode (j : Option Json) : (j.map reencode).bind str? = j.bind str? := by
  cases j with
  | none => rfl
  | some j => exact str?_reencode j

theorem mapM_str?_reencodeItems (items : List Json) : (reencodeItems items).mapM str? = items.mapM str? := by
  induction items with
  | nil => rfl
  | cons x xs ih => simp only [reencodeItems, List.mapM_cons, str?_reencode, ih]

/-- A nonempty array of strings survives. -/
theorem strings?_reencode {j : Json} {l : List String} (h : strings? j = some l) (hl : l ≠ []) :
    strings? (reencode j) = some l := by
  cases j with
  | arr items =>
    cases items with
    | nil =>
      exact absurd (Option.some.inj h).symm hl
    | cons x xs =>
      rw [← h]
      exact mapM_str?_reencodeItems (x :: xs)
  | null | bool | num | real | str | obj => cases h

/-- An integer survives or is no longer one. -/
theorem int?_reencode (lo hi : Int) (j : Json) :
    int? lo hi (reencode j) = int? lo hi j ∨ int? lo hi (reencode j) = none := by
  cases j with
  | num n =>
    obtain h | ⟨m, e, h⟩ := luaNumber_cases n
    · exact .inl (by rw [reencode, h])
    · exact .inr (by rw [reencode, h]; rfl)
  | arr items => cases items <;> exact .inr rfl
  | null | bool | real | str | obj => exact .inr rfl

/-- An integer of at most fourteen digits survives. -/
theorem int?_reencode_of_small {lo hi n : Int} {j : Json} (h : int? lo hi j = some n)
    (hn : n.natAbs < luaDigits) : int? lo hi (reencode j) = some n := by
  cases j with
  | num m =>
    have hm : m = n := by
      simp only [int?] at h
      split_ifs at h
      exact Option.some.inj h
    subst hm
    rw [reencode, luaNumber, if_pos hn]
    exact h
  | null | bool | real | str | arr | obj => cases h

/-- An optional string survives. -/
theorem optionally_str?_reencode (j : Option Json) : optionally str? (j.map reencode) = optionally str? j := by
  cases j with
  | none => rfl
  | some j =>
    cases j with
    | null => rfl
    | arr items => cases items <;> rfl
    | num n =>
      obtain h | ⟨m, e, h⟩ := luaNumber_cases n
      · simp [reencode, h]
      · simp [reencode, h, optionally, str?]
    | bool | real | str | obj => rfl

end Json

end NazoAuth.Lib
