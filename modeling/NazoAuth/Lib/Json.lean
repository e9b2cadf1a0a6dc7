import Mathlib.Tactic.Ring

/-!
# JSON values

Values as a decoder produces them. An object is the list of its members in the order of the decoder.
Equality is decidable, so that a comparison of two decoded values is a computation.
-/

namespace NazoAuth.Lib

/-- A decoded JSON value. -/
inductive Json where
  | null
  | bool (b : Bool)
  | num (n : Int)
  /-- A number written with an exponent or a fraction: `mantissa * 10 ^ exponent`. -/
  | real (mantissa exponent : Int)
  | str (s : String)
  | arr (items : List Json)
  | obj (members : List (String × Json))

namespace Json

mutual

/-- Equality of values is decided by their structure. -/
def decEq : (a b : Json) → Decidable (a = b)
  | .null, .null => isTrue rfl
  | .bool x, .bool y => decidable_of_iff (x = y) (by simp)
  | .num x, .num y => decidable_of_iff (x = y) (by simp)
  | .real x e, .real y f => decidable_of_iff (x = y ∧ e = f) (by simp)
  | .str x, .str y => decidable_of_iff (x = y) (by simp)
  | .arr x, .arr y => @decidable_of_iff _ (x = y) (by simp) (decEqItems x y)
  | .obj x, .obj y => @decidable_of_iff _ (x = y) (by simp) (decEqMembers x y)
  | .null, .bool _ | .null, .num _ | .null, .real _ _ | .null, .str _ | .null, .arr _ | .null, .obj _ =>
    isFalse (by simp)
  | .bool _, .null | .bool _, .num _ | .bool _, .real _ _ | .bool _, .str _ | .bool _, .arr _
  | .bool _, .obj _ => isFalse (by simp)
  | .num _, .null | .num _, .bool _ | .num _, .real _ _ | .num _, .str _ | .num _, .arr _ | .num _, .obj _ =>
    isFalse (by simp)
  | .real _ _, .null | .real _ _, .bool _ | .real _ _, .num _ | .real _ _, .str _ | .real _ _, .arr _
  | .real _ _, .obj _ => isFalse (by simp)
  | .str _, .null | .str _, .bool _ | .str _, .num _ | .str _, .real _ _ | .str _, .arr _ | .str _, .obj _ =>
    isFalse (by simp)
  | .arr _, .null | .arr _, .bool _ | .arr _, .num _ | .arr _, .real _ _ | .arr _, .str _ | .arr _, .obj _ =>
    isFalse (by simp)
  | .obj _, .null | .obj _, .bool _ | .obj _, .num _ | .obj _, .real _ _ | .obj _, .str _ | .obj _, .arr _ =>
    isFalse (by simp)

/-- Array items, pairwise. -/
def decEqItems : (a b : List Json) → Decidable (a = b)
  | [], [] => isTrue rfl
  | [], _ :: _ => isFalse (by simp)
  | _ :: _, [] => isFalse (by simp)
  | x :: xs, y :: ys =>
    @decidable_of_iff _ (x = y ∧ xs = ys) (by simp) (@instDecidableAnd _ _ (decEq x y) (decEqItems xs ys))

/-- Object members, pairwise and in order. -/
def decEqMembers : (a b : List (String × Json)) → Decidable (a = b)
  | [], [] => isTrue rfl
  | [], _ :: _ => isFalse (by simp)
  | _ :: _, [] => isFalse (by simp)
  | (k, x) :: xs, (l, y) :: ys =>
    @decidable_of_iff _ ((k = l ∧ x = y) ∧ xs = ys) (by simp)
      (@instDecidableAnd _ _ (@instDecidableAnd _ _ inferInstance (decEq x y)) (decEqMembers xs ys))

end

instance : DecidableEq Json := decEq

/-- The member of an object under a name. -/
def get? : Json → String → Option Json
  | .obj members, name => (members.find? fun m => m.1 = name).map (·.2)
  | _, _ => none

/-- The items of an array; nothing for any other value. -/
def items : Json → List Json
  | .arr items => items
  | _ => []

def isObject : Json → Bool
  | .obj _ => true
  | _ => false

def isArray : Json → Bool
  | .arr _ => true
  | _ => false

/-! ### Typed reads -/

def str? : Json → Option String
  | .str s => some s
  | _ => none

/-- An integer of a machine type with the given bounds; a number with an exponent or a fraction is
none. -/
def int? (lo hi : Int) : Json → Option Int
  | .num n => if lo ≤ n ∧ n < hi then some n else none
  | _ => none

def i64? : Json → Option Int := int? (-2 ^ 63) (2 ^ 63)

def nat? (hi : Int) (j : Json) : Option Nat := (int? 0 hi j).map Int.toNat

/-- An array of strings. -/
def strings? : Json → Option (List String)
  | .arr items => items.mapM str?
  | _ => none

/-- An optional member: absent and null read as nothing, anything else must be readable. -/
def optionally {α : Type} (read : Json → Option α) : Option Json → Option (Option α)
  | none => some none
  | some .null => some none
  | some j => (read j).map some

/-! ### Members -/

/-- The member of an object under a name, replaced in its place or added at the end. -/
def set (name : String) (value : Json) : Json → Json
  | .obj members =>
    if members.any fun m => m.1 = name then
      .obj (members.map fun m => if m.1 = name then (name, value) else m)
    else .obj (members ++ [(name, value)])
  | j => j

def erase (name : String) : Json → Json
  | .obj members => .obj (members.filter fun m => m.1 ≠ name)
  | j => j

/-- A member that may be left out. -/
def member (name : String) : Option Json → List (String × Json)
  | none => []
  | some value => [(name, value)]

@[simp] theorem get?_member_append (name name' : String) (value : Option Json)
    (rest : List (String × Json)) : (obj (member name value ++ rest)).get? name' =
      if name = name' then value.or ((obj rest).get? name') else (obj rest).get? name' := by
  cases value with
  | none => by_cases h : name = name' <;> simp [member]
  | some => by_cases h : name = name' <;> simp [member, get?, h]

@[simp] theorem get?_member (name name' : String) (value : Option Json) :
    (obj (member name value)).get? name' = if name = name' then value else none := by
  cases value with
  | none => simp [member, get?]
  | some => by_cases h : name = name' <;> simp [member, get?]

theorem get?_set_of_ne {name name' : String} (h : name' ≠ name) (value j : Json) :
    (set name value j).get? name' = j.get? name' := by
  cases j with
  | obj members =>
    simp only [set]
    split_ifs with hmem
    · clear hmem
      induction members with
      | nil => rfl
      | cons m rest ih =>
        simp only [get?, List.map_cons] at ih ⊢
        by_cases hm : m.1 = name
        · simpa [hm, h.symm] using ih
        · by_cases hm' : m.1 = name'
          · simp [hm', h]
          · simpa [hm, hm'] using ih
    · simp [get?, h.symm]
  | null | bool | num | real | str | arr => rfl

theorem get?_set_self {name : String} (value : Json) (members : List (String × Json)) :
    (set name value (.obj members)).get? name = some value := by
  simp only [set]
  split_ifs with hmem
  · induction members with
    | nil => simp at hmem
    | cons m rest ih =>
      simp only [get?, List.map_cons] at ih ⊢
      by_cases hm : m.1 = name
      · simp [hm]
      · simp only [List.any_cons, hm, decide_false] at hmem
        simpa [hm] using ih hmem
  · have hnone : members.find? (fun m => decide (m.1 = name)) = none := by
      rw [List.find?_eq_none]
      intro m hm hname
      exact hmem (List.any_eq_true.mpr ⟨m, hm, hname⟩)
    simp [get?, hnone]

theorem get?_erase_of_ne {name name' : String} (h : name' ≠ name) (j : Json) :
    (erase name j).get? name' = j.get? name' := by
  cases j with
  | obj members =>
    induction members with
    | nil => rfl
    | cons m rest ih =>
      simp only [erase, get?, List.find?_cons] at ih ⊢
      by_cases hm : m.1 = name
      · simpa [hm, h.symm] using ih
      · by_cases hm' : m.1 = name'
        · simp [hm', h]
        · simpa [hm'] using ih
  | null | bool | num | real | str | arr => rfl

/-! ### Parts -/

/-- The values directly inside a value. -/
def children : Json → List Json
  | .arr items => items
  | .obj members => members.map (·.2)
  | _ => []

/-- A value and everything inside it has `P`. -/
inductive Everywhere (P : Json → Prop) : Json → Prop
  | intro {v : Json} : P v → (∀ c ∈ v.children, Everywhere P c) → Everywhere P v

/-- The second value is the first one or inside it. -/
inductive Within : Json → Json → Prop
  | refl (v : Json) : Within v v
  | child {v c u : Json} : c ∈ v.children → Within c u → Within v u

/-- The value nests at most `n` levels, itself included. -/
def Shallow : Nat → Json → Prop
  | 0, _ => False
  | n + 1, v => ∀ c ∈ v.children, Shallow n c

theorem strings?_strs (l : List String) : strings? (.arr (l.map .str)) = some l := by
  simp only [strings?]
  induction l with
  | nil => rfl
  | cons s l ih => simp [str?, ih]

end Json

end NazoAuth.Lib
