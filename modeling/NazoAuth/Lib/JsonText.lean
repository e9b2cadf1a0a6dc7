import NazoAuth.Lib.Hex
import NazoAuth.Lib.Json

/-!
# JSON text

The compact text of a value: no white space, the shortest escapes, decimal integers. A library is
known by what it reads (`JsonReader`): it reads compact text back, for values with 64-bit integers
that do not nest too deep.
-/

namespace NazoAuth.Lib

/-- The bytes of a text. -/
def textBytes (text : List Char) : List UInt8 := text.flatMap String.utf8EncodeChar

/-- The text of bytes that are UTF-8. -/
def bytesText? (bytes : List UInt8) : Option (List Char) := (bytes.toByteArray.utf8Decode?).map Array.toList

theorem bytesText?_textBytes (text : List Char) : bytesText? (textBytes text) = some text := by
  have h : (textBytes text).toByteArray = text.utf8Encode := rfl
  rw [bytesText?, h, List.utf8Decode?_utf8Encode]
  rfl

theorem textBytes_append (a b : List Char) : textBytes (a ++ b) = textBytes a ++ textBytes b := List.flatMap_append

namespace Json

/-! ## Writing -/

/-- A character inside a string. -/
def escapeChar (c : Char) : List Char :=
  if c = '"' then ['\\', '"']
  else if c = '\\' then ['\\', '\\']
  else if c = '\n' then ['\\', 'n']
  else if c = '\r' then ['\\', 'r']
  else if c = '\t' then ['\\', 't']
  else if c.toNat = 8 then ['\\', 'b']
  else if c.toNat = 12 then ['\\', 'f']
  else if c.toNat < 32 then '\\' :: 'u' :: '0' :: '0' :: toHex 2 c.toNat
  else [c]

/-- The text of a string after its opening quote. -/
def compactString (s : String) : List Char := s.toList.flatMap escapeChar ++ ['"']

def compactInt (n : Int) : List Char :=
  if n < 0 then '-' :: Nat.toDigits 10 n.natAbs else Nat.toDigits 10 n.natAbs

mutual

/-- The compact text of a value. -/
def compact : Json → List Char
  | .null => ['n', 'u', 'l', 'l']
  | .bool true => ['t', 'r', 'u', 'e']
  | .bool false => ['f', 'a', 'l', 's', 'e']
  | .num n => compactInt n
  | .real mantissa exponent => compactInt mantissa ++ 'e' :: compactInt exponent
  | .str s => '"' :: compactString s
  | .arr items => '[' :: compactItems true items
  | .obj members => '{' :: compactMembers true members

/-- The items of an array and its end; each but the first one comes after a comma. -/
def compactItems (first : Bool) : List Json → List Char
  | [] => [']']
  | v :: rest => (if first then [] else [',']) ++ compact v ++ compactItems false rest

def compactMembers (first : Bool) : List (String × Json) → List Char
  | [] => ['}']
  | (name, v) :: rest =>
    (if first then [] else [',']) ++ '"' :: compactString name ++ ':' :: compact v ++ compactMembers false rest

end

def compactBytes (v : Json) : List UInt8 := textBytes v.compact

/-! ## Maps -/

/-- A new member of a map, in the order of the names. -/
def insertMember (m : String × Json) : List (String × Json) → List (String × Json)
  | [] => [m]
  | m' :: rest => if m.1 < m'.1 then m :: m' :: rest else m' :: insertMember m rest

mutual

/-- The value with all objects as maps: the names are in order, and the last member with a name
counts. -/
def value : Json → Json
  | .arr items => .arr (valueItems items)
  | .obj members => .obj (valueMembers members)
  | v => v

def valueItems : List Json → List Json
  | [] => []
  | v :: rest => value v :: valueItems rest

def valueMembers : List (String × Json) → List (String × Json)
  | [] => []
  | (name, v) :: rest =>
    if rest.any fun m => m.1 = name then valueMembers rest else insertMember (name, value v) (valueMembers rest)

end

theorem valueItems_eq_map (items : List Json) : valueItems items = items.map value := by
  induction items with
  | nil => rfl
  | cons v rest ih => rw [valueItems, ih, List.map_cons]

/-- Names in order, without repetition. -/
def Ascending (members : List (String × Json)) : Prop := members.Pairwise fun m m' => m.1 < m'.1

variable {m : String × Json} {members : List (String × Json)}

theorem mem_insertMember {a : String × Json} : a ∈ insertMember m members ↔ a = m ∨ a ∈ members := by
  induction members with
  | nil => simp [insertMember]
  | cons m' rest ih =>
    unfold insertMember
    split_ifs
    · exact List.mem_cons
    · rw [List.mem_cons, ih, List.mem_cons, or_left_comm]

theorem ascending_insertMember (h : Ascending members) (hnew : ∀ m' ∈ members, m'.1 ≠ m.1) :
    Ascending (insertMember m members) := by
  induction members with
  | nil => exact List.pairwise_singleton _ _
  | cons m' rest ih =>
    obtain ⟨hfirst, hrest⟩ := List.pairwise_cons.mp h
    unfold insertMember
    split_ifs with hlt
    · refine List.pairwise_cons.mpr ⟨fun a ha => ?_, h⟩
      rcases List.mem_cons.mp ha with rfl | ha
      · exact hlt
      · exact String.lt_trans hlt (hfirst a ha)
    · refine List.pairwise_cons.mpr ⟨fun a ha => ?_, ih hrest fun a ha => hnew a (.tail _ ha)⟩
      rcases mem_insertMember.mp ha with rfl | ha
      · exact Std.lt_of_le_of_ne (String.not_lt.mp hlt) (hnew m' List.mem_cons_self)
      · exact hfirst a ha

theorem mem_valueMembers {a : String × Json} (h : a ∈ valueMembers members) :
    ∃ v, (a.1, v) ∈ members ∧ a.2 = value v := by
  induction members with
  | nil => cases h
  | cons m rest ih =>
    unfold valueMembers at h
    split_ifs at h
    · obtain ⟨v, hv, ha⟩ := ih h
      exact ⟨v, .tail _ hv, ha⟩
    rcases mem_insertMember.mp h with rfl | h
    · exact ⟨m.2, List.mem_cons_self, rfl⟩
    · obtain ⟨v, hv, ha⟩ := ih h
      exact ⟨v, .tail _ hv, ha⟩

theorem ascending_valueMembers (members : List (String × Json)) : Ascending (valueMembers members) := by
  induction members with
  | nil => exact List.Pairwise.nil
  | cons m rest ih =>
    unfold valueMembers
    split_ifs with hlater
    · exact ih
    · refine ascending_insertMember ih fun a ha hname => hlater ?_
      obtain ⟨v, hv, -⟩ := mem_valueMembers ha
      exact List.any_eq_true.mpr ⟨(a.1, v), hv, decide_eq_true hname⟩

/-- A map whose members are values is a value. -/
theorem valueMembers_eq_self (h : Ascending members) (hvalue : ∀ m ∈ members, value m.2 = m.2) :
    valueMembers members = members := by
  induction members with
  | nil => rfl
  | cons m rest ih =>
    obtain ⟨hfirst, hrest⟩ := List.pairwise_cons.mp h
    have hlater : ¬ (rest.any fun a => decide (a.1 = m.1)) = true := by
      intro hany
      obtain ⟨a, ha, hname⟩ := List.any_eq_true.mp hany
      exact Std.ne_of_lt (hfirst a ha) (of_decide_eq_true hname).symm
    unfold valueMembers
    rw [if_neg hlater, ih hrest fun a ha => hvalue a (.tail _ ha), hvalue m List.mem_cons_self]
    cases rest with
    | nil => rfl
    | cons m' => exact if_pos (hfirst m' List.mem_cons_self)

mutual

theorem value_value (v : Json) : v.value.value = v.value := by
  match v with
  | .null | .bool _ | .num _ | .real _ _ | .str _ => rfl
  | .arr items => rw [value, value, valueItems_valueItems items]
  | .obj members =>
    rw [value, value]
    refine congrArg Json.obj (valueMembers_eq_self (ascending_valueMembers members) fun m hm => ?_)
    obtain ⟨v, hv, hvalue⟩ := mem_valueMembers hm
    rw [hvalue]
    exact value_value_members members (m.1, v) hv

theorem valueItems_valueItems (items : List Json) : valueItems (valueItems items) = valueItems items := by
  match items with
  | [] => rfl
  | v :: rest => rw [valueItems, valueItems, value_value v, valueItems_valueItems rest]

theorem value_value_members (members : List (String × Json)) (m : String × Json)
    (hm : m ∈ members) : m.2.value.value = m.2.value := by
  match members, hm with
  | (name, v) :: rest, hm =>
    rcases List.mem_cons.mp hm with rfl | hm
    · exact value_value v
    · exact value_value_members rest m hm

end

/-- The fields of a structure: an object with exactly these members, each once, or an array in this
order. -/
def fields? (names : List String) : Json → Option (List Json)
  | .obj members =>
    if members.all (fun m => names.contains m.1) && (members.map (·.1)).Nodup then
      names.mapM fun name => (members.find? fun m => m.1 = name).map (·.2)
    else none
  | .arr items => if items.length = names.length then some items else none
  | _ => none

theorem insertMember_perm (m : String × Json) (members : List (String × Json)) :
    (insertMember m members).Perm (m :: members) := by
  induction members with
  | nil => exact .refl _
  | cons m' rest ih =>
    unfold insertMember
    split_ifs
    · exact .refl _
    · exact (ih.cons m').trans (.swap m m' rest)

/-- Without repetitions, the map has the members that were written. -/
theorem valueMembers_perm (h : (members.map (·.1)).Nodup) :
    (valueMembers members).Perm (members.map fun m => (m.1, m.2.value)) := by
  induction members with
  | nil => exact .nil
  | cons m rest ih =>
    obtain ⟨hnew, hrest⟩ := List.nodup_cons.mp h
    have hlater : ¬ (rest.any fun a => decide (a.1 = m.1)) = true := by
      intro hany
      obtain ⟨a, ha, hname⟩ := List.any_eq_true.mp hany
      exact hnew (List.mem_map.mpr ⟨a, ha, of_decide_eq_true hname⟩)
    unfold valueMembers
    rw [if_neg hlater]
    exact (insertMember_perm _ _).trans ((ih hrest).cons _)

/-- Members with different names are found by name. -/
theorem find?_eq_some_of_nodup (h : (members.map (·.1)).Nodup) (hm : m ∈ members) :
    (members.find? fun a => a.1 = m.1) = some m := by
  induction members with
  | nil => cases hm
  | cons a rest ih =>
    obtain ⟨hnew, hrest⟩ := List.nodup_cons.mp h
    rcases List.mem_cons.mp hm with rfl | hm
    · exact List.find?_cons_of_pos (by simp)
    · have hname : a.1 ≠ m.1 := fun hname => hnew (List.mem_map.mpr ⟨m, hm, hname.symm⟩)
      rw [List.find?_cons_of_neg (by simpa using hname), ih hrest hm]

/-- The fields of a structure that was written as a map. -/
theorem fields?_value (h : (members.map (·.1)).Nodup) :
    fields? (members.map (·.1)) (value (.obj members)) = some (members.map fun m => m.2.value) := by
  have hperm := valueMembers_perm h
  have hnames : ((valueMembers members).map (·.1)).Perm (members.map (·.1)) := by
    have h := hperm.map (·.1)
    rwa [List.map_map] at h
  have hnodup : ((valueMembers members).map (·.1)).Nodup := hnames.nodup_iff.mpr h
  have hall : ((valueMembers members).all fun m => (members.map (·.1)).contains m.1) = true := by
    refine List.all_eq_true.mpr fun m hm => List.contains_iff_mem.mpr ?_
    exact hnames.mem_iff.mp (List.mem_map_of_mem hm)
  have hfind : ∀ m ∈ members, ((valueMembers members).find? fun a => a.1 = m.1) = some (m.1, m.2.value) := by
    intro m hm
    exact find?_eq_some_of_nodup hnodup (hperm.mem_iff.mpr (List.mem_map_of_mem hm))
  rw [value, fields?, hall, decide_eq_true hnodup, Bool.and_self, if_pos rfl]
  clear hall hnodup hnames hperm h
  generalize valueMembers members = found at hfind
  induction members with
  | nil => rfl
  | cons m rest ih =>
    have hrest := ih fun a ha => hfind a (.tail _ ha)
    rw [List.map_cons, List.mapM_cons, hfind m List.mem_cons_self, hrest]
    rfl

variable {n : Nat}

theorem nat?_num {hi : Int} (h : (n : Int) < hi) : nat? hi (.num n) = some n := by
  have hrange : (0 : Int) ≤ n ∧ (n) < hi := ⟨Int.natCast_nonneg n, h⟩
  rw [nat?, int?, if_pos hrange, Option.map_some, Int.toNat_natCast]

def list? {α : Type} (read : Json → Option α) : Json → Option (List α)
  | .arr items => items.mapM read
  | _ => none

/-- A list is read back when its elements are. -/
theorem list?_value {α : Type} {read : Json → Option α} {write : α → Json} (h : ∀ a, read (write a).value = some a)
    (l : List α) : list? read (.arr (l.map fun a => (write a).value)) = some l := by
  show (l.map fun a => (write a).value).mapM read = some l
  induction l with
  | nil => rfl
  | cons a l ih =>
    rw [List.map_cons, List.mapM_cons, h, ih]
    rfl

/-! ## Libraries -/

/-- Integers of 64 bits, with or without a sign, and no other numbers. -/
def Integral : Json → Prop
  | .num n => -2 ^ 63 ≤ n ∧ n < 2 ^ 64
  | .real _ _ => False
  | _ => True

/-- Values that a library reads back as it has written them, nested at most `n` levels. -/
def Exact : Nat → Json → Prop
  | 0, _ => False
  | n + 1, v => Integral v ∧ ∀ c ∈ v.children, Exact n c

variable {v : Json}

theorem Exact.mono {m : Nat} (hle : n ≤ m) (h : Exact n v) : Exact m v := by
  induction n generalizing m v with
  | zero => exact h.elim
  | succ n ih =>
    obtain ⟨m, rfl⟩ : ∃ k, m = k + 1 := ⟨m - 1, by omega⟩
    exact ⟨h.1, fun c hc => ih (by omega) (h.2 c hc)⟩

theorem Exact.integral (h : Exact n v) : Everywhere Integral v := by
  induction n generalizing v with
  | zero => exact h.elim
  | succ n ih => exact .intro h.1 fun c hc => ih (h.2 c hc)

theorem mem_children_value {c : Json} (h : c ∈ v.value.children) : ∃ c' ∈ v.children, c = c'.value := by
  cases v with
  | null | bool b | num n | real m e | str s => cases h
  | arr =>
    rw [value, valueItems_eq_map] at h
    obtain ⟨c', hc', rfl⟩ := List.mem_map.mp h
    exact ⟨c', hc', rfl⟩
  | obj =>
    obtain ⟨m, hm, rfl⟩ := List.mem_map.mp h
    obtain ⟨c', hc', hvalue⟩ := mem_valueMembers hm
    exact ⟨c', List.mem_map_of_mem hc', hvalue⟩

/-- Maps of exact values are exact. -/
theorem Exact.value (h : Exact n v) : Exact n v.value := by
  induction n generalizing v with
  | zero => exact h.elim
  | succ n ih =>
    refine ⟨by cases v <;> exact h.1, fun c hc => ?_⟩
    obtain ⟨c', hc', rfl⟩ := mem_children_value hc
    exact ih (h.2 c' hc')

theorem exact_str (n : Nat) (s : String) : Exact (n + 1) (.str s) := ⟨trivial, nofun⟩

theorem exact_nat (m : Nat) (h : n < 2 ^ 64) : Exact (m + 1) (.num n) :=
  ⟨⟨by omega, by omega⟩, nofun⟩

theorem exact_arr {α : Type} {write : α → Json} {l : List α} (h : ∀ a, Exact n (write a)) :
    Exact (n + 1) (.arr (l.map write)) := by
  refine ⟨trivial, fun c hc => ?_⟩
  obtain ⟨a, -, rfl⟩ := List.mem_map.mp hc
  exact h a

theorem exact_obj (h : ∀ m ∈ members, Exact n m.2) : Exact (n + 1) (.obj members) := by
  refine ⟨trivial, fun c hc => ?_⟩
  obtain ⟨m, hm, rfl⟩ := List.mem_map.mp hc
  exact h m hm

end Json

/-- A library that reads compact text as what was written. -/
structure JsonReader where
  read : List UInt8 → Option Json
  read_compact : ∀ v : Json, v.Exact 127 → read v.compactBytes = some v

/-! ## Reading compact text -/

namespace Json

/-- The character of an escape, if its text is complete. -/
def unescape : List Char → Option Char
  | ['n'] => some '\n'
  | ['r'] => some '\r'
  | ['t'] => some '\t'
  | ['b'] => some (Char.ofNat 8)
  | ['f'] => some (Char.ofNat 12)
  | ['"'] => some '"'
  | ['\\'] => some '\\'
  | ['u', '0', '0', a, b] => (ofHex? [a, b]).map Char.ofNat
  | _ => none

/-- The characters of a string up to its closing quote, possibly from inside an escape. -/
def readString : Option (List Char) → List Char → Option (List Char × List Char)
  | _, [] => none
  | none, c :: rest =>
    if c = '"' then some ([], rest)
    else if c = '\\' then readString (some []) rest
    else (readString none rest).map fun p => (c :: p.1, p.2)
  | some escape, c :: rest =>
    match unescape (escape ++ [c]) with
    | none => readString (some (escape ++ [c])) rest
    | some c' => (readString none rest).map fun p => (c' :: p.1, p.2)

/-- The longest number at the start of a text. -/
def readNat (text : List Char) : Nat × List Char :=
  (Nat.ofDigitChars 10 (text.takeWhile Char.isDigit) 0, text.dropWhile Char.isDigit)

mutual

/-- A value at the start of a text, with what follows it. -/
def readValue : Nat → List Char → Option (Json × List Char)
  | 0, _ => none
  | _ + 1, [] => none
  | fuel + 1, c :: rest =>
    if c = '"' then (readString none rest).map fun p => (.str (String.ofList p.1), p.2)
    else if c = '[' then (readItems fuel rest).map fun p => (.arr p.1, p.2)
    else if c = '{' then (readMembers fuel rest).map fun p => (.obj p.1, p.2)
    else if c = 'n' then some (.null, rest.drop 3)
    else if c = 't' then some (.bool true, rest.drop 3)
    else if c = 'f' then some (.bool false, rest.drop 4)
    else if c = '-' then some (.num (-(readNat rest).1), (readNat rest).2)
    else some (.num (readNat (c :: rest)).1, (readNat (c :: rest)).2)

/-- The items of an array up to its end. -/
def readItems : Nat → List Char → Option (List Json × List Char)
  | 0, _ => none
  | _ + 1, [] => none
  | fuel + 1, c :: rest =>
    if c = ']' then some ([], rest)
    else (readValue fuel (if c = ',' then rest else c :: rest)).bind fun p =>
      (readItems fuel p.2).map fun q => (p.1 :: q.1, q.2)

def readMembers : Nat → List Char → Option (List (String × Json) × List Char)
  | 0, _ => none
  | _ + 1, [] => none
  | fuel + 1, c :: rest =>
    if c = '}' then some ([], rest)
    else (readString none ((if c = ',' then rest else c :: rest).drop 1)).bind fun name =>
      (readValue fuel (name.2.drop 1)).bind fun p =>
        (readMembers fuel p.2).map fun q => ((String.ofList name.1, p.1) :: q.1, q.2)

end

theorem readString_escapeChar (c : Char) (rest : List Char) :
    readString none (escapeChar c ++ rest) = (readString none rest).map fun p => (c :: p.1, p.2) := by
  unfold escapeChar
  split_ifs with hquote hslash hn hr ht hb hf hcontrol
  · subst hquote
    simp [readString, unescape]
  · subst hslash
    simp [readString, unescape]
  · subst hn
    simp [readString, unescape]
  · subst hr
    simp [readString, unescape]
  · subst ht
    simp [readString, unescape]
  · have hc : Char.ofNat 8 = c := by rw [← hb, Char.ofNat_toNat]
    simp only [List.cons_append, List.nil_append, readString, unescape, if_false, if_true, Char.reduceEq, hc]
  · have hc : Char.ofNat 12 = c := by rw [← hf, Char.ofNat_toNat]
    simp only [List.cons_append, List.nil_append, readString, unescape, if_false, if_true, Char.reduceEq, hc]
  · have hhex : ofHex? (toHex 2 c.toNat) = some c.toNat := by
      rw [ofHex?_toHex, Nat.mod_eq_of_lt (by omega)]
    simp only [toHex, Nat.pow_one, Nat.pow_zero, Nat.div_one] at hhex
    simp [readString, unescape, toHex, hhex, Char.ofNat_toNat]
  · simp [readString, hquote, hslash]

theorem readString_compactString (s : String) (rest : List Char) :
    readString none (compactString s ++ rest) = some (s.toList, rest) := by
  have h : ∀ l : List Char, readString none (l.flatMap escapeChar ++ '"' :: rest) = some (l, rest) := by
    intro l
    induction l with
    | nil => simp [readString]
    | cons c l ih => rw [List.flatMap_cons, List.append_assoc, readString_escapeChar, ih]; rfl
  rw [compactString, List.append_assoc]
  exact h s.toList

/-- A number ends where its digits end. -/
def Ends (rest : List Char) : Prop := ∀ c ∈ rest.head?, c.isDigit = false

theorem readNat_toDigits (n : Nat) {rest : List Char} (h : Ends rest) :
    readNat (Nat.toDigits 10 n ++ rest) = (n, rest) := by
  have hdigits : ∀ c ∈ Nat.toDigits 10 n, c.isDigit = true :=
    fun c hc => Nat.isDigit_of_mem_toDigits (by decide) (by decide) hc
  have htake : rest.takeWhile Char.isDigit = [] ∧ rest.dropWhile Char.isDigit = rest := by
    cases rest with
    | nil => exact ⟨rfl, rfl⟩
    | cons c =>
      have hc : c.isDigit = false := h c rfl
      simp [hc]
  rw [readNat, List.takeWhile_append_of_pos hdigits, List.dropWhile_append_of_pos hdigits, htake.1, htake.2,
    List.append_nil, Nat.ofDigitChars_ten_toDigits]

theorem isDigit_head_toDigits (n : Nat) : ∃ c text, Nat.toDigits 10 n = c :: text ∧ c.isDigit = true := by
  cases hdigits : Nat.toDigits 10 n with
  | nil => exact absurd hdigits Nat.toDigits_ne_nil
  | cons c text =>
    exact ⟨c, text, rfl, Nat.isDigit_of_mem_toDigits (by decide) (by decide) (hdigits ▸ List.mem_cons_self)⟩

/-- No value starts as the end of a list or with a comma. -/
theorem compact_head (v : Json) : ∃ c text, v.compact = c :: text ∧ c ≠ ']' ∧ c ≠ ',' := by
  have hint : ∀ n, ∃ c text, compactInt n = c :: text ∧ c ≠ ']' ∧ c ≠ ',' := by
    intro n
    unfold compactInt
    split_ifs
    · exact ⟨_, _, rfl, by decide, by decide⟩
    · obtain ⟨c, text, htext, hdigit⟩ := isDigit_head_toDigits n.natAbs
      refine ⟨c, text, htext, ?_, ?_⟩ <;> rintro rfl <;> cases hdigit
  match v with
  | .null | .bool true | .bool false | .str s | .arr items | .obj members =>
    exact ⟨_, _, by rw [compact], by decide, by decide⟩
  | .num n => exact (by rw [compact]; exact hint n)
  | .real m e =>
    obtain ⟨c, text, htext, hc⟩ := hint m
    exact ⟨c, text ++ 'e' :: compactInt e, by rw [compact, htext]; rfl, hc⟩

theorem ends_compactItems (items : List Json) (rest : List Char) : Ends (compactItems false items ++ rest) := by
  cases items <;> · rintro c ⟨⟩; rfl

theorem ends_compactMembers (members : List (String × Json)) (rest : List Char) :
    Ends (compactMembers false members ++ rest) := by
  cases members <;> · rintro c ⟨⟩; rfl

theorem readValue_compactInt (n : Int) (fuel : Nat) {rest : List Char} (h : Ends rest) :
    readValue (fuel + 1) (compactInt n ++ rest) = some (.num n, rest) := by
  unfold compactInt
  split_ifs with hneg
  · have hn : -(n.natAbs) = n := by omega
    have hread : readValue (fuel + 1) ('-' :: Nat.toDigits 10 n.natAbs ++ rest)
        = some (.num (-(n.natAbs)), rest) := by
      simp [readValue, readNat_toDigits _ h]
    rwa [hn] at hread
  · have hn : (n.natAbs) = n := by omega
    obtain ⟨c, text, htext, hdigit⟩ := isDigit_head_toDigits n.natAbs
    have hread := readNat_toDigits n.natAbs h
    rw [htext, List.cons_append] at hread ⊢
    have hc : c ≠ '"' ∧ c ≠ '[' ∧ c ≠ '\x7b' ∧ c ≠ 'n' ∧ c ≠ 't' ∧ c ≠ 'f' ∧ c ≠ '-' := by
      refine ⟨?_, ?_, ?_, ?_, ?_, ?_, ?_⟩ <;> rintro rfl <;> cases hdigit
    simp [readValue, hc, hread, hn]

mutual

theorem readValue_compact (v : Json) (hv : Everywhere Integral v) (fuel : Nat) (rest : List Char)
    (hfuel : v.compact.length < fuel) (hends : Ends rest) :
    readValue fuel (v.compact ++ rest) = some (v, rest) := by
  obtain ⟨fuel, rfl⟩ : ∃ n, fuel = n + 1 := ⟨fuel - 1, by omega⟩
  match v, hv with
  | .null, _ => simp [compact, readValue]
  | .bool true, _ => simp [compact, readValue]
  | .bool false, _ => simp [compact, readValue]
  | .num n, _ => rw [compact, readValue_compactInt n fuel hends]
  | .real m e, .intro hfalse _ => exact hfalse.elim
  | .str s, _ => simp [compact, readValue, readString_compactString]
  | .arr items, .intro _ hitems =>
    rw [compact] at hfuel
    have hread := readItems_compact true items hitems fuel rest (by simpa using hfuel)
    simp [compact, readValue, hread]
  | .obj members, .intro _ hmembers =>
    rw [compact] at hfuel
    have hread := readMembers_compact true members (fun m hm => hmembers m.2 (List.mem_map_of_mem hm)) fuel rest
      (by simpa using hfuel)
    simp [compact, readValue, hread]

theorem readItems_compact (first : Bool) (items : List Json) (hitems : ∀ v ∈ items, Everywhere Integral v)
    (fuel : Nat) (rest : List Char) (hfuel : (compactItems first items).length < fuel) :
    readItems fuel (compactItems first items ++ rest) = some (items, rest) := by
  obtain ⟨fuel, rfl⟩ : ∃ n, fuel = n + 1 := ⟨fuel - 1, by omega⟩
  match items, hitems with
  | [], _ => simp [compactItems, readItems]
  | v :: items, hitems =>
    obtain ⟨c, text, hhead, hend, hcomma⟩ := compact_head v
    have hlength : v.compact.length = text.length + 1 := by rw [hhead]; rfl
    have hlast : 0 < (compactItems false items).length := by cases items <;> simp [compactItems]
    simp only [compactItems, List.length_append] at hfuel
    have hvalue := readValue_compact v (hitems v (.head _)) fuel (compactItems false items ++ rest) (by omega)
      (ends_compactItems items rest)
    have hmore := readItems_compact false items (fun w hw => hitems w (.tail v hw)) fuel rest (by omega)
    cases first with
    | true =>
      rw [compactItems, if_pos rfl, List.nil_append, List.append_assoc]
      rw [hhead, List.cons_append] at hvalue ⊢
      simp [readItems, hend, hcomma, hvalue, hmore]
    | false =>
      rw [compactItems]
      simp [readItems, hvalue, hmore]

theorem readMembers_compact (first : Bool) (members : List (String × Json))
    (hmembers : ∀ m ∈ members, Everywhere Integral m.2) (fuel : Nat) (rest : List Char)
    (hfuel : (compactMembers first members).length < fuel) :
    readMembers fuel (compactMembers first members ++ rest) = some (members, rest) := by
  obtain ⟨fuel, rfl⟩ : ∃ n, fuel = n + 1 := ⟨fuel - 1, by omega⟩
  match members, hmembers with
  | [], _ => simp [compactMembers, readMembers]
  | (name, v) :: members, hmembers =>
    have hlast : 0 < (compactMembers false members).length := by cases members <;> simp [compactMembers]
    simp only [compactMembers, List.length_append, List.length_cons] at hfuel
    have hvalue := readValue_compact v (hmembers (name, v) (.head _)) fuel (compactMembers false members ++ rest)
      (by omega) (ends_compactMembers members rest)
    have hmore := readMembers_compact false members (fun m hm => hmembers m (.tail _ hm)) fuel rest (by omega)
    cases first <;> simp [compactMembers, readMembers, readString_compactString, hvalue, hmore]

end

/-- A reader of compact text. -/
def readCompact (bytes : List UInt8) : Option Json :=
  (bytesText? bytes).bind fun text => (readValue (text.length + 1) text).bind fun p => if p.2 = [] then some p.1
    else none

theorem readCompact_compactBytes (v : Json) (hv : Everywhere Integral v) :
    readCompact v.compactBytes = some v := by
  have hread := readValue_compact v hv (v.compact.length + 1) [] (Nat.lt_succ_self _) (by rintro c ⟨⟩)
  rw [List.append_nil] at hread
  simp [readCompact, compactBytes, bytesText?_textBytes, hread]

/-- The bytes of a map determine it. -/
theorem value_eq_of_compactBytes {n : Nat} {v v' : Json} (hv : Exact n v) (hv' : Exact n v')
    (h : v.value.compactBytes = v'.value.compactBytes) : v.value = v'.value := by
  have hread := congrArg readCompact h
  rw [readCompact_compactBytes _ hv.value.integral, readCompact_compactBytes _ hv'.value.integral] at hread
  exact Option.some.inj hread

/-- Maps with the same names are equal only if all their members are. -/
theorem values_eq_of_value_eq {members members' : List (String × Json)}
    (h : value (.obj members) = value (.obj members'))
    (hnames : members.map (·.1) = members'.map (·.1)) (hnodup : (members.map (·.1)).Nodup) :
    members.map (fun m => m.2.value) = members'.map fun m => m.2.value := by
  have hfields := fields?_value hnodup
  rw [h, hnames, fields?_value (hnames ▸ hnodup)] at hfields
  exact (Option.some.inj hfields).symm

end Json

def compactReader : JsonReader where
  read := Json.readCompact
  read_compact v hv := Json.readCompact_compactBytes v hv.integral

end NazoAuth.Lib
