import Mathlib.Data.List.Basic

/-!
# Base64 with the URL alphabet and without padding
-/

namespace NazoAuth.Lib

def digit64 (n : Nat) : Char :=
  if n < 26 then Char.ofNat (65 + n)
  else if n < 52 then Char.ofNat (71 + n)
  else if n < 62 then Char.ofNat (n - 4)
  else if n = 62 then '-'
  else '_'

def value64? (c : Char) : Option Nat :=
  let n := c.toNat
  if 65 ≤ n ∧ n ≤ 90 then some (n - 65)
  else if 97 ≤ n ∧ n ≤ 122 then some (n - 71)
  else if 48 ≤ n ∧ n ≤ 57 then some (n + 4)
  else if c = '-' then some 62
  else if c = '_' then some 63
  else none

theorem value64?_digit64 {n : Nat} (h : n < 64) : value64? (digit64 n) = some n := by
  have hall : ∀ n : Fin 64, value64? (digit64 n.1) = some n.1 := by decide
  exact hall ⟨n, h⟩

theorem value64?_eq_some {c : Char} {n : Nat} (h : value64? c = some n) : digit64 n = c ∧ n < 64 := by
  have hc := Char.ofNat_toNat c
  simp only [value64?] at h
  unfold digit64
  split_ifs at h with h1 h2 h3 h4 h5
  · obtain rfl := Option.some.inj h
    rw [if_pos (by omega), Nat.add_sub_cancel' h1.1]
    exact ⟨hc, by omega⟩
  · obtain rfl := Option.some.inj h
    rw [if_neg (by omega), if_pos (by omega), show 71 + (c.toNat - 71) = c.toNat by omega]
    exact ⟨hc, by omega⟩
  · obtain rfl := Option.some.inj h
    rw [if_neg (by omega), if_neg (by omega), if_pos (by omega), Nat.add_sub_cancel]
    exact ⟨hc, by omega⟩
  · cases h
    exact ⟨h4.symm, by decide⟩
  · cases h
    exact ⟨h5.symm, by decide⟩

def encode64 : List UInt8 → List Char
  | [] => []
  | [a] => [digit64 (a.toNat / 4), digit64 (a.toNat % 4 * 16)]
  | [a, b] => [digit64 (a.toNat / 4), digit64 (a.toNat % 4 * 16 + b.toNat / 16), digit64 (b.toNat % 16 * 4)]
  | a :: b :: c :: rest =>
    digit64 (a.toNat / 4) :: digit64 (a.toNat % 4 * 16 + b.toNat / 16) :: digit64 (b.toNat % 16 * 4 + c.toNat / 64)
      :: digit64 (c.toNat % 64) :: encode64 rest

def decode64? : List Char → Option (List UInt8)
  | [] => some []
  | [_] => none
  | [a, b] => do
    let x ← value64? a
    let y ← value64? b
    if y % 16 = 0 then some [UInt8.ofNat (x * 4 + y / 16)] else none
  | [a, b, c] => do
    let x ← value64? a
    let y ← value64? b
    let z ← value64? c
    if z % 4 = 0 then some [UInt8.ofNat (x * 4 + y / 16), UInt8.ofNat (y % 16 * 16 + z / 4)] else none
  | a :: b :: c :: d :: rest => do
    let x ← value64? a
    let y ← value64? b
    let z ← value64? c
    let u ← value64? d
    let bytes ← decode64? rest
    some (UInt8.ofNat (x * 4 + y / 16) :: UInt8.ofNat (y % 16 * 16 + z / 4)
      :: UInt8.ofNat (z % 4 * 64 + u) :: bytes)

/-- A byte from its bits. -/
theorem ofNat_eq_of_toNat {a : UInt8} {n : Nat} (h : n = a.toNat) : UInt8.ofNat n = a := by
  rw [h, UInt8.ofNat_toNat]

theorem decode64?_encode64 (bytes : List UInt8) : decode64? (encode64 bytes) = some bytes := by
  induction bytes using encode64.induct with
  | case1 => rfl
  | case2 a =>
    have ha := a.toNat_lt
    simp only [encode64, decode64?, value64?_digit64 (show a.toNat / 4 < 64 by omega),
      value64?_digit64 (show a.toNat % 4 * 16 < 64 by omega), Option.bind_eq_bind, Option.bind_some]
    rw [if_pos (by omega), ofNat_eq_of_toNat (a := a) (by omega)]
  | case3 a b =>
    have ha := a.toNat_lt
    have hb := b.toNat_lt
    simp only [encode64, decode64?, value64?_digit64 (show a.toNat / 4 < 64 by omega),
      value64?_digit64 (show a.toNat % 4 * 16 + b.toNat / 16 < 64 by omega),
      value64?_digit64 (show b.toNat % 16 * 4 < 64 by omega), Option.bind_eq_bind, Option.bind_some]
    rw [if_pos (by omega), ofNat_eq_of_toNat (a := a) (by omega), ofNat_eq_of_toNat (a := b) (by omega)]
  | case4 a b c rest ih =>
    have ha := a.toNat_lt
    have hb := b.toNat_lt
    have hc := c.toNat_lt
    simp only [encode64, decode64?, value64?_digit64 (show a.toNat / 4 < 64 by omega),
      value64?_digit64 (show a.toNat % 4 * 16 + b.toNat / 16 < 64 by omega),
      value64?_digit64 (show b.toNat % 16 * 4 + c.toNat / 64 < 64 by omega),
      value64?_digit64 (show c.toNat % 64 < 64 by omega), ih, Option.bind_eq_bind, Option.bind_some]
    rw [ofNat_eq_of_toNat (a := a) (by omega), ofNat_eq_of_toNat (a := b) (by omega),
      ofNat_eq_of_toNat (a := c) (by omega)]

/-- A byte string has one encoding: bits that are left over are zero. -/
theorem encode64_of_decode64? {text : List Char} {bytes : List UInt8}
    (h : decode64? text = some bytes) : encode64 bytes = text := by
  induction text using decode64?.induct generalizing bytes with
  | case1 => cases h; rfl
  | case2 => cases h
  | case3 =>
    simp only [decode64?, Option.bind_eq_bind, Option.bind_eq_some_iff, Option.ite_none_right_eq_some,
      Option.some.injEq] at h
    obtain ⟨x, hx, y, hy, hbits, rfl⟩ := h
    obtain ⟨rfl, hx⟩ := value64?_eq_some hx
    obtain ⟨rfl, hy⟩ := value64?_eq_some hy
    simp only [encode64, UInt8.toNat_ofNat', List.cons.injEq, and_true]
    exact ⟨congrArg digit64 (by omega), congrArg digit64 (by omega)⟩
  | case4 =>
    simp only [decode64?, Option.bind_eq_bind, Option.bind_eq_some_iff, Option.ite_none_right_eq_some,
      Option.some.injEq] at h
    obtain ⟨x, hx, y, hy, z, hz, hbits, rfl⟩ := h
    obtain ⟨rfl, hx⟩ := value64?_eq_some hx
    obtain ⟨rfl, hy⟩ := value64?_eq_some hy
    obtain ⟨rfl, hz⟩ := value64?_eq_some hz
    simp only [encode64, UInt8.toNat_ofNat', List.cons.injEq, and_true]
    exact ⟨congrArg digit64 (by omega), congrArg digit64 (by omega), congrArg digit64 (by omega)⟩
  | case5 a b c d rest ih =>
    simp only [decode64?, Option.bind_eq_bind, Option.bind_eq_some_iff, Option.some.injEq] at h
    obtain ⟨x, hx, y, hy, z, hz, u, hu, tail, htail, rfl⟩ := h
    obtain ⟨rfl, hx⟩ := value64?_eq_some hx
    obtain ⟨rfl, hy⟩ := value64?_eq_some hy
    obtain ⟨rfl, hz⟩ := value64?_eq_some hz
    obtain ⟨rfl, hu⟩ := value64?_eq_some hu
    simp only [encode64, UInt8.toNat_ofNat', List.cons.injEq, ih htail, and_true]
    exact ⟨congrArg digit64 (by omega), congrArg digit64 (by omega), congrArg digit64 (by omega),
      congrArg digit64 (by omega)⟩

theorem ne_digit64 {c : Char} (hc : value64? c = none) {n : Nat} (h : n < 64) : c ≠ digit64 n := by
  rintro rfl
  rw [value64?_digit64 h] at hc
  cases hc

theorem not_mem_encode64 {c : Char} (hc : value64? c = none) (bytes : List UInt8) : c ∉ encode64 bytes := by
  induction bytes using encode64.induct with
  | case1 => exact List.not_mem_nil
  | case2 a =>
    have ha := a.toNat_lt
    simp only [encode64, List.mem_cons, List.not_mem_nil, or_false, not_or]
    exact ⟨ne_digit64 hc (by omega), ne_digit64 hc (by omega)⟩
  | case3 a b =>
    have ha := a.toNat_lt
    have hb := b.toNat_lt
    simp only [encode64, List.mem_cons, List.not_mem_nil, or_false, not_or]
    exact ⟨ne_digit64 hc (by omega), ne_digit64 hc (by omega), ne_digit64 hc (by omega)⟩
  | case4 a b c' rest ih =>
    have ha := a.toNat_lt
    have hb := b.toNat_lt
    have hc' := c'.toNat_lt
    simp only [encode64, List.mem_cons, not_or]
    exact ⟨ne_digit64 hc (by omega), ne_digit64 hc (by omega), ne_digit64 hc (by omega),
      ne_digit64 hc (by omega), ih⟩

theorem length_encode64 (bytes : List UInt8) : (encode64 bytes).length = (bytes.length * 4 + 2) / 3 := by
  induction bytes using encode64.induct with
  | case1 => rfl
  | case2 | case3 => simp [encode64]
  | case4 a b c rest ih =>
    simp only [encode64, List.length_cons]
    omega

/-- The characters of the alphabet are one byte each. -/
theorem length_utf8_encode64 (bytes : List UInt8) :
    ((encode64 bytes).flatMap String.utf8EncodeChar).length = (encode64 bytes).length := by
  have hdigit : ∀ {n : Nat}, n < 64 → (String.utf8EncodeChar (digit64 n)).length = 1 := by
    intro n h
    have hall : ∀ n : Fin 64, (String.utf8EncodeChar (digit64 n.1)).length = 1 := by decide
    exact hall ⟨n, h⟩
  induction bytes using encode64.induct with
  | case1 => rfl
  | case2 a =>
    have ha := a.toNat_lt
    simp [encode64, hdigit (show a.toNat / 4 < 64 by omega), hdigit (show a.toNat % 4 * 16 < 64 by omega)]
  | case3 a b =>
    have ha := a.toNat_lt
    have hb := b.toNat_lt
    simp [encode64, hdigit (show a.toNat / 4 < 64 by omega),
      hdigit (show a.toNat % 4 * 16 + b.toNat / 16 < 64 by omega), hdigit (show b.toNat % 16 * 4 < 64 by omega)]
  | case4 a b c rest ih =>
    have ha := a.toNat_lt
    have hb := b.toNat_lt
    have hc := c.toNat_lt
    simp only [encode64, List.flatMap_cons, List.length_append, List.length_cons, ih,
      hdigit (show a.toNat / 4 < 64 by omega), hdigit (show a.toNat % 4 * 16 + b.toNat / 16 < 64 by omega),
      hdigit (show b.toNat % 16 * 4 + c.toNat / 64 < 64 by omega), hdigit (show c.toNat % 64 < 64 by omega)]
    omega

/-- Parts that are joined by a character outside of the alphabet can be told apart. -/
theorem splitOn_encode64 {c : Char} (hc : value64? c = none) {parts : List (List UInt8)} (hne : parts ≠ []) :
    (List.intercalate [c] (parts.map encode64)).splitOn c = parts.map encode64 := by
  refine List.splitOn_intercalate c (fun part hpart => ?_) (by simpa using hne)
  obtain ⟨bytes, -, rfl⟩ := List.mem_map.mp hpart
  exact not_mem_encode64 hc bytes

end NazoAuth.Lib
