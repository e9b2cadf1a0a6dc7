import NazoAuth.Lib.Hex

/-!
# Values shared by all components

Identifiers are 128-bit words and digests 256-bit words, as in the source. An instant is a number of
microseconds since the epoch, the resolution of the database clock; `timestamp` is its whole-second
floor.
-/

namespace NazoAuth

/-- An identifier; the nil identifier is `0`. -/
abbrev Uuid := BitVec 128

/-- The canonical text of an identifier. -/
def uuidText (id : Uuid) : String := String.ofList (Lib.hyphenate (Lib.toHex 32 id.toNat))

/-- The texts that `Uuid::parse_str` accepts: the groups, alone, in braces or in a URN, or only the
digits. -/
def parseUuid (s : String) : Option Uuid :=
  let cs := s.toList
  let value? := if cs.length = 36 then Lib.ofHyphenated? cs
    else if cs.length = 32 then Lib.ofHex? (cs.map Char.toLower)
    else if cs.length = 38 ∧ cs.head? = some '\x7b'
      ∧ cs.getLast? = some '\x7d' then Lib.ofHyphenated? cs.tail.dropLast
    else if cs.length = 45 ∧ cs.take 9 = "urn:uuid:".toList then Lib.ofHyphenated? (cs.drop 9)
    else none
  value?.map (BitVec.ofNat 128)

theorem parseUuid_uuidText (id : Uuid) : parseUuid (uuidText id) = some id := by
  have hlt : id.toNat < 16 ^ 32 := id.isLt
  have hlength : (Lib.hyphenate (Lib.toHex 32 id.toNat)).length = 36 := by simp [Lib.hyphenate, Lib.length_toHex]
  simp [parseUuid, uuidText, hlength, Lib.ofHyphenated?_hyphenate id.toNat hlt]

/-- A 32-byte digest. -/
abbrev Digest := BitVec 256

/-- An instant, in microseconds since the epoch. -/
abbrev Instant := Int

/-- A duration of whole seconds. -/
def seconds (n : Int) : Int := n * 1000000

/-- The whole-second Unix timestamp of an instant. -/
def timestamp (t : Instant) : Int := t / 1000000

/-- The calendar range of `DateTime<Utc>`. -/
def minTimestamp : Int := -8334601228800

def maxTimestamp : Int := 8210266876799

def fromTimestamp (secs : Int) : Option Instant :=
  if minTimestamp ≤ secs && secs ≤ maxTimestamp then some (seconds secs) else none

/-- Saturating 64-bit arithmetic. -/
def saturate (n : Int) : Int := max (-2 ^ 63) (min n (2 ^ 63 - 1))

theorem saturate_range (n : Int) : -2 ^ 63 ≤ saturate n ∧ saturate n < 2 ^ 63 := by
  simp only [saturate]
  omega

theorem lt_of_saturate_lt {n m : Int} (h : saturate n < m) (hm : m < 2 ^ 63) : n < m := by
  simp only [saturate] at h
  omega

theorem lt_seconds_timestamp (t : Instant) : t < seconds (timestamp t + 1) :=
  Int.lt_ediv_add_one_mul_self t (by decide)

theorem seconds_le {a b : Int} (h : a ≤ b) : seconds a ≤ seconds b :=
  Int.mul_le_mul_of_nonneg_right h (by decide)

/-- The largest clock skew that a resource server may allow. -/
def maxAccessTokenClockSkewSeconds : Int := 60

/-- The characters that `str::trim` removes: the Unicode `White_Space` property. -/
def isWhiteSpace (c : Char) : Bool :=
  let n := c.toNat
  (9 ≤ n && n ≤ 13) || n = 0x20 || n = 0x85 || n = 0xA0 || n = 0x1680 || (0x2000 ≤ n && n ≤ 0x200A)
    || n = 0x2028 || n = 0x2029 || n = 0x202F || n = 0x205F || n = 0x3000

/-- `s.trim().is_empty()`. -/
def isBlank (s : String) : Bool := s.toList.all isWhiteSpace

def trim (s : String) : String :=
  String.ofList (((s.toList.dropWhile isWhiteSpace).reverse.dropWhile isWhiteSpace).reverse)

/-- Every requested value is an allowed one. -/
def isSubset (requested allowed : List String) : Bool := requested.all fun v => allowed.contains v

theorem isSubset_iff {requested allowed : List String} : isSubset requested allowed = true
      ↔ requested ⊆ allowed := by
  simp [isSubset, List.subset_def]

end NazoAuth
