import NazoAuth.Lib.Bytes

/-!
# SHA-1 and HMAC

The digest of a byte string, block by block, and the message authentication code that is built from
it.
-/

namespace NazoAuth.Lib

/-- The number that bytes stand for, most significant first. -/
def ofBigEndian (bytes : List UInt8) : Nat := bytes.foldl (fun n byte => n * 256 + byte.toNat) 0

structure Sha1State where
  a : BitVec 32
  b : BitVec 32
  c : BitVec 32
  d : BitVec 32
  e : BitVec 32

def Sha1State.initial : Sha1State := ⟨0x67452301, 0xefcdab89, 0x98badcfe, 0x10325476, 0xc3d2e1f0⟩

/-- The mixing function of a round with its constant. -/
def Sha1State.mix (s : Sha1State) (round : Nat) : BitVec 32 :=
  if round < 20 then ((s.b &&& s.c) ||| (~~~s.b &&& s.d)) + 0x5a827999
  else if round < 40 then (s.b ^^^ s.c ^^^ s.d) + 0x6ed9eba1
  else if round < 60 then ((s.b &&& s.c) ||| (s.b &&& s.d) ||| (s.c &&& s.d)) + 0x8f1bbcdc
  else (s.b ^^^ s.c ^^^ s.d) + 0xca62c1d6

def Sha1State.round (s : Sha1State) (word : BitVec 32 × Nat) : Sha1State :=
  ⟨s.a.rotateLeft 5 + s.mix word.2 + s.e + word.1, s.a, s.b.rotateLeft 30, s.c, s.d⟩

/-- The words of a block and those that follow from them, the last one first. -/
def sha1Schedule (words : List (BitVec 32)) : Nat → List (BitVec 32)
  | 0 => words
  | n + 1 =>
    let rest := sha1Schedule words n
    (rest.getD 2 0 ^^^ rest.getD 7 0 ^^^ rest.getD 13 0 ^^^ rest.getD 15 0).rotateLeft 1 :: rest

def Sha1State.compress (s : Sha1State) (block : List UInt8) : Sha1State :=
  let words := (List.range 16).map fun i => BitVec.ofNat 32 (ofBigEndian ((block.drop (4 * i)).take 4))
  let t := (sha1Schedule words.reverse 64).reverse.zipIdx.foldl Sha1State.round s
  ⟨s.a + t.a, s.b + t.b, s.c + t.c, s.d + t.d, s.e + t.e⟩

def sha1 (message : List UInt8) : List UInt8 :=
  let padded := message ++ [0x80] ++ List.replicate ((119 - message.length % 64) % 64) 0
    ++ bigEndian 8 (message.length * 8)
  let s := (List.range (padded.length / 64)).foldl (fun s i => s.compress ((padded.drop (64 * i)).take 64))
    Sha1State.initial
  [s.a, s.b, s.c, s.d, s.e].flatMap fun word => bigEndian 4 word.toNat

def hmacSha1 (key message : List UInt8) : List UInt8 :=
  let short := if 64 < key.length then sha1 key else key
  let padded := short ++ List.replicate (64 - short.length) 0
  sha1 (padded.map (· ^^^ 0x5c) ++ sha1 (padded.map (· ^^^ 0x36) ++ message))

end NazoAuth.Lib
