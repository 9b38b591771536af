import NodeGraph.Document.Canonical

/-!
# Provenance

The identity of a build: the digest of the canonical document of its graph, and the version of the
compiler.

The digest is the SHA-256 digest of a list of bytes. The message is padded to blocks of 64 bytes (a
one bit, zeros, and its length in bits as 64 bits), and each block is mixed into a state of eight
words. The constants are the first 32 bits of the fractional parts of the square roots and cube
roots of the first primes.
-/

/-! ### Digests -/

namespace NodeGraph.Sha256

/-- Rotate a word to the right. -/
def rotate (x : UInt32) (n : UInt32) : UInt32 := (x >>> n) ||| (x <<< (32 - n))

/-- One constant for each of the 64 rounds. -/
def roundConstants : List UInt32 :=
  [0x428a2f98, 0x71374491, 0xb5c0fbcf, 0xe9b5dba5, 0x3956c25b, 0x59f111f1, 0x923f82a4, 0xab1c5ed5,
    0xd807aa98, 0x12835b01, 0x243185be, 0x550c7dc3, 0x72be5d74, 0x80deb1fe, 0x9bdc06a7, 0xc19bf174,
    0xe49b69c1, 0xefbe4786, 0x0fc19dc6, 0x240ca1cc, 0x2de92c6f, 0x4a7484aa, 0x5cb0a9dc, 0x76f988da,
    0x983e5152, 0xa831c66d, 0xb00327c8, 0xbf597fc7, 0xc6e00bf3, 0xd5a79147, 0x06ca6351, 0x14292967,
    0x27b70a85, 0x2e1b2138, 0x4d2c6dfc, 0x53380d13, 0x650a7354, 0x766a0abb, 0x81c2c92e, 0x92722c85,
    0xa2bfe8a1, 0xa81a664b, 0xc24b8b70, 0xc76c51a3, 0xd192e819, 0xd6990624, 0xf40e3585, 0x106aa070,
    0x19a4c116, 0x1e376c08, 0x2748774c, 0x34b0bcb5, 0x391c0cb3, 0x4ed8aa4a, 0x5b9cca4f, 0x682e6ff3,
    0x748f82ee, 0x78a5636f, 0x84c87814, 0x8cc70208, 0x90befffa, 0xa4506ceb, 0xbef9a3f7, 0xc67178f2]

/-- The eight words that are mixed. -/
structure State where
  a : UInt32
  b : UInt32
  c : UInt32
  d : UInt32
  e : UInt32
  f : UInt32
  g : UInt32
  h : UInt32
deriving DecidableEq

namespace State

/-- The state before the first block. -/
def initial : State :=
  ⟨0x6a09e667, 0xbb67ae85, 0x3c6ef372, 0xa54ff53a,
    0x510e527f, 0x9b05688c, 0x1f83d9ab, 0x5be0cd19⟩

/-- The words in order. -/
def words (s : State) : List UInt32 := [s.a, s.b, s.c, s.d, s.e, s.f, s.g, s.h]

/-- The sum, word by word. -/
def add (s t : State) : State :=
  ⟨s.a + t.a, s.b + t.b, s.c + t.c, s.d + t.d, s.e + t.e, s.f + t.f, s.g + t.g, s.h + t.h⟩

/-- One round, with the constant and the schedule word of it added together. -/
def round (s : State) (k : UInt32) : State :=
  let s1 := rotate s.e 6 ^^^ rotate s.e 11 ^^^ rotate s.e 25
  let choice := (s.e &&& s.f) ^^^ (~~~s.e &&& s.g)
  let t1 := s.h + s1 + choice + k
  let s0 := rotate s.a 2 ^^^ rotate s.a 13 ^^^ rotate s.a 22
  let majority := (s.a &&& s.b) ^^^ (s.a &&& s.c) ^^^ (s.b &&& s.c)
  ⟨t1 + (s0 + majority), s.a, s.b, s.c, s.d + t1, s.e, s.f, s.g⟩

end State

/-- Four bytes as a word, the first byte highest. -/
def word (b0 b1 b2 b3 : UInt8) : UInt32 :=
  (b0.toUInt32 <<< 24) ||| (b1.toUInt32 <<< 16) ||| (b2.toUInt32 <<< 8) ||| b3.toUInt32

/-- The words of a list of bytes. -/
def wordsOf : List UInt8 → List UInt32
  | b0 :: b1 :: b2 :: b3 :: rest => word b0 b1 b2 b3 :: wordsOf rest
  | _ => []

/-- The schedule word after sixteen others. -/
def nextWord (window : List UInt32) : UInt32 :=
  let w (i : Nat) : UInt32 := window.getD i 0
  let s0 := rotate (w 1) 7 ^^^ rotate (w 1) 18 ^^^ (w 1 >>> 3)
  let s1 := rotate (w 14) 17 ^^^ rotate (w 14) 19 ^^^ (w 14 >>> 10)
  w 0 + s0 + w 9 + s1

/-- The schedule that starts with a window of sixteen words, and has so many words more. -/
def scheduleFrom : Nat → List UInt32 → List UInt32
  | 0, window => window
  | n + 1, window => window.headD 0 :: scheduleFrom n (window.drop 1 ++ [nextWord window])

/-- Mix a block of sixteen words into the state. -/
def compress (s : State) (block : List UInt32) : State :=
  let inputs := (scheduleFrom 48 block).zipWith (· + ·) roundConstants
  s.add (inputs.foldl State.round s)

/-- Mix so many blocks into the state. -/
def compressAll : Nat → State → List UInt32 → State
  | 0, s, _ => s
  | n + 1, s, words => compressAll n (compress s (words.take 16)) (words.drop 16)

/-- A number as so many bytes, the highest first. -/
def bigEndian (count n : Nat) : List UInt8 :=
  (List.range count).reverse.map fun i => UInt8.ofNat (n / Nat.pow 256 i % 256)

/-- A message filled up to whole blocks. -/
def padded (message : List UInt8) : List UInt8 :=
  let zeros := (119 - message.length % 64) % 64
  message ++ [0x80] ++ List.replicate zeros 0 ++ bigEndian 8 (8 * message.length)

/-- The 32 bytes of the digest. -/
def digest (message : List UInt8) : List UInt8 :=
  let words := wordsOf (padded message)
  (compressAll (words.length / 16) .initial words).words.flatMap fun w => bigEndian 4 w.toNat

/-- Bytes as pairs of digits of base sixteen. -/
def hex (bytes : List UInt8) : String :=
  String.ofList (bytes.flatMap fun b => Text.hexByte b.toNat)

end NodeGraph.Sha256

/-! ### Builds -/

namespace NodeGraph

/-- The version of the compiler. -/
def version : String := "0.1.0"

namespace Graph

/-- The digest of a graph, as 64 digits of base sixteen. -/
def digest (g : Graph) : String := Sha256.hex (Sha256.digest g.canonical.toUTF8.toList)

/-- The provenance of a graph, as a document. -/
def provenance (g : Graph) : String :=
  "\x7b\n  \"compiler_version\": \"" ++ version ++ "\",\n  \"graph_hash\": \"" ++ g.digest ++
    "\"\n\x7d\n"

end Graph

end NodeGraph
