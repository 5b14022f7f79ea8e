import CodeFacts.Text.Quoted

/-!
The SHA-256 digest of a text's UTF-8 bytes, in hexadecimal.
-/

namespace CodeFacts.Text.Digest

/-- The first bits of the fractional parts of the cube roots of the first primes. -/
def roundWords : List UInt32 := [
  0x428a2f98, 0x71374491, 0xb5c0fbcf, 0xe9b5dba5, 0x3956c25b, 0x59f111f1, 0x923f82a4, 0xab1c5ed5,
  0xd807aa98, 0x12835b01, 0x243185be, 0x550c7dc3, 0x72be5d74, 0x80deb1fe, 0x9bdc06a7, 0xc19bf174,
  0xe49b69c1, 0xefbe4786, 0x0fc19dc6, 0x240ca1cc, 0x2de92c6f, 0x4a7484aa, 0x5cb0a9dc, 0x76f988da,
  0x983e5152, 0xa831c66d, 0xb00327c8, 0xbf597fc7, 0xc6e00bf3, 0xd5a79147, 0x06ca6351, 0x14292967,
  0x27b70a85, 0x2e1b2138, 0x4d2c6dfc, 0x53380d13, 0x650a7354, 0x766a0abb, 0x81c2c92e, 0x92722c85,
  0xa2bfe8a1, 0xa81a664b, 0xc24b8b70, 0xc76c51a3, 0xd192e819, 0xd6990624, 0xf40e3585, 0x106aa070,
  0x19a4c116, 0x1e376c08, 0x2748774c, 0x34b0bcb5, 0x391c0cb3, 0x4ed8aa4a, 0x5b9cca4f, 0x682e6ff3,
  0x748f82ee, 0x78a5636f, 0x84c87814, 0x8cc70208, 0x90befffa, 0xa4506ceb, 0xbef9a3f7, 0xc67178f2]

structure State where
  a : UInt32
  b : UInt32
  c : UInt32
  d : UInt32
  e : UInt32
  f : UInt32
  g : UInt32
  h : UInt32

/-- The first bits of the fractional parts of the square roots of the first primes. -/
def State.initial : State :=
  ⟨0x6a09e667, 0xbb67ae85, 0x3c6ef372, 0xa54ff53a, 0x510e527f, 0x9b05688c, 0x1f83d9ab, 0x5be0cd19⟩

def turn (word : UInt32) (amount : UInt32) : UInt32 :=
  (word >>> amount) ||| (word <<< (32 - amount))

def State.round (s : State) (constant word : UInt32) : State :=
  let mix := turn s.e 6 ^^^ turn s.e 11 ^^^ turn s.e 25
  let choice := (s.e &&& s.f) ^^^ (~~~s.e &&& s.g)
  let first := s.h + mix + choice + constant + word
  let spread := turn s.a 2 ^^^ turn s.a 13 ^^^ turn s.a 22
  let majority := (s.a &&& s.b) ^^^ (s.a &&& s.c) ^^^ (s.b &&& s.c)
  ⟨first + (spread + majority), s.a, s.b, s.c, s.d + first, s.e, s.f, s.g⟩

def State.add (s t : State) : State :=
  ⟨s.a + t.a, s.b + t.b, s.c + t.c, s.d + t.d, s.e + t.e, s.f + t.f, s.g + t.g, s.h + t.h⟩

def State.words (s : State) : List UInt32 :=
  [s.a, s.b, s.c, s.d, s.e, s.f, s.g, s.h]

/-- The next words of a schedule whose last sixteen words are given, the oldest first. -/
def schedule : (count : Nat) → (window : List UInt32) → List UInt32
  | 0, window => window
  | count + 1, window =>
      match window with
      | oldest :: rest =>
          let older := rest.headD 0
          let middle := rest.getD 8 0
          let recent := rest.getD 13 0
          let low := turn older 7 ^^^ turn older 18 ^^^ (older >>> 3)
          let high := turn recent 17 ^^^ turn recent 19 ^^^ (recent >>> 10)
          oldest :: schedule count (rest ++ [oldest + low + middle + high])
      | [] => []

/-- Bytes read four by four as words, the highest byte first. -/
def wordsOf : List UInt8 → List UInt32
  | a :: b :: c :: d :: rest =>
      (a.toUInt32 <<< 24 ||| b.toUInt32 <<< 16 ||| c.toUInt32 <<< 8 ||| d.toUInt32) :: wordsOf rest
  | _ => []

def State.absorb (s : State) (block : List UInt32) : State :=
  s.add (((roundWords.zip (schedule 48 block))).foldl (fun t (k, w) => t.round k w) s)

/-- The states over the blocks of a message, `count` of them. -/
def absorbBlocks : (count : Nat) → State → List UInt32 → State
  | 0, s, _ => s
  | count + 1, s, words => absorbBlocks count (s.absorb (words.take 16)) (words.drop 16)

/-- The bytes of a number, the highest first. -/
def bigEndian : (width : Nat) → Nat → List UInt8
  | 0, _ => []
  | width + 1, value => bigEndian width (value / 256) ++ [UInt8.ofNat (value % 256)]

/-- A message with a one bit, zeros up to the end of a block, and its length in bits. -/
def pad (message : List UInt8) : List UInt8 :=
  let zeros := (119 - message.length % 64) % 64
  message ++ 0x80 :: List.replicate zeros 0 ++ bigEndian 8 (8 * message.length)

/-- The digest of bytes, as the eight words of the last state. -/
def sha256 (message : List UInt8) : List UInt32 :=
  let words := wordsOf (pad message)
  (absorbBlocks (words.length / 16) State.initial words).words

def hexOf (text : String) : String :=
  String.ofList ((sha256 text.toUTF8.toList).flatMap fun word => hexDigits 8 word.toNat)

end CodeFacts.Text.Digest
