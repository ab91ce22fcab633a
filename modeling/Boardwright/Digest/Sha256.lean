/-!
# The digest SHA-256

The digest of a sequence of bytes as eight words of 32 bits.  The bytes are padded to a multiple of
64, and each block of 64 bytes is mixed into the words in 64 rounds.

* **`padding`**: the padded message.
* **`expand`**: the 64 words of a block.
* **`compress`**: the effect of a block.
* **`digest`**: the words after all blocks.
-/

namespace Boardwright.Digest.Sha256

/-- The words before the first block. -/
def initial : List UInt32 :=
  [0x6a09e667, 0xbb67ae85, 0x3c6ef372, 0xa54ff53a, 0x510e527f, 0x9b05688c, 0x1f83d9ab, 0x5be0cd19]

/-- The constants of the rounds. -/
def constants : List UInt32 :=
  [0x428a2f98, 0x71374491, 0xb5c0fbcf, 0xe9b5dba5, 0x3956c25b, 0x59f111f1, 0x923f82a4, 0xab1c5ed5,
   0xd807aa98, 0x12835b01, 0x243185be, 0x550c7dc3, 0x72be5d74, 0x80deb1fe, 0x9bdc06a7, 0xc19bf174,
   0xe49b69c1, 0xefbe4786, 0x0fc19dc6, 0x240ca1cc, 0x2de92c6f, 0x4a7484aa, 0x5cb0a9dc, 0x76f988da,
   0x983e5152, 0xa831c66d, 0xb00327c8, 0xbf597fc7, 0xc6e00bf3, 0xd5a79147, 0x06ca6351, 0x14292967,
   0x27b70a85, 0x2e1b2138, 0x4d2c6dfc, 0x53380d13, 0x650a7354, 0x766a0abb, 0x81c2c92e, 0x92722c85,
   0xa2bfe8a1, 0xa81a664b, 0xc24b8b70, 0xc76c51a3, 0xd192e819, 0xd6990624, 0xf40e3585, 0x106aa070,
   0x19a4c116, 0x1e376c08, 0x2748774c, 0x34b0bcb5, 0x391c0cb3, 0x4ed8aa4a, 0x5b9cca4f, 0x682e6ff3,
   0x748f82ee, 0x78a5636f, 0x84c87814, 0x8cc70208, 0x90befffa, 0xa4506ceb, 0xbef9a3f7, 0xc67178f2]

/-- A word turned to the right by `n` bits. -/
def turn (x n : UInt32) : UInt32 :=
  (x >>> n) ||| (x <<< (32 - n))

/-- The eight bytes of a number, highest first. -/
def bigEndian64 (n : Nat) : List UInt8 :=
  [56, 48, 40, 32, 24, 16, 8, 0].map fun s => (n >>> s).toUInt8

/-- The message, a set bit, zeros, and the number of bits of the message. -/
def padding (message : List UInt8) : List UInt8 :=
  let zeros := (119 - message.length % 64) % 64
  message ++ 0x80 :: (List.replicate zeros 0 ++ bigEndian64 (message.length * 8))

/-- The words of a sequence of bytes, four bytes each, highest first. -/
def words : List UInt8 → List UInt32
  | a :: b :: c :: d :: rest =>
    ((a.toUInt32 <<< 24) ||| (b.toUInt32 <<< 16) ||| (c.toUInt32 <<< 8) ||| d.toUInt32) :: words rest
  | _ => []

/-- The word that follows the words `w` in the expansion of a block. -/
def nextWord (w : Array UInt32) : UInt32 :=
  let earlier (back : Nat) : UInt32 := w.getD (w.size - back) 0
  let x := earlier 15
  let y := earlier 2
  let s0 := turn x 7 ^^^ turn x 18 ^^^ (x >>> 3)
  let s1 := turn y 17 ^^^ turn y 19 ^^^ (y >>> 10)
  earlier 16 + s0 + earlier 7 + s1

/-- The 64 words of a block of 16 words. -/
def expand (block : List UInt32) : List UInt32 :=
  ((List.range 48).foldl (fun w _ => w.push (nextWord w)) block.toArray).toList

/-- One round, with the word and the constant of the round added up. -/
def round (state : List UInt32) (k : UInt32) : List UInt32 :=
  match state with
  | [a, b, c, d, e, f, g, h] =>
    let s1 := turn e 6 ^^^ turn e 11 ^^^ turn e 25
    let choice := (e &&& f) ^^^ ((~~~e) &&& g)
    let t1 := h + s1 + choice + k
    let s0 := turn a 2 ^^^ turn a 13 ^^^ turn a 22
    let majority := (a &&& b) ^^^ (a &&& c) ^^^ (b &&& c)
    [t1 + s0 + majority, a, b, c, d + t1, e, f, g]
  | other => other

/-- The words after a block. -/
def compress (state block : List UInt32) : List UInt32 :=
  let keys := List.zipWith (· + ·) constants (expand block)
  List.zipWith (· + ·) state (keys.foldl round state)

/-- Mixes in `n` blocks of 16 words. -/
def compressAll (state : List UInt32) : Nat → List UInt32 → List UInt32
  | 0, _ => state
  | n + 1, ws => compressAll (compress state (ws.take 16)) n (ws.drop 16)

/-- The digest of a message, as eight words. -/
def digest (message : List UInt8) : List UInt32 :=
  let ws := words (padding message)
  compressAll initial (ws.length / 16) ws

end Boardwright.Digest.Sha256
