/-
**SHA-256.**

Extracted texts are told apart by the digest of their UTF-8 form.  The message is padded to whole
blocks of 64 bytes, and each block in turn is mixed into a state of eight 32-bit words.

Main definitions:

* `Citations.Sha256.pad` — a message filled up to whole blocks;
* `Citations.Sha256.compress` — one block mixed into the state;
* `Citations.Sha256.digest` — the eight words of a message;
* `Citations.sha256Hex`, `Citations.contentId` — the digest of a text in hexadecimal, and its first
  sixteen digits.
-/

import Citations.Text.Quoted

set_option relaxedAutoImplicit false
set_option autoImplicit false

namespace Citations

namespace Sha256

/-- The words that a message starts from. -/
def initial : List UInt32 :=
  [0x6a09e667, 0xbb67ae85, 0x3c6ef372, 0xa54ff53a, 0x510e527f, 0x9b05688c, 0x1f83d9ab, 0x5be0cd19]

/-- The constants of the 64 rounds. -/
def roundConstants : List UInt32 :=
  [0x428a2f98, 0x71374491, 0xb5c0fbcf, 0xe9b5dba5, 0x3956c25b, 0x59f111f1, 0x923f82a4, 0xab1c5ed5,
   0xd807aa98, 0x12835b01, 0x243185be, 0x550c7dc3, 0x72be5d74, 0x80deb1fe, 0x9bdc06a7, 0xc19bf174,
   0xe49b69c1, 0xefbe4786, 0x0fc19dc6, 0x240ca1cc, 0x2de92c6f, 0x4a7484aa, 0x5cb0a9dc, 0x76f988da,
   0x983e5152, 0xa831c66d, 0xb00327c8, 0xbf597fc7, 0xc6e00bf3, 0xd5a79147, 0x06ca6351, 0x14292967,
   0x27b70a85, 0x2e1b2138, 0x4d2c6dfc, 0x53380d13, 0x650a7354, 0x766a0abb, 0x81c2c92e, 0x92722c85,
   0xa2bfe8a1, 0xa81a664b, 0xc24b8b70, 0xc76c51a3, 0xd192e819, 0xd6990624, 0xf40e3585, 0x106aa070,
   0x19a4c116, 0x1e376c08, 0x2748774c, 0x34b0bcb5, 0x391c0cb3, 0x4ed8aa4a, 0x5b9cca4f, 0x682e6ff3,
   0x748f82ee, 0x78a5636f, 0x84c87814, 0x8cc70208, 0x90befffa, 0xa4506ceb, 0xbef9a3f7, 0xc67178f2]

/-- The bits of a word turned to the right. -/
def rotate (w : UInt32) (n : UInt32) : UInt32 := (w >>> n) ||| (w <<< (32 - n))

/-! ### Padding -/

/-- The last `width` base-256 digits of a number, the most significant one first. -/
def bigEndian : (width n : Nat) → List UInt8
  | 0, _ => []
  | width + 1, n => bigEndian width (n / 256) ++ [UInt8.ofNat (n % 256)]

/-- A message filled up to whole blocks: a one bit, zeros, and its length in bits. -/
def pad (message : List UInt8) : List UInt8 :=
  message ++ 0x80 :: List.replicate ((119 - message.length % 64) % 64) 0 ++
    bigEndian 8 (8 * message.length)

/-- The words of a block, each of four bytes. -/
def words : List UInt8 → List UInt32
  | a :: b :: c :: d :: rest =>
      (a.toUInt32 <<< 24 ||| b.toUInt32 <<< 16 ||| c.toUInt32 <<< 8 ||| d.toUInt32) :: words rest
  | _ => []

/-! ### Rounds -/

/-- The next word of the schedule, from the sixteen words before it. -/
def nextWord (window : List UInt32) : UInt32 :=
  let w15 := window.getD 1 0
  let w2 := window.getD 14 0
  let s0 := rotate w15 7 ^^^ rotate w15 18 ^^^ (w15 >>> 3)
  let s1 := rotate w2 17 ^^^ rotate w2 19 ^^^ (w2 >>> 10)
  window.getD 0 0 + s0 + window.getD 9 0 + s1

/-- The words of the schedule, `count` in all, that begin with a window of sixteen. -/
def schedule : (count : Nat) → (window : List UInt32) → List UInt32
  | 0, _ => []
  | count + 1, window =>
      window.getD 0 0 :: schedule count (window.drop 1 ++ [nextWord window])

/-- One round: the state turned by a word of the schedule and the constant of the round. -/
def turn (state : List UInt32) (input : UInt32 × UInt32) : List UInt32 :=
  match state with
  | [a, b, c, d, e, f, g, h] =>
      let s1 := rotate e 6 ^^^ rotate e 11 ^^^ rotate e 25
      let choice := (e &&& f) ^^^ (~~~e &&& g)
      let t1 := h + s1 + choice + input.1 + input.2
      let s0 := rotate a 2 ^^^ rotate a 13 ^^^ rotate a 22
      let majority := (a &&& b) ^^^ (a &&& c) ^^^ (b &&& c)
      [t1 + (s0 + majority), a, b, c, d + t1, e, f, g]
  | other => other

/-- One block mixed into the state. -/
def compress (state block : List UInt32) : List UInt32 :=
  List.zipWith (· + ·) state
    (((schedule 64 block).zip roundConstants).foldl turn state)

/-- The blocks of a padded message, `count` in all, mixed into the state one after another. -/
def absorb : (count : Nat) → (state : List UInt32) → List UInt8 → List UInt32
  | 0, state, _ => state
  | count + 1, state, bytes =>
      absorb count (compress state (words (bytes.take 64))) (bytes.drop 64)

/-- **The eight words of a message.** -/
def digest (message : List UInt8) : List UInt32 :=
  let padded := pad message
  absorb (padded.length / 64) initial padded

end Sha256

/-- The digest of a text's UTF-8 form, in lower-case hexadecimal. -/
def sha256Hex (s : String) : String :=
  String.ofList ((Sha256.digest s.toUTF8.toList).flatMap fun w => Text.hex 8 w.toNat)

/-- **The id of a text**: the first sixteen digits of its digest. -/
def contentId (s : String) : String := String.ofList ((sha256Hex s).toList.take 16)

end Citations
