/-
**Reading UTF-8.**

A file is a sequence of bytes and has to be UTF-8 throughout; a percent-encoded text may hold any
bytes, and what is not UTF-8 there becomes the replacement character.  Both readings cut the bytes
into the same pieces: a piece is either one character or the longest start of a character that the
bytes break off.

Main definitions:

* `Citations.Text.Utf8.Reason` — why a piece is no character;
* `Citations.Text.Utf8.pieces` — the pieces of a sequence of bytes;
* `Citations.Text.Utf8.decode` — the text, or the first fault;
* `Citations.Text.Utf8.decodeLossy` — the text with a replacement character for each fault.
-/

set_option relaxedAutoImplicit false
set_option autoImplicit false

namespace Citations.Text.Utf8

/-- Why bytes are not the start of a character. -/
inductive Reason where
  /-- No character begins with this byte. -/
  | invalidStart
  /-- A byte is not the continuation that the character needs. -/
  | invalidContinuation
  /-- The bytes end inside a character. -/
  | unexpectedEnd
  deriving DecidableEq

/-- One piece: its first byte's place, how many bytes it takes, and the character they make. -/
structure Piece where
  offset : Nat
  length : Nat
  content : Except Reason Char

/-- How many continuation bytes follow a first byte, and the range of the first of them. -/
def lead (b : UInt8) : Option (Nat × Nat × Nat) :=
  let n := b.toNat
  if n < 0x80 then some (0, 0, 0)
  else if n < 0xc2 then none
  else if n < 0xe0 then some (1, 0x80, 0xbf)
  else if n = 0xe0 then some (2, 0xa0, 0xbf)
  else if n = 0xed then some (2, 0x80, 0x9f)
  else if n < 0xf0 then some (2, 0x80, 0xbf)
  else if n = 0xf0 then some (3, 0x90, 0xbf)
  else if n < 0xf4 then some (3, 0x80, 0xbf)
  else if n = 0xf4 then some (3, 0x80, 0x8f)
  else none

/-- The bits of a first byte that count towards the character. -/
def leadBits (b : UInt8) : Nat :=
  let n := b.toNat
  if n < 0x80 then n else if n < 0xe0 then n % 0x20 else if n < 0xf0 then n % 0x10 else n % 8

/-- Reads `need` continuation bytes, the first of them between `lo` and `hi`, after `used` bytes
that make up the number `value`.  The result says how many bytes the piece takes. -/
def continuation : (need lo hi used value : Nat) → List UInt8 → Nat × Except Reason Char
  | 0, _, _, used, value, _ => (used, .ok (Char.ofNat value))
  | _ + 1, _, _, used, _, [] => (used, .error .unexpectedEnd)
  | need + 1, lo, hi, used, value, b :: bs =>
      if lo ≤ b.toNat ∧ b.toNat ≤ hi then
        continuation need 0x80 0xbf (used + 1) (value * 64 + b.toNat % 64) bs
      else (used, .error .invalidContinuation)

/-- The piece at the start of a sequence that begins with `b`. -/
def readPiece (b : UInt8) (bs : List UInt8) : Nat × Except Reason Char :=
  match lead b with
  | none => (1, .error .invalidStart)
  | some (need, lo, hi) => continuation need lo hi 1 (leadBits b) bs

/-- The pieces from place `pos` on, where `skip` bytes still belong to the piece before. -/
def piecesFrom : Nat → Nat → List UInt8 → List Piece
  | _, _, [] => []
  | pos, skip + 1, _ :: bs => piecesFrom (pos + 1) skip bs
  | pos, 0, b :: bs =>
      let p := readPiece b bs
      ⟨pos, p.1, p.2⟩ :: piecesFrom (pos + 1) (p.1 - 1) bs

/-- The pieces of a sequence of bytes. -/
def pieces (bs : List UInt8) : List Piece := piecesFrom 0 0 bs

/-- What stands where the bytes make no character. -/
def replacement : Char := '\ufffd'

/-- The text with a replacement character for each fault. -/
def decodeLossy (bs : List UInt8) : List Char :=
  (pieces bs).map fun p => p.content.toOption.getD replacement

/-- A fault: the place of its first byte, how many bytes it takes, its first byte, and why. -/
structure Fault where
  offset : Nat
  length : Nat
  byte : UInt8
  reason : Reason
  deriving DecidableEq

/-- The first piece that is no character. -/
def firstFault (bs : List UInt8) : Option Fault :=
  (pieces bs).findSome? fun p =>
    match p.content with
    | .ok _ => none
    | .error r => some ⟨p.offset, p.length, bs.getD p.offset 0, r⟩

/-- The text, or the first fault. -/
def decode (bs : List UInt8) : Except Fault (List Char) :=
  match firstFault bs with
  | some f => .error f
  | none => .ok (decodeLossy bs)

/-- The words for a reason. -/
def Reason.message : Reason → String
  | .invalidStart => "invalid start byte"
  | .invalidContinuation => "invalid continuation byte"
  | .unexpectedEnd => "unexpected end of data"

end Citations.Text.Utf8
