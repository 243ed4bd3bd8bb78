/-
**Similarity of texts.**

Two texts are compared by the longest block they share: it is found, then the parts before it and
the parts behind it are compared the same way, and the characters matched in all are counted.  In
a second text of 200 characters or more, a character that makes up more than one percent of it
starts no block; a block may still grow over it.

Main definitions:

* `Citations.Similarity.longest` — the longest block that two texts share;
* `Citations.Similarity.matched` — the number of characters matched in all;
* `Citations.Similarity.ratio` — twice that number in proportion to both lengths;
* `Citations.similarity` — the similarity of two texts without regard to case;
* `Citations.rankSimilar` — the candidates that are similar enough, best first.
-/

import Citations.Number.Binary64
import Citations.Text.Lower

set_option relaxedAutoImplicit false
set_option autoImplicit false

namespace Citations

namespace Similarity

/-! ### The longest shared block -/

/-- A block that two texts share: where it starts in each, and its length. -/
structure Block where
  left : Nat
  right : Nat
  size : Nat

/-- For one character of the left text, the lengths of the shared blocks that end with it and with
each character of the right text, from those for the character before it. -/
def nextRow (rare : Char → Bool) (a : Char) (bs : List Char) (row : List Nat) : List Nat :=
  List.zipWith (fun b k => if a = b ∧ rare b then k + 1 else 0) bs (0 :: row)

/-- The longest of `best` and the blocks that end at place `i` of the left text and at the places
from `j` on of the right text.  Of blocks of equal length the first one stays. -/
def improve (i : Nat) : (j : Nat) → List Nat → Block → Block
  | _, [], best => best
  | j, k :: row, best =>
      improve i (j + 1) row (if best.size < k then ⟨i + 1 - k, j + 1 - k, k⟩ else best)

/-- The longest of `best` and the blocks that end at place `i` of the left text or later. -/
def longestFrom (rare : Char → Bool) (bs : List Char) :
    (i : Nat) → List Char → (row : List Nat) → Block → Block
  | _, [], _, best => best
  | i, a :: as, row, best =>
      let next := nextRow rare a bs row
      longestFrom rare bs (i + 1) as next (improve i 0 next best)

/-- The number of characters that two texts have in common at their start. -/
def commonStart : List Char → List Char → Nat
  | a :: as, b :: bs => if a = b then commonStart as bs + 1 else 0
  | _, _ => 0

/-- A block grown to both sides as far as the texts agree. -/
def grow (as bs : List Char) (block : Block) : Block :=
  let before := commonStart (as.take block.left).reverse (bs.take block.right).reverse
  let after := commonStart (as.drop (block.left + block.size)) (bs.drop (block.right + block.size))
  ⟨block.left - before, block.right - before, before + block.size + after⟩

/-- **The longest block that two texts share**, grown over the characters that start none. -/
def longest (rare : Char → Bool) (as bs : List Char) : Block :=
  grow as bs (longestFrom rare bs 0 as (List.replicate bs.length 0) ⟨0, 0, 0⟩)

/-! ### All matched characters -/

/-- The number of characters matched by the longest block and, to both sides of it, in the same
way; `depth` bounds the number of cuts. -/
def matchedWithin (rare : Char → Bool) : (depth : Nat) → (as bs : List Char) → Nat
  | 0, _, _ => 0
  | depth + 1, as, bs =>
      let block := longest rare as bs
      if block.size = 0 then 0
      else
        matchedWithin rare depth (as.take block.left) (bs.take block.right) + block.size +
          matchedWithin rare depth (as.drop (block.left + block.size))
            (bs.drop (block.right + block.size))

/-- Whether a character may start a block in the text `bs`. -/
def isRare (bs : List Char) (b : Char) : Bool :=
  bs.length < 200 || bs.count b ≤ bs.length / 100 + 1

/-- **The number of characters matched in two texts.**  Each cut takes a character off the left
text, so its length bounds their number. -/
def matched (as bs : List Char) : Nat := matchedWithin (isRare bs) as.length as bs

/-- Twice the number of matched characters in proportion to both lengths; one for two empty
texts. -/
def ratio (as bs : List Char) : Nat :=
  if as.length + bs.length = 0 then Binary64.one
  else Binary64.ofRatio (2 * matched as bs) (as.length + bs.length)

end Similarity

/-! ### Ranking -/

/-- **The similarity of two texts** without regard to case, as a multiple of the smallest number of
double precision. -/
def similarity (a b : String) : Nat :=
  if a = b then Binary64.one
  else if a = "" ∨ b = "" then 0
  else Similarity.ratio (Text.lower a.toList) (Text.lower b.toList)

/-- A list without the elements that occur before. -/
def distinct (xs : List String) : List String := xs.eraseDups

/-- The candidates that reach the threshold, most similar first; equally similar ones keep their
order. -/
def rankedAbove (target : String) (threshold : Binary64) (candidates : List String) :
    List (Nat × String) :=
  (((distinct candidates).map fun c => (similarity target c, c)).filter
    fun p => threshold.atMost p.1).mergeSort fun p q => q.1 ≤ p.1

/-- **The candidates that are similar enough to `target`**, best first.  At most `limit` are
offered; a limit below zero leaves out that many at the end. -/
def rankSimilar (target : String) (candidates : List String) (threshold : Binary64)
    (limit : Int) : List String :=
  let ranked := rankedAbove target threshold candidates
  (ranked.take (if limit < 0 then (ranked.length + limit).toNat else limit.toNat)).map Prod.snd

end Citations
