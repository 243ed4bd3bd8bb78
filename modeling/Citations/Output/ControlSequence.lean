/-
**Control sequences.**

What the program says may repeat a text with control sequences, which set colours or move the cursor
of a terminal.  They are left out.

Main definitions:

* `Citations.Output.readSequence` — reads a control sequence;
* `Citations.Output.withoutSequences` — a text without them.

Main results:

* `Citations.Output.withoutSequences_of_plain` — a text without the escape character stays as it is;
* `Citations.Output.exists_withoutSequences_append` — words without it stay in front of a text.
-/

import Citations.Text.Scan

set_option relaxedAutoImplicit false
set_option autoImplicit false

namespace Citations.Output

open Text

/-- The character that starts a control sequence. -/
def escapeCharacter : Char := '\x1b'

/-- What may stand between the start of a control sequence and its last letter. -/
def isParameter (c : Char) : Bool := c == ';' || c == '?' || c.isDigit

/-- Reads a control sequence: the escape character and a bracket, then parameters, then a letter. -/
def readSequence : Reader (List Char) := fun _ cs =>
  match cs with
  | e :: '[' :: rest =>
      let parameters := rest.takeWhile isParameter
      if e = escapeCharacter ∧ (rest.drop parameters.length).head?.any Char.isAlpha then
        some ([], parameters.length + 3)
      else none
  | _ => none

/-- **A text without control sequences.** -/
def withoutSequences (s : String) : String := String.ofList (replaceAll readSequence s.toList)

/-- Up to the first escape character, a text stays as it is. -/
theorem exists_replaceFrom_readSequence_append {cs : List Char} (h : escapeCharacter ∉ cs)
    (rest : List Char) (prev : Option Char) :
    ∃ last, replaceFrom readSequence prev 0 (cs ++ rest) =
      cs ++ replaceFrom readSequence last 0 rest := by
  induction cs generalizing prev with
  | nil => exact ⟨prev, rfl⟩
  | cons c cs ih =>
      have hc : c ≠ escapeCharacter := fun e => h (e ▸ List.mem_cons_self)
      have hr : readSequence prev (c :: (cs ++ rest)) = none := by
        unfold readSequence
        split
        · rename_i e rest heq
          obtain ⟨rfl, -⟩ := List.cons.inj heq
          simp [hc]
        · rfl
      obtain ⟨last, hlast⟩ := ih (fun hm => h (List.mem_cons_of_mem _ hm)) (some c)
      refine ⟨last, ?_⟩
      simp only [List.cons_append, replaceFrom, hr]
      rw [hlast]

/-- Words without the escape character stay in front of a text. -/
theorem exists_withoutSequences_append {s : String} (h : escapeCharacter ∉ s.toList)
    (rest : String) : ∃ left, withoutSequences (s ++ rest) = s ++ left := by
  obtain ⟨last, hlast⟩ := exists_replaceFrom_readSequence_append h rest.toList none
  refine ⟨String.ofList (replaceFrom readSequence last 0 rest.toList), ?_⟩
  rw [withoutSequences, replaceAll, String.toList_append, hlast, String.ofList_append,
    String.ofList_toList]

/-- A text without the escape character stays as it is. -/
theorem withoutSequences_of_plain {s : String} (h : escapeCharacter ∉ s.toList) :
    withoutSequences s = s := by
  obtain ⟨last, hlast⟩ := exists_replaceFrom_readSequence_append h [] none
  rw [List.append_nil] at hlast
  simp [withoutSequences, replaceAll, hlast, replaceFrom]

end Citations.Output
