/-
**Encoded ids are readable.**

An encoded id is made in one pass over a text, which remembers whether it is inside white space.
The outcome can be said without the pass: the text is cut into maximal runs, which are white space
throughout or hold none, and the runs of white space are replaced.  Decoding an encoded id turns
each replacement into a space and leaves all else alone, unless the text holds percent signs of its
own.

Main definitions:

* `Citations.blankRuns` — the maximal runs of a text in which all or no characters are white space;
* `Citations.spaced` — the text with something else for each maximal run of white space.

Main results:

* `Citations.blankRuns_append` — how the first run is told from the others;
* `Citations.joinWords_eq_spaced` — one pass replaces the maximal runs of white space;
* `Citations.encodeHeadingId_readable` — **an encoded id decodes to the readable heading**.
-/

import Citations.Proofs.Document.HeadingNames
import Mathlib.Data.List.SplitBy
import Mathlib.Data.List.TakeWhile

set_option relaxedAutoImplicit false
set_option autoImplicit false

namespace Citations

open Text

variable {sep run rest cs : List Char}

/-! ### Runs of white space -/

/-- The maximal runs of a text in which all or no characters are white space. -/
def blankRuns (cs : List Char) : List (List Char) :=
  cs.splitBy fun a b => isBlank a == isBlank b

/-- **A text with `sep` in the place of each maximal run of white space.** -/
def spaced (sep cs : List Char) : List Char :=
  (blankRuns cs).flatMap fun run => if allBlank run then sep else run

/-- The first run ends where the class of the characters changes. -/
theorem blankRuns_append {blank : Bool} (hne : run ≠ []) (hrun : ∀ c ∈ run, isBlank c = blank)
    (hrest : ∀ c ∈ rest.head?, isBlank c ≠ blank) :
    blankRuns (run ++ rest) = run :: blankRuns rest := by
  have hchain : run.IsChain fun a b => isBlank a == isBlank b := by
    refine List.Pairwise.isChain (List.pairwise_of_forall_mem_list fun a ha b hb => ?_)
    rw [hrun a ha, hrun b hb, beq_self_eq_true]
  rw [blankRuns, List.splitBy_append, List.splitBy_of_isChain hne hchain]
  · rfl
  · intro a ha b hb
    rw [hrun a (List.mem_of_getLast? ha)]
    exact beq_false_of_ne (Ne.symm (hrest b hb))

/-! ### One pass over the runs -/

theorem joinWordsFrom_append_blank (hrun : ∀ c ∈ run, isBlank c = true) :
    joinWordsFrom sep true (run ++ rest) = joinWordsFrom sep true rest := by
  induction run with
  | nil => rfl
  | cons c run ih =>
      rw [List.cons_append, joinWordsFrom, if_pos (hrun c (List.mem_cons_self ..))]
      exact ih fun c' hc' => hrun c' (List.mem_cons_of_mem _ hc')

theorem joinWordsFrom_append_word (hrun : ∀ c ∈ run, isBlank c = false) :
    joinWordsFrom sep false (run ++ rest) = run ++ joinWordsFrom sep false rest := by
  induction run with
  | nil => rfl
  | cons c run ih =>
      have hc : ¬ isBlank c = true := Bool.eq_false_iff.1 (hrun c (List.mem_cons_self ..))
      rw [List.cons_append, joinWordsFrom, if_neg hc,
        ih fun c' hc' => hrun c' (List.mem_cons_of_mem _ hc'), List.cons_append]

/-- Behind white space a word is read as at the start. -/
theorem joinWordsFrom_of_head (hrest : ∀ c ∈ rest.head?, isBlank c ≠ true) (inside : Bool) :
    joinWordsFrom sep inside rest = joinWordsFrom sep false rest := by
  cases rest with
  | nil => rfl
  | cons c rest =>
      have hc : ¬ isBlank c = true := hrest c rfl
      rw [joinWordsFrom, joinWordsFrom, if_neg hc, if_neg hc]

/-- Without white space there is nothing to replace. -/
theorem joinWords_eq_self (h : ∀ c ∈ cs, isBlank c = false) : joinWords sep cs = cs := by
  have hword : joinWordsFrom sep false (cs ++ []) = cs ++ joinWordsFrom sep false [] :=
    joinWordsFrom_append_word h
  rwa [List.append_nil, joinWordsFrom, List.append_nil] at hword

/-- A text that is not empty starts with a maximal run. -/
theorem exists_run (hne : cs ≠ []) :
    ∃ blank run rest, cs = run ++ rest ∧ run ≠ [] ∧ (∀ c ∈ run, isBlank c = blank) ∧
      ∀ c ∈ rest.head?, isBlank c ≠ blank := by
  obtain ⟨c, tail, rfl⟩ := List.exists_cons_of_ne_nil hne
  refine ⟨isBlank c, (c :: tail).takeWhile (isBlank · == isBlank c),
    (c :: tail).dropWhile (isBlank · == isBlank c), List.takeWhile_append_dropWhile.symm, ?_,
    fun x hx => by simpa using List.mem_takeWhile_imp hx, fun x hx => ?_⟩
  · simp
  · have hhead := List.head?_dropWhile_not (isBlank · == isBlank c) (c :: tail)
    rw [hx] at hhead
    simpa using hhead

/-- **One pass replaces the maximal runs of white space.** -/
theorem joinWords_eq_spaced (sep cs : List Char) : joinWords sep cs = spaced sep cs := by
  induction hlength : cs.length using Nat.strong_induction_on generalizing cs with
  | _ n ih =>
      by_cases hne : cs = []
      · rw [hne]
        rfl
      · obtain ⟨blank, run, rest, rfl, hrun, hclass, hrest⟩ := exists_run hne
        have hpos := List.length_pos_of_ne_nil hrun
        rw [List.length_append] at hlength
        have hbehind : joinWordsFrom sep false rest = spaced sep rest := ih _ (by omega) rest rfl
        rw [spaced, blankRuns_append hrun hclass hrest, List.flatMap_cons]
        cases blank with
        | true =>
            have hall : allBlank run = true := List.all_eq_true.2 hclass
            obtain ⟨c, run, rfl⟩ := List.exists_cons_of_ne_nil hrun
            have hfirst : isBlank c = true := hclass c (List.mem_cons_self ..)
            rw [if_pos hall, joinWords, List.cons_append, joinWordsFrom, if_pos hfirst,
              joinWordsFrom_append_blank fun x hx => hclass x (List.mem_cons_of_mem _ hx),
              joinWordsFrom_of_head hrest, hbehind]
            rfl
        | false =>
            have hall : ¬ allBlank run = true := by
              obtain ⟨c, hc⟩ := List.exists_mem_of_ne_nil run hrun
              intro hall
              exact Bool.eq_false_iff.1 (hclass c hc) (List.all_eq_true.1 hall c hc)
            rw [if_neg hall, joinWords, joinWordsFrom_append_word hclass, hbehind]
            rfl

/-! ### Encoded ids -/

/-- An encoded id holds no white space. -/
theorem isBlank_of_mem_encodeHeadingId {c : Char} (h : c ∈ encodeHeadingId cs) :
    isBlank c = false := by
  have hescape : ∀ c ∈ ['%', '2', '0'], isBlank c = false := by
    rw [List.forall_mem_cons, List.forall_mem_cons, List.forall_mem_singleton]
    decide
  rcases mem_joinWordsFrom h with h | ⟨-, hc⟩
  · exact hescape c h
  · exact hc

/-- There is nothing to encode in a text without colons and white space. -/
theorem encodeHeadingId_eq_self (hcolon : ':' ∉ cs) (hblank : ∀ c ∈ cs, isBlank c = false) :
    encodeHeadingId cs = cs := by
  have hfilter : cs.filter (· ≠ ':') = cs :=
    List.filter_eq_self.2 fun c hc => decide_eq_true fun h => hcolon (h ▸ hc)
  rw [encodeHeadingId, hfilter, joinWords_eq_self hblank]

/-- **An encoded id decodes to the readable heading.**  It holds neither a colon nor white space, so
encoding it again changes nothing.  If the text holds no percent sign, the encoded id stands for the
text without its colons, with one space for each maximal run of white space that is then left. -/
theorem encodeHeadingId_readable (cs : List Char) :
    ':' ∉ encodeHeadingId cs ∧ (∀ c ∈ encodeHeadingId cs, isBlank c = false) ∧
      encodeHeadingId (encodeHeadingId cs) = encodeHeadingId cs ∧
      ('%' ∉ cs → percentDecode (encodeHeadingId cs) = spaced [' '] (cs.filter (· ≠ ':'))) := by
  have hcolon := colon_notMem_encodeHeadingId cs
  have hblank : ∀ c ∈ encodeHeadingId cs, isBlank c = false :=
    fun c hc => isBlank_of_mem_encodeHeadingId hc
  refine ⟨hcolon, hblank, encodeHeadingId_eq_self hcolon hblank, fun hpercent => ?_⟩
  rw [percentDecode_encodeHeadingId, percentDecode_eq_self (percent_notMem_joinWords hpercent),
    joinWords_eq_spaced]

/-- Two runs of white space become one when the colon between them is gone. -/
theorem encodeHeadingId_readable_story :
    '%' ∉ "Ž 1.5 :\t Cache".toList ∧
      percentDecode (encodeHeadingId "Ž 1.5 :\t Cache".toList) = "Ž 1.5 Cache".toList := by
  have hpercent : '%' ∉ "Ž 1.5 :\t Cache".toList := by decide
  have hspaced :
      spaced [' '] ("Ž 1.5 :\t Cache".toList.filter (· ≠ ':')) = "Ž 1.5 Cache".toList := by
    decide +kernel
  exact ⟨hpercent, ((encodeHeadingId_readable _).2.2.2 hpercent).trans hspaced⟩

end Citations
