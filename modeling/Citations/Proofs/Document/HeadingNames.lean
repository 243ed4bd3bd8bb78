/-
**The names of a heading.**

A heading that names no id of its own goes by three names: its text, its encoded id, and what the
encoded id stands for.  The last one is found by decoding it once more and comparing the outcome with
the decoded id, so it fails where the decoded id still holds an escape.

An encoded id stands for the text without its colons and with single spaces, apart from the escapes
that the text itself holds.  As decoding makes a text shorter unless it leaves it alone, there is no
other way for the comparison to succeed.

Main definitions:

* `Citations.Heading.encodedId` — the encoded id of a heading;
* `Citations.Heading.ResemblesText` — whether a name is the text of a heading up to decoration.

Main results:

* `Citations.percentDecode_encodeHeadingId` — **what an encoded id stands for**;
* `Citations.Anchor.answersTo_decode_encodedId_iff` — when a heading goes by its decoded id;
* `Citations.Document.IsParsed.hasAnchor_headingNames` — **which names of a heading are found**;
* `Citations.Document.not_hasAnchor_headingNames` — the decoded id is not always found.
-/

import Citations.Proofs.Document.Passage

set_option relaxedAutoImplicit false
set_option autoImplicit false

namespace Citations

open Text

/-! ### What an encoded id stands for -/

theorem length_joinWordsFrom_le (c : Char) (inside : Bool) (cs : List Char) :
    (joinWordsFrom [c] inside cs).length ≤ cs.length := by
  induction cs generalizing inside with
  | nil => exact Nat.le_refl 0
  | cons x cs ih =>
      unfold joinWordsFrom
      split
      · cases inside with
        | false => exact Nat.succ_le_succ (ih true)
        | true => exact Nat.le_succ_of_le (ih true)
      · exact Nat.succ_le_succ (ih false)

/-- Whether white space is written as an escape or as a space is the same to the reader. -/
theorem percentUnits_append_joinWordsFrom (before : List Char) (inside : Bool) (cs : List Char) :
    percentUnits (before ++ joinWordsFrom ['%', '2', '0'] inside cs) =
      percentUnits (before ++ joinWordsFrom [' '] inside cs) := by
  induction cs generalizing before inside with
  | nil => rfl
  | cons x cs ih =>
      unfold joinWordsFrom
      split
      · cases inside with
        | true => exact ih before true
        | false =>
            have hrest := ih (before ++ ['%', '2', '0']) true
            simp only [List.append_assoc] at hrest
            exact hrest.trans (percentUnits_append_space before _)
      · simpa using ih (before ++ [x]) false

/-- **An encoded id stands for the text without its colons and with one space for each run of white
space**, but for the escapes that the text itself holds. -/
theorem percentDecode_encodeHeadingId (cs : List Char) :
    percentDecode (encodeHeadingId cs) = percentDecode (joinWords [' '] (cs.filter (· ≠ ':'))) :=
  congrArg (joinUnits []) (percentUnits_append_joinWordsFrom [] false _)

theorem percent_notMem_joinWords {cs : List Char} (hpercent : '%' ∉ cs) :
    '%' ∉ joinWords [' '] (cs.filter (· ≠ ':')) := by
  intro hmem
  rcases mem_joinWordsFrom hmem with hmem | ⟨hmem, -⟩
  · simp at hmem
  · exact hpercent (List.mem_filter.1 hmem).1

/-- Where decoding the encoded id once or twice gives the text back, once is enough. -/
theorem decode_decode_encodeHeadingId {cs : List Char}
    (h : cs = percentDecode (encodeHeadingId cs) ∨
      cs = percentDecode (percentDecode (encodeHeadingId cs))) :
    percentDecode (percentDecode (encodeHeadingId cs)) = percentDecode (encodeHeadingId cs) := by
  rw [percentDecode_encodeHeadingId] at h ⊢
  generalize hplain : joinWords [' '] (cs.filter (· ≠ ':')) = plain at h ⊢
  have hlength : plain.length ≤ cs.length := by
    rw [← hplain]
    exact Nat.le_trans (length_joinWordsFrom_le ' ' false _) (List.length_filter_le _ cs)
  have honce := length_percentDecode_le plain
  have htwice := length_percentDecode_le (percentDecode plain)
  rcases percentDecode_eq_or_length_lt (percentDecode plain) with hsame | hlt
  · exact hsame
  · -- every decoding that changes a text makes it shorter, but the text is as long as it was
    rcases h with h | h
    · rcases percentDecode_eq_or_length_lt plain with hsame | hlt'
      · rw [hsame, hsame]
      · have := congrArg List.length h
        omega
    · have := congrArg List.length h
      omega

/-! ### The names of a heading -/

/-- The encoded id of a heading that names no id of its own. -/
def Heading.encodedId (h : Heading) : String := String.ofList (encodeHeadingId h.text.toList)

/-- Whether a name is the text of a heading up to inline decoration. -/
def Heading.ResemblesText (h : Heading) (name : String) : Prop :=
  undecorate name.toList ≠ [] ∧ undecorate name.toList = undecorate h.text.toList

namespace Heading

variable {h : Heading}

/-- A heading whose text is what decoding its encoded id once or twice gives needs it once. -/
theorem decode_decode_encodedId
    (htext : h.text = decode h.encodedId ∨ h.text = decode (decode h.encodedId)) :
    decode (decode h.encodedId) = decode h.encodedId := by
  have hchars := htext.imp (congrArg String.toList) (congrArg String.toList)
  simp only [decode, encodedId, String.toList_ofList] at hchars ⊢
  rw [decode_decode_encodeHeadingId hchars]

/-- Without a percent sign in the text, decoding the encoded id once is enough. -/
theorem decode_decode_encodedId_of_notMem (hpercent : '%' ∉ h.text.toList) :
    decode (decode h.encodedId) = decode h.encodedId := by
  refine decode_eq_self ?_
  have hplain := percent_notMem_joinWords hpercent
  rwa [decode, encodedId, String.toList_ofList, String.toList_ofList,
    percentDecode_encodeHeadingId, percentDecode_eq_self hplain]

end Heading

/-- The anchor of a heading that names no id of its own. -/
theorem Anchor.ofHeading_eq {h : Heading} (hid : explicitId h.text.toList = none) :
    Anchor.ofHeading h = ⟨h.text, h.line, 0, .header h.encodedId h.text⟩ := by
  rw [Anchor.ofHeading, hid]
  rfl

theorem Anchor.answersTo_ofHeading_iff {h : Heading} (hid : explicitId h.text.toList = none)
    (name : String) :
    (Anchor.ofHeading h).answersTo name = true ↔
      h.text = name ∨ h.text = decode name ∨ name = h.encodedId ∨
        decode name = decode h.encodedId ∨ h.ResemblesText (decode name) := by
  have hplain : (Anchor.ofHeading h).plainText = undecorate h.text.toList := by
    rw [Anchor.ofHeading_eq hid, Anchor.plainText, Anchor.rawText?, Option.getD_some, ite_self]
  have hempty (cs : List Char) : (!cs.isEmpty) = true ↔ cs ≠ [] := by simp
  unfold Anchor.answersTo
  rw [hplain, Anchor.ofHeading_eq hid]
  simp only [Bool.or_eq_true, Bool.and_eq_true, beq_iff_eq, or_assoc, hempty]
  rfl

/-- **The decoded form of its encoded id names a heading** exactly if nothing is left to decode in
it, or if what is left is the text up to decoration. -/
theorem Anchor.answersTo_decode_encodedId_iff {h : Heading}
    (hid : explicitId h.text.toList = none) :
    (Anchor.ofHeading h).answersTo (decode h.encodedId) = true ↔
      decode (decode h.encodedId) = decode h.encodedId ∨
        h.ResemblesText (decode (decode h.encodedId)) := by
  rw [Anchor.answersTo_ofHeading_iff hid]
  constructor
  · rintro (htext | htext | hid | hdecoded | hresembles)
    · exact .inl (Heading.decode_decode_encodedId (.inl htext))
    · exact .inl (Heading.decode_decode_encodedId (.inr htext))
    · exact .inl (congrArg decode hid)
    · exact .inl hdecoded
    · exact .inr hresembles
  · rintro (hdecoded | hresembles)
    · exact .inr (.inr (.inr (.inl hdecoded)))
    · exact .inr (.inr (.inr (.inr hresembles)))

namespace Document

variable {d : Document} {h : Heading}

theorem hasAnchor_iff (d : Document) (name : String) :
    d.hasAnchor name = true ↔ name ≠ "" ∧ ∃ a ∈ d.anchors, a.answersTo name = true := by
  simp [hasAnchor]

/-- **The names of a heading**: its text, its encoded id, and the decoded form of the encoded id.
The last one is a name if the text holds no percent sign and, in general, exactly if nothing is left
to decode in it, if what is left is the text up to decoration, or if it names another anchor. -/
theorem IsParsed.hasAnchor_headingNames (hd : d.IsParsed) (hh : h ∈ d.headings)
    (hid : explicitId h.text.toList = none) (hne : h.encodedId ≠ "") :
    d.hasAnchor h.text = true ∧ d.hasAnchor h.encodedId = true ∧
      ('%' ∉ h.text.toList → d.hasAnchor (decode h.encodedId) = true) ∧
      (d.hasAnchor (decode h.encodedId) = true ↔
        decode (decode h.encodedId) = decode h.encodedId ∨
        h.ResemblesText (decode (decode h.encodedId)) ∨
        ∃ a ∈ d.anchors, a ≠ Anchor.ofHeading h ∧ a.answersTo (decode h.encodedId) = true) := by
  have hmem := hd.ofHeading_mem_anchors hh
  have htext : h.text ≠ "" := by
    intro hempty
    exact hne (by rw [Heading.encodedId, hempty]; rfl)
  have hdecoded : decode h.encodedId ≠ "" := by
    intro hempty
    have hnil := congrArg String.toList hempty
    rw [decode, String.toList_ofList, String.toList_empty, percentDecode_eq_nil_iff] at hnil
    exact hne (String.toList_eq_nil_iff.1 hnil)
  have hown := Anchor.answersTo_decode_encodedId_iff hid
  have hiff : d.hasAnchor (decode h.encodedId) = true ↔
      decode (decode h.encodedId) = decode h.encodedId ∨
      h.ResemblesText (decode (decode h.encodedId)) ∨
      ∃ a ∈ d.anchors, a ≠ Anchor.ofHeading h ∧ a.answersTo (decode h.encodedId) = true := by
    rw [hasAnchor_iff, ← or_assoc, ← hown]
    constructor
    · rintro ⟨-, a, ha, hans⟩
      by_cases hsame : a = Anchor.ofHeading h
      · exact .inl (hsame ▸ hans)
      · exact .inr ⟨a, ha, hsame, hans⟩
    · rintro (hans | ⟨a, ha, -, hans⟩)
      · exact ⟨hdecoded, _, hmem, hans⟩
      · exact ⟨hdecoded, a, ha, hans⟩
  refine ⟨(hasAnchor_iff ..).2 ⟨htext, _, hmem, ?_⟩, (hasAnchor_iff ..).2 ⟨hne, _, hmem, ?_⟩,
    fun hpercent => ?_, hiff⟩
  · exact (Anchor.answersTo_ofHeading_iff hid _).2 (.inl rfl)
  · exact (Anchor.answersTo_ofHeading_iff hid _).2 (.inr (.inr (.inl rfl)))
  · exact hiff.2 (.inl (Heading.decode_decode_encodedId_of_notMem hpercent))

/-- A document with a heading whose text holds an escape of an escape. -/
def escapes : Document := parse .standard "/" "/escapes.md" "# 100%25: a\n\n# %2541\n"

theorem hasAnchor_headingNames_escapes :
    let h : Heading := ⟨1, "100%25: a", 1⟩
    h ∈ escapes.headings ∧ escapes.hasAnchor "100%25: a" = true ∧
      escapes.hasAnchor "100%25%20a" = true ∧ decode "100%25%20a" = "100% a" ∧
      escapes.hasAnchor "100% a" = true := by
  intro h
  have hh : h ∈ escapes.headings := by decide +kernel
  have hid : explicitId h.text.toList = none := by decide +kernel
  have hencoded : h.encodedId = "100%25%20a" := by decide +kernel
  have hdecode : decode "100%25%20a" = "100% a" := by decide +kernel
  have hagain : decode "100% a" = "100% a" := by decide +kernel
  obtain ⟨htext, hown, -, hiff⟩ :=
    IsParsed.hasAnchor_headingNames ⟨_, _, _, _, rfl⟩ hh hid (by rw [hencoded]; decide)
  rw [hencoded, hdecode, hagain] at hiff
  exact ⟨hh, htext, hencoded ▸ hown, hdecode, hiff.2 (.inl rfl)⟩

/-- **The decoded form of an encoded id is not always a name**: here an escape is left in it. -/
theorem not_hasAnchor_headingNames :
    ¬ ∀ (d : Document) (h : Heading), d.IsParsed → h ∈ d.headings →
      explicitId h.text.toList = none → h.encodedId ≠ "" →
        d.hasAnchor h.text = true ∧ d.hasAnchor h.encodedId = true ∧
          d.hasAnchor (decode h.encodedId) = true := by
  intro hall
  have hh : (⟨1, "%2541", 3⟩ : Heading) ∈ escapes.headings := by decide +kernel
  have hnames := hall escapes ⟨1, "%2541", 3⟩ ⟨_, _, _, _, rfl⟩ hh (by decide +kernel)
    (by decide +kernel)
  have hmissing : escapes.hasAnchor (decode (Heading.encodedId ⟨1, "%2541", 3⟩)) = false := by
    decide +kernel
  rw [hmissing] at hnames
  exact absurd hnames.2.2 (by decide)

end Document

end Citations
