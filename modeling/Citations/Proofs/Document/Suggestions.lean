/-
**Which ids are suggested.**

The ids that are offered for one that a document does not have are the best of the ids that it
knows: no more than the limit, similar enough, the most similar ones first, and equally similar ones
in the order of the document.  Each of them can be used, as the document has an anchor that goes by
it.  An id that differs from the requested one in case only is as similar as can be, so one of that
kind comes first.

Main definitions:

* `Citations.Document.exactSimilarAnchors` — the suggestions in exact arithmetic.

Main results:

* `Citations.Document.mem_anchorIds_iff` — which ids a document knows;
* `Citations.Document.hasAnchor_of_mem_anchorIds` — a document has an anchor for each id it knows;
* `Citations.Document.similarAnchors_best` — **the suggestions are the best matches**;
* `Citations.Document.similarAnchors_mends_case` — **a slip of case is mended first**.
-/

import Citations.Document.Suggestion
import Citations.Proofs.Similarity.Exact
import Citations.Proofs.Similarity.Ranking

set_option relaxedAutoImplicit false
set_option autoImplicit false

namespace Citations.Document

open Text

variable {d : Document} {id : String}

/-! ### The ids that a document knows -/

theorem mem_idsOf {a : Anchor} :
    id ∈ idsOf a ↔ id = a.id ∨ ∃ encoded title, a.form = .header encoded title ∧ encoded ≠ "" ∧
      id = encoded := by
  unfold idsOf
  cases hform : a.form with
  | header encoded title =>
      by_cases hempty : encoded = ""
      · simp [hempty]
      · simp [hempty]
        grind
  | block highlight => simp

/-- **A document knows the ids of its anchors**, and of headings also the encoded ones. -/
theorem mem_anchorIds_iff :
    id ∈ d.anchorIds ↔ ∃ a ∈ d.anchors, id = a.id ∨ ∃ encoded title,
      a.form = .header encoded title ∧ encoded ≠ "" ∧ id = encoded := by
  simp only [anchorIds, List.mem_eraseDups, List.mem_flatMap, mem_idsOf]

theorem nodup_anchorIds (d : Document) : d.anchorIds.Nodup := nodup_distinct _

/-- **A document has an anchor for each id that it knows**, but for an empty one. -/
theorem hasAnchor_of_mem_anchorIds (h : id ∈ d.anchorIds) (hid : id ≠ "") :
    d.hasAnchor id = true := by
  obtain ⟨a, ha, rfl | ⟨encoded, title, hform, -, rfl⟩⟩ := mem_anchorIds_iff.1 h
  · exact hasAnchor_of_mem ha hid
  · rw [hasAnchor, Bool.and_eq_true, List.any_eq_true]
    refine ⟨bne_iff_ne.2 hid, a, ha, ?_⟩
    simp [Anchor.answersTo, hform]

/-! ### The best matches -/

/-- The ids that a document knows are ranked as they are. -/
theorem similarAnchors_eq_rankBy (d : Document) {policy : SuggestionPolicy} (name : String)
    (hlimit : 1 ≤ policy.limit) :
    d.similarAnchors policy name =
      rankBy (similarity name) policy.threshold.atMost d.anchorIds policy.limit.toNat := by
  have hnonneg : 0 ≤ policy.limit := Int.le_trans (by decide) hlimit
  rw [similarAnchors, ← rankSimilar_eq_rankBy, Int.toNat_of_nonneg hnonneg]

theorem selects_of_rankBy {α : Type} [LinearOrder α] (d : Document) (score : String → α)
    (enough : α → Bool) (limit : ℕ) :
    Selects score enough d.anchorIds limit (rankBy score enough d.anchorIds limit) := by
  have h := selects_rankBy score enough d.anchorIds limit
  rwa [distinct_of_nodup d.nodup_anchorIds] at h

/-- **The suggestions are the best matches**: of the ids that the document knows, those that are
similar enough, the most similar ones first and equally similar ones in their order, up to the
limit; what is left out comes behind all of them.  The document knows the ids of its anchors and the
encoded ones of headings, and has an anchor for each of them. -/
theorem similarAnchors_best (d : Document) (policy : SuggestionPolicy) (name : String)
    (hlimit : 1 ≤ policy.limit) :
    Selects (similarity name) policy.threshold.atMost d.anchorIds policy.limit.toNat
        (d.similarAnchors policy name) ∧
      (∀ id, id ∈ d.anchorIds ↔ ∃ a ∈ d.anchors, id = a.id ∨ ∃ encoded title,
        a.form = .header encoded title ∧ encoded ≠ "" ∧ id = encoded) ∧
      ∀ id ∈ d.similarAnchors policy name, id ≠ "" → d.hasAnchor id = true := by
  have hselects := d.selects_of_rankBy (similarity name) policy.threshold.atMost policy.limit.toNat
  rw [← d.similarAnchors_eq_rankBy name hlimit] at hselects
  exact ⟨hselects, fun id => mem_anchorIds_iff,
    fun id hid hne => hasAnchor_of_mem_anchorIds (hselects.known_of_mem id hid) hne⟩

/-- A document with two headings that differ in case only, and a third one. -/
def varied : Document := parse .standard "/" "/varied.md" "# Setup\n\n# setup\n\n# Sets\n"

/-- Zero admits every score. -/
theorem atMost_zero (units : ℕ) : (Binary64.finite false 0).atMost units = true :=
  decide_eq_true (Nat.zero_le units)

theorem similarAnchors_varied :
    varied.similarAnchors ⟨.finite false 0, 2⟩ "SETUP" = ["Setup", "setup"] := by
  rw [similarAnchors, rankSimilar, rankedAbove, List.mergeSort_of_pairwise (by decide +kernel)]
  decide +kernel

theorem similarAnchors_best_varied :
    (1 : Int) ≤ 2 ∧ varied.similarAnchors ⟨.finite false 0, 2⟩ "SETUP" = ["Setup", "setup"] ∧
      varied.hasAnchor "setup" = true ∧
      Precedes (similarity "SETUP") varied.anchorIds "setup" "Sets" := by
  obtain ⟨hselects, -, hfound⟩ :=
    similarAnchors_best varied ⟨.finite false 0, 2⟩ "SETUP" (by decide)
  rw [similarAnchors_varied] at hselects hfound
  obtain ⟨-, hbehind⟩ := hselects.left_out "Sets" (by decide +kernel)
    (atMost_zero _) (by decide)
  exact ⟨by decide, similarAnchors_varied, hfound "setup" (by decide) (by decide),
    hbehind "setup" (by decide)⟩

/-! ### Slips of case -/

/-- The suggestions in exact arithmetic: as they are, but for the rounding of similarities. -/
def exactSimilarAnchors (d : Document) (threshold : ℚ) (limit : ℕ) (name : String) : List String :=
  rankBy (exactSimilarity name) (fun score => threshold ≤ score) d.anchorIds limit

/-- **A slip of case is mended first.**  Where an id that the document knows is the requested one
but for case, the first suggestion is one of that kind.  This is so in exact arithmetic for texts of
any length; the similarity of two texts is then between zero and one, and it is one for a text that
is not empty exactly if the other one is equal but for case.  What is computed is this quotient,
rounded: the first suggestion has similarity one, and it is equal but for case if both texts
together are shorter than 2 to the power 54. -/
theorem similarAnchors_mends_case (d : Document) (policy : SuggestionPolicy) (name : String)
    (hthreshold : policy.threshold.atMost Binary64.one = true) (hlimit : 1 ≤ policy.limit)
    (hname : name ≠ "") (hknown : ∃ id ∈ d.anchorIds, lower id.toList = lower name.toList) :
    (∀ threshold : ℚ, threshold ≤ 1 →
      ∃ first, (d.exactSimilarAnchors threshold policy.limit.toNat name).head? = some first ∧
        lower first.toList = lower name.toList) ∧
      (∃ first, (d.similarAnchors policy name).head? = some first ∧
        similarity name first = Binary64.one ∧
        ((lower name.toList).length + (lower first.toList).length < 2 ^ 54 →
          lower first.toList = lower name.toList)) ∧
      ∀ a b : String, 0 ≤ exactSimilarity a b ∧ exactSimilarity a b ≤ 1 ∧
        (a ≠ "" → (exactSimilarity a b = 1 ↔ lower a.toList = lower b.toList)) ∧
        ∃ num den : ℕ, 0 < den ∧ exactSimilarity a b = num / den ∧
          similarity a b = Binary64.ofRatio num den := by
  obtain ⟨id, hid, hlower⟩ := hknown
  have hpos : 0 < policy.limit.toNat := by omega
  refine ⟨fun threshold hle => ?_, ?_, fun a b => ⟨exactSimilarity_nonneg a b,
    exactSimilarity_le_one a b, fun ha => exactSimilarity_eq_one_iff ha, ?_⟩⟩
  · have hone : exactSimilarity name id = 1 := (exactSimilarity_eq_one_iff hname).2 hlower.symm
    obtain ⟨first, hfirst, hscore⟩ := (d.selects_of_rankBy (exactSimilarity name)
      (fun score => threshold ≤ score) policy.limit.toNat).head_score hpos hid
      (by simpa [hone] using hle)
    rw [hone] at hscore
    exact ⟨first, hfirst, ((exactSimilarity_eq_one_iff hname).1
      ((exactSimilarity_le_one name first).antisymm hscore)).symm⟩
  · have hne : id ≠ "" := by
      rintro rfl
      exact absurd hlower.symm (List.ne_nil_of_length_pos (length_lower_pos hname))
    have hone : similarity name id = Binary64.one := similarity_of_lower_eq hname hne hlower.symm
    obtain ⟨first, hfirst, hscore⟩ := (d.selects_of_rankBy (similarity name)
      policy.threshold.atMost policy.limit.toNat).head_score hpos hid (hone ▸ hthreshold)
    rw [hone] at hscore
    have hbest : similarity name first = Binary64.one :=
      (similarity_le_one name first).antisymm hscore
    rw [d.similarAnchors_eq_rankBy name hlimit]
    exact ⟨first, hfirst, hbest, fun hlength =>
      (lower_eq_of_similarity hname hbest hlength).symm⟩
  · obtain ⟨num, den, -, hden, hexact, hround⟩ := exists_quotient a b
    exact ⟨num, den, hden, hexact, hround⟩

theorem similarAnchors_mends_case_varied :
    (∃ id ∈ varied.anchorIds, lower id.toList = lower "SETUP".toList) ∧
      ∃ first, (varied.similarAnchors ⟨.finite false 0, 2⟩ "SETUP").head? = some first ∧
        first = "Setup" ∧ lower first.toList = lower "SETUP".toList := by
  have hknown : ∃ id ∈ varied.anchorIds, lower id.toList = lower "SETUP".toList := by
    decide +kernel
  obtain ⟨-, ⟨first, hfirst, -, hlower⟩, -⟩ := similarAnchors_mends_case varied
    ⟨.finite false 0, 2⟩ "SETUP" (atMost_zero _) (by decide) (by decide) hknown
  obtain rfl : first = "Setup" := by simpa [similarAnchors_varied] using hfirst.symm
  exact ⟨hknown, _, hfirst, rfl, hlower (by decide +kernel)⟩

end Citations.Document
