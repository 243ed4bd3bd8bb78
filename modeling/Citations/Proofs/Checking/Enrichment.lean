/-
**Checking a document adds verdicts and nothing else.**

Whatever is wrong with a link is said in its verdict: there is one for each link, and the links stay
what they are.  As long as no path holds a null character, a single thing can keep a document from
being checked, once it has been read: that a file must be looked for by name in a scope that cannot
be listed, since some path in it is too long.

Main definitions:

* `Citations.Checking.Enriches` — links with verdicts, and otherwise the same.

Main results:

* `Citations.Session.run_each_checkOf` — what comes of the links of a document, one after another;
* `Citations.Session.validate_enriches` — **the links of a document come with verdicts**, unless the
  scope cannot be listed;
* `Citations.Session.not_validate_enriches` — that exception cannot be left out.
-/

import Citations.Proofs.Checking.Failing
import Citations.Summary

set_option relaxedAutoImplicit false
set_option autoImplicit false

namespace Citations

namespace Checking

/-! ### Verdicts for all links -/

/-- Links with verdicts, and otherwise the same, one for each of the given links in order. -/
def Enriches (links enriched : List Link) : Prop :=
  List.Forall₂ (fun l l' => ∃ v, l' = { l with verdict := some v }) links enriched

/-- The links come with their verdicts, unless there is no verdict on one of them. -/
theorem enrich_cases {ls : List Link} {rs : List (Except SearchFailure Verdict)}
    (hlength : rs.length = ls.length) :
    (∃ enriched, enrich ls rs = .ok enriched ∧ Enriches ls enriched) ∨
      ∃ e, .error e ∈ rs ∧ enrich ls rs = .error e := by
  induction ls generalizing rs with
  | nil =>
      cases rs with
      | nil => exact .inl ⟨[], rfl, .nil⟩
      | cons r rs => cases hlength
  | cons l ls ih =>
      cases rs with
      | nil => cases hlength
      | cons r rs =>
          cases r with
          | error e => exact .inr ⟨e, List.mem_cons_self .., enrich_cons_error l e ls rs⟩
          | ok v =>
              rw [enrich_cons_ok]
              rcases ih (by simpa using hlength) with ⟨enriched, henrich, h⟩ | ⟨e, he, henrich⟩
              · exact .inl ⟨_, by rw [henrich]; rfl, .cons ⟨v, rfl⟩ h⟩
              · exact .inr ⟨e, List.mem_cons_of_mem _ he, by rw [henrich]; rfl⟩

theorem Enriches.isSome_verdict {links enriched : List Link} (h : Enriches links enriched) :
    ∀ l ∈ enriched, l.verdict.isSome := by
  induction h with
  | nil => simp
  | cons hl _ ih =>
      intro l hmem
      rcases List.mem_cons.1 hmem with rfl | hmem
      · obtain ⟨v, rfl⟩ := hl
        rfl
      · exact ih l hmem

/-- Where links come with their verdicts, the verdicts add up to the number of links. -/
theorem Enriches.summary {links enriched : List Link} (h : Enriches links enriched) :
    (Summary.ofLinks enriched).valid + (Summary.ofLinks enriched).warning +
        (Summary.ofLinks enriched).error = (Summary.ofLinks enriched).total ∧
      (Summary.ofLinks enriched).total = links.length := by
  exact ⟨Summary.ofLinks_total h.isSome_verdict, (List.Forall₂.length_eq h).symm⟩

end Checking

namespace Session

open Checking

variable {s : Session} {t : FileTree} {path : String} {d : Document} {policy : SuggestionPolicy}

/-! ### One link after another -/

theorem run_each_cons {α β : Type} (ask : α → Inquiry β) (a : α) (as : List α) :
    (s.run t (.each ask (a :: as))).2 =
      (s.run t (ask a)).2 :: ((s.run t (ask a)).1.run t (.each ask as)).2 := by
  rw [Inquiry.each, run_bind, run_bind]
  rfl

theorem run_checkOf_error {l : Link} (h : IsSoughtByName t l) {e : SearchFailure}
    (he : s.listingFailure? t = some e) : (s.run t (checkOf t policy d l)).2 = .error e := by
  obtain ⟨target, hl, hdirect⟩ := h
  unfold checkOf
  rw [hl]
  dsimp only
  rw [run_acrossDocuments_eq, run_target_of_not_direct hdirect, find_eq_error he]
  rfl

/-- What comes of links without null characters, one after another: the first that is looked for by
name can fail, for want of a list of the scope. -/
theorem run_each_checkOf {links : List Link} (hs : s.IsNullFree t links)
    (policy : SuggestionPolicy) (d : Document) :
    ((s.listingFailure? t = none ∨ ∀ l ∈ links, ¬ IsSoughtByName t l) ∧
      ∃ enriched, enrich links (s.run t (.each (checkOf t policy d) links)).2 = .ok enriched ∧
        Enriches links enriched) ∨
    ∃ e, s.listingFailure? t = some e ∧ (∃ l ∈ links, IsSoughtByName t l) ∧
      enrich links (s.run t (.each (checkOf t policy d) links)).2 = .error e := by
  induction links generalizing s with
  | nil => exact .inl ⟨.inr (by simp), [], rfl, .nil⟩
  | cons l links ih =>
      have hl : l ∈ l :: links := List.mem_cons_self ..
      have hrun := hs.run (checkOf t policy d l)
      have hrest : IsNullFree t (s.run t (checkOf t policy d l)).1 links :=
        ⟨hrun.tree, hrun.scope, hrun.index, fun l hl => hrun.links l (List.mem_cons_of_mem _ hl)⟩
      rw [run_each_cons]
      by_cases hsought : IsSoughtByName t l
      · cases he : s.listingFailure? t with
        | some e =>
            refine .inr ⟨e, rfl, ⟨l, hl, hsought⟩, ?_⟩
            rw [run_checkOf_error hsought he, enrich_cons_error]
        | none =>
            obtain ⟨v, hv⟩ := hs.exists_verdict he policy d hl
            -- once the scope is listed, the rest cannot fail
            rcases ih hrest with ⟨-, enriched, henrich, h⟩ | ⟨e, he', -, -⟩
            · refine .inl ⟨.inl rfl, { l with verdict := some v } :: enriched, ?_,
                .cons ⟨v, rfl⟩ h⟩
              rw [hv, enrich_cons_ok, henrich]
              rfl
            · rw [listingFailure?_run he] at he'
              cases he'
      · obtain ⟨v, hv⟩ := hs.exists_verdict_of_not_isSoughtByName policy d hl hsought
        -- the list of the scope stays as it is
        have hlisting : (s.run t (checkOf t policy d l)).1.listingFailure? t =
            s.listingFailure? t := by
          rw [listingFailure?, finder_run (asksDocuments_checkOf policy d hsought)]
          rfl
        rw [hv, enrich_cons_ok]
        rcases ih hrest with
          ⟨hcond, enriched, henrich, h⟩ | ⟨e, he, ⟨other, hother, hnamed⟩, henrich⟩
        · rw [hlisting] at hcond
          refine .inl ⟨hcond.imp_right fun hlinks => ?_,
            { l with verdict := some v } :: enriched, ?_, .cons ⟨v, rfl⟩ h⟩
          · simpa [hsought] using hlinks
          · rw [henrich]
            rfl
        · rw [hlisting] at he
          refine .inr ⟨e, he, ⟨other, List.mem_cons_of_mem _ hother, hnamed⟩, ?_⟩
          rw [henrich]
          rfl

/-- A link that came with a verdict was checked in a session with all that its checks keep true. -/
theorem exists_run_of_mem_enrich {Inv : Session → Prop}
    (hinv : ∀ s l, Inv s → Inv (s.run t (checkOf t policy d l)).1) {links enriched : List Link}
    (hs : Inv s)
    (h : enrich links (s.run t (.each (checkOf t policy d) links)).2 = .ok enriched) {l : Link}
    (hl : l ∈ enriched) :
    ∃ l₀ ∈ links, ∃ s' v, Inv s' ∧ (s'.run t (checkOf t policy d l₀)).2 = .ok v ∧
      l = { l₀ with verdict := some v } := by
  induction links generalizing s enriched with
  | nil =>
      cases h
      cases hl
  | cons l₀ links ih =>
      rw [run_each_cons] at h
      cases hv : (s.run t (checkOf t policy d l₀)).2 with
      | error e =>
          rw [hv, enrich_cons_error] at h
          cases h
      | ok v =>
          rw [hv, enrich_cons_ok] at h
          cases hrest : enrich links ((s.run t (checkOf t policy d l₀)).1.run t
              (.each (checkOf t policy d) links)).2 with
          | error e =>
              rw [hrest] at h
              cases h
          | ok rest =>
              rw [hrest] at h
              cases h
              rcases List.mem_cons.1 hl with rfl | hl
              · exact ⟨l₀, List.mem_cons_self .., s, v, hs, hv, rfl⟩
              · obtain ⟨l₁, hl₁, hchecked⟩ := ih (hinv s l₀ hs) hrest hl
                exact ⟨l₁, List.mem_cons_of_mem _ hl₁, hchecked⟩

/-! ### All links of a document -/

theorem run_checkAll_snd :
    (s.run t (checkAll t policy d)).2 =
      enrich d.links (s.run t (.each (checkOf t policy d) d.links)).2 :=
  congrArg Prod.snd (run_bind t s (.each (checkOf t policy d) d.links) _)

/-- What comes of checking a document that can be read. -/
theorem validate_snd (hfile : t.isFile path = true) (hd : (s.document t path).2 = .ok d) :
    (s.validate t path).2 =
      ((s.document t path).1.run t (checkAll t s.policy d)).2.mapError .search := by
  have hpolicy : (s.document t path).1.policy = s.policy := rfl
  unfold validate
  rw [if_pos hfile]
  cases hdocument : s.document t path with
  | mk s' r =>
      rw [hdocument] at hd hpolicy
      cases hd
      dsimp only
      rw [hpolicy]

/-- A document that cannot be read is not checked. -/
theorem validate_snd_of_unreadable (hfile : t.isFile path = true) {e : ReadFailure}
    (hd : (s.document t path).2 = .error e) : (s.validate t path).2 = .error (.unreadable e) := by
  have hpair : s.document t path = ((s.document t path).1, .error e) := by rw [← hd]
  rw [validate, if_pos hfile, hpair]

/-- Only a document that can be read is checked. -/
theorem exists_document_of_validate {ls : List Link} (h : (s.validate t path).2 = .ok ls) :
    ∃ d, (s.document t path).2 = .ok d ∧
      enrich d.links ((s.document t path).1.run t (.each (checkOf t s.policy d) d.links)).2 =
        .ok ls := by
  cases hfile : t.isFile path with
  | false =>
      rw [validate, if_neg (by simp [hfile])] at h
      cases h
  | true =>
      cases hd : (s.document t path).2 with
      | error e =>
          rw [validate_snd_of_unreadable hfile hd] at h
          cases h
      | ok d =>
          refine ⟨d, rfl, ?_⟩
          rw [validate_snd hfile hd, run_checkAll_snd] at h
          cases hrs : enrich d.links
              ((s.document t path).1.run t (.each (checkOf t s.policy d) d.links)).2 with
          | error e =>
              rw [hrs] at h
              cases h
          | ok ls' =>
              rw [hrs] at h
              cases h
              rfl

/-- **The links of a document come with verdicts**, one for each and otherwise the same, unless some
link is looked for by name and the scope cannot be listed, since a path in it is too long.  If the
scope need not be listed in vain, it is the same whichever way the checks take turns. -/
theorem validate_enriches (hs : s.IsNullFree t d.links) (hfile : t.isFile path = true)
    (hd : (s.document t path).2 = .ok d) :
    ((∃ ls, (s.validate t path).2 = .ok ls ∧ Enriches d.links ls ∧
        (Summary.ofLinks ls).valid + (Summary.ofLinks ls).warning + (Summary.ofLinks ls).error =
          (Summary.ofLinks ls).total ∧
        (Summary.ofLinks ls).total = d.links.length ∧
        (s.listingFailure? t = none ∨ ∀ l ∈ d.links, ¬ IsSoughtByName t l)) ∨
      ∃ long, (s.validate t path).2 = .error (.search (.tooLong long)) ∧
        s.listingFailure? t = some (.tooLong long) ∧ ∃ l ∈ d.links, IsSoughtByName t l) ∧
    (s.listingFailure? t = none → ∀ c rs,
      Concurrent.Reachable t (Concurrent.checkingOf t (s.document t path).1 d) c →
        c.answers? = some rs → ∃ ls, enrich d.links rs = .ok ls ∧ Enriches d.links ls) := by
  have hread : IsNullFree t (s.document t path).1 d.links := hs.document path
  constructor
  · rw [validate_snd hfile hd, run_checkAll_snd]
    have hlisting : (s.document t path).1.listingFailure? t = s.listingFailure? t := rfl
    rcases run_each_checkOf hread s.policy d with
      ⟨hcond, ls, henrich, h⟩ | ⟨e, he, hsought, henrich⟩
    · rw [henrich]
      exact .inl ⟨ls, rfl, h, h.summary.1, h.summary.2, hcond⟩
    · rw [henrich]
      rw [hlisting] at he
      obtain ⟨long, rfl⟩ := hs.exists_tooLong_of_listingFailure? he
      exact .inr ⟨long, rfl, he, hsought⟩
  · intro hlisting c rs hreach hrs
    have hsure : ∀ q ∈ d.links.map (checkOf t (s.document t path).1.policy d),
        q.Ensures (NamedNullFree s.finder.isSome) fun r => ∃ v, r = .ok v := by
      intro q hq
      obtain ⟨l, hl, rfl⟩ := List.mem_map.1 hq
      exact (hs.links l hl).ensures_checkOf hs.tree.links _ d
    have hnames := hread.answersNames hlisting
    have ⟨hlength, hall⟩ := Concurrent.ensures_of_answers? hnames hsure hreach hrs
    rw [List.length_map] at hlength
    rcases enrich_cases hlength with henriches | ⟨e, he, -⟩
    · exact henriches
    · obtain ⟨v, hv⟩ := hall _ he
      cases hv

/-- Two directories, one of which holds a link that cannot be followed; `scope` leads to
`chosen`. -/
def library (chosen : String) : FileTree where
  cwd := []
  nodes := [(["one"], .directory), (["one", "a.md"], .file []), (["two"], .directory),
    (["two", "t.md"], .link (String.ofList (List.replicate 256 'a'))), (["scope"], .link chosen),
    (["s.md"], .file "[x](gone.md)\n".toUTF8.toList)]

/-- A session that lists `one`. -/
def librarySession : Session :=
  start (library "one") .standard ⟨.finite false 0, 5⟩ (some "/scope")

theorem isNullFree_library : (library "one").IsNullFree where
  cwd := fun name h => by cases h
  names := by decide +kernel
  links := by decide +kernel

/-- A link to a file that is not there has a verdict. -/
theorem validate_enriches_library :
    ∃ d ls, (librarySession.document (library "one") "/s.md").2 = .ok d ∧
      librarySession.IsNullFree (library "one") d.links ∧
      (librarySession.validate (library "one") "/s.md").2 = .ok ls ∧ Enriches d.links ls ∧
        (Summary.ofLinks ls).total = 1 := by
  have hfile : (library "one").isFile "/s.md" = true := by decide +kernel
  have hlinks : ((librarySession.document (library "one") "/s.md").2.toOption.map
      fun d => (d.links.length, d.links.all fun l => decide (l.IsNullFree true))) =
        some (1, true) := by
    decide +kernel
  have hindex : librarySession.finder.map (fun f => (f.scope, f.index.files)) =
      some ("/scope", [⟨"a.md", "/scope/a.md"⟩]) := by decide +kernel
  have hlisting : librarySession.listingFailure? (library "one") = none := by decide +kernel
  cases hd : (librarySession.document (library "one") "/s.md").2 with
  | error e =>
      rw [hd] at hlinks
      cases hlinks
  | ok d =>
      rw [hd] at hlinks
      obtain ⟨hlength, hfree⟩ := Prod.mk.inj (Option.some.inj hlinks)
      have hs : librarySession.IsNullFree (library "one") d.links := by
        refine ⟨isNullFree_library, fun f hf => ?_, fun f hf => ?_, fun l hl => ?_⟩
        · rw [hf] at hindex
          rw [(Prod.mk.inj (Option.some.inj hindex)).1]
          decide
        · rw [hf] at hindex
          intro file hfile
          rw [(Prod.mk.inj (Option.some.inj hindex)).2, List.mem_singleton] at hfile
          subst hfile
          decide
        · exact of_decide_eq_true (List.all_eq_true.1 hfree l hl)
      rcases (validate_enriches hs hfile hd).1 with ⟨ls, hls, h, -, htotal, -⟩ | ⟨long, -, he, -⟩
      · exact ⟨d, ls, rfl, hs, hls, h, htotal.trans hlength⟩
      · rw [hlisting] at he
        cases he

/-- **A document that can be read is not always checked**: a session that has listed `one` fails
when `scope` comes to lead to `two`. -/
theorem not_validate_enriches :
    ¬ ∀ (s : Session) (t : FileTree) (path : String) (d : Document), t.isFile path = true →
      (s.document t path).2 = .ok d → ∃ ls, (s.validate t path).2 = .ok ls := by
  intro h
  have hfile : (library "two").isFile "/s.md" = true := by decide +kernel
  have hfails : (librarySession.validate (library "two") "/s.md").2 =
      .error (.search (.tooLong "/two/t.md")) := by decide +kernel
  cases hd : (librarySession.document (library "two") "/s.md").2 with
  | error e =>
      rw [validate_snd_of_unreadable hfile hd] at hfails
      cases hfails
  | ok d =>
      obtain ⟨ls, hls⟩ := h librarySession (library "two") "/s.md" d hfile hd
      rw [hfails] at hls
      cases hls

end Session

end Citations
