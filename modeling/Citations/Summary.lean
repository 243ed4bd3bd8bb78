/-
**Counting verdicts.**

Main definitions:

* `Citations.Summary` — how many links there are, and how many of each verdict;
* `Citations.Summary.ofLinks` — the summary of a list of links.

Main results:

* `Citations.Summary.ofLinks_total` — **where every link has a verdict, the verdicts add up to the
  number of links.**
-/

import Citations.Link.Basic

set_option relaxedAutoImplicit false
set_option autoImplicit false

namespace Citations

/-- How many links there are, and how many of each verdict. -/
structure Summary where
  total : Nat
  valid : Nat
  warning : Nat
  error : Nat
  deriving DecidableEq

/-- Whether a verdict finds nothing wrong. -/
def Verdict.isValid : Verdict → Bool
  | .valid _ => true
  | _ => false

/-- Whether a verdict finds the target in the wrong place. -/
def Verdict.isWarning : Verdict → Bool
  | .warning .. => true
  | _ => false

/-- Whether a verdict finds no target. -/
def Verdict.isError : Verdict → Bool
  | .error .. => true
  | _ => false

/-- **The summary of a list of links**; a link without a verdict counts towards the total only. -/
def Summary.ofLinks (ls : List Link) : Summary where
  total := ls.length
  valid := ls.countP fun l => l.verdict.any Verdict.isValid
  warning := ls.countP fun l => l.verdict.any Verdict.isWarning
  error := ls.countP fun l => l.verdict.any Verdict.isError

/-- Where every link has a verdict, the verdicts add up to the number of links. -/
theorem Summary.ofLinks_total {ls : List Link} (h : ∀ l ∈ ls, l.verdict.isSome) :
    (ofLinks ls).valid + (ofLinks ls).warning + (ofLinks ls).error = (ofLinks ls).total := by
  induction ls with
  | nil => rfl
  | cons l ls ih =>
      have hl := h l (List.mem_cons_self ..)
      have := ih fun x hx => h x (List.mem_cons_of_mem _ hx)
      obtain ⟨v, hv⟩ := Option.isSome_iff_exists.1 hl
      simp only [ofLinks, List.countP_cons, List.length_cons, hv] at this ⊢
      cases v <;> simp [Verdict.isValid, Verdict.isWarning, Verdict.isError] <;> omega

end Citations
