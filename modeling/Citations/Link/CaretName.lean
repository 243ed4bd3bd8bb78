/-
**Names behind a caret.**

A caret on its own cites a requirement, a story, a task or a block by a name, and only names of a
few forms count: `FR1`, `US1-1AC1`, `US1-4bT1-1`, `NFR2`, `MVP-P1` and `black-box-interfaces`.

Main definitions:

* `Citations.CaretName.isStory`, `Citations.CaretName.isNumbered`, `Citations.CaretName.isPriority`,
  `Citations.CaretName.isKebab` — the four forms;
* `Citations.CaretName.isWellFormed` — whether a name has one of them.
-/

set_option relaxedAutoImplicit false
set_option autoImplicit false

namespace Citations.CaretName

/-- What is left of a text behind the number that it starts with. -/
def afterNumber? (cs : List Char) : Option (List Char) :=
  if (cs.takeWhile Char.isDigit).isEmpty then none else some (cs.dropWhile Char.isDigit)

/-- Whether a text is a number. -/
def isNumber (cs : List Char) : Bool := afterNumber? cs == some []

/-- Whether a text is nothing, a criterion such as `AC1`, or a task such as `T1` or `T1-1`. -/
def isDetail : List Char → Bool
  | [] => true
  | 'A' :: 'C' :: cs => isNumber cs
  | 'T' :: cs =>
      match afterNumber? cs with
      | some [] => true
      | some ('-' :: sub) => isNumber sub
      | _ => false
  | _ => false

/-- Whether a text is nothing or an item such as `-1`, `-4b` or `-4bT1-1`. -/
def isItem : List Char → Bool
  | [] => true
  | '-' :: cs =>
      match afterNumber? cs with
      | some (c :: rest) => if c.isLower then isDetail rest else isDetail (c :: rest)
      | some [] => true
      | none => false
  | _ => false

/-- Whether a name is two or three letters and a number, with or without an item. -/
def isStory (cs : List Char) : Bool :=
  let letters := (cs.takeWhile Char.isAlpha).length
  2 ≤ letters && letters ≤ 3 && (afterNumber? (cs.dropWhile Char.isAlpha)).any isItem

/-- Whether a name is letters and a number. -/
def isNumbered (cs : List Char) : Bool :=
  !(cs.takeWhile Char.isAlpha).isEmpty && isNumber (cs.dropWhile Char.isAlpha)

/-- Whether a name is a priority such as `MVP-P1`. -/
def isPriority (cs : List Char) : Bool := "MVP-P".toList.isPrefixOf cs && isNumber (cs.drop 5)

/-- Whether a name is at least three small letters, digits and hyphens that start with a letter and
do not end with a hyphen. -/
def isKebab (cs : List Char) : Bool :=
  3 ≤ cs.length && cs.all (fun c => c.isLower || c.isDigit || c == '-') &&
    cs.head?.any Char.isLower && cs.getLast?.any (· != '-')

/-- **Whether a name has one of the four forms.** -/
def isWellFormed (cs : List Char) : Bool :=
  isStory cs || isNumbered cs || isPriority cs || isKebab cs

/-- Names that show the forms. -/
def examples : List String :=
  ["^FR1", "^US1-1AC1", "^US1-4bT1-1", "^NFR2", "^MVP-P1", "^black-box-interfaces"]

example : (examples.all fun s => isWellFormed (s.toList.drop 1)) = true := by decide

end Citations.CaretName
