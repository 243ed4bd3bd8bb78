/-
**Faults of a configuration file.**

Most faults of a text in YAML 1.1 lie in its form.  Some texts are well formed and still have no
content, because a scalar looks like a number or a date and is none; then an exception is raised.

Main definitions:

* `Citations.Raised` — an exception;
* `Citations.Yaml.Refusal` — why a reader of files gives no content;
* `Citations.Yaml.Fault` — why a text has no content by the rules of the format.
-/

import Citations.Calendar
import Citations.Text.Digit

set_option relaxedAutoImplicit false
set_option autoImplicit false

namespace Citations

/-- An exception: the name of its kind, its words, and whether it is among those for values that are
not acceptable, which are caught where others are not. -/
structure Raised where
  kind : String
  message : String
  isValueError : Bool
  deriving DecidableEq

namespace Yaml

/-- Why a reader of files gives no content. -/
inductive Refusal where
  /-- The text breaks the rules of the format. -/
  | malformed
  /-- An exception is raised. -/
  | raised (e : Raised)
  deriving DecidableEq

/-- Why a text has no content. -/
inductive Fault where
  /-- It breaks the rules of the format. -/
  | malformed
  /-- An integer of the given base has no digits. -/
  | noDigits (base : Nat)
  /-- An integer has too many digits. -/
  | tooLong (numeral : Text.LongNumeral)
  /-- A date or a time does not exist. -/
  | date (fault : Calendar.Fault)
  /-- The number of an escape is that of no character. -/
  | noCharacter
  /-- The number of an escape takes more than 31 bits. -/
  | wideEscape
  deriving DecidableEq

/-- How a fault shows. -/
def Fault.refusal : Fault → Refusal
  | .malformed => .malformed
  | .noDigits base => .raised
      ⟨"ValueError", "invalid literal for int() with base " ++ toString base ++ ": " ++ "''", true⟩
  | .tooLong e => .raised ⟨"ValueError", e.message, true⟩
  | .date e => .raised ⟨"ValueError", e.message, true⟩
  | .noCharacter => .raised ⟨"ValueError", "chr() arg not in range(0x110000)", true⟩
  | .wideEscape => .raised ⟨"OverflowError", "Python int too large to convert to C int", false⟩

end Yaml

end Citations
