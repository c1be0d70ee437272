import TwoWaySql.Text.Numeric

/-!
# Words of SQL

A word is a run of letters, digits, `_`, `$`, `.` and `@`. Keywords are compared without regard to
the case of ASCII letters; no character outside ASCII is changed for it.
-/

namespace TwoWaySql.Text

def isWordPart (c : Char) : Bool :=
  isAlphanumeric c || c == '_' || c == '$' || c == '.' || c == '@'

/-- The text with its ASCII capitals in lower case. -/
def asciiLower (cs : List Char) : List Char := cs.map Char.toLower

/-- Whether a text is a keyword, which is given in lower case. -/
def isKeyword (keyword : String) (cs : List Char) : Bool := asciiLower cs == keyword.toList

example : isKeyword "union" "UniOn".toList ∧ ¬ isKeyword "minus" "mİnus".toList := by decide

end TwoWaySql.Text
