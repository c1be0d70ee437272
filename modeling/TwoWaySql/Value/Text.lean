import TwoWaySql.Number.Shortest
import TwoWaySql.Value.Basic

/-!
# The text of a value

The plain text of a value, without quotes: what embedded values, logs and messages show.
-/

namespace TwoWaySql

open Number (FloatText)

/-- Binary numbers are written with their shortest digits, a tie away from zero, never with an
exponent, and whole ones without a point. -/
def plainFloat : FloatText := ⟨.up, none, "", "NaN", "inf"⟩

example : (Number.Binary.ofText? Number.double "-1125899906842624.25").map plainFloat.write =
    some "-1125899906842624.3" := by decide +kernel

namespace Value

mutual

def text : Value → String
  | null => "null"
  | bool b => if b then "true" else "false"
  | int n => toString n.toInt
  | long n => toString n.toInt
  | float x => plainFloat.write x
  | double x => plainFloat.write x
  | decimal d => d.text
  | char c => c.toString
  | string s => s
  | list items => "[" ++ ", ".intercalate (itemTexts items) ++ "]"
  | pair a b => "(" ++ ", ".intercalate [a.text, b.text] ++ ")"
  | triple a b c => "(" ++ ", ".intercalate [a.text, b.text, c.text] ++ ")"
  | record fields => "\x7b" ++ ", ".intercalate (fieldTexts fields) ++ "\x7d"

def itemTexts : List Value → List String
  | [] => []
  | v :: vs => v.text :: itemTexts vs

def fieldTexts : List (String × Typed Value) → List String
  | [] => []
  | (name, ⟨v, _⟩) :: fs => (name ++ "=" ++ v.text) :: fieldTexts fs

end

example : (list [null, pair (int (-1)) (char 'x'), ofFields [("b", .of (bool true))]]).text =
    "[null, (-1, x), \x7bb=true\x7d]" := by decide +kernel

end Value

end TwoWaySql
