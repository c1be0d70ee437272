import TwoWaySql.Value.Text

/-!
# SQL literals

A dialect says how a value is written into SQL: the words for null and the truth values, and how a
text is quoted. Lists, pairs and triples become bracketed lists of their items, and a record is
quoted as its text.
-/

namespace TwoWaySql

structure Dialect where
  nullWord : String
  trueWord : String
  falseWord : String
  quote : String → String

/-- The text with every quote doubled. -/
def doubleQuotes : List Char → List Char
  | [] => []
  | c :: cs => if c = '\x27' then c :: c :: doubleQuotes cs else c :: doubleQuotes cs

/-- A text between single quotes, the quotes within it doubled. -/
def quoteText (s : String) : String :=
  String.ofList ('\x27' :: doubleQuotes s.toList ++ ['\x27'])

namespace Dialect

/-- Literals of standard SQL. -/
def generic : Dialect := ⟨"NULL", "TRUE", "FALSE", quoteText⟩

mutual

/-- The literal of a value. -/
def literal (d : Dialect) : Value → String
  | .null => d.nullWord
  | .bool b => if b then d.trueWord else d.falseWord
  | .int n => (Value.int n).text
  | .long n => (Value.long n).text
  | .float x => (Value.float x).text
  | .double x => (Value.double x).text
  | .decimal x => (Value.decimal x).text
  | .char c => d.quote c.toString
  | .string s => d.quote s
  | .list items => "(" ++ ", ".intercalate (literals d items) ++ ")"
  | .pair a b => "(" ++ ", ".intercalate [literal d a, literal d b] ++ ")"
  | .triple a b c => "(" ++ ", ".intercalate [literal d a, literal d b, literal d c] ++ ")"
  | .record fields => d.quote (Value.record fields).text

def literals (d : Dialect) : List Value → List String
  | [] => []
  | v :: vs => literal d v :: literals d vs

end

end Dialect

/-- How a bound value is written into SQL and into logs. -/
abbrev Formatter := BoundValue → String

/-- The formatter of a dialect; the declared type makes no difference. -/
def Dialect.formatter (d : Dialect) : Formatter := fun v => d.literal v.value

end TwoWaySql
