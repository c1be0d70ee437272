import TwoWaySql.Json.Basic
import TwoWaySql.Number.Shortest

/-!
# Writing JSON

Compact text has no blanks; indented text has one item or field per line, two spaces deeper than the
line that opens it. Numbers that are not finite are written as null.
-/

namespace TwoWaySql.Json

open Number

/-- Numbers have a point or an exponent, an exponent from `1e16` on and below `0.00001`. A tie
between two shortest texts goes to the even digit. -/
def numberText : FloatText := ⟨.even, some (-5, 15), ".0", "null", "null"⟩

example : (Binary.ofText? double "-1125899906842624.25").map numberText.write =
    some "-1125899906842624.2" := by decide +kernel

def hexChar (n : Nat) : Char := if n < 10 then Char.ofNat (n + 48) else Char.ofNat (n + 87)

/-- A character as it stands in a string. -/
def quotedChar (c : Char) : List Char :=
  if c = '"' then ['\\', '"']
  else if c = '\\' then ['\\', '\\']
  else if c = '\x08' then ['\\', 'b']
  else if c = '\t' then ['\\', 't']
  else if c = '\n' then ['\\', 'n']
  else if c = '\x0c' then ['\\', 'f']
  else if c = '\r' then ['\\', 'r']
  else if c.toNat < 0x20 then ['\\', 'u', '0', '0', hexChar (c.toNat / 16), hexChar (c.toNat % 16)]
  else [c]

def quoted (s : String) : String :=
  String.ofList ('"' :: s.toList.flatMap quotedChar ++ ['"'])

def realText {f : BinaryFormat} (x : Binary f) : String :=
  if x.isFinite then numberText.write x else "null"

/-- How items are set apart from each other and from their brackets. -/
inductive Layout where
  | compact
  /-- The items are indented to this level. -/
  | indented (level : Nat)

namespace Layout

/-- The layout of the items within an item. -/
def inner : Layout → Layout
  | compact => compact
  | indented level => indented (level + 1)

def newline : Layout → String
  | compact => ""
  | indented level => "\n" ++ String.ofList (List.replicate (2 * level) ' ')

def colon : Layout → String
  | compact => ":"
  | indented _ => ": "

/-- Items between brackets. -/
def brackets (l : Layout) (opening closing : String) (items : List String) : String :=
  if items.isEmpty then opening ++ closing
  else
    opening ++ l.inner.newline ++ ("," ++ l.inner.newline).intercalate items ++ l.newline ++ closing

end Layout

mutual

def write (l : Layout) : Json → String
  | null => "null"
  | bool b => if b then "true" else "false"
  | integer n => toString n
  | real x => realText x
  | string s => quoted s
  | array items => l.brackets "[" "]" (writeItems l.inner items)
  | object fields => l.brackets "\x7b" "\x7d" (writeFields l.inner fields)

def writeItems (l : Layout) : List Json → List String
  | [] => []
  | j :: js => write l j :: writeItems l js

def writeFields (l : Layout) : List (String × Json) → List String
  | [] => []
  | (name, j) :: fs => (quoted name ++ l.colon ++ write l j) :: writeFields l fs

end

def compact (j : Json) : String := write .compact j

def pretty (j : Json) : String := write (.indented 0) j

example : compact (array [integer 1, object [("a", null)], string "\n"]) =
    "[1,\x7b\"a\":null\x7d,\"\\n\"]" := by decide +kernel

end TwoWaySql.Json
