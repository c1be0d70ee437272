import TwoWaySql.Json.Basic
import TwoWaySql.Number.Numeral

/-!
# Tokens of JSON

A number out of range and a string with half of a surrogate pair are tokens, marked as unsound:
where a value is only passed over they do no harm.
-/

namespace TwoWaySql.Json

open Number

inductive Token where
  | openArray
  | closeArray
  | openObject
  | closeObject
  | comma
  | colon
  | null
  | true
  | false
  | string (s : String) (sound : Bool)
  | number (value : Json) (sound : Bool)

def hexDigit? (c : Char) : Option Nat :=
  if c.isDigit then some (digitValue c)
  else if 'a' ≤ c ∧ c ≤ 'f' then some (c.toNat - 'a'.toNat + 10)
  else if 'A' ≤ c ∧ c ≤ 'F' then some (c.toNat - 'A'.toNat + 10)
  else none

/-- The number that four hexadecimal digits stand for. -/
def hex? (a b c d : Char) : Option Nat := do
  return (((← hexDigit? a) * 16 + (← hexDigit? b)) * 16 + (← hexDigit? c)) * 16 + (← hexDigit? d)

/-- The character of an escape of one letter. -/
def escaped? : Char → Option Char
  | '"' => some '"'
  | '\\' => some '\\'
  | '/' => some '/'
  | 'b' => some '\x08'
  | 'f' => some '\x0c'
  | 'n' => some '\n'
  | 'r' => some '\r'
  | 't' => some '\t'
  | _ => none

/-- One code unit of a string, or its end. -/
inductive StringPart where
  | char (c : Char)
  /-- A code unit of UTF-16, from an escape. -/
  | unit (n : Nat)
  | stop

/-- The next part of a string, and the number of characters after the first that it takes. -/
def stringPart? (c : Char) (cs : List Char) : Option (StringPart × Nat) :=
  if c = '"' then some (.stop, 0)
  else if c = '\\' then
    match cs with
    | 'u' :: a :: b :: c :: d :: _ => (hex? a b c d).map fun n => (.unit n, 5)
    | e :: _ => (escaped? e).map fun c => (.char c, 1)
    | [] => none
  else if c.toNat < 0x20 then none
  else some (.char c, 0)

/-- The parts of a string up to its end, and what follows it. -/
def stringParts? : List Char → Option (List StringPart × List Char)
  | [] => none
  | c :: cs =>
    match stringPart? c cs with
    | none => none
    | some (.stop, _) => some ([], cs)
    | some (part, length) =>
      (stringParts? (cs.drop length)).map fun (parts, rest) => (part :: parts, rest)
termination_by cs => cs.length
decreasing_by simp only [List.length_cons, List.length_drop]; omega

/-- The text of the parts of a string, and whether its surrogates come in pairs. -/
def joinParts : List StringPart → List Char × Bool
  | [] => ([], Bool.true)
  | .unit h :: .unit l :: parts =>
    if 0xd800 ≤ h ∧ h < 0xdc00 ∧ 0xdc00 ≤ l ∧ l < 0xe000 then
      let (cs, sound) := joinParts parts
      (Char.ofNat (0x10000 + (h - 0xd800) * 0x400 + (l - 0xdc00)) :: cs, sound)
    else
      let (cs, sound) := joinParts (.unit l :: parts)
      (Char.ofNat h :: cs, sound && (Char.ofNat h).toNat == h)
  | .unit n :: parts =>
    let (cs, sound) := joinParts parts
    (Char.ofNat n :: cs, sound && (Char.ofNat n).toNat == n)
  | .char c :: parts =>
    let (cs, sound) := joinParts parts
    (c :: cs, sound)
  | .stop :: parts => joinParts parts

/-- Whether the digits are those of a whole number without a needless zero. -/
def isWhole : List Char → Bool
  | [] => Bool.false
  | ['0'] => Bool.true
  | c :: _ => c != '0'

/-- The number that a text starts with, and what follows it. -/
def number? (cs : List Char) : Option (Token × List Char) := do
  let (n, rest) := Numeral.read cs
  let afterSign := (Numeral.readSign cs).2
  let afterWhole := afterSign.dropWhile Char.isDigit
  if !isWhole n.whole then none
  if afterWhole.head? = some '.' ∧ n.fraction = [] then none
  if rest.head? = some 'e' ∨ rest.head? = some 'E' then none
  let exact := n.toInt
  let ends := afterWhole.head?.all fun c => c != '.' && c != 'e' && c != 'E'
  let inRange :=
    Int64.minValue.toInt ≤ exact ∧ exact < UInt64.size ∧ ¬ (n.negative ∧ exact = 0)
  if ends ∧ inRange then return (.number (.integer exact) Bool.true, rest)
  else
    let x := Binary.ofNumeral double n
    return (.number (.real x) x.isFinite, rest)

end TwoWaySql.Json
