import TwoWaySql.Expr.Registry
import TwoWaySql.Number.FixedWidth
import TwoWaySql.Text.Blank
import TwoWaySql.Text.Casing
import TwoWaySql.Text.Like
import TwoWaySql.Value.Bindable
import TwoWaySql.Value.Order
import TwoWaySql.Value.Text

/-!
# The built-in members

What strings, lists, pairs and triples can be asked, and the text that every value has.
-/

namespace TwoWaySql.Expr.Builtin

open Text

/-- A count as a value; one too large for the type is its greatest number. -/
def count (n : Nat) : BoundValue := .of (.int (Number.countInt32 n))

def truth (b : Bool) : BoundValue := .of (.bool b)

def text (s : String) : BoundValue := .of (.string s)

def expectCount (expected : Nat) (arguments : List BoundValue) : Except CallFailure Unit :=
  if arguments.length = expected then .ok () else .error (.wrongCount expected arguments.length)

/-- The only argument. -/
def onlyArgument : List BoundValue → Except CallFailure BoundValue
  | [argument] => .ok argument
  | arguments => .error (.wrongCount 1 arguments.length)

/-- The only argument, which must be a string. -/
def onlyString (arguments : List BoundValue) : Except CallFailure String := do
  let argument ← onlyArgument arguments
  match argument.value with
  | .string s => return s
  | value => .error (.notString value.type)

/-- Whether `needle` occurs in a text. -/
def occursIn (needle : List Char) : List Char → Bool
  | [] => needle.isEmpty
  | c :: cs => needle.isPrefixOf (c :: cs) || occursIn needle cs

/-- A function of a string that takes no argument. -/
def ofString (f : String → BoundValue) : Function := fun receiver arguments => do
  expectCount 0 arguments
  return f (receiver.asString?.getD "")

/-- A test of a string against another. -/
def ofStrings (test : List Char → List Char → Bool) : Function := fun receiver arguments => do
  let argument ← onlyString arguments
  return truth (test (receiver.asString?.getD "").toList argument.toList)

def items : Value → List Value
  | .list vs => vs
  | _ => []

/-- A function of a list that takes no argument. -/
def ofItems (f : List Value → BoundValue) : Function := fun receiver arguments => do
  expectCount 0 arguments
  return f (items receiver)

/-- Whether the list holds the argument. -/
def contains : Function := fun receiver arguments => do
  let argument ← onlyArgument arguments
  return truth ((items receiver).any (·.same argument.value))

/-- The item at an index. -/
def item : Function := fun receiver arguments => do
  let argument ← onlyArgument arguments
  match argument.value with
  | .int index =>
    let found := if 0 ≤ index.toInt then (items receiver)[index.toInt.toNat]? else none
    match found with
    | some v => return .of v
    | none => .error (.outOfBounds index (items receiver).length)
  | _ => .error (.notIndex argument.type)

def first : Property
  | .pair a _ => .of a
  | .triple a _ _ => .of a
  | _ => .null .any

def second : Property
  | .pair _ b => .of b
  | .triple _ b _ => .of b
  | _ => .null .any

def third : Property
  | .triple _ _ c => .of c
  | _ => .null .any

def stringFunctions : List (String × Function) :=
  [("length", ofString fun s => count s.length),
    ("isEmpty", ofString fun s => truth s.isEmpty),
    ("isNotEmpty", ofString fun s => truth !s.isEmpty),
    ("isBlank", ofString fun s => truth (s.toList.all isBlank)),
    ("isNotBlank", ofString fun s => truth !s.toList.all isBlank),
    ("startsWith", ofStrings fun s t => t.isPrefixOf s),
    ("endsWith", ofStrings fun s t => t.isSuffixOf s),
    ("contains", ofStrings fun s t => occursIn t s),
    ("trim", ofString fun s => text (trimmed s)),
    ("uppercase", ofString fun s => text (upper s)),
    ("lowercase", ofString fun s => text (lower s)),
    ("escape", ofString fun s => text (escapeLike s)),
    ("asPrefix", ofString fun s => text (prefixPattern s)),
    ("asInfix", ofString fun s => text (infixPattern s)),
    ("asSuffix", ofString fun s => text (suffixPattern s))]

def listFunctions : List (String × Function) :=
  [("size", ofItems fun vs => count vs.length),
    ("isEmpty", ofItems fun vs => truth vs.isEmpty),
    ("isNotEmpty", ofItems fun vs => truth !vs.isEmpty),
    ("contains", contains),
    ("get", item)]

/-- The text of any value. -/
def asText : Function := fun receiver arguments => do
  expectCount 0 arguments
  return text receiver.text

end TwoWaySql.Expr.Builtin

namespace TwoWaySql.Expr

/-- The built-in members. -/
def Registry.builtin : Registry where
  properties :=
    [((.string, "length"), fun v => Builtin.count (v.asString?.getD "").length),
      ((.list, "size"), fun v => Builtin.count (Builtin.items v).length),
      ((.pair, "first"), Builtin.first),
      ((.pair, "second"), Builtin.second),
      ((.triple, "first"), Builtin.first),
      ((.triple, "second"), Builtin.second),
      ((.triple, "third"), Builtin.third)]
  functions :=
    Builtin.stringFunctions.map (fun f => ((.string, f.1), f.2)) ++
      Builtin.listFunctions.map (fun f => ((.list, f.1), f.2)) ++
      [((.any, "toString"), Builtin.asText)]

end TwoWaySql.Expr
