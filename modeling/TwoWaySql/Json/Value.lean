import TwoWaySql.Json.Basic
import TwoWaySql.Number.FixedWidth
import TwoWaySql.Scope
import TwoWaySql.Value.Text

/-!
# Values from JSON and to JSON

A whole number becomes the narrowest signed integer it fits; any other number becomes a 64-bit
binary one. Fields are declared with the types of their values.
-/

namespace TwoWaySql

open Number

/-- A binary number in the 64-bit format; numbers of that format stay as they are. -/
def Json.realValue {f : BinaryFormat} (x : Binary f) : Value :=
  match x with
  | .nan => .double .nan
  | .infinite negative => .double (.infinite negative)
  | .finite negative units =>
    .double (.ofRatio double negative units f.one)

/-- The value of a whole number. -/
def Json.integerValue (n : Int) : Value :=
  match int32? n, int64? n with
  | some i, _ => .int i
  | none, some i => .long i
  | none, none => .double (.ofRatio double (n < 0) n.natAbs 1)

mutual

def Json.toValue : Json → Value
  | .null => .null
  | .bool b => .bool b
  | .integer n => integerValue n
  | .real x => realValue x
  | .string s => .string s
  | .array items => .list (toItems items)
  | .object fields => .ofFields (toFields fields)

def Json.toItems : List Json → List Value
  | [] => []
  | j :: js => j.toValue :: toItems js

def Json.toFields : List (String × Json) → List (String × BoundValue)
  | [] => []
  | (name, j) :: fs => (name, .of j.toValue) :: toFields fs

end

/-- The scope of the fields of an object. -/
def Scope.ofJson? : Json → Option Scope
  | .object fields => some (.ofList (Json.toFields fields))
  | _ => none

mutual

def Value.toJson : Value → Json
  | .null => .null
  | .bool b => .bool b
  | .int n => .integer n.toInt
  | .long n => .integer n.toInt
  | .float x => .real x
  | .double x => .real x
  | .decimal d => .string d.text
  | .char c => .string c.toString
  | .string s => .string s
  | .list items => .array (itemsToJson items)
  | .pair a b => .array [a.toJson, b.toJson]
  | .triple a b c => .array [a.toJson, b.toJson, c.toJson]
  | .record fields => .object (fieldsToJson fields)

def Value.itemsToJson : List Value → List Json
  | [] => []
  | v :: vs => v.toJson :: itemsToJson vs

def Value.fieldsToJson : List (String × Typed Value) → List (String × Json)
  | [] => []
  | (name, ⟨v, type⟩) :: fs =>
    (name, .object [("value", v.toJson), ("type", .string type.jsonName)]) :: fieldsToJson fs

end

def Typed.toJson (v : BoundValue) : Json :=
  .object [("value", v.value.toJson), ("type", .string v.type.jsonName)]

end TwoWaySql
