import TwoWaySql.Number.Binary
import TwoWaySql.Number.Decimal

/-!
# Values

A value is what a template's expressions compute with. It travels with a declared type, which also
says what type a null stands for.
-/

namespace TwoWaySql

open Number (Binary Decimal single double)

/-- The declared type of a value. -/
inductive ValueType where
  | any
  | boolean
  | int
  | long
  | float
  | double
  | decimal
  | char
  | string
  | list
  | pair
  | triple
  | record
  deriving DecidableEq

namespace ValueType

def name : ValueType → String
  | any => "Any"
  | boolean => "Boolean"
  | int => "Int"
  | long => "Long"
  | float => "Float"
  | double => "Double"
  | decimal => "BigDecimal"
  | char => "Char"
  | string => "String"
  | list => "List"
  | pair => "Pair"
  | triple => "Triple"
  | record => "Record"

/-- The name of a type in JSON. -/
def jsonName : ValueType → String
  | any => "any"
  | boolean => "boolean"
  | int => "int"
  | long => "long"
  | float => "float"
  | double => "double"
  | decimal => "big_decimal"
  | char => "char"
  | string => "string"
  | list => "list"
  | pair => "pair"
  | triple => "triple"
  | record => "record"

def all : List ValueType :=
  [any, boolean, int, long, float, double, decimal, char, string, list, pair, triple, record]

/-- The type of a name. -/
def ofName? (s : String) : Option ValueType := all.find? (·.name == s)

end ValueType

/-- A value with its declared type. -/
structure Typed (α : Type) where
  value : α
  type : ValueType

/-- A value. The fields of a record are in the order of their names, no name twice. -/
inductive Value where
  | null
  | bool (b : Bool)
  | int (n : Int32)
  | long (n : Int64)
  | float (x : Binary single)
  | double (x : Binary double)
  | decimal (d : Decimal)
  | char (c : Char)
  | string (s : String)
  | list (items : List Value)
  | pair (first second : Value)
  | triple (first second third : Value)
  | record (fields : List (String × Typed Value))

instance : Inhabited Value := ⟨.null⟩

/-- A value bound to a name or a placeholder. -/
abbrev BoundValue := Typed Value

namespace Value

/-- The type of the value itself. -/
def type : Value → ValueType
  | null => .any
  | bool _ => .boolean
  | int _ => .int
  | long _ => .long
  | float _ => .float
  | double _ => .double
  | decimal _ => .decimal
  | char _ => .char
  | string _ => .string
  | list _ => .list
  | pair _ _ => .pair
  | triple _ _ _ => .triple
  | record _ => .record

def isNull : Value → Bool
  | null => true
  | _ => false

def asBool? : Value → Option Bool
  | bool b => some b
  | _ => none

def asString? : Value → Option String
  | string s => some s
  | _ => none

/-- Adds a field in the order of names, in place of a field of the same name. -/
def insertField (name : String) (value : BoundValue) :
    List (String × BoundValue) → List (String × BoundValue)
  | [] => [(name, value)]
  | f :: fs =>
    if name < f.1 then (name, value) :: f :: fs
    else if name = f.1 then (name, value) :: fs
    else f :: insertField name value fs

/-- The record of the given fields; of fields with one name the last counts. -/
def ofFields (fields : List (String × BoundValue)) : Value :=
  record (fields.foldl (fun fs f => insertField f.1 f.2 fs) [])

end Value

namespace Typed

/-- A value declared with its own type. -/
def of (value : Value) : BoundValue := ⟨value, value.type⟩

/-- A null of a declared type. -/
def null (type : ValueType) : BoundValue := ⟨.null, type⟩

end Typed

end TwoWaySql
