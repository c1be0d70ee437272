import TwoWaySql.Expr.Error
import TwoWaySql.Text.QuotedName
import TwoWaySql.Value.Basic

/-!
# Members of values

A registry says which properties and functions values of a type have. A member of the type `any`
belongs to every value; a member of the value's own type comes before it, and the fields of a record
before both. A later registration of a name takes the place of an earlier one.
-/

namespace TwoWaySql.Expr

abbrev Property := Value → BoundValue

abbrev Function := Value → List BoundValue → Except CallFailure BoundValue

structure Registry where
  properties : List ((ValueType × String) × Property)
  functions : List ((ValueType × String) × Function)

namespace Registry

def empty : Registry := ⟨[], []⟩

def addProperty (r : Registry) (type : ValueType) (name : String) (property : Property) :
    Registry :=
  { r with properties := ((type, name), property) :: r.properties }

def addFunction (r : Registry) (type : ValueType) (name : String) (function : Function) :
    Registry :=
  { r with functions := ((type, name), function) :: r.functions }

/-- The entry for a name among the members of a type, then among those of every value. -/
def find? {α : Type} (members : List ((ValueType × String) × α)) (type : ValueType)
    (name : String) :
    Option α :=
  members.lookup (type, name) <|> members.lookup (.any, name)

/-- The field of a record. -/
def field? (receiver : Value) (name : String) : Option BoundValue :=
  match receiver with
  | .record fields => fields.lookup name
  | _ => none

/-- The value of a property. -/
def property? (r : Registry) (receiver : Value) (name : String) : Option BoundValue :=
  field? receiver name <|> (find? r.properties receiver.type name).map (· receiver)

/-- The function of a name on the values of a type. -/
def function? (r : Registry) (receiver : Value) (name : String) : Option Function :=
  find? r.functions receiver.type name

/-- The types that have members, in the order of the types. -/
def types (r : Registry) : List ValueType :=
  ValueType.all.filter fun t => (r.properties.map (·.1.1) ++ r.functions.map (·.1.1)).contains t

/-- The names of the members of a type in order, each once. -/
def memberNames (r : Registry) (type : ValueType) : List String :=
  let keys := r.properties.map (·.1) ++ r.functions.map (·.1)
  ((keys.filter (·.1 = type)).map (·.2)).eraseDups.mergeSort (· ≤ ·)

/-- The types and the names of their members, as logs show them. -/
def describe (r : Registry) : String :=
  let entry (t : ValueType) :=
    t.name ++ ": [" ++ ", ".intercalate ((r.memberNames t).map Text.quotedName) ++ "]"
  "\x7b" ++ ", ".intercalate (r.types.map entry) ++ "\x7d"

end Registry

end TwoWaySql.Expr
