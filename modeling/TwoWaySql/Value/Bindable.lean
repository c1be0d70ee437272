import TwoWaySql.Value.Basic

/-!
# Types whose values can be bound

`Bindable α` says how an `α` becomes a value and which type it is declared with. The declared type
belongs to `α`, so an absent value is a null of that type.
-/

namespace TwoWaySql

open Number (Binary Decimal single double)

class Bindable (α : Type) where
  /-- The declared type of the values of `α`; `any` if each value has its own. -/
  declared : ValueType
  toValue : α → Value

namespace Typed

/-- A value declared with the type that its own Lean type has. -/
def ofBindable {α : Type} [Bindable α] (a : α) : BoundValue :=
  let declared := Bindable.declared α
  ⟨Bindable.toValue a, if declared = .any then (Bindable.toValue a).type else declared⟩

end Typed

instance : Bindable Value := ⟨.any, id⟩
instance : Bindable Bool := ⟨.boolean, .bool⟩
instance : Bindable UInt8 := ⟨.int, fun n => .int (.ofNat n.toNat)⟩
instance : Bindable Int16 := ⟨.int, fun n => .int n.toInt32⟩
instance : Bindable UInt16 := ⟨.int, fun n => .int (.ofNat n.toNat)⟩
instance : Bindable Int32 := ⟨.int, .int⟩
instance : Bindable UInt32 := ⟨.long, fun n => .long (.ofNat n.toNat)⟩
instance : Bindable Int64 := ⟨.long, .long⟩
instance : Bindable (Binary single) := ⟨.float, .float⟩
instance : Bindable (Binary double) := ⟨.double, .double⟩
instance : Bindable Decimal := ⟨.decimal, .decimal⟩
instance : Bindable Char := ⟨.char, .char⟩
instance : Bindable String := ⟨.string, .string⟩

section
variable {α β γ : Type} [Bindable α] [Bindable β] [Bindable γ]

instance : Bindable (Option α) where
  declared := Bindable.declared α
  toValue
    | some a => Bindable.toValue a
    | none => .null

instance : Bindable (List α) := ⟨.list, fun as => .list (as.map Bindable.toValue)⟩

instance : Bindable (α × β) :=
  ⟨.pair, fun (a, b) => .pair (Bindable.toValue a) (Bindable.toValue b)⟩

instance (priority := high) : Bindable (α × β × γ) :=
  ⟨.triple, fun (a, b, c) => .triple (Bindable.toValue a) (Bindable.toValue b) (Bindable.toValue c)⟩

end

example : Typed.ofBindable (none : Option Int32) = .null .int := rfl

end TwoWaySql
