import TwoWaySql.Json.Value
import TwoWaySql.Literal

/-!
# Statements

A statement is ready to be executed: SQL with a placeholder for every bound value. While a template
is rendered its parts write to outputs, each with a text, a log and values of its own; the outputs
are then put together or thrown away.
-/

namespace TwoWaySql

/-- What a part of a template has written. -/
@[ext]
structure Output where
  /-- SQL with `?` for placeholders. -/
  text : String
  /-- SQL with the values in place of the placeholders. -/
  log : String
  /-- The values of the placeholders, in order. -/
  values : List BoundValue

namespace Output

def empty : Output := ⟨"", "", []⟩

instance : Inhabited Output := ⟨empty⟩

/-- SQL that is the same in text and log. -/
def sql (s : String) : Output := ⟨s, s, []⟩

/-- A placeholder for one value. -/
def placeholder (format : Formatter) (v : BoundValue) : Output := ⟨"?", format v, [v]⟩

instance : Append Output := ⟨fun a b => ⟨a.text ++ b.text, a.log ++ b.log, a.values ++ b.values⟩⟩

/-- One output after the other. -/
def join (outputs : List Output) : Output := outputs.foldr (· ++ ·) empty

@[simp] theorem text_append (a b : Output) : (a ++ b).text = a.text ++ b.text := rfl

@[simp] theorem log_append (a b : Output) : (a ++ b).log = a.log ++ b.log := rfl

@[simp] theorem values_append (a b : Output) : (a ++ b).values = a.values ++ b.values := rfl

@[simp] theorem text_empty : empty.text = "" := rfl

@[simp] theorem log_empty : empty.log = "" := rfl

@[simp] theorem values_empty : empty.values = [] := rfl

@[simp] theorem empty_append (a : Output) : empty ++ a = a := by ext1 <;> simp

@[simp] theorem append_empty (a : Output) : a ++ empty = a := by ext1 <;> simp

theorem append_assoc (a b c : Output) : a ++ b ++ c = a ++ (b ++ c) := by
  ext1 <;> simp [String.append_assoc]

end Output

structure Statement where
  /-- SQL with `?` for placeholders. -/
  text : String
  /-- The values of the placeholders, in order. -/
  values : List BoundValue
  /-- SQL with the values in place of the placeholders. -/
  log : String

namespace Statement

def ofOutput (o : Output) : Statement := ⟨o.text, o.values, o.log⟩

def toJson (s : Statement) : Json :=
  .object [("text", .string s.text), ("values", .array (s.values.map Typed.toJson)),
    ("log", .string s.log)]

end Statement

end TwoWaySql
