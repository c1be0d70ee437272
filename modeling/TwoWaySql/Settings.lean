import TwoWaySql.Json.Reader

/-!
# Settings

Settings are read from JSON: an object with named settings, where unknown names are passed over, or
an array with the settings in order. What is missing has its default.
-/

namespace TwoWaySql

/-- The nesting limit unless another one is given. -/
def defaultDepth : Nat := 64

structure Settings where
  /-- The nesting limit of templates and expressions. -/
  maxDepth : Nat
  /-- The capacity of the cache of parsed templates; none if there is no cache. -/
  cacheCapacity? : Option Nat
  deriving DecidableEq

namespace Settings

def default : Settings := ⟨defaultDepth, none⟩

/-- A whole number that is not negative. -/
def natural? : Json → Option Nat
  | .integer n => if 0 ≤ n then some n.toNat else none
  | _ => none

/-- A whole number that is not negative, or null. -/
def optional? : Json → Option (Option Nat)
  | .null => some none
  | j => (natural? j).map some

/-- The settings of named fields. A known name must not be repeated. -/
def ofFields? (fields : List (String × Json)) : Option Settings := do
  let named (name : String) := fields.filterMap fun f => if f.1 = name then some f.2 else none
  let maxDepth ← match named "max_depth" with
    | [] => some defaultDepth
    | [j] => natural? j
    | _ => none
  let cacheCapacity? ← match named "cache_capacity" with
    | [] => some none
    | [j] => optional? j
    | _ => none
  return ⟨maxDepth, cacheCapacity?⟩

def ofItems? : List Json → Option Settings
  | [] => some default
  | [depth] => do return ⟨← natural? depth, none⟩
  | [depth, capacity] => do return ⟨← natural? depth, ← optional? capacity⟩
  | _ => none

/-- The settings that a JSON text holds. -/
def ofText? (text : String) : Option Settings := do
  match ← Json.readOutline? text with
  | .object fields => ofFields? fields
  | .array items => ofItems? items
  | _ => none

/-- The settings as logs name them. -/
def describe (s : Settings) : String :=
  let capacity := match s.cacheCapacity? with
    | none => "None"
    | some n => "Some(" ++ toString n ++ ")"
  "BuilderConfig \x7b max_depth: " ++ toString s.maxDepth ++ ", cache_capacity: " ++ capacity ++
    " \x7d"

example : ofText? "[5, 6]" = some ⟨5, some 6⟩ := by decide +kernel

example : ofText? "\x7b\"max_depth\": null\x7d" = none := by decide +kernel

end Settings

end TwoWaySql
