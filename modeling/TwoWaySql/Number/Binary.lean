import TwoWaySql.Number.Numeral

/-!
# Binary floating point numbers

A finite number of a binary format is a whole multiple of the format's least positive number, its
unit `2 ^ -scale`, so it is kept as a sign and a count of units. Order and equality are then those
of integers. `ofRatio` rounds a fraction to the nearest number of the format, a tie to the even
significand, and what is too large to infinity.
-/

namespace TwoWaySql.Number

/-- A binary floating point format. -/
structure BinaryFormat where
  /-- The number of bits of a significand. -/
  precision : Nat
  /-- The least positive number is `2 ^ -scale`. -/
  scale : Nat
  /-- Every finite number is below `2 ^ range`. -/
  range : Nat

namespace BinaryFormat

/-- The units that make one. -/
def one (f : BinaryFormat) : Nat := Nat.pow 2 f.scale

/-- Every finite number has fewer units. -/
def bound (f : BinaryFormat) : Nat := Nat.pow 2 (f.range + f.scale)

/-- The distance in units from a number of `units` to its neighbour: a significand has no room for
less. -/
def spacing (f : BinaryFormat) (units : Nat) : Nat :=
  Nat.pow 2 (Nat.log2 units + 1 - f.precision)

end BinaryFormat

/-- The format of 32-bit numbers. -/
def single : BinaryFormat := ⟨24, 149, 128⟩

/-- The format of 64-bit numbers. -/
def double : BinaryFormat := ⟨53, 1074, 1024⟩

/-- A number of a binary format. -/
inductive Binary (f : BinaryFormat) where
  | nan
  | infinite (negative : Bool)
  | finite (negative : Bool) (units : Nat)
  deriving DecidableEq

namespace Binary

variable {f : BinaryFormat}

/-- The number of the format nearest to `num / den`. -/
def ofRatio (f : BinaryFormat) (negative : Bool) (num den : Nat) : Binary f :=
  let spacing := f.spacing (num * f.one / den)
  let units := roundNearest .even (num * f.one) (den * spacing) * spacing
  if units < f.bound then finite negative units else infinite negative

/-- The number of the format nearest to a numeral. A numeral whose power of ten alone decides is
not expanded. -/
def ofNumeral (f : BinaryFormat) (n : Numeral) : Binary f :=
  let magnitude : Int := digitCount n.coefficient + n.power
  if n.coefficient = 0 ∨ magnitude < -(f.scale : Int) then finite n.negative 0
  else if (f.range : Int) < magnitude then infinite n.negative
  else ofRatio f n.negative (n.coefficient * tenPow n.power.toNat) (tenPow (-n.power).toNat)

def isFinite : Binary f → Bool
  | finite _ _ => true
  | _ => false

/-- The sign and units of a finite number as one integer. -/
def signedUnits (negative : Bool) (units : Nat) : Int := if negative then -units else units

/-- The order of two numbers; none if either is no number. -/
def compare? : Binary f → Binary f → Option Ordering
  | nan, _ | _, nan => none
  | infinite a, infinite b => some (compare b.toNat a.toNat)
  | infinite a, finite _ _ => some (if a then .lt else .gt)
  | finite _ _, infinite b => some (if b then .gt else .lt)
  | finite a m, finite b n => some (compare (signedUnits a m) (signedUnits b n))

/-- Numeric equality: zeros of both signs are equal, and `nan` equals nothing. -/
def same (x y : Binary f) : Bool := x.compare? y == some .eq

/-- The number that a text stands for: a numeral, or in any case of letters a word for infinity or
for no number. -/
def ofText? (f : BinaryFormat) (s : String) : Option (Binary f) :=
  let (negative, word) := Numeral.readSign s.toList
  let word := String.ofList (word.map Char.toLower)
  if word = "nan" then some nan
  else if word = "inf" ∨ word = "infinity" then some (infinite negative)
  else (Numeral.ofText? s).map (ofNumeral f)

end Binary

example : Binary.ofText? single "-16777217" = some (.finite true (16777216 * 2 ^ 149)) := by
  decide +kernel

example : Binary.ofText? double "1.8e308" = some (.infinite false) := by decide +kernel

end TwoWaySql.Number
