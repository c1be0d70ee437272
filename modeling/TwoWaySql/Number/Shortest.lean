import TwoWaySql.Number.Binary

/-!
# The shortest digits of a binary number

`shortest` finds the fewest decimal digits that read back as the same number of the format, and of
those the nearest to it: for 1, 2, 3, … digits it tests the two neighbours on that decimal grid.
Where both read back and are equally near, the tie rule decides. `FloatText` says how digits are
laid out, positionally or with an exponent, and which way ties go.
-/

namespace TwoWaySql.Number

/-- The exponent of the first decimal digit of `num / den`, both positive. -/
def leadingExponent (num den : Nat) : Int :=
  if den ≤ num then digitCount (num / den) - 1
  else
    let d := digitCount (den / num)
    if den = num * tenPow (d - 1) then 1 - d else -d

namespace Binary

/-- Four times the distances, in units, from a finite number to the ends of the interval that rounds
to it. The lower end is nearer at a power of two, where the spacing changes. -/
def margins (f : BinaryFormat) (units : Nat) : Nat × Nat :=
  let spacing := f.spacing units
  let atPower := 1 < spacing && units == spacing * Nat.pow 2 (f.precision - 1)
  (if atPower then spacing else 2 * spacing, 2 * spacing)

/-- Whether `coefficient · 10 ^ exponent` rounds to the number of `units`. -/
def readsBack (f : BinaryFormat) (units coefficient : Nat) (exponent : Int) : Bool :=
  let (below, above) := margins f units
  let den := tenPow (-exponent).toNat
  let point := 4 * (coefficient * tenPow exponent.toNat * f.one)
  let low := (4 * units - below) * den
  let high := (4 * units + above) * den
  if units / f.spacing units % 2 = 0 then low ≤ point && point ≤ high
  else low < point && point < high

/-- Of the two neighbours of the number on the grid of multiples of `10 ^ exponent`, the nearer one
that reads back. -/
def onGrid? (tie : Tie) (f : BinaryFormat) (units : Nat) (exponent : Int) : Option Nat :=
  let num := units * tenPow (-exponent).toNat
  let den := f.one * tenPow exponent.toNat
  let under := num / den
  match readsBack f units under exponent, readsBack f units (under + 1) exponent with
  | true, true => some (roundNearest tie num den)
  | true, false => some under
  | false, true => some (under + 1)
  | false, false => none

/-- A coefficient without trailing zeros, and its exponent. -/
def stripZeros : Nat → Nat → Int → Nat × Int
  | 0, n, e => (n, e)
  | fuel + 1, n, e => if n % 10 = 0 then stripZeros fuel (n / 10) (e + 1) else (n, e)

/-- The shortest digits of a positive number, as a coefficient and an exponent. -/
def shortest (tie : Tie) (f : BinaryFormat) (units : Nat) : Nat × Int :=
  let lead := leadingExponent units f.one
  let found := (List.range 17).findSome? fun (n : Nat) =>
    (onGrid? tie f units (lead - n)).map fun c => (c, lead - n)
  match found with
  | some (c, e) => stripZeros 17 c e
  | none => (units, 0)

end Binary

/-- How the digits of a binary number are chosen and laid out. -/
structure FloatText where
  /-- Which of two equally near shortest texts is written. -/
  tie : Tie
  /-- The least and greatest exponents of a first digit that are written positionally; none if all
  are. -/
  positional : Option (Int × Int)
  /-- What follows a whole number that is written positionally. -/
  whole : String
  nan : String
  infinity : String

namespace FloatText

def isPositional (t : FloatText) (lead : Int) : Bool :=
  match t.positional with
  | none => true
  | some (least, greatest) => least ≤ lead && lead ≤ greatest

/-- The digits `ds`, whose last one counts `10 ^ exponent`, written with a point. -/
def place (t : FloatText) (ds : List Char) (exponent : Int) : String :=
  if 0 ≤ exponent then String.ofList (ds ++ List.replicate exponent.toNat '0') ++ t.whole
  else
    let places := (-exponent).toNat
    let ds := List.replicate (places + 1 - ds.length) '0' ++ ds
    String.ofList (ds.take (ds.length - places) ++ '.' :: ds.drop (ds.length - places))

/-- The digits `ds` with a point after the first and an exponent with its sign. -/
def scientific (ds : List Char) (lead : Int) : String :=
  let point := match ds with
    | d :: e :: rest => d :: '.' :: e :: rest
    | short => short
  String.ofList (point ++ 'e' :: (if lead < 0 then '-' else '+') :: digits lead.natAbs)

/-- The text of a positive number given by its shortest digits. -/
def magnitude (t : FloatText) (coefficient : Nat) (exponent : Int) : String :=
  let ds := digits coefficient
  let lead := exponent + ds.length - 1
  if t.isPositional lead then t.place ds exponent else scientific ds lead

def write (t : FloatText) {f : BinaryFormat} : Binary f → String
  | .nan => t.nan
  | .infinite negative => (if negative then "-" else "") ++ t.infinity
  | .finite negative units =>
    (if negative then "-" else "") ++
      if units = 0 then "0" ++ t.whole
      else
        let (coefficient, exponent) := Binary.shortest t.tie f units
        t.magnitude coefficient exponent

end FloatText

end TwoWaySql.Number
