import TwoWaySql.Number.Digits

/-!
# Numerals

A numeral is the text of a number taken apart: its sign, the digits before and after the point, and
the power of ten that an exponent adds. What the digits stand for is left to the number types.
-/

namespace TwoWaySql.Number

structure Numeral where
  negative : Bool
  whole : List Char
  fraction : List Char
  exponent : Int

namespace Numeral

/-- The numeral stands for `± coefficient · 10 ^ power`. -/
def coefficient (n : Numeral) : Nat := ofDigits (n.whole ++ n.fraction)

def power (n : Numeral) : Int := n.exponent - n.fraction.length

/-- The whole part with its sign. -/
def toInt (n : Numeral) : Int := if n.negative then -(ofDigits n.whole : Int) else ofDigits n.whole

/-- Reads a sign, if there is one. -/
def readSign : List Char → Bool × List Char
  | '-' :: cs => (true, cs)
  | '+' :: cs => (false, cs)
  | cs => (false, cs)

/-- Reads a point and digits after it, if there is a point. -/
def readFraction : List Char → List Char × List Char
  | '.' :: cs => (cs.takeWhile Char.isDigit, cs.dropWhile Char.isDigit)
  | cs => ([], cs)

/-- Reads an exponent, if a whole one is there. -/
def readExponent (cs : List Char) : Int × List Char :=
  match cs with
  | [] => (0, cs)
  | e :: after =>
    let (negative, digits) := readSign after
    let power := digits.takeWhile Char.isDigit
    if (e = 'e' ∨ e = 'E') ∧ power ≠ [] then
      (if negative then -(ofDigits power : Int) else ofDigits power, digits.dropWhile Char.isDigit)
    else (0, cs)

/-- Reads a numeral, and gives what follows it. -/
def read (cs : List Char) : Numeral × List Char :=
  let (negative, cs) := readSign cs
  let whole := cs.takeWhile Char.isDigit
  let (fraction, cs) := readFraction (cs.dropWhile Char.isDigit)
  let (exponent, cs) := readExponent cs
  (⟨negative, whole, fraction, exponent⟩, cs)

/-- The numeral that a whole text is. -/
def ofText? (s : String) : Option Numeral :=
  match read s.toList with
  | (n, []) => if n.whole = [] ∧ n.fraction = [] then none else some n
  | _ => none

end Numeral

end TwoWaySql.Number
