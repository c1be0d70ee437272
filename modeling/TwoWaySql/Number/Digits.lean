/-!
# Decimal digits

Reading and writing natural numbers in base ten, and rounding a fraction to a whole number.
-/

namespace TwoWaySql.Number

def digitValue (c : Char) : Nat := c.toNat - '0'.toNat

/-- The number whose decimal digits are `cs`. -/
def ofDigits (cs : List Char) : Nat := cs.foldl (fun n c => 10 * n + digitValue c) 0

/-- The decimal digits of a number, without leading zeros. -/
def digits (n : Nat) : List Char := Nat.toDigits 10 n

def digitCount (n : Nat) : Nat := (digits n).length

/-- Ten to the power `n`. -/
def tenPow (n : Nat) : Nat := Nat.pow 10 n

theorem ofDigits_append_singleton (cs : List Char) (c : Char) :
    ofDigits (cs ++ [c]) = 10 * ofDigits cs + digitValue c := by
  simp [ofDigits]

theorem ofDigits_le_append (cs ds : List Char) : ofDigits cs ≤ ofDigits (cs ++ ds) := by
  induction ds generalizing cs with
  | nil => simp
  | cons d ds ih =>
    calc ofDigits cs
      _ ≤ ofDigits (cs ++ [d]) := by rw [ofDigits_append_singleton]; omega
      _ ≤ ofDigits (cs ++ d :: ds) := by simpa using ih (cs ++ [d])

/-- `n` in base ten, filled up with leading zeros to `width` digits. -/
def padded (width : Nat) (n : Nat) : List Char :=
  List.replicate (width - digitCount n) '0' ++ digits n

/-- Where a number goes that lies halfway between two others. -/
inductive Tie where
  /-- To the even one. -/
  | even
  /-- To the greater one. -/
  | up
  deriving DecidableEq

/-- `num / den` to the nearest whole number. -/
def roundNearest (tie : Tie) (num den : Nat) : Nat :=
  let q := num / den
  let r := num % den
  if 2 * r < den then q
  else if den < 2 * r then q + 1
  else match tie with
    | .even => q + q % 2
    | .up => q + 1

end TwoWaySql.Number
