import TwoWaySql.Value.Basic

/-!
# Order and equality of values

`compare?` orders two values of one scalar kind. `same` is equality of values of any kind, item by
item; numbers are equal when their values are, so `nan` is not equal to itself and decimals of
different scale may be.
-/

namespace TwoWaySql.Value

/-- The order of two values of one kind; none for kinds without order, or two kinds. -/
def compare? : Value → Value → Option Ordering
  | bool a, bool b => some (compare a b)
  | int a, int b => some (compare a b)
  | long a, long b => some (compare a b)
  | float a, float b => a.compare? b
  | double a, double b => a.compare? b
  | decimal a, decimal b => some (a.compare b)
  | char a, char b => some (compare a b)
  | string a, string b => some (compare a b)
  | _, _ => none

mutual

/-- Whether two values are equal. -/
def same : Value → Value → Bool
  | null, null => true
  | bool a, bool b => a == b
  | int a, int b => a == b
  | long a, long b => a == b
  | float a, float b => a.same b
  | double a, double b => a.same b
  | decimal a, decimal b => a.compare b == .eq
  | char a, char b => a == b
  | string a, string b => a == b
  | list as, list bs => sameItems as bs
  | pair a b, pair c d => a.same c && b.same d
  | triple a b c, triple d e f => a.same d && b.same e && c.same f
  | record fs, record gs => sameFields fs gs
  | _, _ => false

def sameItems : List Value → List Value → Bool
  | [], [] => true
  | a :: as, b :: bs => a.same b && sameItems as bs
  | _, _ => false

def sameFields : List (String × Typed Value) → List (String × Typed Value) → Bool
  | [], [] => true
  | (n, ⟨a, s⟩) :: fs, (m, ⟨b, t⟩) :: gs => n == m && a.same b && s == t && sameFields fs gs
  | _, _ => false

end

end TwoWaySql.Value
