/-!
# Integers of fixed width

The integers of 32 and 64 bits that stand for a number exactly; there is none for a number out of
range. A count that is too large becomes the greatest integer of 32 bits.
-/

namespace TwoWaySql.Number

def int32? (n : Int) : Option Int32 :=
  if Int32.minValue.toInt ≤ n ∧ n ≤ Int32.maxValue.toInt then some (.ofInt n) else none

def int64? (n : Int) : Option Int64 :=
  if Int64.minValue.toInt ≤ n ∧ n ≤ Int64.maxValue.toInt then some (.ofInt n) else none

/-- The integer of a count. -/
def countInt32 (n : Nat) : Int32 := (int32? n).getD .maxValue

theorem int32?_eq_some_iff {n : Int} {i : Int32} : int32? n = some i ↔ i.toInt = n := by
  have hmin : Int32.minValue.toInt = -2147483648 := by decide
  have hmax : Int32.maxValue.toInt = 2147483647 := by decide
  unfold int32?
  split
  · next h =>
    have e : (Int32.ofInt n).toInt = n := Int32.toInt_ofInt_of_le (by omega) (by omega)
    simp only [Option.some.injEq]
    exact ⟨fun hi => hi ▸ e, fun hi => by rw [← hi, Int32.ofInt_toInt]⟩
  · next h =>
    have := i.minValue_le_toInt
    have := i.toInt_le
    simp only [reduceCtorEq, false_iff]
    rintro rfl
    omega

theorem int64?_eq_some_iff {n : Int} {i : Int64} : int64? n = some i ↔ i.toInt = n := by
  have hmin : Int64.minValue.toInt = -9223372036854775808 := by decide
  have hmax : Int64.maxValue.toInt = 9223372036854775807 := by decide
  unfold int64?
  split
  · next h =>
    have e : (Int64.ofInt n).toInt = n := Int64.toInt_ofInt_of_le (by omega) (by omega)
    simp only [Option.some.injEq]
    exact ⟨fun hi => hi ▸ e, fun hi => by rw [← hi, Int64.ofInt_toInt]⟩
  · next h =>
    have := i.minValue_le_toInt
    have := i.toInt_le
    simp only [reduceCtorEq, false_iff]
    rintro rfl
    omega

end TwoWaySql.Number
