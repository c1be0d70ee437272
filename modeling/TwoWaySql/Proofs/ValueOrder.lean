import Mathlib.Algebra.Order.Field.Rat
import Mathlib.Order.Compare
import TwoWaySql.Value.Order

/-!
# Laws of the order of values

Values of one scalar kind are ordered, and the order is the same seen from either side
(`compare?_swap`) and transitive (`compare?_trans`). Equality of values of any kind is symmetric
(`same_comm`), and where there is an order it is what the order says (`same_of_compare?`).
-/

namespace TwoWaySql

namespace Number

namespace Decimal

/-- The number that a decimal stands for. -/
def value (d : Decimal) : ℚ := d.signed / tenPow d.scale

/-- Decimals are ordered by the numbers they stand for, whatever their scales. -/
theorem compare_eq (a b : Decimal) : a.compare b = Ord.compare a.value b.value := by
  have hpos (d : Decimal) : (0 : ℚ) < tenPow d.scale := by
    exact_mod_cast Nat.pow_pos (by decide : 0 < 10)
  have hlt (a b : Decimal) :
      a.value < b.value ↔ a.signed * tenPow b.scale < b.signed * tenPow a.scale := by
    rw [value, value, div_lt_div_iff₀ (hpos a) (hpos b)]
    exact_mod_cast Iff.rfl
  refine ((compare_iff _ _).mpr ?_).symm
  unfold Decimal.compare
  cases h : Ord.compare (a.signed * tenPow b.scale) (b.signed * tenPow a.scale) with
  | lt => exact (hlt a b).mpr (compare_lt_iff_lt.mp h)
  | gt => exact (hlt b a).mpr (compare_gt_iff_gt.mp h)
  | eq =>
    have heq := compare_eq_iff_eq.mp h
    refine le_antisymm (not_lt.mp fun hba => ?_) (not_lt.mp fun hab => ?_)
    · exact absurd ((hlt b a).mp hba) (by rw [heq]; exact lt_irrefl _)
    · exact absurd ((hlt a b).mp hab) (by rw [heq]; exact lt_irrefl _)

instance : Std.TransCmp Decimal.compare := by
  have hcompare : Decimal.compare = compareOn value := funext₂ compare_eq
  rw [hcompare]
  infer_instance

theorem sameNumber_comm (a b : Decimal) : (a.compare b == .eq) = (b.compare a == .eq) := by
  rw [show a.compare b = (b.compare a).swap from Std.OrientedCmp.eq_swap]
  cases b.compare a <;> rfl

end Decimal

namespace Binary

variable {f : BinaryFormat} {x y z : Binary f}

theorem compare?_swap (x y : Binary f) : y.compare? x = (x.compare? y).map Ordering.swap := by
  cases x with
  | nan => cases y <;> rfl
  | infinite a => cases y with
    | nan => rfl
    | infinite b => exact congrArg some Std.OrientedCmp.eq_swap
    | finite b n => cases a <;> rfl
  | finite a m => cases y with
    | nan => rfl
    | infinite b => cases b <;> rfl
    | finite b n => exact congrArg some Std.OrientedCmp.eq_swap

/-- A number is less than another one. -/
def Below : Binary f → Binary f → Prop
  | infinite a, infinite b => a = true ∧ b = false
  | infinite a, finite _ _ => a = true
  | finite _ _, infinite b => b = false
  | finite a m, finite b n => signedUnits a m < signedUnits b n
  | _, _ => False

theorem compare?_eq_lt : x.compare? y = some .lt ↔ x.Below y := by
  cases x with
  | nan => simp [compare?, Below]
  | infinite a => cases y with
    | nan => simp [compare?, Below]
    | infinite b =>
      refine Option.some_inj.trans (compare_lt_iff_lt.trans ?_)
      cases a <;> cases b <;> simp [Below]
    | finite b n => cases a <;> simp [compare?, Below]
  | finite a m => cases y with
    | nan => simp [compare?, Below]
    | infinite b => cases b <;> simp [compare?, Below]
    | finite b n => exact Option.some_inj.trans compare_lt_iff_lt

theorem Below.trans (h : x.Below y) (h' : y.Below z) : x.Below z := by
  cases x <;> cases y <;> cases z <;> simp_all [Below]
  exact lt_trans h h'

theorem compare?_trans (h : x.compare? y = some .lt) (h' : y.compare? z = some .lt) :
    x.compare? z = some .lt :=
  compare?_eq_lt.mpr ((compare?_eq_lt.mp h).trans (compare?_eq_lt.mp h'))

theorem same_comm (x y : Binary f) : x.same y = y.same x := by
  rw [same, same, compare?_swap x y]
  rcases x.compare? y with _ | (_ | _ | _) <;> rfl

end Binary

end Number

namespace Value

variable {a b c : Value}

/-! ## Order -/

/-- Values that are ordered are of one kind, and not null. -/
theorem type_eq_of_compare? {order : Ordering} (h : a.compare? b = some order) :
    a.type = b.type ∧ a.isNull = false ∧ b.isNull = false := by
  revert h
  fun_cases compare? a b with
  | case9 => exact nofun
  | _ => exact fun _ => ⟨rfl, rfl, rfl⟩

theorem compare?_swap (a b : Value) : b.compare? a = (a.compare? b).map Ordering.swap := by
  cases a with
  | bool => cases b with
    | bool => exact congrArg some Std.OrientedCmp.eq_swap
    | _ => rfl
  | int => cases b with
    | int => exact congrArg some Std.OrientedCmp.eq_swap
    | _ => rfl
  | long => cases b with
    | long => exact congrArg some Std.OrientedCmp.eq_swap
    | _ => rfl
  | float => cases b with
    | float => exact Number.Binary.compare?_swap _ _
    | _ => rfl
  | double => cases b with
    | double => exact Number.Binary.compare?_swap _ _
    | _ => rfl
  | decimal => cases b with
    | decimal => exact congrArg some Std.OrientedCmp.eq_swap
    | _ => rfl
  | char => cases b with
    | char => exact congrArg some Std.OrientedCmp.eq_swap
    | _ => rfl
  | string => cases b with
    | string => exact congrArg some Std.OrientedCmp.eq_swap
    | _ => rfl
  | _ => cases b <;> rfl

theorem compare?_trans (h : a.compare? b = some .lt) (h' : b.compare? c = some .lt) :
    a.compare? c = some .lt := by
  have hlt {α : Type} {cmp : α → α → Ordering} [Std.TransCmp cmp] {x y z : α}
      (hxy : some (cmp x y) = some .lt) (hyz : some (cmp y z) = some .lt) :
      some (cmp x z) = some .lt :=
    congrArg some (Std.TransCmp.lt_trans (Option.some.inj hxy) (Option.some.inj hyz))
  revert h
  fun_cases compare? a b with
  | case9 => exact nofun
  | case4 => cases c with
    | float => exact fun h => Number.Binary.compare?_trans h h'
    | _ => cases h'
  | case5 => cases c with
    | double => exact fun h => Number.Binary.compare?_trans h h'
    | _ => cases h'
  | _ => cases c <;> first | exact fun h => hlt h h' | cases h'

/-! ## Equality -/

/-- Where values are ordered, they are equal if neither comes first. -/
theorem same_of_compare? {order : Ordering} (h : a.compare? b = some order) :
    a.same b = (order == .eq) := by
  revert h
  fun_cases compare? a b with
  | case9 => exact nofun
  | case4 x y | case5 x y =>
    intro h
    simp [same, Number.Binary.same, h]
  | case6 x y =>
    intro h
    rw [same, Option.some.inj h]
  | _ x y =>
    intro h
    cases h
    rw [same, Bool.eq_iff_iff]
    simp [Std.LawfulEqCmp.compare_eq_iff_eq]

mutual

theorem same_comm : (a b : Value) → a.same b = b.same a
  | .null, b => by cases b <;> rfl
  | .bool x, b => by
    cases b with
    | bool y => exact Bool.beq_comm
    | _ => rfl
  | .int x, b => by
    cases b with
    | int y => exact BEq.comm
    | _ => rfl
  | .long x, b => by
    cases b with
    | long y => exact BEq.comm
    | _ => rfl
  | .float x, b => by
    cases b with
    | float y => exact x.same_comm y
    | _ => rfl
  | .double x, b => by
    cases b with
    | double y => exact x.same_comm y
    | _ => rfl
  | .decimal x, b => by
    cases b with
    | decimal y => exact x.sameNumber_comm y
    | _ => rfl
  | .char x, b => by
    cases b with
    | char y => exact BEq.comm
    | _ => rfl
  | .string x, b => by
    cases b with
    | string y => exact BEq.comm
    | _ => rfl
  | .list xs, b => by
    cases b with
    | list ys => exact sameItems_comm xs ys
    | _ => rfl
  | .pair x y, b => by
    cases b with
    | pair z w => rw [same, same, same_comm x, same_comm y]
    | _ => rfl
  | .triple x y z, b => by
    cases b with
    | triple u v w => rw [same, same, same_comm x, same_comm y, same_comm z]
    | _ => rfl
  | .record fs, b => by
    cases b with
    | record gs => exact sameFields_comm fs gs
    | _ => rfl

theorem sameItems_comm : (as bs : List Value) → sameItems as bs = sameItems bs as
  | [], bs => by cases bs <;> rfl
  | a :: as, [] => rfl
  | a :: as, b :: bs => by rw [sameItems, sameItems, same_comm a, sameItems_comm as]

theorem sameFields_comm : (fs gs : List (String × Typed Value)) →
    sameFields fs gs = sameFields gs fs
  | [], gs => by cases gs <;> rfl
  | f :: fs, [] => rfl
  | (n, ⟨a, s⟩) :: fs, (m, ⟨b, t⟩) :: gs => by
    rw [sameFields, sameFields, same_comm a, sameFields_comm fs, BEq.comm (a := n),
      BEq.comm (a := s)]

end

end Value

end TwoWaySql
