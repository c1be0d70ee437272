import TwoWaySql.Number.Numeral

/-!
# Decimal numbers

A decimal is a sign, a mantissa of at most 96 bits and a scale of at most 28 fraction digits. The
scale belongs to the number's text but not to its order: `1.0` and `1.00` are equal. So are the two
zeros, of which reading never gives the negative one.

Taken as given of decimals are this range, and what reading, writing and order make of it. Reading
keeps as many fraction digits as fit and rounds half away from zero at the first one it drops; a
whole part that does not fit is refused. The text has the sign and all digits of the scale. The
order is that of the values.
-/

namespace TwoWaySql.Number

/-- The greatest scale. -/
def maxScale : Nat := 28

/-- Mantissas are below this bound. -/
def mantissaBound : Nat := Nat.pow 2 96

structure Decimal where
  negative : Bool
  mantissa : Nat
  scale : Nat
  mantissa_lt : mantissa < mantissaBound
  scale_le : scale ≤ maxScale
  deriving DecidableEq

namespace Decimal

/-- The decimal that is read from a sign, a mantissa and a scale, if they are in range. Zero loses
its sign. -/
def mk? (negative : Bool) (mantissa scale : Nat) : Option Decimal :=
  if h : mantissa < mantissaBound ∧ scale ≤ maxScale then
    some ⟨negative && mantissa != 0, mantissa, scale, h.1, h.2⟩
  else none

theorem mk?_eq_none_iff {negative : Bool} {m s : Nat} :
    mk? negative m s = none ↔ mantissaBound ≤ m ∨ maxScale < s := by
  unfold mk?
  split <;> simp <;> omega

/-- The digits `whole ++ fraction` cut after `scale` fraction digits and rounded there. -/
def roundedAt (whole fraction : List Char) (scale : Nat) : Nat :=
  let kept := ofDigits (whole ++ fraction.take scale)
  match fraction.drop scale with
  | c :: _ => if 5 ≤ digitValue c then kept + 1 else kept
  | [] => kept

/-- The most precise decimal of at most `scale` fraction digits. -/
def atScale? (negative : Bool) (whole fraction : List Char) : Nat → Option Decimal
  | 0 => mk? negative (roundedAt whole fraction 0) 0
  | scale + 1 =>
    match mk? negative (roundedAt whole fraction (scale + 1)) (scale + 1) with
    | some d => some d
    | none => atScale? negative whole fraction scale

/-- The decimal written with the given digits before and after the point. -/
def ofDigits? (negative : Bool) (whole fraction : List Char) : Option Decimal :=
  atScale? negative whole fraction (min maxScale fraction.length)

theorem atScale?_isSome_iff {negative : Bool} {whole fraction : List Char} {scale : Nat}
    (hscale : scale ≤ maxScale) : (atScale? negative whole fraction scale).isSome ↔
      ∃ s ≤ scale, roundedAt whole fraction s < mantissaBound := by
  induction scale with
  | zero =>
    unfold atScale? mk?
    simp
  | succ scale ih =>
    unfold atScale?
    cases hmk : mk? negative (roundedAt whole fraction (scale + 1)) (scale + 1) with
    | some d =>
      have hbound : roundedAt whole fraction (scale + 1) < mantissaBound := by
        refine Nat.lt_of_not_le fun hle => ?_
        rw [mk?_eq_none_iff.mpr (.inl hle)] at hmk
        cases hmk
      exact ⟨fun _ => ⟨_, Nat.le_refl _, hbound⟩, fun _ => rfl⟩
    | none =>
      have hbound := (mk?_eq_none_iff.mp hmk).resolve_right (Nat.not_lt.mpr hscale)
      rw [ih (by omega)]
      constructor
      · rintro ⟨s, hs, h⟩
        exact ⟨s, by omega, h⟩
      · rintro ⟨s, hs, h⟩
        rcases Nat.le_succ_iff.mp hs with hs | rfl
        · exact ⟨s, hs, h⟩
        · exact absurd h (Nat.not_lt.mpr hbound)

/-- What has a decimal at all has one without fraction digits. -/
theorem ofDigits?_isSome_iff {negative : Bool} {whole fraction : List Char} :
    (ofDigits? negative whole fraction).isSome ↔ roundedAt whole fraction 0 < mantissaBound := by
  rw [ofDigits?, atScale?_isSome_iff (Nat.min_le_left ..)]
  refine ⟨?_, fun h => ⟨0, Nat.zero_le _, h⟩⟩
  rintro ⟨_ | s, hs, h⟩
  · exact h
  · cases fraction with
    | nil => simp at hs
    | cons c cs =>
      have hwhole : 10 * ofDigits whole ≤ roundedAt whole (c :: cs) (s + 1) := by
        calc 10 * ofDigits whole
          _ ≤ ofDigits (whole ++ [c]) := by rw [ofDigits_append_singleton]; omega
          _ ≤ ofDigits (whole ++ (c :: cs).take (s + 1)) := by
            simpa using ofDigits_le_append (whole ++ [c]) (cs.take s)
          _ ≤ roundedAt whole (c :: cs) (s + 1) := by
            unfold roundedAt
            dsimp only
            split
            · split <;> omega
            · omega
      have hrounded : roundedAt whole (c :: cs) 0 ≤ ofDigits whole + 1 := by
        simp only [roundedAt, List.take_zero, List.append_nil, List.drop_zero]
        split <;> omega
      have hbound : 1 < mantissaBound := by decide
      omega

/-- The decimal that a text without an exponent stands for. -/
def ofText? (s : String) : Option Decimal :=
  match Numeral.ofText? s with
  | some n => if n.exponent = 0 then ofDigits? n.negative n.whole n.fraction else none
  | none => none

/-- The mantissa with its sign. -/
def signed (d : Decimal) : Int := if d.negative then -d.mantissa else d.mantissa

/-- Order by value: both mantissas are brought to the sum of the scales. -/
def compare (a b : Decimal) : Ordering :=
  Ord.compare (a.signed * tenPow b.scale) (b.signed * tenPow a.scale)

/-- The digits with the scale's trailing zeros, and a point if there is a scale. -/
def text (d : Decimal) : String :=
  let ds := padded (d.scale + 1) d.mantissa
  let whole := ds.take (ds.length - d.scale)
  let fraction := ds.drop (ds.length - d.scale)
  String.ofList ((if d.negative then ['-'] else []) ++ whole ++
    (if d.scale = 0 then [] else '.' :: fraction))

example : (ofText? "7.92281625142643375935439503355").map text =
    some "7.922816251426433759354395034" := by decide +kernel

example : (ofText? "79228162514264337593543950335.5").isNone := by decide +kernel

example : (ofText? "-00.00").map text = some "0.00" := by decide +kernel

example : text ⟨true, 0, 2, by decide, by decide⟩ = "-0.00" := by decide +kernel

end Decimal

end TwoWaySql.Number
