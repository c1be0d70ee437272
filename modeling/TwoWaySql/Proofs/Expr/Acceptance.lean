import TwoWaySql.Proofs.Expr.Completeness

/-!
# What the expression parser accepts

The parser and the grammar agree but for the literals out of range. An integer or a decimal out of
range is refused, a binary number out of range becomes infinite. So a text is parsed as the grammar
says unless it is accepted with such a literal (`parsesAsDerived_iff`).
-/

namespace TwoWaySql.Expr

open Number (Numeral Binary Decimal)

/-- The number type of the literal has a number for it; an infinite one is none. -/
def Token.inRange (t : Token) : Bool :=
  let numeral := (Numeral.read t.text.toList).1
  match t.kind with
  | .int => Int32.minValue.toInt ≤ numeral.toInt && numeral.toInt ≤ Int32.maxValue.toInt
  | .long => Int64.minValue.toInt ≤ numeral.toInt && numeral.toInt ≤ Int64.maxValue.toInt
  | .float => (Binary.ofNumeral Number.single numeral).isFinite
  | .double => (Binary.ofNumeral Number.double numeral).isFinite
  | .decimal => Decimal.roundedAt numeral.whole numeral.fraction 0 < Number.mantissaBound
  | _ => true

def TokenKind.isBinary : TokenKind → Bool
  | float | double => Bool.true
  | _ => Bool.false

/-- The expression is parsed if its literals are in range and the grammar derives its tokens, and
the tree is the derived one. -/
def ParsesAsDerived (limit : Nat) (source : String) : Prop :=
  ∀ tree : Tree, parse limit source = .ok tree ↔
    (∀ t ∈ (lex source).tokens, Token.inRange t = true) ∧
      Derives source (.group ⟨source, 0⟩) (significant (lex source).tokens) tree

/-- Among the numbers, only binary ones out of range are read. -/
theorem isSome_literalValue?_iff {t : Token} (hnumber : t.kind.isNumber = true) :
    (literalValue? t.kind t.text.toList).isSome = true ↔
      (t.kind.isBinary = false → Token.inRange t = true) := by
  obtain ⟨kind, text, start⟩ := t
  cases kind with
  | int => simp [literalValue?, Number.int32?, Token.inRange, TokenKind.isBinary]
  | long => simp [literalValue?, Number.int64?, Token.inRange, TokenKind.isBinary]
  | float | double => simp [literalValue?, TokenKind.isBinary]
  | decimal =>
    simp [literalValue?, Decimal.ofDigits?_isSome_iff, Token.inRange, TokenKind.isBinary]
  | _ => cases hnumber

theorem readable_iff {source : String} {t : Token} (ht : t ∈ (lex source).tokens) :
    Token.Readable t ↔ (t.kind.isBinary = false → Token.inRange t = true) := by
  cases hnumber : t.kind.isNumber with
  | true =>
    have hliteral : t.kind.isLiteral = true := by
      cases hkind : t.kind <;> rw [hkind] at hnumber <;> first | rfl | cases hnumber
    rw [← isSome_literalValue?_iff hnumber]
    exact ⟨fun h => h hliteral, fun h _ => h⟩
  | false =>
    have hrange : Token.inRange t = true := by
      unfold Token.inRange
      cases hkind : t.kind <;> rw [hkind] at hnumber <;> first | rfl | cases hnumber
    exact ⟨fun _ _ => hrange, fun _ hliteral => literalValue?_isSome ht hliteral hnumber⟩

/-- A text whose tokens fit the limit is parsed exactly if the grammar derives them and no integer
or decimal is out of range, and to the derived tree. That the same holds with the binary numbers in
range too is true of the texts that are not accepted with an infinite one. -/
theorem parsesAsDerived_iff {limit : Nat} {source : String}
    (hlex : (lex source).failure? = none)
    (hlimit : (significant (lex source).tokens).length ≤ limit) :
    (∀ tree : Tree, parse limit source = .ok tree ↔
      (∀ t ∈ (lex source).tokens, t.kind.isBinary = false → Token.inRange t = true) ∧
        Derives source (.group ⟨source, 0⟩) (significant (lex source).tokens) tree) ∧
    (ParsesAsDerived limit source ↔ ∀ tree : Tree, parse limit source = .ok tree →
      ∀ t ∈ (lex source).tokens, t.kind.isBinary = true → Token.inRange t = true) := by
  have hparse (tree : Tree) : parse limit source = .ok tree ↔
      (∀ t ∈ (lex source).tokens, t.kind.isBinary = false → Token.inRange t = true) ∧
        Derives source (.group ⟨source, 0⟩) (significant (lex source).tokens) tree := by
    rw [parse_eq_ok_iff_derives hlex hlimit]
    exact and_congr_left fun _ => forall₂_congr fun t ht => readable_iff ht
  refine ⟨hparse, fun h tree htree t ht _ => ((h tree).mp htree).1 t ht, fun h tree => ?_⟩
  rw [hparse tree]
  constructor
  · intro hread
    refine ⟨fun t ht => ?_, hread.2⟩
    cases hbinary : t.kind.isBinary with
    | true => exact h tree ((hparse tree).mpr hread) t ht hbinary
    | false => exact hread.1 t ht hbinary
  · exact fun hread => ⟨fun t ht _ => hread.1 t ht, hread.2⟩

/-- An expression with operators of all levels, a call and a binary number. -/
def allLevels : String := "a, !b.c(1) || 2.5F >= -3 && (d)"

theorem parsesAsDerived_iff_levels :
    (lex allLevels).failure? = none ∧ (significant (lex allLevels).tokens).length ≤ 16 ∧
      ParsesAsDerived 16 allLevels := by
  have hlex : (lex allLevels).failure? = none := by decide +kernel
  have hlimit : (significant (lex allLevels).tokens).length ≤ 16 := by decide +kernel
  have hrange : ∀ t ∈ (lex allLevels).tokens, t.kind.isBinary = true → Token.inRange t = true := by
    decide +kernel
  exact ⟨hlex, hlimit, (parsesAsDerived_iff hlex hlimit).2.mpr fun _ _ => hrange⟩

/-- A literal above all numbers of 32 bits. -/
def tooLarge : String := "999999999999999999999999999999999999999F"

/-- It is accepted, though it is out of range. -/
theorem parse_accepts_tooLarge :
    (lex tooLarge).failure? = none ∧ (lex tooLarge).tokens.length ≤ 2 ∧
      (∃ tree, parse 2 tooLarge = .ok tree) ∧ ¬ ParsesAsDerived 2 tooLarge := by
  have h : (parse 2 tooLarge).toOption.map (fun _ => ()) = some () := by decide +kernel
  obtain ⟨tree, htree, -⟩ := exists_ok_of_map h
  have hrange : ¬ ∀ t ∈ (lex tooLarge).tokens, Token.inRange t = true := by decide +kernel
  exact ⟨by decide +kernel, by decide +kernel, ⟨tree, htree⟩,
    fun hparses => hrange ((hparses tree).mp htree).1⟩

end TwoWaySql.Expr
