import TwoWaySql.Expr.Parser

/-!
# The grammar of expressions

Operators between operands have four levels, the comma being the loosest; `!` binds tighter and
members tighter still. A level is a chain of operands of the next tighter phrase, and associates to
the left. The rank of a phrase grows with its tightness: what derives a phrase derives any looser
one (`Derives.loosen`).
-/

namespace TwoWaySql.Expr

/-- The operators between operands, by how tightly they bind. -/
inductive Level where
  | list
  | or
  | and
  | comparison

inductive Phrase where
  /-- What is between brackets, or all of an expression. -/
  | group (start : Location)
  /-- Operands with the operators of a level between them. -/
  | chain (level : Level)
  /-- An operand with `!` any number of times before it. -/
  | unary
  /-- An operand with members after it. -/
  | access
  | primary

/-- The operands of a level. -/
def Level.inner : Level → Phrase
  | list => .chain .or
  | or => .chain .and
  | and => .chain .comparison
  | comparison => .unary

def BinaryOp.level : BinaryOp → Level
  | or => .or
  | and => .and
  | eq | ne | ge | le | gt | lt => .comparison

def TokenKind.isLiteral : TokenKind → Bool
  | int | long | float | double | decimal | char | string | true | false | null => Bool.true
  | name | property | function | operator _ | openBracket | closeBracket | blank | other
  | stop => Bool.false

/-- The tree of a literal. A number out of range, which is refused, has no value. -/
def Token.literal (source : String) (t : Token) : Tree :=
  .literal (.of ((literalValue? t.kind t.text.toList).getD .null)) ⟨source, t.start⟩

/-- The token is no literal without a value. -/
def Token.Readable (t : Token) : Prop :=
  t.kind.isLiteral = true → (literalValue? t.kind t.text.toList).isSome = true

/-- The tokens that count. -/
def significant (ts : List Token) : List Token :=
  ts.filter fun t => t.kind ≠ .blank ∧ t.kind ≠ .stop

/-- The name of a member, without the dot. -/
def Token.member (t : Token) : String := String.ofList (t.text.toList.drop 1)

/-- A list with another item; any other tree becomes the first item of a list. -/
def Tree.joined (left right : Tree) (location : Location) : Tree :=
  match left with
  | .list items _ => .list (items ++ [right]) location
  | tree => .list [tree, right] location

/-- The tokens form the phrase, and the tree is theirs. -/
inductive Derives (source : String) : Phrase → List Token → Tree → Prop where
  | empty {start : Location} : Derives source (.group start) [] (.empty start)
  | group {start : Location} {ts : List Token} {tree : Tree} :
      Derives source (.chain .list) ts tree → Derives source (.group start) ts tree
  | single {level : Level} {ts : List Token} {tree : Tree} :
      Derives source level.inner ts tree → Derives source (.chain level) ts tree
  | comma {t : Token} {ts us : List Token} {left right : Tree} :
      Derives source (.chain .list) ts left → t.kind = .operator .comma →
      Derives source (.chain .or) us right →
      Derives source (.chain .list) (ts ++ t :: us) (left.joined right ⟨source, t.start⟩)
  | binary {t : Token} {op : BinaryOp} {ts us : List Token} {left right : Tree} :
      Derives source (.chain op.level) ts left → t.kind = .operator (.binary op) →
      Derives source op.level.inner us right →
      Derives source (.chain op.level) (ts ++ t :: us) (.binary op left right ⟨source, t.start⟩)
  | operand {ts : List Token} {tree : Tree} :
      Derives source .access ts tree → Derives source .unary ts tree
  | not {t : Token} {ts : List Token} {tree : Tree} : t.kind = .operator .not →
      Derives source .unary ts tree →
      Derives source .unary (t :: ts) (.not tree ⟨source, t.start⟩)
  | primary {ts : List Token} {tree : Tree} :
      Derives source .primary ts tree → Derives source .access ts tree
  | property {t : Token} {ts : List Token} {receiver : Tree} :
      Derives source .access ts receiver → t.kind = .property →
      Derives source .access (ts ++ [t])
        (.property receiver (Token.member t) ⟨source, t.start⟩)
  | call {t u v : Token} {ts us : List Token} {receiver arguments : Tree} :
      Derives source .access ts receiver → t.kind = .function → u.kind = .openBracket →
      Derives source (.group ⟨source, u.start⟩) us arguments → v.kind = .closeBracket →
      Derives source .access (ts ++ t :: u :: (us ++ [v]))
        (.call receiver (Token.member t) arguments ⟨source, t.start⟩)
  | literal {t : Token} : t.kind.isLiteral = true →
      Derives source .primary [t] (Token.literal source t)
  | name {t : Token} : t.kind = .name →
      Derives source .primary [t] (.name t.text ⟨source, t.start⟩)
  | brackets {t u : Token} {ts : List Token} {tree : Tree} : t.kind = .openBracket →
      Derives source (.group ⟨source, t.start⟩) ts tree → u.kind = .closeBracket →
      Derives source .primary (t :: (ts ++ [u])) tree

/-! ## Ranks -/

/-- How tightly a phrase holds together. -/
def Phrase.rank : Phrase → Nat
  | group _ => 0
  | chain .list => 1
  | chain .or => 2
  | chain .and => 3
  | chain .comparison => 4
  | unary => 5
  | access => 6
  | primary => 7

theorem Level.rank_inner (level : Level) : level.inner.rank = (Phrase.chain level).rank + 1 := by
  cases level <;> rfl

/-- The phrase that one of a rank is made of. -/
def Phrase.inner : Phrase → Phrase
  | group _ => chain .list
  | chain level => level.inner
  | unary => access
  | access | primary => primary

theorem Phrase.rank_inner {phrase : Phrase} (h : phrase.rank < 7) :
    phrase.inner.rank = phrase.rank + 1 := by
  cases phrase with
  | chain level => exact level.rank_inner
  | primary => exact absurd h (Nat.lt_irrefl 7)
  | _ => rfl

theorem Phrase.rank_le (phrase : Phrase) : phrase.rank ≤ 7 := by
  cases phrase with
  | group => exact Nat.zero_le 7
  | chain level => cases level <;> decide
  | _ => decide

/-- Apart from groups, which differ in where they start, the rank is the phrase. -/
theorem Phrase.rank_inj {φ ψ : Phrase} (h : φ.rank = ψ.rank) (hφ : 0 < φ.rank) : φ = ψ := by
  rcases φ with _ | level | _ | _ | _ <;> rcases ψ with _ | level' | _ | _ | _ <;>
    (try cases level) <;> (try cases level') <;> first | cases hφ; done | rfl | cases h

theorem Derives.of_inner {source : String} {phrase : Phrase} {ts : List Token} {tree : Tree}
    (h : Derives source phrase.inner ts tree) : Derives source phrase ts tree := by
  cases phrase with
  | group start => exact .group h
  | chain level => exact .single h
  | unary => exact .operand h
  | access => exact .primary h
  | primary => exact h

/-- What holds together tightly stands where something looser may stand. -/
theorem Derives.loosen {source : String} {φ ψ : Phrase} {ts : List Token} {tree : Tree}
    (hφ : 0 < φ.rank) (hrank : φ.rank ≤ ψ.rank) (h : Derives source ψ ts tree) :
    Derives source φ ts tree := by
  obtain ⟨n, hn⟩ := Nat.exists_eq_add_of_le hrank
  induction n generalizing φ with
  | zero => rwa [Phrase.rank_inj hn.symm hφ]
  | succ n ih =>
    have hinner := Phrase.rank_inner (show φ.rank < 7 by have := ψ.rank_le; omega)
    exact .of_inner (ih (by omega) (by omega) (by omega))

/-! ## Operators -/

namespace Operator

/-- What an operator forms with its operands. -/
def phrase : Operator → Phrase
  | comma => .chain .list
  | not => .unary
  | binary op => .chain op.level

/-- What stands after an operator. -/
def right : Operator → Phrase
  | comma => Level.list.inner
  | not => .unary
  | binary op => op.level.inner

theorem rank_phrase_pos (op : Operator) : 0 < op.phrase.rank := by
  rcases op with _ | _ | op <;> (try cases op) <;> decide

theorem rank_phrase_le_right (op : Operator) : op.phrase.rank ≤ op.right.rank := by
  rcases op with _ | _ | op <;> (try cases op) <;> decide

theorem rank_right_le (op : Operator) : op.right.rank ≤ Phrase.unary.rank := by
  rcases op with _ | _ | op <;> (try cases op) <;> decide

theorem rank_right_pos (op : Operator) : 0 < op.right.rank :=
  Nat.lt_of_lt_of_le op.rank_phrase_pos op.rank_phrase_le_right

theorem rank_phrase_le (op : Operator) : op.phrase.rank ≤ Phrase.unary.rank :=
  Nat.le_trans op.rank_phrase_le_right op.rank_right_le

/-- Whatever holds together more tightly than an operator may be its right operand. -/
theorem rank_right_le_phrase {op op' : Operator} (h : op.phrase.rank < op'.phrase.rank) :
    op.right.rank ≤ op'.phrase.rank := by
  cases op with
  | not => exact absurd h (Nat.not_lt.mpr op'.rank_phrase_le)
  | comma => exact h
  | binary op => exact (Level.rank_inner op.level) ▸ h

/-- The right operand of an operator holds together more tightly than the operator. -/
theorem rank_phrase_lt {op op' : Operator} (hop : op'.leads = false)
    (h : op.right.rank ≤ op'.phrase.rank) : op.phrase.rank < op'.phrase.rank := by
  cases op with
  | not =>
    rcases op' with _ | _ | op' <;> (try cases op') <;>
      first | exact absurd h (by decide) | cases hop
  | comma => exact h
  | binary op =>
    calc (Phrase.chain op.level).rank
      _ < op.level.inner.rank := by rw [Level.rank_inner]; exact Nat.lt_succ_self _
      _ ≤ op'.phrase.rank := h

/-- The priorities are those of the phrases. -/
theorem appliesBefore_iff {op op' : Operator} (h : op'.leads = false) :
    op.appliesBefore op' = true ↔ op'.phrase.rank ≤ op.phrase.rank := by
  rcases op with _ | _ | op <;> rcases op' with _ | _ | op' <;> (try cases op) <;>
    (try cases op') <;> first | decide | exact absurd h (by decide)

theorem not_appliesBefore {op op' : Operator} (h : op'.leads = true) :
    op.appliesBefore op' = false := by
  simp [appliesBefore, h]

end Operator

end TwoWaySql.Expr
