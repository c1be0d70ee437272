import Mathlib.Data.List.Basic
import Mathlib.Data.List.Induction
import TwoWaySql.Proofs.Expr.Soundness

/-!
# The leaves of expressions

Operators, brackets, lists and members group what they are applied to and leave it in its place: the
leaves of a derived tree, from left to right, are those of its tokens that are operands by
themselves (`Derives.leaves_eq`). So the names that a parsed expression reads are those that its
text has, in the order of the text (`freeNames_of_parse`).
-/

namespace TwoWaySql

/-! ## First occurrences -/

/-- The second list has every element of the first one once, in the order in which they first
occur. -/
structure FirstOccurrences {α : Type} [DecidableEq α] (xs ys : List α) : Prop where
  mem_iff : ∀ x, x ∈ ys ↔ x ∈ xs
  nodup : ys.Nodup
  ordered : ys.Pairwise fun x y => xs.idxOf x < xs.idxOf y

section

variable {α : Type} [DecidableEq α] {xs ys : List α} {x : α}

/-- Another occurrence of an element changes nothing. -/
theorem FirstOccurrences.again (h : FirstOccurrences xs ys) (hx : x ∈ xs) :
    FirstOccurrences (xs ++ [x]) ys where
  mem_iff z := by
    rw [h.mem_iff, List.mem_append, List.mem_singleton]
    exact ⟨.inl, fun hz => hz.elim id fun hz => hz ▸ hx⟩
  nodup := h.nodup
  ordered := h.ordered.imp_of_mem fun {y z} hy hz hlt => by
    rwa [List.idxOf_append_of_mem ((h.mem_iff y).mp hy),
      List.idxOf_append_of_mem ((h.mem_iff z).mp hz)]

/-- The first occurrence of an element comes after those of the others. -/
theorem FirstOccurrences.first (h : FirstOccurrences xs ys) (hx : x ∉ xs) :
    FirstOccurrences (xs ++ [x]) (ys ++ [x]) where
  mem_iff z := by simp only [List.mem_append, h.mem_iff]
  nodup := by
    have hys : x ∉ ys := fun hys => hx ((h.mem_iff x).mp hys)
    rw [List.nodup_append]
    refine ⟨h.nodup, List.pairwise_singleton _ x, fun y hy z hz => ?_⟩
    rw [List.mem_singleton.mp hz]
    exact ne_of_mem_of_not_mem hy hys
  ordered := by
    rw [List.pairwise_append]
    refine ⟨h.ordered.imp_of_mem fun {y z} hy hz hlt => ?_, List.pairwise_singleton _ _, ?_⟩
    · rwa [List.idxOf_append_of_mem ((h.mem_iff y).mp hy),
        List.idxOf_append_of_mem ((h.mem_iff z).mp hz)]
    · intro y hy z hz
      obtain rfl := List.mem_singleton.mp hz
      have hxs := (h.mem_iff y).mp hy
      rw [List.idxOf_append_of_mem hxs, List.idxOf_append_of_notMem hx]
      exact Nat.lt_add_right _ (List.idxOf_lt_length_iff.mpr hxs)

theorem firstOccurrences_eraseDups (xs : List α) : FirstOccurrences xs xs.eraseDups := by
  induction xs using List.reverseRecOn with
  | nil => exact ⟨by simp, by simp, by simp⟩
  | append_singleton xs x ih =>
    rw [List.eraseDups_append]
    by_cases hx : x ∈ xs
    · have hnone : ([x].removeAll xs).eraseDups = [] := by simp [List.removeAll, hx]
      rw [hnone, List.append_nil]
      exact ih.again hx
    · have hone : ([x].removeAll xs).eraseDups = [x] := by
        simp [List.removeAll, hx, List.eraseDups_cons]
      rw [hone]
      exact ih.first hx

end

namespace Expr

/-! ## Leaves of trees -/

namespace Tree

mutual

/-- The literals and names of the tree, from left to right. -/
def leaves : Tree → List Tree
  | literal value l => [.literal value l]
  | name n l => [.name n l]
  | property receiver _ _ => receiver.leaves
  | call receiver _ arguments _ => receiver.leaves ++ arguments.leaves
  | list items _ => itemLeaves items
  | not operand _ => operand.leaves
  | binary _ left right _ => left.leaves ++ right.leaves
  | empty _ => []

def itemLeaves : List Tree → List Tree
  | [] => []
  | t :: ts => t.leaves ++ itemLeaves ts

end

/-- The name that a leaf is. -/
def leafName? : Tree → Option String
  | name n _ => some n
  | _ => none

mutual

theorem names_eq : (t : Tree) → t.names = t.leaves.filterMap leafName?
  | literal _ _ | name _ _ | empty _ => by simp [names, leaves, leafName?]
  | property receiver _ _ => by simp only [names, leaves, names_eq receiver]
  | call receiver _ arguments _ => by
    simp only [names, leaves, names_eq receiver, names_eq arguments, List.filterMap_append]
  | list items _ => by simp only [names, leaves, itemNames_eq items]
  | not operand _ => by simp only [names, leaves, names_eq operand]
  | binary _ left right _ => by
    simp only [names, leaves, names_eq left, names_eq right, List.filterMap_append]

theorem itemNames_eq : (ts : List Tree) → itemNames ts = (itemLeaves ts).filterMap leafName?
  | [] => by simp [itemNames, itemLeaves]
  | t :: ts => by
    simp only [itemNames, itemLeaves, names_eq t, itemNames_eq ts, List.filterMap_append]

end

theorem itemLeaves_append (ts us : List Tree) :
    itemLeaves (ts ++ us) = itemLeaves ts ++ itemLeaves us := by
  induction ts with
  | nil => rfl
  | cons t ts ih => rw [List.cons_append, itemLeaves, itemLeaves, ih, List.append_assoc]

/-- A further item comes after the leaves of the others. -/
theorem leaves_joined (left right : Tree) (location : Location) :
    (left.joined right location).leaves = left.leaves ++ right.leaves := by
  cases left with
  | list items _ => simp [joined, leaves, itemLeaves_append, itemLeaves]
  | _ => simp [joined, leaves, itemLeaves]

end Tree

/-! ## Leaves of tokens -/

variable {limit : Nat} {source : String} {ts : List Token} {t : Token} {tree : Tree}

/-- Only names and literals are leaves. -/
theorem leaf?_eq_none {k : TokenKind} (ht : t.kind = k) (hk : k ≠ .name ∧ k.isLiteral = false) :
    Token.leaf? source t = none := by
  simp [Token.leaf?, ht, hk]

theorem filterMap_significant (ts : List Token) :
    (significant ts).filterMap (Token.leaf? source) = ts.filterMap (Token.leaf? source) := by
  rw [significant, List.filterMap_filter]
  refine List.filterMap_congr fun t _ => ?_
  by_cases hblank : t.kind = .blank
  · have hnone : Token.leaf? source t = none := leaf?_eq_none hblank (by decide)
    simp [hblank, hnone]
  · by_cases hstop : t.kind = .stop
    · have hnone : Token.leaf? source t = none := leaf?_eq_none hstop (by decide)
      simp [hstop, hnone]
    · simp [hblank, hstop]

/-- The leaves of what is derived are those of its tokens, in their order. -/
theorem Derives.leaves_eq {phrase : Phrase} (h : Derives source phrase ts tree)
    (hreadable : ∀ t ∈ ts, Token.Readable t) :
    tree.leaves = ts.filterMap (Token.leaf? source) := by
  induction h with
  | empty => simp [Tree.leaves]
  | group _ ih | single _ ih | operand _ ih | primary _ ih => exact ih hreadable
  | comma _ ht _ ihleft ihright =>
    obtain ⟨hts, -, hus⟩ := (List.forall_mem_append.mp hreadable).imp_right List.forall_mem_cons.mp
    rw [Tree.leaves_joined, ihleft hts, ihright hus, List.filterMap_append,
      List.filterMap_cons_none (leaf?_eq_none ht ⟨nofun, rfl⟩)]
  | binary _ ht _ ihleft ihright =>
    obtain ⟨hts, -, hus⟩ := (List.forall_mem_append.mp hreadable).imp_right List.forall_mem_cons.mp
    rw [Tree.leaves, ihleft hts, ihright hus, List.filterMap_append,
      List.filterMap_cons_none (leaf?_eq_none ht ⟨nofun, rfl⟩)]
  | not ht _ ih =>
    rw [Tree.leaves, ih (List.forall_mem_cons.mp hreadable).2,
      List.filterMap_cons_none (leaf?_eq_none ht ⟨nofun, rfl⟩)]
  | property _ ht ih =>
    rw [Tree.leaves, ih (List.forall_mem_append.mp hreadable).1, List.filterMap_append,
      List.filterMap_cons_none (leaf?_eq_none ht ⟨nofun, rfl⟩), List.filterMap_nil,
      List.append_nil]
  | call _ ht hu _ hv ih ihgroup =>
    obtain ⟨hts, -, -, hus, -⟩ := by
      simpa only [List.forall_mem_append, List.forall_mem_cons] using hreadable
    rw [Tree.leaves, ih hts, ihgroup hus, List.filterMap_append,
      List.filterMap_cons_none (leaf?_eq_none ht ⟨nofun, rfl⟩),
      List.filterMap_cons_none (leaf?_eq_none hu ⟨nofun, rfl⟩), List.filterMap_append,
      List.filterMap_cons_none (leaf?_eq_none hv ⟨nofun, rfl⟩), List.filterMap_nil,
      List.append_nil]
  | @literal t hliteral =>
    obtain ⟨value, hvalue⟩ :=
      Option.isSome_iff_exists.mp (hreadable t (List.mem_singleton_self t) hliteral)
    simp [Token.literal, Tree.leaves, leaf?_literal hliteral, hvalue]
  | name ht => simp [Tree.leaves, Token.leaf?, ht]
  | brackets ht _ hu ih =>
    obtain ⟨-, hts, -⟩ := by
      simpa only [List.forall_mem_append, List.forall_mem_cons] using hreadable
    rw [ih hts, List.filterMap_cons_none (leaf?_eq_none ht ⟨nofun, rfl⟩), List.filterMap_append,
      List.filterMap_cons_none (leaf?_eq_none hu ⟨nofun, rfl⟩), List.filterMap_nil,
      List.append_nil]

/-! ## Names -/

/-- The texts of the names among the tokens. -/
def nameTexts (ts : List Token) : List String := (ts.filter (·.kind = .name)).map (·.text)

theorem leafName?_leaf? (t : Token) :
    (Token.leaf? source t).bind Tree.leafName? = if t.kind = .name then some t.text else none := by
  unfold Token.leaf?
  split
  · rfl
  · split
    · cases literalValue? t.kind t.text.toList <;> rfl
    · rfl

theorem filterMap_leafName? (ts : List Token) :
    (ts.filterMap (Token.leaf? source)).filterMap Tree.leafName? = nameTexts ts := by
  rw [List.filterMap_filterMap]
  induction ts with
  | nil => rfl
  | cons t ts ih =>
    rw [List.filterMap_cons, ih, leafName?_leaf?]
    by_cases ht : t.kind = .name <;> simp [nameTexts, ht]

/-- The operands of a parsed expression, literals as well as names, are those of its tokens, each as
often as it is written and in the order of the text. So its free names are the texts of the tokens
that are names, each once, where it first occurs. -/
theorem freeNames_of_parse (limit : Nat) (source : String) (tree : Tree)
    (h : parse limit source = .ok tree) :
    tree.leaves = (lex source).tokens.filterMap (Token.leaf? source) ∧
      FirstOccurrences (nameTexts (lex source).tokens) tree.freeNames := by
  obtain ⟨hreadable, hderives⟩ := derives_of_parse h
  have hleaves : tree.leaves = (lex source).tokens.filterMap (Token.leaf? source) := by
    rw [hderives.leaves_eq fun t ht => hreadable t (List.mem_filter.mp ht).1, filterMap_significant]
  refine ⟨hleaves, ?_⟩
  rw [Tree.freeNames, Tree.names_eq, hleaves, filterMap_leafName?]
  exact firstOccurrences_eraseDups _

/-- Names come again in brackets, in arguments and after operators that bind more tightly. -/
theorem freeNames_of_parse_nested :
    ∃ tree, parse 8 "b.f(a, b.c, 1) == (b || !d && a), d" = .ok tree ∧
      tree.freeNames = ["b", "a", "d"] ∧
      nameTexts (lex "b.f(a, b.c, 1) == (b || !d && a), d").tokens =
        ["b", "a", "b", "b", "d", "a", "d"] ∧
      FirstOccurrences (nameTexts (lex "b.f(a, b.c, 1) == (b || !d && a), d").tokens)
        tree.freeNames := by
  have hnames : (parse 8 "b.f(a, b.c, 1) == (b || !d && a), d").toOption.map Tree.freeNames =
      some ["b", "a", "d"] := by
    decide +kernel
  obtain ⟨tree, htree, hfree⟩ := exists_ok_of_map hnames
  exact ⟨tree, htree, hfree, by decide +kernel, (freeNames_of_parse 8 _ tree htree).2⟩

end Expr

end TwoWaySql
