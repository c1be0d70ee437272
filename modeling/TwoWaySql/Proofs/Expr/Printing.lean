import TwoWaySql.Proofs.Expr.Reading

/-!
# Printing expressions

An expression is printed with brackets around every operand and receiver that is neither a name nor
a member. What is printed is parsed to the same tree but for locations (`parse_written`).
-/

namespace TwoWaySql.Expr

open Text (isBlank isIdentifier isIdentifierStart isIdentifierPart identifier_ascii
  isBlank_of_isIdentifierPart)

/-- What brackets and quotation marks leave open about how a tree is printed. -/
structure Style where
  /-- What stands on both sides of operators between operands, and after commas. -/
  gap : List Char
  isBlank_gap : ∀ c ∈ gap, isBlank c = true
  /-- Whether arguments are bracketed as operands are. -/
  bracketsArguments : Bool

def bracketedIf (brackets : Bool) (text : List Char) : List Char :=
  if brackets then '(' :: (text ++ [')']) else text

namespace Tree

/-- Whether the tree is bracketed as an operand. No arguments and several ones are no operand. -/
def needsBrackets : Tree → Bool
  | literal _ _ | not _ _ | binary _ _ _ _ => true
  | name _ _ | property _ _ _ | call _ _ _ _ | list _ _ | empty _ => false

section

variable (style : Style)

mutual

/-- The tree as it is printed. -/
def written : Tree → List Char
  | literal value _ => ((writtenLiteral? value.value).map (·.2)).getD []
  | name n _ => n.toList
  | property receiver n _ =>
    bracketedIf receiver.needsBrackets receiver.written ++ '.' :: n.toList
  | call receiver n arguments _ =>
    bracketedIf receiver.needsBrackets receiver.written ++ ('.' :: n.toList ++
      ('(' :: (bracketedIf (style.bracketsArguments && arguments.needsBrackets) arguments.written ++
        [')'])))
  | list [] _ => []
  | list (item :: items) _ =>
    bracketedIf (style.bracketsArguments && item.needsBrackets) item.written ++ writtenItems items
  | not operand _ => '!' :: bracketedIf operand.needsBrackets operand.written
  | binary op left right _ =>
    bracketedIf left.needsBrackets left.written ++ (style.gap ++ (op.symbol.toList ++
      (style.gap ++ bracketedIf right.needsBrackets right.written)))
  | empty _ => []

/-- Items after the first one, each after a comma. -/
def writtenItems : List Tree → List Char
  | [] => []
  | item :: items =>
    ',' :: (style.gap ++
      bracketedIf (style.bracketsArguments && item.needsBrackets) item.written) ++
      writtenItems items

end

end

/-- The trees of expressions whose literals can be written. A name is a valid identifier other than
`true`, `false` and `null`, and the name of a member any valid identifier. The arguments of a call
are none, one, or a list of two or more, and none of them is a list or empty itself. -/
inductive Printable : Tree → Prop where
  | literal {v : Value} {l : Location} : (writtenLiteral? v).isSome = true →
      Printable (.literal (.of v) l)
  | name {n : String} {l : Location} : isIdentifier n.toList = true →
      n ≠ "true" → n ≠ "false" → n ≠ "null" → Printable (.name n l)
  | property {receiver : Tree} {n : String} {l : Location} : Printable receiver →
      isIdentifier n.toList = true → Printable (.property receiver n l)
  | callEmpty {receiver : Tree} {n : String} {l l' : Location} : Printable receiver →
      isIdentifier n.toList = true → Printable (.call receiver n (.empty l') l)
  | callSingle {receiver argument : Tree} {n : String} {l : Location} : Printable receiver →
      isIdentifier n.toList = true → Printable argument → Printable (.call receiver n argument l)
  | callList {receiver : Tree} {n : String} {items : List Tree} {l l' : Location} :
      Printable receiver → isIdentifier n.toList = true → 2 ≤ items.length →
      (∀ item ∈ items, Printable item) → Printable (.call receiver n (.list items l') l)
  | not {operand : Tree} {l : Location} : Printable operand → Printable (.not operand l)
  | binary {op : BinaryOp} {left right : Tree} {l : Location} : Printable left →
      Printable right → Printable (.binary op left right l)

end Tree

/-! ## Reading what is printed -/

theorem startsOperand_bracketedIf {text : List Char} (brackets : Bool) (h : StartsOperand text) :
    StartsOperand (bracketedIf brackets text) := by
  cases brackets with
  | true => exact ⟨'(', _, rfl, by decide, by decide⟩
  | false => exact h

theorem StartsOperand.append {text : List Char} (h : StartsOperand text) (more : List Char) :
    StartsOperand (text ++ more) := by
  obtain ⟨c, cs, rfl, hc⟩ := h
  exact ⟨c, cs ++ more, rfl, hc⟩

/-- A literal is read, so it starts with a character of its own. -/
theorem startsOperand_literal {v : Value} {k : TokenKind} {text : List Char}
    (h : writtenLiteral? v = some (k, text)) : StartsOperand text := by
  obtain ⟨hliteral, -, c, cs, rfl, hscan⟩ := reads_writtenLiteral? h
  refine ⟨c, cs, rfl, ?_, ?_⟩
  · cases hc : isBlank c with
    | false => rfl
    | true =>
      rw [scan_false] at hscan
      unfold scanPlain at hscan
      rw [if_pos hc] at hscan
      obtain ⟨rfl, -⟩ := Scan.token.inj hscan
      cases hliteral
  · rintro rfl
    have hstart : isIdentifierStart '=' = false := (identifier_ascii (by decide)).2
    have hother : scan false '=' cs = .token .other 0 false := by
      rw [scan_false]
      unfold scanPlain
      rw [if_neg (by decide), if_neg (by decide), if_neg (by decide), if_neg (by decide),
        if_neg (by decide), if_neg (by decide), if_neg (by decide), if_neg (by simp),
        if_neg (by simp [hstart]), if_neg (by decide)]
    rw [hother] at hscan
    obtain ⟨rfl, -⟩ := Scan.token.inj hscan
    cases hliteral

theorem startsOperand_name {text : List Char} (h : isIdentifier text = true) :
    StartsOperand text := by
  cases text with
  | nil => cases h
  | cons c cs =>
    have hstart := (Bool.and_eq_true_iff.mp h).1
    refine ⟨c, cs, rfl, isBlank_of_isIdentifierPart (Text.isIdentifierPart_of_start hstart), ?_⟩
    rintro rfl
    rw [(identifier_ascii (by decide)).2] at hstart
    exact absurd hstart (by decide)

theorem wordKind_eq_name {n : String} (htrue : n ≠ "true") (hfalse : n ≠ "false")
    (hnull : n ≠ "null") : wordKind n.toList = .name := by
  have hne {m : String} (h : n ≠ m) (cs : List Char) (hm : m.toList = cs) : n.toList ≠ cs :=
    hm ▸ mt String.toList_inj.mp h
  unfold wordKind
  rw [if_neg (hne htrue ['t', 'r', 'u', 'e'] rfl),
    if_neg (hne hfalse ['f', 'a', 'l', 's', 'e'] rfl), if_neg (hne hnull ['n', 'u', 'l', 'l'] rfl)]

/-- What is printed for the tree is read as the tree, as an argument and as an operand. -/
structure ReadBack (style : Style) (t : Tree) : Prop where
  item : ReadsAs (.chain .or) EndsItem (t.written style) t.unlocated
  operand : ReadsAs .access EndsOperand (bracketedIf t.needsBrackets (t.written style)) t.unlocated
  starts : StartsOperand (t.written style)

variable {style : Style} {t : Tree}

theorem ReadBack.of_item (hneeds : t.needsBrackets = true)
    (hstarts : StartsOperand (t.written style))
    (h : ReadsAs (.chain .or) EndsItem (t.written style) t.unlocated) : ReadBack style t where
  item := h
  operand := by
    rw [hneeds]
    exact (h.loosen (by decide) (by decide)).brackets.mono fun _ _ => trivial
  starts := hstarts

theorem ReadBack.of_access (hneeds : t.needsBrackets = false)
    (hstarts : StartsOperand (t.written style))
    (h : ReadsAs .access EndsOperand (t.written style) t.unlocated) : ReadBack style t where
  item := (h.loosen (by decide) (by decide)).mono fun _ => EndsItem.endsOperand
  operand := by
    rw [hneeds]
    exact h
  starts := hstarts

theorem ReadBack.receiver (h : ReadBack style t) :
    ReadsAs .access StartsMember (bracketedIf t.needsBrackets (t.written style)) t.unlocated :=
  h.operand.mono fun _ => StartsMember.endsOperand

/-- The tree as it is printed among arguments. -/
theorem ReadBack.argument (h : ReadBack style t) : ReadsAs (.chain .or) EndsItem
    (bracketedIf (style.bracketsArguments && t.needsBrackets) (t.written style)) t.unlocated := by
  cases hbrackets : style.bracketsArguments && t.needsBrackets with
  | false => exact h.item
  | true =>
    have hoperand := h.operand
    rw [(Bool.and_eq_true_iff.mp hbrackets).2] at hoperand
    exact (hoperand.loosen (by decide) (by decide)).mono fun _ => EndsItem.endsOperand

theorem ReadBack.call {receiver arguments : Tree} {n : String} {l : Location}
    (h : ReadBack style receiver) (hn : isIdentifier n.toList = true)
    (harguments : Fills (bracketedIf (style.bracketsArguments && arguments.needsBrackets)
      (arguments.written style)) arguments.unlocated) :
    ReadBack style (.call receiver n arguments l) := by
  refine .of_access rfl ?_ ?_ <;> simp only [Tree.written, Tree.unlocated]
  · exact (startsOperand_bracketedIf _ h.starts).append _
  · exact (h.receiver.call hn harguments).mono fun _ _ => trivial

/-- An item after the first one as it is printed, and the tree that it is read as. -/
def printedItem (style : Style) (item : Tree) : List Char × Tree :=
  (style.gap ++ bracketedIf (style.bracketsArguments && item.needsBrackets) (item.written style),
    item.unlocated)

theorem writtenItems_eq (style : Style) (items : List Tree) :
    Tree.writtenItems style items =
      (items.map (printedItem style)).flatMap fun item => ',' :: item.1 := by
  induction items with
  | nil => rfl
  | cons item items ih => simp [Tree.writtenItems, ih, printedItem]

theorem ReadBack.item_more (h : ReadBack style t) :
    ReadsAs (.chain .or) EndsItem (printedItem style t).1 (printedItem style t).2 :=
  h.argument.blanks style.isBlank_gap (startsOperand_bracketedIf _ h.starts)

/-- A single argument is no list. -/
theorem items_of_printable (h : t.Printable) : t.items = [t] := by
  cases h <;> rfl

/-- A list of two or more is read as a list. -/
theorem fills_list {items : List Tree} {l : Location} (hlength : 2 ≤ items.length)
    (hprintable : ∀ item ∈ items, item.Printable) (hitems : ∀ item ∈ items, ReadBack style item) :
    Fills ((Tree.list items l).written style) (Tree.list items l).unlocated := by
  match items, hlength with
  | first :: next :: more, _ =>
    obtain ⟨hfirst, hmore⟩ := List.forall_mem_cons.mp hitems
    have hlist : ReadsAs (.chain .list) EndsItem _ _ :=
      hfirst.argument.loosen (by decide) (by decide)
    have hne : (next :: more).map (printedItem style) ≠ [] := List.cons_ne_nil _ _
    have hfills := (hlist.items hne
      (List.forall_mem_map.mpr fun item hitem => (hmore item hitem).item_more)).fills
    rw [Tree.items_unlocated, items_of_printable (hprintable first (List.mem_cons_self ..)),
      List.map_map] at hfills
    rw [Tree.written, writtenItems_eq, Tree.unlocated, Tree.unlocatedItems_eq]
    exact hfills

theorem readBack_of_printable (h : t.Printable) : ReadBack style t := by
  induction h with
  | @literal v l hv =>
    obtain ⟨⟨k, text⟩, htext⟩ := Option.isSome_iff_exists.mp hv
    have hwritten : (Tree.literal (.of v) l).written style = text := by
      simp [Tree.written, Typed.of, htext]
    refine .of_item rfl ?_ ?_ <;> rw [hwritten]
    · exact startsOperand_literal htext
    · exact (ReadsAs.literal htext).loosen (by decide) (by decide)
  | @name n l hidentifier htrue hfalse hnull =>
    have hwritten : (Tree.name n l).written style = n.toList := by simp only [Tree.written]
    refine .of_access rfl ?_ ?_ <;> rw [hwritten]
    · exact startsOperand_name hidentifier
    · exact ReadsAs.name hidentifier (wordKind_eq_name htrue hfalse hnull)
  | property _ hn ih =>
    refine .of_access rfl ?_ ?_ <;> simp only [Tree.written, Tree.unlocated]
    · exact (startsOperand_bracketedIf _ ih.starts).append _
    · exact ih.receiver.property hn
  | callEmpty _ hn ih =>
    refine ih.call hn ?_
    rw [Tree.needsBrackets, Bool.and_false, Tree.written]
    exact fills_empty
  | callSingle _ hn _ ih iharg =>
    exact ih.call hn (iharg.argument.loosen (by decide) (by decide)).fills
  | callList _ hn hlength hitems ih ihitems =>
    refine ih.call hn ?_
    rw [Tree.needsBrackets, Bool.and_false]
    exact fills_list hlength hitems ihitems
  | not _ ih =>
    refine .of_item rfl ?_ ?_ <;> simp only [Tree.written, Tree.unlocated]
    · exact ⟨'!', _, rfl, by decide, by decide⟩
    · exact ((ih.operand.loosen (by decide) (by decide)).not.loosen (by decide) (by decide)).mono
        fun _ => EndsItem.endsOperand
  | @binary op left right l _ _ ihleft ihright =>
    refine .of_item rfl ?_ ?_ <;> simp only [Tree.written, Tree.unlocated]
    · exact (startsOperand_bracketedIf _ ihleft.starts).append _
    · have hbinary := ihleft.operand.binary op style.isBlank_gap ihright.operand
        (startsOperand_bracketedIf _ ihright.starts)
      exact (hbinary.loosen (by decide) (by cases op <;> decide)).mono
        fun _ => EndsItem.endsOperand

/-- What is printed for a tree is parsed to the tree, but for locations, if the limit is at least
its length. -/
theorem parse_written (style : Style) (h : t.Printable) {limit : Nat}
    (hlimit : (t.written style).length ≤ limit) :
    (parse limit (String.ofList (t.written style))).map Tree.unlocated = .ok t.unlocated := by
  have hread : ReadBack style t := readBack_of_printable h
  have hitem :
      ReadsAs (.chain .or) EndsItem (String.ofList (t.written style)).toList t.unlocated := by
    rw [String.toList_ofList]
    exact hread.item
  rw [hitem.parse (by decide) endsItem_nil (by rwa [String.length_ofList]),
    Tree.unlocated_unlocated]

/-- Extreme integers, a quotation mark as a character and in a string, names that start like
literals, and calls within calls. -/
def intricate : Tree :=
  .binary .and
    (.not (.call (.literal (.of (.string "say \"\"hi\"")) nowhere) "true"
      (.list [.literal (.of (.int (-2147483648))) nowhere,
        .call (.name "nullable" nowhere) "f" (.empty nowhere) nowhere,
        .not (.not (.name "true1" nowhere) nowhere) nowhere] nowhere) nowhere) nowhere)
    (.binary .le (.property (.name "$x" nowhere) "size" nowhere)
      (.call (.literal (.of (.long (-9223372036854775808))) nowhere) "max"
        (.binary .eq (.literal (.of (.char '\x27')) nowhere) (.literal (.of .null) nowhere) nowhere)
        nowhere) nowhere) nowhere

/-- One space around operators and after commas. -/
def spaced : Style := ⟨[' '], List.forall_mem_singleton.mpr (by decide), false⟩

example : String.ofList (intricate.written spaced) =
    "(!(\"say \"\"\"\"hi\"\"\").true(-2147483648, nullable.f(), !(!true1))) && " ++
      "($x.size <= (-9223372036854775808L).max((\x27\x27\x27) == (null)))" := by
  decide +kernel

theorem parse_written_intricate :
    intricate.Printable ∧ (intricate.written spaced).length ≤ 150 ∧
      (parse 150 (String.ofList (intricate.written spaced))).map Tree.unlocated =
        .ok intricate.unlocated := by
  have hprintable : intricate.Printable := by
    have hname (n : String) (h : isIdentifier n.toList = true ∧ n ≠ "true" ∧ n ≠ "false" ∧
        n ≠ "null") : (Tree.name n nowhere).Printable := .name h.1 h.2.1 h.2.2.1 h.2.2.2
    refine .binary (.not (.callList (.literal rfl) (by decide +kernel) (by decide) ?items))
      (.binary (.property (hname "$x" (by decide +kernel)) (by decide +kernel))
        (.callSingle (.literal rfl) (by decide +kernel) (.binary (.literal rfl) (.literal rfl))))
    simp only [List.forall_mem_cons]
    exact ⟨.literal rfl, .callEmpty (hname "nullable" (by decide +kernel)) (by decide +kernel),
      .not (.not (hname "true1" (by decide +kernel))), nofun⟩
  have hlength : (intricate.written spaced).length ≤ 150 := by decide +kernel
  exact ⟨hprintable, hlength, parse_written spaced hprintable hlength⟩

end TwoWaySql.Expr
