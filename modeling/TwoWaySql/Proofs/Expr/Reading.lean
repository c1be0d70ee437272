import TwoWaySql.Proofs.Expr.Concatenation
import TwoWaySql.Proofs.Expr.Literals

/-!
# Reading phrases

A text reads as a phrase with a tree if its tokens, in front of whatever may follow, derive the
phrase with the tree (`ReadsAs`). There is one lemma for each way of putting texts together. Trees
are given without locations.
-/

namespace TwoWaySql.Expr

open Text (isBlank isIdentifier isIdentifierStart isIdentifierPart identifier_ascii
  isIdentifierPart_of_isBlank)

/-! ## What may follow -/

/-- What may follow an item of a list, which may be any expression without a comma. -/
def EndsItem (rest : List Char) : Prop := ∀ d ∈ rest.head?, d = ',' ∨ d = ')'

/-- What may follow a name or a member. -/
def EndsOperand (rest : List Char) : Prop :=
  ∀ d ∈ rest.head?, isIdentifierPart d = false ∧ d ≠ '('

variable {rest text : List Char}

theorem endsItem_nil : EndsItem [] := nofun

theorem endsItem_comma (rest : List Char) : EndsItem (',' :: rest) := by
  rintro _ ⟨⟩
  exact .inl rfl

theorem endsItem_closeBracket (rest : List Char) : EndsItem (')' :: rest) := by
  rintro _ ⟨⟩
  exact .inr rfl

/-- The end of an item ends any token. -/
theorem EndsItem.mayPrecede (h : EndsItem rest) (k : TokenKind) :
    ∀ d ∈ rest.head?, k.mayPrecede d = true := by
  have hcomma : isIdentifierPart ',' = false ∧ isBlank ',' = false :=
    ⟨(identifier_ascii (by decide)).1, by decide⟩
  have hbracket : isIdentifierPart ')' = false ∧ isBlank ')' = false :=
    ⟨(identifier_ascii (by decide)).1, by decide⟩
  intro d hd
  rcases h d hd with rfl | rfl <;> cases k <;>
    simp [TokenKind.mayPrecede, hcomma, hbracket]

theorem EndsItem.endsOperand (h : EndsItem rest) : EndsOperand rest := by
  intro d hd
  rcases h d hd with rfl | rfl <;> exact ⟨(identifier_ascii (by decide)).1, by decide⟩

/-- A member follows. -/
def StartsMember (rest : List Char) : Prop := rest.head? = some '.'

theorem StartsMember.endsOperand (h : StartsMember rest) : EndsOperand rest := by
  intro d hd
  obtain rfl : '.' = d := Option.some.inj (h.symm.trans hd)
  exact ⟨(identifier_ascii (by decide)).1, by decide⟩

theorem endsOperand_blank {c : Char} (h : isBlank c = true) (rest : List Char) :
    EndsOperand (c :: rest) := by
  rintro _ ⟨⟩
  refine ⟨isIdentifierPart_of_isBlank h, ?_⟩
  rintro rfl
  exact absurd h (by decide)

/-! ## Single tokens -/

section

variable {b : Bool}

/-- The token of an open bracket, a close bracket or a comma. -/
theorem scans_openBracket : Scans rest b ['('] [⟨.openBracket, "(", 0⟩] false := by
  exact scans_token (scan_openBracket b []) fun _ _ => rfl

theorem scans_closeBracket : Scans rest b [')'] [⟨.closeBracket, ")", 0⟩] true := by
  refine scans_token (a := []) (k := .closeBracket) ?_ fun _ _ => rfl
  unfold scan
  cases b <;> rfl

theorem scans_comma : Scans rest b [','] [⟨.operator .comma, ",", 0⟩] false := by
  refine .cons (n := 0) ?_ (Nat.zero_le _) .nil
  unfold scan
  cases b <;> rfl

theorem scans_not : Scans rest false ['!'] [⟨.operator .not, "!", 0⟩] false := by
  refine .cons (n := 0) ?_ (Nat.zero_le _) .nil
  rfl

end

theorem significant_nil : significant [] = [] := rfl

theorem significant_cons {t : Token} (h : t.kind ≠ .blank ∧ t.kind ≠ .stop) (ts : List Token) :
    significant (t :: ts) = t :: significant ts :=
  List.filter_cons_of_pos (by simpa using h)

theorem significant_blank {t : Token} (h : t.kind = .blank) (ts : List Token) :
    significant (t :: ts) = significant ts :=
  List.filter_cons_of_neg (by simp [h])

/-! ## Phrases -/

/-- Only a literal may lack a value. -/
theorem readable_of_not_isLiteral {t : Token} (h : t.kind.isLiteral = false) : Token.Readable t :=
  fun hliteral => by
    rw [h] at hliteral
    cases hliteral

theorem member_ofList (k : TokenKind) (n : String) :
    Token.member ⟨k, String.ofList ('.' :: n.toList), 0⟩ = n := by
  simp [Token.member]

/-- The items of a list; any other tree is one item. -/
def Tree.items : Tree → List Tree
  | .list items _ => items
  | tree => [tree]

theorem Tree.items_unlocated (t : Tree) : t.unlocated.items = t.items.map Tree.unlocated := by
  cases t <;> simp only [unlocated, unlocatedItems_eq, items, List.map_cons, List.map_nil]

theorem Tree.joined_eq (left right : Tree) (location : Location) :
    left.joined right location = .list (left.items ++ [right]) location := by
  cases left <;> rfl

/-- In front of whatever follows as the predicate says, the text reads as the phrase with the
tree. -/
def ReadsAs (φ : Phrase) (follows : List Char → Prop) (text : List Char) (tree : Tree) : Prop :=
  ∀ rest, follows rest → ∃ ts, Scans rest false text ts true ∧ (∀ t ∈ ts, Token.Readable t) ∧
    Derives "" φ (significant ts) tree

variable {φ ψ : Phrase} {follows follows' : List Char → Prop} {left right : List Char}
  {tree tree' : Tree}

namespace ReadsAs

theorem mono (h : ReadsAs φ follows text tree) (hfollows : ∀ rest, follows' rest → follows rest) :
    ReadsAs φ follows' text tree :=
  fun rest hrest => h rest (hfollows rest hrest)

theorem loosen (hφ : 0 < φ.rank) (hrank : φ.rank ≤ ψ.rank) (h : ReadsAs ψ follows text tree) :
    ReadsAs φ follows text tree := fun rest hrest => by
  obtain ⟨ts, hscans, hreadable, hderives⟩ := h rest hrest
  exact ⟨ts, hscans, hreadable, hderives.loosen hφ hrank⟩

/-- A whole text that reads as a phrase is parsed, if the limit is at least its length. -/
theorem parse {source : String} {limit : Nat} (h : ReadsAs φ follows source.toList tree)
    (hφ : 0 < φ.rank) (hend : follows []) (hlimit : source.length ≤ limit) :
    (parse limit source).map Tree.unlocated = .ok tree.unlocated := by
  obtain ⟨ts, hscans, hreadable, hderives⟩ := h [] hend
  have hgroup : Derives "" (.group nowhere) (significant ts) tree :=
    .group (hderives.loosen (by decide) hφ)
  have hlength : source.toList.length ≤ limit := by rwa [String.length_toList]
  have hparse := parse_of_scans hscans hreadable hgroup hlength
  rwa [String.ofList_toList] at hparse

theorem literal {v : Value} {k : TokenKind} (h : writtenLiteral? v = some (k, text)) :
    ReadsAs .primary EndsItem text (.literal (.of v) nowhere) := fun rest hrest => by
  obtain ⟨hliteral, hvalue, c, cs, rfl, hscan⟩ := reads_writtenLiteral? h
  have hvalue' : literalValue? k (String.ofList (c :: cs)).toList = some v := by
    rwa [String.toList_ofList]
  have hkind : k ≠ .blank ∧ k ≠ .stop := by
    constructor <;> rintro rfl <;> cases hliteral
  refine ⟨_, scans_token hscan (hrest.mayPrecede k), fun t ht => ?_, ?_⟩
  · obtain rfl := List.mem_singleton.mp ht
    intro _
    rw [hvalue']
    rfl
  · rw [significant_cons hkind, significant_nil]
    have hderives : Derives "" .primary _ _ :=
      .literal (t := ⟨k, String.ofList (c :: cs), 0⟩) hliteral
    rwa [Token.literal, hvalue'] at hderives

/-- A valid identifier that is no literal is a name. -/
theorem name {n : String} (hidentifier : isIdentifier n.toList = true)
    (hkind : wordKind n.toList = .name) :
    ReadsAs .access EndsOperand n.toList (.name n nowhere) := fun rest hrest => by
  obtain ⟨c, cs, hn⟩ : ∃ c cs, n.toList = c :: cs := by
    cases hn : n.toList with
    | nil => rw [hn] at hidentifier; cases hidentifier
    | cons c cs => exact ⟨c, cs, rfl⟩
  have htext : String.ofList (c :: cs) = n := by rw [← hn, String.ofList_toList]
  rw [hn] at hidentifier hkind ⊢
  have hscan := scan_word hidentifier
  rw [hkind] at hscan
  refine ⟨_, scans_token hscan fun d hd => ?_, fun t ht => ?_, ?_⟩
  · simp [TokenKind.mayPrecede, (hrest d hd).1]
  · obtain rfl := List.mem_singleton.mp ht
    exact readable_of_not_isLiteral rfl
  · rw [htext, significant_cons (by simp), significant_nil]
    exact .primary (.name rfl)

theorem brackets (h : ReadsAs (.chain .list) EndsItem text tree) :
    ReadsAs .access (fun _ => True) ('(' :: (text ++ [')'])) tree := fun rest _ => by
  obtain ⟨ts, hscans, hreadable, hderives⟩ := h (')' :: rest) (endsItem_closeBracket rest)
  refine ⟨_, scans_openBracket.append (hscans.append scans_closeBracket), ?_, ?_⟩
  · simp only [List.forall_mem_append, List.forall_mem_singleton]
    exact ⟨readable_of_not_isLiteral rfl, hreadable, readable_of_not_isLiteral rfl⟩
  · rw [List.singleton_append, significant_cons (by simp), significant_append,
      significant_cons (by simp), significant_nil]
    exact .primary (.brackets rfl (.group hderives) rfl)

theorem comma (hleft : ReadsAs (.chain .list) EndsItem left tree)
    (hright : ReadsAs (.chain .or) EndsItem right tree') :
    ReadsAs (.chain .list) EndsItem (left ++ ',' :: right) (tree.joined tree' nowhere) :=
  fun rest hrest => by
    obtain ⟨ts, hscans, hreadable, hderives⟩ := hleft (',' :: (right ++ rest)) (endsItem_comma _)
    obtain ⟨us, hscans', hreadable', hderives'⟩ := hright rest hrest
    refine ⟨_, hscans.append (scans_comma.append hscans'), ?_, ?_⟩
    · simp only [List.forall_mem_append, List.forall_mem_singleton]
      exact ⟨hreadable, readable_of_not_isLiteral rfl, hreadable'⟩
    · rw [significant_append, List.singleton_append, significant_cons (by simp)]
      exact .comma hderives rfl hderives'

/-- Further items join those of the first one, if it is a list. -/
theorem items {items : List (List Char × Tree)} (h : ReadsAs (.chain .list) EndsItem text tree)
    (hne : items ≠ []) (hitems : ∀ item ∈ items, ReadsAs (.chain .or) EndsItem item.1 item.2) :
    ReadsAs (.chain .list) EndsItem (text ++ items.flatMap fun item => ',' :: item.1)
      (.list (tree.items ++ items.map (·.2)) nowhere) := by
  induction items generalizing text tree with
  | nil => exact absurd rfl hne
  | cons item items ih =>
    obtain ⟨hitem, hitems⟩ := List.forall_mem_cons.mp hitems
    have hjoined := h.comma hitem
    rw [Tree.joined_eq] at hjoined
    by_cases hmore : items = []
    · subst hmore
      simpa using hjoined
    · simpa [Tree.items] using ih hjoined hmore hitems

theorem property {n : String} (h : ReadsAs .access StartsMember text tree)
    (hn : isIdentifier n.toList = true) :
    ReadsAs .access EndsOperand (text ++ '.' :: n.toList) (.property tree n nowhere) :=
  fun rest hrest => by
    obtain ⟨ts, hscans, hreadable, hderives⟩ := h ('.' :: n.toList ++ rest) rfl
    have hmember : Scans rest true ('.' :: n.toList) _ true :=
      scans_token (scan_property hn) fun d hd => by simp [TokenKind.mayPrecede, hrest d hd]
    refine ⟨_, hscans.append hmember, ?_, ?_⟩
    · simp only [List.forall_mem_append, List.forall_mem_singleton]
      exact ⟨hreadable, readable_of_not_isLiteral rfl⟩
    · rw [significant_append, significant_cons (by simp), significant_nil]
      have hproperty := Derives.property hderives
        (t := ⟨.property, String.ofList ('.' :: n.toList), 0⟩) rfl
      rw [member_ofList] at hproperty
      exact hproperty

end ReadsAs

/-- In brackets, the text reads as the arguments of a call. -/
def Fills (text : List Char) (tree : Tree) : Prop :=
  ∀ rest, ∃ ts b, Scans (')' :: rest) false text ts b ∧ (∀ t ∈ ts, Token.Readable t) ∧
    Derives "" (.group nowhere) (significant ts) tree

theorem fills_empty : Fills [] (.empty nowhere) := fun _ => ⟨[], _, .nil, nofun, .empty⟩

theorem ReadsAs.fills (h : ReadsAs (.chain .list) EndsItem text tree) : Fills text tree :=
  fun rest => by
    obtain ⟨ts, hscans, hreadable, hderives⟩ := h (')' :: rest) (endsItem_closeBracket rest)
    exact ⟨ts, _, hscans, hreadable, .group hderives⟩

theorem ReadsAs.call {n : String} {arguments : List Char}
    (h : ReadsAs .access StartsMember text tree) (hn : isIdentifier n.toList = true)
    (harguments : Fills arguments tree') :
    ReadsAs .access (fun _ => True) (text ++ ('.' :: n.toList ++ ('(' :: (arguments ++ [')']))))
      (.call tree n tree' nowhere) := fun rest _ => by
  obtain ⟨ts, hscans, hreadable, hderives⟩ :=
    h (('.' :: n.toList ++ ('(' :: (arguments ++ [')']))) ++ rest) rfl
  obtain ⟨us, b, hscans', hreadable', hderives'⟩ := harguments rest
  have hmember : Scans ('(' :: (arguments ++ [')']) ++ rest) true ('.' :: n.toList) _ false :=
    .cons (scan_function hn _) (Nat.le_refl _) (by rw [List.drop_length]; exact .nil)
  have hbrackets := (scans_openBracket (b := false)).append (hscans'.append scans_closeBracket)
  refine ⟨_, hscans.append (hmember.append hbrackets), ?_, ?_⟩
  · simp only [List.forall_mem_append, List.forall_mem_singleton]
    exact ⟨hreadable, readable_of_not_isLiteral rfl, readable_of_not_isLiteral rfl, hreadable',
      readable_of_not_isLiteral rfl⟩
  · rw [List.take_length, significant_append, List.singleton_append, List.singleton_append,
      significant_cons (by simp), significant_cons (by simp), significant_append,
      significant_cons (by simp), significant_nil]
    have hcall := Derives.call hderives
      (t := ⟨.function, String.ofList ('.' :: n.toList), 0⟩) rfl
      (u := ⟨.openBracket, "(", 0⟩) rfl hderives' (v := ⟨.closeBracket, ")", 0⟩) rfl
    rw [member_ofList] at hcall
    exact hcall

namespace ReadsAs

theorem not (h : ReadsAs .unary EndsOperand text tree) :
    ReadsAs .unary EndsOperand ('!' :: text) (.not tree nowhere) := fun rest hrest => by
  obtain ⟨ts, hscans, hreadable, hderives⟩ := h rest hrest
  refine ⟨_, scans_not.append hscans, ?_, ?_⟩
  · simp only [List.forall_mem_append, List.forall_mem_singleton]
    exact ⟨readable_of_not_isLiteral rfl, hreadable⟩
  · rw [List.singleton_append, significant_cons (by simp)]
    exact .not rfl hderives

end ReadsAs

theorem binaryOperator?_blank {c : Char} {cs : List Char} (hc : isBlank c = true) :
    binaryOperator? (c :: cs) = none := by
  unfold binaryOperator?
  split
  case h_9 => rfl
  all_goals
    rename_i heq
    cases heq
    exact absurd hc (by decide)

/-- Blanks are read over. -/
theorem scans_blanks {gap : List Char} {b : Bool} (hgap : ∀ c ∈ gap, isBlank c = true)
    (hrest : ∀ d ∈ rest.head?, isBlank d = false) :
    ∃ ts, Scans rest b gap ts b ∧ (∀ t ∈ ts, Token.Readable t) ∧ significant ts = [] := by
  cases gap with
  | nil => exact ⟨[], .nil, List.forall_mem_nil _, rfl⟩
  | cons c cs =>
    obtain ⟨hc, hcs⟩ := List.forall_mem_cons.mp hgap
    have hscan : scan b c cs = .token .blank cs.length b := by
      rw [scan_eq_scanPlain fun _ => binaryOperator?_blank hc]
      unfold scanPlain
      rw [if_pos hc, runLength, takeWhile_of_all (List.all_eq_true.mpr hcs)]
    refine ⟨_, scans_token hscan fun d hd => ?_, fun t ht => ?_, significant_blank rfl []⟩
    · simp [TokenKind.mayPrecede, hrest d hd]
    · obtain rfl := List.mem_singleton.mp ht
      exact readable_of_not_isLiteral rfl

/-- An operator between operands, in front of anything that does not make it longer. -/
theorem scans_operator (op : BinaryOp) (hrest : ∀ d ∈ rest.head?, d ≠ '=') :
    Scans rest true op.symbol.toList [⟨.operator (.binary op), op.symbol, 0⟩] false := by
  have hscan : ∃ c cs, op.symbol.toList = c :: cs ∧
      scan true c cs = .token (.operator (.binary op)) cs.length false := by
    cases op <;> exact ⟨_, _, rfl, rfl⟩
  obtain ⟨c, cs, hsymbol, hscan⟩ := hscan
  have htext : String.ofList (c :: cs) = op.symbol := by rw [← hsymbol, String.ofList_toList]
  have hscans : Scans rest true (c :: cs) _ _ := scans_token hscan fun d hd => by
    simp [TokenKind.mayPrecede, hrest d hd]
  rw [htext] at hscans
  rw [hsymbol]
  exact hscans

theorem symbol_eq_cons (op : BinaryOp) : ∃ c cs, op.symbol.toList = c :: cs ∧
    isBlank c = false ∧ isIdentifierPart c = false ∧ c ≠ '(' := by
  cases op <;> exact ⟨_, _, rfl, by decide, (identifier_ascii (by decide)).1, by decide⟩

/-- What holds of the first characters of two texts holds of the first one of both together. -/
theorem head?_append_of {p : Char → Prop} (hleft : ∀ d ∈ left.head?, p d)
    (hright : ∀ d ∈ right.head?, p d) : ∀ d ∈ (left ++ right).head?, p d := by
  cases left with
  | nil => exact hright
  | cons => exact hleft

/-- Where an operand may start after an operator. -/
def StartsOperand (text : List Char) : Prop := ∃ c cs, text = c :: cs ∧ isBlank c = false ∧ c ≠ '='

theorem ReadsAs.blanks {gap : List Char} (hgap : ∀ c ∈ gap, isBlank c = true)
    (hstart : StartsOperand text) (h : ReadsAs φ follows text tree) :
    ReadsAs φ follows (gap ++ text) tree := fun rest hrest => by
  obtain ⟨c, cs, rfl, hc, -⟩ := hstart
  obtain ⟨ts, hscans, hreadable, hderives⟩ := h rest hrest
  obtain ⟨gs, hblanks, hreadableGap, hgs⟩ := @scans_blanks (c :: cs ++ rest) gap false hgap (by
    rintro _ ⟨⟩
    exact hc)
  refine ⟨_, hblanks.append hscans, List.forall_mem_append.mpr ⟨hreadableGap, hreadable⟩, ?_⟩
  rwa [significant_append, hgs, List.nil_append]

theorem ReadsAs.binary {gap : List Char} (op : BinaryOp) (hgap : ∀ c ∈ gap, isBlank c = true)
    (hleft : ReadsAs .access EndsOperand left tree)
    (hright : ReadsAs .access EndsOperand right tree') (hstart : StartsOperand right) :
    ReadsAs (.chain op.level) EndsOperand
      (left ++ (gap ++ (op.symbol.toList ++ (gap ++ right)))) (.binary op tree tree' nowhere) :=
  fun rest hrest => by
    obtain ⟨c, cs, hsymbol, hblank, hpart, hbracket⟩ := symbol_eq_cons op
    obtain ⟨d, ds, rfl, hd, hd'⟩ := hstart
    have hgap' : ∀ c ∈ gap.head?, isBlank c = true := fun c hc => hgap c (List.mem_of_mem_head? hc)
    have hoperator : EndsOperand (gap ++ (op.symbol.toList ++ (gap ++ d :: ds)) ++ rest) := by
      rw [List.append_assoc]
      refine head?_append_of (fun c hc => endsOperand_blank (hgap' c hc) [] c rfl) ?_
      rw [hsymbol]
      rintro _ ⟨⟩
      exact ⟨hpart, hbracket⟩
    have hequals : ∀ c ∈ (gap ++ d :: ds ++ rest).head?, c ≠ '=' := by
      rw [List.append_assoc]
      refine head?_append_of (fun c hc => ?_) (by rintro _ ⟨⟩; exact hd')
      rintro rfl
      exact absurd (hgap' _ hc) (by decide)
    obtain ⟨ts, hscans, hreadable, hderives⟩ := hleft _ hoperator
    obtain ⟨us, hscans', hreadable', hderives'⟩ := hright rest hrest
    obtain ⟨gs, hblanks, hreadableGap, hgs⟩ :=
      @scans_blanks (op.symbol.toList ++ (gap ++ d :: ds) ++ rest) gap true hgap (by
        rw [hsymbol]
        rintro _ ⟨⟩
        exact hblank)
    obtain ⟨gs', hblanks', hreadableGap', hgs'⟩ :=
      @scans_blanks (d :: ds ++ rest) gap false hgap (by
        rintro _ ⟨⟩
        exact hd)
    have hop := scans_operator op hequals
    refine ⟨_, hscans.append (hblanks.append (hop.append (hblanks'.append hscans'))), ?_, ?_⟩
    · simp only [List.forall_mem_append, List.forall_mem_singleton]
      exact ⟨hreadable, hreadableGap, readable_of_not_isLiteral rfl, hreadableGap', hreadable'⟩
    · rw [significant_append, significant_append, significant_append, significant_append, hgs, hgs',
        significant_cons (by simp), significant_nil]
      exact .binary (t := ⟨.operator (.binary op), op.symbol, 0⟩)
        (hderives.loosen (by cases op <;> decide) (by cases op <;> decide)) rfl
        (hderives'.loosen (by cases op <;> decide) (by cases op <;> decide))

end TwoWaySql.Expr
