import TwoWaySql.Proofs.Brackets
import TwoWaySql.Proofs.FreeNames

/-!
# Optional predicates

The body of a clause is often a sequence of `if` blocks whose branches are blank or hold one
predicate each, with a connector before it. `layout` says what such a body comes to: the predicates
of the branches taken, each written as by itself, with the connectors of all but the first.
`renderTree_optional`: rendering the clause writes its keyword and that, or nothing without a
predicate.
-/

namespace TwoWaySql.Template

/-- A token of a kind. -/
abbrev TokenOf (kind : TokenKind) := { t : Token // t.kind = kind }

/-! ## Predicates -/

/-- What predicates are made of, outside of brackets. -/
inductive PredicateItem where
  | word (t : TokenOf .word)
  | quote (t : TokenOf .quote)
  | other (t : TokenOf .other)
  | blank (t : TokenOf .blank)
  | group (opening : TokenOf .openBracket) (inner : List Token) (h : balanced 0 inner = true)
      (closing : TokenOf .closeBracket)
  | bind (t : TokenOf (.directive .bind))

namespace PredicateItem

def tokens : PredicateItem → List Token
  | word t => [t.1]
  | quote t => [t.1]
  | other t => [t.1]
  | blank t => [t.1]
  | group opening inner _ closing => opening.1 :: inner ++ [closing.1]
  | bind t => [t.1]

variable (limit : Nat) (source : String)

/-- A bind directive whose sample has not come. -/
def pending (d? : Option Directive) : List Tree := (d?.map (Tree.bind · none)).toList

/-- An operand is the sample of the directive before, if there is one. -/
def operand (d? : Option Directive) (tree : Tree) : Tree :=
  d?.elim tree fun d => .bind d (some tree)

/-- The trees of items, after a bind directive or not. -/
def trees : Option Directive → List PredicateItem → List Tree
  | d?, [] => pending d?
  | d?, word t :: items => operand d? (.word t.1.text) :: trees none items
  | d?, quote t :: items => operand d? (.word t.1.text) :: trees none items
  | d?, other t :: items => pending d? ++ .other t.1.text :: trees none items
  | d?, blank t :: items => pending d? ++ .blank t.1.text :: trees none items
  | d?, group _ inner _ _ :: items =>
    operand d? (.brackets (innerTree limit source inner)) :: trees none items
  | d?, bind t :: items => pending d? ++ trees (some (Token.directive source t)) items

/-- Whether there is a word, another character or a group that is not the sample of a directive. -/
def hasContent : Bool → List PredicateItem → Bool
  | _, [] => false
  | isSample, word _ :: items | isSample, quote _ :: items | isSample, group .. :: items =>
    !isSample || hasContent false items
  | _, other _ :: _ => true
  | _, blank _ :: items => hasContent false items
  | _, bind _ :: items => hasContent true items

end PredicateItem

/-- A connector between predicates. -/
structure Connective where
  op : Connector
  token : TokenOf (.connector op)

structure Predicate where
  lead : List (TokenOf .blank)
  connective? : Option Connective
  items : List PredicateItem
  hasContent : PredicateItem.hasContent false items = true

/-- The body of a branch. -/
inductive Choice where
  | blank (ts : List (TokenOf .blank))
  | predicate (p : Predicate)

structure OptionalBlock where
  test : TokenOf (.directive .ifBranch)
  body : Choice
  elseifs : List (TokenOf (.directive .elseifBranch) × Choice)
  else? : Option (TokenOf (.directive .elseBranch) × Choice)
  ending : TokenOf (.directive .blockEnd)

/-- What the body of a clause with optional predicates is made of. -/
inductive OptionalPart where
  | blank (t : TokenOf .blank)
  | comment (t : TokenOf .comment)
  | block (b : OptionalBlock)

/-- A clause that may be left out, with such a body. -/
structure OptionalClause where
  kind : ClauseKind
  isAlwaysWritten_eq : kind.isAlwaysWritten = false
  keyword : TokenOf (.clause kind)
  parts : List OptionalPart

/-! ## Tokens -/

def Predicate.tokens (p : Predicate) : List Token :=
  p.lead.map (·.1) ++ p.connective?.toList.map (·.token.1) ++ p.items.flatMap (·.tokens)

def Choice.tokens : Choice → List Token
  | blank ts => ts.map (·.1)
  | predicate p => p.tokens

def OptionalBlock.tokens (b : OptionalBlock) : List Token :=
  b.test.1 :: b.body.tokens ++ b.elseifs.flatMap (fun e => e.1.1 :: e.2.tokens) ++
    b.else?.toList.flatMap (fun e => e.1.1 :: e.2.tokens) ++ [b.ending.1]

def OptionalPart.tokens : OptionalPart → List Token
  | blank t => [t.1]
  | comment t => [t.1]
  | block b => b.tokens

def OptionalClause.tokens (c : OptionalClause) : List Token :=
  c.keyword.1 :: c.parts.flatMap (·.tokens)

/-! ## Trees -/

section Trees

variable (limit : Nat) (source : String)

def blankTrees (ts : List (TokenOf .blank)) : List Tree := ts.map fun t => .blank t.1.text

/-- The trees of a predicate without its connector. -/
def Predicate.itemTrees (p : Predicate) : List Tree := PredicateItem.trees limit source none p.items

def Predicate.trees (p : Predicate) : List Tree :=
  blankTrees p.lead ++ match p.connective? with
    | none => p.itemTrees limit source
    | some c => [.logical c.op c.token.1.text (p.itemTrees limit source)]

def Choice.trees : Choice → List Tree
  | blank ts => blankTrees ts
  | predicate p => p.trees limit source

/-- The test of a branch and what it holds. -/
def OptionalBlock.elseifTrees (b : OptionalBlock) : List (Directive × List Tree) :=
  b.elseifs.map fun e => (Token.directive source e.1, e.2.trees limit source)

def OptionalBlock.tree (b : OptionalBlock) : Tree :=
  .ifBlock (Token.directive source b.test) (b.body.trees limit source)
    (b.elseifTrees limit source) (b.else?.map fun e => e.2.trees limit source)

def OptionalPart.tree : OptionalPart → Tree
  | blank t => .blank t.1.text
  | comment t => .comment t.1.text
  | block b => b.tree limit source

def OptionalClause.tree (c : OptionalClause) : Tree :=
  .clause c.kind c.keyword.1.text (c.parts.map (OptionalPart.tree limit source))

end Trees

/-! ## What is written -/

section Layout

variable (r : Renderer) (limit : Nat) (source : String) (scope : Scope)

/-- The first choice whose test holds. -/
def firstOf : List (Directive × Choice) → Choice → Except Error Choice
  | [], otherwise => .ok otherwise
  | (d, c) :: cs, otherwise => do
    if ← r.evalCondition d scope then return c else firstOf cs otherwise

/-- The branch of a block that is taken; a missing `else` is blank. -/
def OptionalBlock.selected (b : OptionalBlock) : Except Error Choice :=
  firstOf r scope
    ((Token.directive source b.test, b.body) ::
      b.elseifs.map fun e => (Token.directive source e.1, e.2))
    (b.else?.elim (.blank []) (·.2))

def blankText (ts : List (TokenOf .blank)) : String := String.join (ts.map (·.1.text))

/-- The predicates of the branches taken, and what they are written as: each as it is written by
itself, with its connector if another predicate is before it. -/
def layout : Bool → List OptionalPart → Except Error (List Predicate × Output)
  | _, [] => .ok ([], .empty)
  | started, .blank t :: parts => do
    let (ps, rest) ← layout started parts
    return (ps, .sql t.1.text ++ rest)
  | started, .comment t :: parts => do
    let (ps, rest) ← layout started parts
    return (ps, .sql t.1.text ++ rest)
  | started, .block b :: parts => do
    match ← b.selected r source scope with
    | .blank ts =>
      let (ps, rest) ← layout started parts
      return (ps, .sql (blankText ts) ++ rest)
    | .predicate p =>
      let own ← r.renderAll (p.itemTrees limit source) false scope
      let connector :=
        if started then String.join (p.connective?.toList.map (·.token.1.text)) else ""
      let (ps, rest) ← layout true parts
      return (p :: ps, .sql (blankText p.lead) ++ .sql connector ++ own.output ++ rest)

end Layout

/-! ## Rendering -/

variable (r : Renderer) {limit : Nat} {source : String} {available : Bool} {s scope : Scope}
  {x : Rendered}

theorem renderAll_cons_eq_ok {t : Tree} {ts : List Tree} :
    r.renderAll (t :: ts) available s = .ok x ↔
      ∃ y z, r.renderTree t available s = .ok y ∧ r.renderAll ts y.available y.scope = .ok z ∧
        x = { z with output := y.output ++ z.output } := by
  rw [Renderer.renderAll, Render.andThen]
  constructor
  · intro h
    obtain ⟨y, hy, h⟩ := bind_eq_ok.mp h
    obtain ⟨z, hz, h⟩ := bind_eq_ok.mp h
    exact ⟨y, z, hy, hz, (Except.ok.inj h).symm⟩
  · rintro ⟨y, z, hy, hz, rfl⟩
    exact bind_eq_ok.mpr ⟨y, hy, bind_eq_ok.mpr ⟨z, hz, rfl⟩⟩

theorem renderAll_append_eq_ok {ts us : List Tree} :
    r.renderAll (ts ++ us) available s = .ok x ↔
      ∃ y z, r.renderAll ts available s = .ok y ∧ r.renderAll us y.available y.scope = .ok z ∧
        x = { z with output := y.output ++ z.output } := by
  induction ts generalizing available s x with
  | nil =>
    simp [Renderer.renderAll, Render.nothing]
  | cons t ts ih =>
    rw [List.cons_append, renderAll_cons_eq_ok]
    constructor
    · rintro ⟨y, z, hy, hz, rfl⟩
      obtain ⟨u, v, hu, hv, rfl⟩ := ih.mp hz
      refine ⟨_, v, (renderAll_cons_eq_ok r).mpr ⟨y, u, hy, hu, rfl⟩, hv, ?_⟩
      simp [Output.append_assoc]
    · rintro ⟨y, z, hy, hz, rfl⟩
      obtain ⟨u, v, hu, hv, rfl⟩ := (renderAll_cons_eq_ok r).mp hy
      refine ⟨u, _, hu, ih.mpr ⟨v, z, hv, hz, rfl⟩, ?_⟩
      simp [Output.append_assoc]

theorem renderAll_blanks (ts : List (TokenOf .blank)) :
    r.renderAll (blankTrees ts) available s = .ok ⟨available, s, .sql (blankText ts)⟩ := by
  induction ts with
  | nil => rfl
  | cons t ts ih =>
    refine (renderAll_cons_eq_ok r).mpr ⟨⟨available, s, .sql t.1.text⟩, _, ?_, ih, ?_⟩
    · rw [Renderer.renderTree]
      rfl
    · simp [blankText]
      rfl

/-- A tree of a word, another character, a blank, brackets or a bind directive. -/
def Tree.isFlat : Tree → Bool
  | .word _ | .other _ | .blank _ | .brackets _ | .bind .. => true
  | _ => false

/-- A flat tree that is content. -/
def Tree.isContent : Tree → Bool
  | .word _ | .other _ | .brackets _ => true
  | _ => false

/-- What flat trees are rendered to does not depend on what is before them. -/
theorem renderTree_flat {t : Tree} (h : t.isFlat = true) :
    r.renderTree t available s =
      (r.renderTree t false s).map fun x => { x with available := available || x.available } := by
  cases t with
  | word _ | other _ =>
    simp [Renderer.renderTree, Render.content, Except.map]
  | blank _ =>
    simp [Renderer.renderTree, Render.passing, Except.map]
  | brackets inner =>
    simp only [Renderer.renderTree, Render.asContent, Render.andThen, Render.after, Render.fresh]
    cases r.renderTree inner false s <;>
      simp [bind, Except.bind, Except.map, pure, Except.pure, Render.passing]
  | bind d _ =>
    simp only [Renderer.renderTree, Renderer.renderBind, Render.keeping]
    cases r.evalBind d s <;> simp [bind, Except.bind, Except.map, pure, Except.pure]
  | _ => cases h

theorem renderAll_flat {ts : List Tree} (h : ∀ t ∈ ts, t.isFlat = true) :
    r.renderAll ts available s =
      (r.renderAll ts false s).map fun x => { x with available := available || x.available } := by
  induction ts generalizing available s with
  | nil => simp [Renderer.renderAll, Render.nothing, Except.map]
  | cons t ts ih =>
    have hts : ∀ u ∈ ts, u.isFlat = true := fun u hu => h u (List.mem_cons_of_mem t hu)
    simp only [Renderer.renderAll, Render.andThen]
    rw [renderTree_flat r (h t List.mem_cons_self)]
    cases r.renderTree t false s with
    | error e => rfl
    | ok y =>
      simp only [bind, Except.bind, Except.map]
      rw [ih hts, @ih y.available y.scope hts]
      cases r.renderAll ts false y.scope <;> simp [Except.map, pure, Except.pure, Bool.or_assoc]

theorem available_of_isContent {t : Tree} (h : t.isContent = true)
    (hx : r.renderTree t available s = .ok x) : x.available = true := by
  cases t with
  | word _ | other _ =>
    rw [Renderer.renderTree] at hx
    cases hx
    rfl
  | brackets inner =>
    rw [Renderer.renderTree] at hx
    obtain ⟨y, -, hx⟩ := bind_eq_ok.mp hx
    cases hx
    rfl
  | _ => cases h

theorem available_of_any_isContent {ts : List Tree} (hflat : ∀ t ∈ ts, t.isFlat = true)
    (hcontent : ts.any Tree.isContent = true) (hx : r.renderAll ts available s = .ok x) :
    x.available = true := by
  induction ts generalizing available s x with
  | nil => cases hcontent
  | cons t ts ih =>
    have hts : ∀ u ∈ ts, u.isFlat = true := fun u hu => hflat u (List.mem_cons_of_mem t hu)
    obtain ⟨y, z, hy, hz, rfl⟩ := (renderAll_cons_eq_ok r).mp hx
    simp only [List.any_cons, Bool.or_eq_true] at hcontent
    rcases hcontent with hcontent | hcontent
    · rw [renderAll_flat r hts, available_of_isContent r hcontent hy] at hz
      obtain ⟨w, -, rfl⟩ := map_eq_ok.mp hz
      rfl
    · exact (ih hts hcontent hz : z.available = true)

namespace PredicateItem

theorem isFlat_of_mem_pending {d? : Option Directive} {t : Tree} (h : t ∈ pending d?) :
    t.isFlat = true := by
  cases d? with
  | none => cases h
  | some d =>
    obtain rfl := List.mem_singleton.mp h
    rfl

theorem isFlat_operand {d? : Option Directive} {t : Tree} (h : t.isFlat = true) :
    (operand d? t).isFlat = true := by
  cases d? with
  | none => exact h
  | some d => rfl

theorem isFlat_of_mem_trees {d? : Option Directive} {items : List PredicateItem} {t : Tree}
    (h : t ∈ trees limit source d? items) : t.isFlat = true := by
  fun_induction trees limit source d? items with
  | case1 d? => exact isFlat_of_mem_pending h
  | case2 d? u items ih | case3 d? u items ih | case6 d? o inner hinner c items ih =>
    rcases List.mem_cons.mp h with rfl | h
    · exact isFlat_operand rfl
    · exact ih h
  | case4 d? u items ih | case5 d? u items ih =>
    rcases List.mem_append.mp h with h | h
    · exact isFlat_of_mem_pending h
    · rcases List.mem_cons.mp h with rfl | h
      · rfl
      · exact ih h
  | case7 d? u items ih =>
    rcases List.mem_append.mp h with h | h
    · exact isFlat_of_mem_pending h
    · exact ih h

theorem any_isContent_trees {d? : Option Directive} {items : List PredicateItem}
    (h : hasContent d?.isSome items = true) :
    (trees limit source d? items).any Tree.isContent = true := by
  fun_induction trees limit source d? items with
  | case1 d? => simp [hasContent] at h
  | case2 d? u items ih | case3 d? u items ih | case6 d? o inner hinner c items ih =>
    rw [List.any_cons]
    cases d? with
    | none => rfl
    | some d =>
      rw [ih (by simpa [hasContent] using h), Bool.or_true]
  | case4 d? u items ih => simp [Tree.isContent]
  | case5 d? u items ih =>
    simp [ih (by simpa [hasContent] using h)]
  | case7 d? u items ih =>
    simp [ih (by simpa [hasContent] using h)]

end PredicateItem

/-- What is rendered of a predicate without its connector is what it is rendered to by itself. -/
theorem renderAll_itemTrees (p : Predicate) (hs : s.Same scope)
    (h : r.renderAll (p.itemTrees limit source) available s = .ok x) :
    ∃ own, r.renderAll (p.itemTrees limit source) false scope = .ok own ∧ x.available = true ∧
      x.output = own.output := by
  have hflat : ∀ t ∈ p.itemTrees limit source, t.isFlat = true :=
    fun t ht => PredicateItem.isFlat_of_mem_trees ht
  have hcontent : (p.itemTrees limit source).any Tree.isContent = true :=
    PredicateItem.any_isContent_trees p.hasContent
  have havailable := available_of_any_isContent r hflat hcontent h
  rw [renderAll_flat r hflat] at h
  obtain ⟨y, hy, rfl⟩ := map_eq_ok.mp h
  obtain ⟨-, own, hown, -, houtput⟩ := renderAll_same r hs hy
  exact ⟨own, hown, havailable, houtput.symm⟩

/-- A predicate is written as by itself, with its connector if there is content before. -/
theorem renderAll_predicate (p : Predicate) (hs : s.Same scope)
    (h : r.renderAll (p.trees limit source) available s = .ok x) :
    ∃ own, r.renderAll (p.itemTrees limit source) false scope = .ok own ∧ x.available = true ∧
      x.output = .sql (blankText p.lead) ++
        .sql (if available then String.join (p.connective?.toList.map (·.token.1.text)) else "") ++
        own.output := by
  obtain ⟨y, z, hy, hz, rfl⟩ := (renderAll_append_eq_ok r).mp h
  rw [renderAll_blanks] at hy
  cases hy
  cases hc : p.connective? with
  | none =>
    rw [hc] at hz
    obtain ⟨own, hown, havailable, houtput⟩ := renderAll_itemTrees r p hs hz
    refine ⟨own, hown, havailable, ?_⟩
    rw [houtput, Output.append_assoc]
    cases available <;> rfl
  | some c =>
    rw [hc] at hz
    obtain ⟨u, v, hu, hv, rfl⟩ := (renderAll_cons_eq_ok r).mp hz
    rw [Renderer.renderAll] at hv
    cases hv
    rw [Renderer.renderTree] at hu
    cases available with
    | true =>
      obtain ⟨w, hw, hu⟩ := bind_eq_ok.mp hu
      cases hu
      obtain ⟨own, hown, havailable, houtput⟩ := renderAll_itemTrees r p hs hw
      refine ⟨own, hown, havailable, ?_⟩
      simp [houtput, Output.append_assoc]
    | false =>
      obtain ⟨own, hown, havailable, houtput⟩ := renderAll_itemTrees r p hs hu
      refine ⟨own, hown, havailable, ?_⟩
      simp [houtput, Output.append_assoc]
      rfl

theorem firstOf_same (hs : s.Same scope) (cs : List (Directive × Choice)) (otherwise : Choice) :
    firstOf r s cs otherwise = firstOf r scope cs otherwise := by
  induction cs with
  | nil => rfl
  | cons c cs ih => simp only [firstOf, r.evalCondition_same c.1 hs, ih]

theorem renderBranches_firstOf {cs : List (Directive × Choice)} {otherwise : Choice} {f : Render}
    (hf : f = r.renderAll (otherwise.trees limit source))
    (h : r.renderBranches (cs.map fun c => (c.1, c.2.trees limit source)) f available s = .ok x) :
    ∃ c, firstOf r s cs otherwise = .ok c ∧
      r.renderAll (c.trees limit source) available s = .ok x := by
  induction cs with
  | nil =>
    rw [List.map_nil, Renderer.renderBranches, hf] at h
    exact ⟨otherwise, rfl, h⟩
  | cons c cs ih =>
    rw [List.map_cons, Renderer.renderBranches, Renderer.choose] at h
    obtain ⟨b, hb, h⟩ := bind_eq_ok.mp h
    cases b with
    | true => exact ⟨c.2, bind_eq_ok.mpr ⟨true, hb, rfl⟩, h⟩
    | false =>
      obtain ⟨c', hc', hx⟩ := ih h
      exact ⟨c', bind_eq_ok.mpr ⟨false, hb, hc'⟩, hx⟩

/-- A block is rendered as the branch that is taken. -/
theorem renderTree_block (b : OptionalBlock) (hs : s.Same scope)
    (h : r.renderTree (b.tree limit source) available s = .ok x) :
    ∃ c, b.selected r source scope = .ok c ∧
      r.renderAll (c.trees limit source) available s = .ok x := by
  have helse : r.renderElse (b.else?.map fun e => e.2.trees limit source) =
      r.renderAll ((b.else?.elim (.blank []) (·.2)).trees limit source) := by
    cases b.else? with
    | none => simp [Renderer.renderElse, Choice.trees, blankTrees, Renderer.renderAll]
    | some e => simp [Renderer.renderElse]
  rw [OptionalBlock.tree, Renderer.renderTree, ← Renderer.renderBranches] at h
  rw [OptionalBlock.selected, ← firstOf_same r hs]
  refine renderBranches_firstOf r helse ?_
  simpa [OptionalBlock.elseifTrees, Function.comp_def] using h

theorem renderAll_parts (parts : List OptionalPart) (hs : s.Same scope)
    (h : r.renderAll (parts.map (OptionalPart.tree limit source)) available s = .ok x) :
    ∃ ps o, layout r limit source scope available parts = .ok (ps, o) ∧ x.output = o ∧
      x.available = (available || !ps.isEmpty) := by
  induction parts generalizing available s x with
  | nil =>
    rw [List.map_nil, Renderer.renderAll] at h
    cases h
    exact ⟨[], .empty, rfl, rfl, by simp⟩
  | cons part parts ih =>
    rw [List.map_cons] at h
    obtain ⟨y, z, hy, hz, rfl⟩ := (renderAll_cons_eq_ok r).mp h
    cases part with
    | blank t =>
      rw [OptionalPart.tree, Renderer.renderTree] at hy
      cases hy
      obtain ⟨ps, o, hlayout, rfl, havailable⟩ := ih hs hz
      exact ⟨ps, _, bind_eq_ok.mpr ⟨_, hlayout, rfl⟩, rfl, havailable⟩
    | comment t =>
      rw [OptionalPart.tree, Renderer.renderTree] at hy
      cases hy
      obtain ⟨ps, o, hlayout, rfl, havailable⟩ := ih hs hz
      exact ⟨ps, _, bind_eq_ok.mpr ⟨_, hlayout, rfl⟩, rfl, havailable⟩
    | block b =>
      rw [OptionalPart.tree] at hy
      obtain ⟨c, hselected, hc⟩ := renderTree_block r b hs hy
      have hscope : y.scope.Same scope := ((renderAll_same r (.refl s) hc).1).trans hs
      obtain ⟨ps, o, hlayout, rfl, havailable⟩ := ih hscope hz
      cases c with
      | blank ts =>
        rw [Choice.trees, renderAll_blanks] at hc
        cases hc
        refine ⟨ps, _, bind_eq_ok.mpr ⟨_, hselected, bind_eq_ok.mpr ⟨_, hlayout, rfl⟩⟩, rfl,
          havailable⟩
      | predicate p =>
        obtain ⟨own, hown, hy', houtput⟩ := renderAll_predicate r p hs hc
        rw [hy'] at hlayout havailable
        refine ⟨p :: ps, _, bind_eq_ok.mpr ⟨_, hselected, bind_eq_ok.mpr ⟨_, hown,
          bind_eq_ok.mpr ⟨_, hlayout, rfl⟩⟩⟩, ?_, by simpa using havailable⟩
        simp [houtput]

/-- A clause with optional predicates is written with its keyword as its body is laid out, if there
is a predicate. -/
theorem renderTree_optional (c : OptionalClause)
    (h : r.renderTree (c.tree limit source) available scope = .ok x) :
    ∃ ps o, layout r limit source scope false c.parts = .ok (ps, o) ∧
      x.output = if ps.isEmpty then (if startsWithClause o.text then o else .empty)
        else .sql c.keyword.1.text ++ o := by
  rw [OptionalClause.tree, Renderer.renderTree, c.isAlwaysWritten_eq] at h
  obtain ⟨y, hy, h⟩ := bind_eq_ok.mp h
  obtain ⟨ps, o, hlayout, rfl, havailable⟩ := renderAll_parts r c.parts (.refl scope) hy
  refine ⟨ps, _, hlayout, ?_⟩
  rw [Bool.false_or] at havailable
  rw [havailable] at h
  cases ps with
  | nil =>
    simp only [List.isEmpty_nil, Bool.not_true, Bool.false_eq_true, ↓reduceIte] at h ⊢
    split at h <;> rename_i hstarts
    · cases h
      rw [if_pos hstarts]
    · cases h
      rw [if_neg hstarts]
  | cons p ps =>
    cases h
    rfl

end TwoWaySql.Template
