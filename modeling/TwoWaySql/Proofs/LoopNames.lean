import TwoWaySql.Proofs.Expr.Literals
import TwoWaySql.Proofs.Placement
import TwoWaySql.Proofs.Unrolling

/-!
# Reading the names of a loop

A loop binds its identifier and two names made of it, and any word will do for the identifier. In an
expression a word is a name too, unless it is one of the literals `true`, `false` and `null`. So a
loop with one of these identifiers binds its items to a name that cannot be read; all other loops
bind them where they are asked for (`loop_names_readable_iff`).
-/

namespace TwoWaySql

open Text (isIdentifier isIdentifierPart)

/-! ## Words as expressions -/

theorem Text.isIdentifier_append {cs more : List Char} (h : isIdentifier cs = true)
    (hmore : more.all isIdentifierPart = true) : isIdentifier (cs ++ more) = true := by
  cases cs with
  | nil => cases h
  | cons c cs =>
    obtain ⟨hstart, hparts⟩ := Bool.and_eq_true_iff.mp h
    rw [List.cons_append, isIdentifier, List.all_append, hstart, hparts, hmore]
    rfl

namespace Expr

/-- The words that are literals. -/
def literalWords : List String := ["true", "false", "null"]

theorem wordKind_eq_name_iff {text : String} :
    wordKind text.toList = .name ↔ text ∉ literalWords := by
  have hwords : text ∈ literalWords ↔ text.toList = ['t', 'r', 'u', 'e'] ∨
      text.toList = ['f', 'a', 'l', 's', 'e'] ∨ text.toList = ['n', 'u', 'l', 'l'] := by
    simp [literalWords, ← String.toList_inj]
  rw [hwords]
  unfold wordKind
  split <;> rename_i htrue
  · simp [htrue]
  · split <;> rename_i hfalse
    · simp [hfalse]
    · split <;> rename_i hnull
      · simp [hnull]
      · simp [htrue, hfalse, hnull]

variable {limit : Nat} {text : String}

/-- A word is one token. -/
theorem lex_word (h : isIdentifier text.toList = true) :
    lex text = ⟨[⟨wordKind text.toList, text, 0⟩, ⟨.stop, "", byteLength text.toList⟩], none⟩ := by
  cases hchars : text.toList with
  | nil =>
    rw [hchars] at h
    cases h
  | cons c cs =>
    rw [hchars] at h
    have htext : text = String.ofList (c :: cs) := by rw [← hchars, String.ofList_toList]
    have hlength : cs.take cs.length = cs ∧ cs.drop cs.length = [] :=
      ⟨List.take_length, List.drop_length⟩
    rw [lex, hchars, lexFrom_token (scan_word h), hlength.1, hlength.2, htext]
    dsimp only
    rw [Scanner.lexFrom, Token.stop, String.toList_ofList, Nat.zero_add]
    rfl

/-- A word that is taken for an operand is the whole expression, whatever the limit. -/
theorem parse_word {tree : Tree} (h : isIdentifier text.toList = true)
    (hstep : ParserState.start.step limit text ⟨wordKind text.toList, text, 0⟩ =
      .ok ⟨Group.start.addOperand (.leaf tree), [], none⟩) :
    parse limit text = .ok tree := by
  rw [parse, parseOperand, lex_word h]
  simp only [List.foldlM_cons, hstep]
  rfl

/-- The text is an expression, which is just this name, whatever the limit of nesting. -/
def ReadsAsName (text : String) : Prop := ∀ limit, parse limit text = .ok (.name text ⟨text, 0⟩)

theorem readsAsName (h : isIdentifier text.toList = true) (hname : text ∉ literalWords) :
    ReadsAsName text := by
  intro limit
  refine parse_word h ?_
  rw [wordKind_eq_name_iff.mpr hname]
  rfl

/-- A word that is a literal is a truth value or null, whatever the limit. -/
theorem parse_literalWord (h : text ∈ literalWords) :
    ∃ v : Value, (v = .bool true ∨ v = .bool false ∨ v = .null) ∧
      ∀ limit, parse limit text = .ok (.literal (.of v) ⟨text, 0⟩) := by
  simp only [literalWords, List.mem_cons, List.not_mem_nil, or_false] at h
  rcases h with rfl | rfl | rfl
  · exact ⟨.bool true, .inl rfl, fun _ => parse_word (by decide +kernel) rfl⟩
  · exact ⟨.bool false, .inr (.inl rfl), fun _ => parse_word (by decide +kernel) rfl⟩
  · exact ⟨.null, .inr (.inr rfl), fun _ => parse_word (by decide +kernel) rfl⟩

theorem readsAsName_iff (h : isIdentifier text.toList = true) :
    ReadsAsName text ↔ text ∉ literalWords := by
  refine ⟨fun hname hliteral => ?_, readsAsName h⟩
  obtain ⟨v, -, hparse⟩ := parse_literalWord hliteral
  cases (hname 0).symm.trans (hparse 0)

/-- A name with more after it is still a name, and too long for the words that are literals. -/
theorem readsAsName_append (h : isIdentifier text.toList = true) {more : String}
    (hmore : more.toList.all isIdentifierPart = true) (hlength : 5 ≤ more.length) :
    ReadsAsName (text ++ more) := by
  refine readsAsName ?_ fun hliteral => ?_
  · rw [String.toList_append]
    exact Text.isIdentifier_append h hmore
  · have hwords : ∀ word ∈ literalWords, word.length ≤ 5 := by decide
    have hword := hwords _ hliteral
    have hne : text.length ≠ 0 := by
      intro hempty
      rw [← String.length_toList, List.length_eq_zero_iff] at hempty
      rw [hempty] at h
      cases h
    rw [String.length_append] at hword
    omega

end Expr

namespace Template

open TwoWaySql.Expr (ReadsAsName literalWords readsAsName readsAsName_iff readsAsName_append
  parse_literalWord)

/-! ## Rounds that are given their item -/

/-- The rounds of a loop whose body is given the item. -/
def itemRounds (identifier : String) (body : Value → Render) : Nat → List Value → Render
  | _, [] => .nothing
  | index, item :: items =>
    .andThen
      (fun available scope =>
        body item available (bindLoop identifier item index (!items.isEmpty) scope))
      (itemRounds identifier body (index + 1) items)

/-- A loop whose body is given the item. -/
def itemLoop (identifier : String) (items : List Value) (body : Value → Render) : Render :=
  fun available saved => do
    let a ← itemRounds identifier body 0 items available saved
    return { a with
      scope := (loopNames identifier).foldl (fun s n => s.restore saved n) a.scope }

/-- A body that in each round does what it does if it is given the item. -/
theorem loop_eq_itemLoop {identifier : String} {body : Render} {body' : Value → Render}
    (h : ∀ item index hasNext available scope,
      body available (bindLoop identifier item index hasNext scope) =
        body' item available (bindLoop identifier item index hasNext scope))
    (items : List Value) : loop identifier items body = itemLoop identifier items body' := by
  have hrounds (index : Nat) :
      rounds identifier body index items = itemRounds identifier body' index items := by
    induction items generalizing index with
    | nil => rfl
    | cons item items ih => simp only [rounds, itemRounds, h, ih]
  funext available saved
  rw [loop, itemLoop, hrounds]

/-- The second part matters only as far as the first one leads to it. -/
theorem andThen_congr {f g g' : Render} {available : Bool} {scope : Scope}
    (h : ∀ a, f available scope = .ok a → g a.available a.scope = g' a.available a.scope) :
    Render.andThen f g available scope = Render.andThen f g' available scope := by
  simp only [Render.andThen]
  cases hf : f available scope with
  | error e => rfl
  | ok a => simp only [bind, Except.bind, h a hf]

theorem renderAll_append (r : Renderer) (ts us : List Tree) :
    r.renderAll (ts ++ us) = .andThen (r.renderAll ts) (r.renderAll us) := by
  induction ts with
  | nil =>
    funext available scope
    simp only [List.nil_append, Renderer.renderAll, Render.andThen, Render.nothing, bind,
      Except.bind]
    cases r.renderAll us available scope <;> simp [pure, Except.pure]
  | cons t ts ih =>
    funext available scope
    rw [List.cons_append, Renderer.renderAll, Renderer.renderAll, ih]
    simp only [Render.andThen]
    cases r.renderTree t available scope with
    | error e => rfl
    | ok a =>
      simp only [bind, Except.bind]
      cases r.renderAll ts a.available a.scope with
      | error e => rfl
      | ok b =>
        simp only [pure, Except.pure]
        cases r.renderAll us b.available b.scope <;> simp [Output.append_assoc]

/-! ## Items in bind directives -/

namespace Renderer

/-- An output with trees before and after it. -/
def renderAround (r : Renderer) (before : List Tree) (output : Output) (after : List Tree) :
    Render :=
  .andThen (r.renderAll before) (.andThen (.keeping fun _ => .ok output) (r.renderAll after))

/-- In every loop with the identifier, over any list, a bind directive for the identifier directly
in the body writes the placeholders of the item in each round. -/
def BindsItems (r : Renderer) (identifier : String) : Prop :=
  ∀ (d d' : Directive) (expression : String) (sample? : Option Tree) (before after : List Tree)
    (available : Bool) (scope : Scope) (v : BoundValue) (items : List Value),
    d'.expression = identifier → r.eval d expression scope = .ok v → v.value = .list items →
    r.renderTree (.forBlock d identifier expression (before ++ .bind d' sample? :: after))
        available scope =
      itemLoop identifier items
        (fun item => r.renderAround before (bindOutput r.formatter (.of item)) after)
        available scope

variable {r : Renderer} {identifier : String}

theorem lookup_bindLoop_identifier (item : Value) (index : Nat) (hasNext : Bool) (scope : Scope) :
    (bindLoop identifier item index hasNext scope).lookup identifier = some (.of item) := by
  have hne {more : String} (hmore : more ≠ "") : identifier ≠ identifier ++ more := by
    intro h
    have hlength := congrArg String.length h
    rw [String.length_append] at hlength
    exact hmore (String.toList_eq_nil_iff.mp (List.length_eq_zero_iff.mp
      (by rw [String.length_toList]; omega)))
  rw [bindLoop, Scope.lookup_insert, if_neg (hne (by decide)), Scope.lookup_insert,
    if_neg (hne (by decide)), Scope.lookup_insert, if_pos rfl]

/-- A name that can be read binds what the scope binds it to. -/
theorem evalBind_of_readsAsName {d : Directive} {scope : Scope} {v : BoundValue}
    (hname : ReadsAsName d.expression) (hv : scope.lookup d.expression = some v) :
    r.evalBind d scope = .ok v := by
  rw [evalBind, parse, hname r.limit]
  simp only [Except.mapError, bind, Except.bind, Scope.contains, hv, Option.isSome_some, if_true,
    Expr.eval]

theorem renderTree_bind {d : Directive} {scope : Scope} {v : BoundValue}
    (h : r.evalBind d scope = .ok v) (sample? : Option Tree) (available : Bool) :
    r.renderTree (.bind d sample?) available scope =
      .ok ⟨available, scope, bindOutput r.formatter v⟩ := by
  rw [renderTree, renderBind]
  simp only [Render.keeping, h]
  rfl

theorem renderTree_loop {d : Directive} {expression : String} {scope : Scope} {v : BoundValue}
    {items : List Value} (hv : r.eval d expression scope = .ok v) (hitems : v.value = .list items)
    (body : List Tree) (available : Bool) :
    r.renderTree (.forBlock d identifier expression body) available scope =
      loop identifier items (r.renderAll body) available scope := by
  simp [renderTree, renderLoop, hv, hitems, bind, Except.bind]

theorem bindsItems_of_readsAsName (hname : ReadsAsName identifier) : r.BindsItems identifier := by
  rintro d d' expression sample? before after available scope v items rfl hv hitems
  rw [renderTree_loop hv hitems]
  refine congrFun (congrFun (loop_eq_itemLoop (fun item index hasNext available scope => ?_) items)
    available) scope
  rw [renderAll_append, renderAround]
  refine andThen_congr fun a ha => ?_
  -- whatever is rendered before leaves the item bound
  have hscope := (renderAll_twoStage r before).scope_same (resolveAll_reads r before) ha
  have hitem : a.scope.lookup d'.expression = some (.of item) :=
    (hscope.lookup _).trans (lookup_bindLoop_identifier item index hasNext scope)
  rw [renderAll]
  simp only [Render.andThen, renderTree_bind (evalBind_of_readsAsName hname hitem)]
  rfl

/-- A literal has the same value in every round. -/
theorem not_bindsItems (hliteral : identifier ∈ literalWords) : ¬r.BindsItems identifier := by
  intro hbinds
  obtain ⟨w, hw, hparse⟩ := parse_literalWord hliteral
  let d : Directive := ⟨identifier, "", ⟨"", 0⟩⟩
  let scope : Scope := .ofList [("xs", .of (.list [.int 7]))]
  have hname : ReadsAsName "xs" := readsAsName (by decide +kernel) (by decide)
  have hlist : r.eval d "xs" scope = .ok (.of (.list [.int 7])) := by
    rw [eval, parse, hname r.limit]
    rfl
  have hbind (s : Scope) : r.evalBind d s = .ok (.of w) := by
    simp only [evalBind, parse, d, hparse, Except.mapError, bind, Except.bind, Expr.eval]
  have hloop := hbinds d d "xs" none [] [] false scope _ [.int 7] rfl hlist rfl
  rw [renderTree_loop hlist rfl] at hloop
  have hvalues : (bindOutput r.formatter (.of w)).values =
      (bindOutput r.formatter (.of (.int 7))).values := by
    have h := congrArg (fun x => x.toOption.map (·.output.values)) hloop
    simpa [loop, rounds, itemLoop, itemRounds, renderAround, renderAll, Render.andThen,
      Render.keeping, Render.nothing, renderTree_bind (hbind _), bind, Except.bind, pure,
      Except.pure, Except.toOption] using h
  rcases hw with rfl | rfl | rfl <;> cases hvalues

theorem bindsItems_iff (h : isIdentifier identifier.toList = true) :
    r.BindsItems identifier ↔ identifier ∉ literalWords :=
  ⟨fun hbinds hliteral => not_bindsItems hliteral hbinds,
    fun hname => bindsItems_of_readsAsName (readsAsName h hname)⟩

end Renderer

/-- Every loop directive of a template has an identifier and an expression. -/
theorem exists_isLoop {template : String} {t : Token} (ht : t ∈ (lex template).tokens)
    (hkind : t.kind = .directive .forLoop) :
    ∃ identifier expression,
      IsLoop template (Token.directive template t) identifier expression := by
  obtain ⟨⟨identifier, expression⟩, hparts⟩ := Option.isSome_iff_exists.mp
    (formed_of_lexFrom template.toList 0 t ht hkind)
  refine ⟨String.ofList identifier, String.ofList expression, ⟨t, ht, hkind, rfl⟩, ?_⟩
  rw [String.toList_ofList, String.toList_ofList]
  exact hparts

/-- Every loop directive of a template has an identifier. The two names that the loop makes of it
can be read. It can be read itself, and bind directives for it bind the items, if and only if it is
none of the words that are literals. -/
theorem loop_names_readable_iff (template : String) (t : Token) (ht : t ∈ (lex template).tokens)
    (hkind : t.kind = .directive .forLoop) (r : Renderer) :
    ∃ identifier expression,
      IsLoop template (Token.directive template t) identifier expression ∧
      ReadsAsName (identifier ++ "_index") ∧ ReadsAsName (identifier ++ "_has_next") ∧
      (ReadsAsName identifier ↔ identifier ∉ literalWords) ∧
      (r.BindsItems identifier ↔ identifier ∉ literalWords) := by
  obtain ⟨identifier, expression, hloop⟩ := exists_isLoop ht hkind
  have hidentifier := (isIdentifier_of_loopParts? hloop.2).1
  exact ⟨identifier, expression, hloop,
    readsAsName_append hidentifier (by decide +kernel) (by decide),
    readsAsName_append hidentifier (by decide +kernel) (by decide),
    readsAsName_iff hidentifier, Renderer.bindsItems_iff hidentifier⟩

theorem loop_names_readable_iff_item :
    (⟨.directive .forLoop, "/*%for item in xs*/", 0⟩ : Token) ∈
        (lex "/*%for item in xs*//*item*/0/*%end*/").tokens ∧
      ReadsAsName "item_index" ∧ ReadsAsName "item_has_next" ∧ ReadsAsName "item" ∧
      Compiler.standard.BindsItems "item" := by
  have ht : (⟨.directive .forLoop, "/*%for item in xs*/", 0⟩ : Token) ∈
      (lex "/*%for item in xs*//*item*/0/*%end*/").tokens := by
    decide +kernel
  obtain ⟨identifier, expression, hloop, hindex, hnext, hname, hbinds⟩ :=
    loop_names_readable_iff _ _ ht rfl Compiler.standard
  have hparts : loopParts? "item in xs".toList = some ("item".toList, "xs".toList) := by
    decide +kernel
  have hbody : (Token.directive "/*%for item in xs*//*item*/0/*%end*/"
      ⟨.directive .forLoop, "/*%for item in xs*/", 0⟩).expression = "item in xs" := by
    decide +kernel
  have hsame := hloop.2
  rw [hbody, hparts] at hsame
  obtain rfl : identifier = "item" :=
    (String.toList_inj.mp (Prod.mk.inj (Option.some.inj hsame)).1).symm
  exact ⟨ht, hindex, hnext, hname.mpr (by decide), hbinds.mpr (by decide)⟩

/-- A loop is accepted whose identifier is a literal, and its bind directive binds the literal in
place of the item. -/
theorem loop_binds_literal :
    IsLoop "/*%for true in xs*//*true*/0/*%end*/" ⟨"true in xs", "/*%for true in xs*/",
        ⟨"/*%for true in xs*//*true*/0/*%end*/", 0⟩⟩ "true" "xs" ∧
      ¬ReadsAsName "true" ∧ ¬Compiler.standard.BindsItems "true" ∧
      ∃ s, (Compiler.standard.build none "/*%for true in xs*//*true*/0/*%end*/"
        (.ofList [("xs", .of (.list [.int 7]))])).result = .ok s ∧
        s.text = "?" ∧ s.log = "TRUE" ∧ s.values.map (·.value.asBool?) = [some true] := by
  have hword : isIdentifier "true".toList = true := by decide +kernel
  have hdirective : IsDirective "/*%for true in xs*//*true*/0/*%end*/" .forLoop
      ⟨"true in xs", "/*%for true in xs*/", ⟨"/*%for true in xs*//*true*/0/*%end*/", 0⟩⟩ :=
    ⟨⟨.directive .forLoop, "/*%for true in xs*/", 0⟩, by decide +kernel, rfl, by decide +kernel⟩
  refine ⟨⟨hdirective, by decide +kernel⟩, fun hname => ?_, fun hbinds => ?_, ?_⟩
  · exact (readsAsName_iff hword).mp hname (by decide)
  · exact (Renderer.bindsItems_iff hword).mp hbinds (by decide)
  · have hbuild : (Compiler.standard.build none "/*%for true in xs*//*true*/0/*%end*/"
        (.ofList [("xs", .of (.list [.int 7]))])).result.toOption.map (fun s =>
          (s.text, s.log, s.values.map (·.value.asBool?))) =
        some ("?", "TRUE", [some true]) := by
      decide +kernel
    obtain ⟨s, hs, hfacts⟩ := exists_ok_of_map hbuild
    simp only [Prod.mk.injEq] at hfacts
    exact ⟨s, hs, hfacts⟩

end Template

end TwoWaySql
