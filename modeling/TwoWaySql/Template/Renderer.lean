import TwoWaySql.Expr.Eval
import TwoWaySql.Expr.Parser
import TwoWaySql.Number.FixedWidth
import TwoWaySql.Statement
import TwoWaySql.Template.Parser

/-!
# Rendering templates

Rendering goes through the tree from left to right with a scope and with the knowledge whether there
is content before in the clause, brackets or operand at hand. A connector is left out where there is
none before it. A clause that may be left out is rendered by itself first: with content in it its
keyword stays; without any, only clauses within it stay.
-/

namespace TwoWaySql.Template

/-- Gives the columns for an alias with its point, or for no alias. -/
abbrev Expander := String → List String

/-- What rendering depends on apart from the template and its parameters. -/
structure Renderer where
  formatter : Formatter
  expander : Expander
  registry : Expr.Registry
  /-- The nesting limit of expressions. -/
  limit : Nat

/-- What a part of a template was rendered to. -/
structure Rendered where
  /-- Whether there is content now. -/
  available : Bool
  scope : Scope
  output : Output

/-- Renders a part, given whether there is content before it, and the scope. -/
abbrev Render := Bool → Scope → Except Error Rendered

namespace Render

def nothing : Render := fun available scope => .ok ⟨available, scope, .empty⟩

/-- Writes SQL that is content. -/
def content (sql : String) : Render := fun _ scope => .ok ⟨true, scope, .sql sql⟩

/-- Writes SQL that is not content. -/
def passing (sql : String) : Render := fun available scope => .ok ⟨available, scope, .sql sql⟩

/-- One part after the other. -/
def andThen (first second : Render) : Render := fun available scope => do
  let a ← first available scope
  let b ← second a.available a.scope
  return { b with output := a.output ++ b.output }

/-- A part with SQL before it. -/
def after (sql : String) (r : Render) : Render := fun available scope => do
  let a ← r available scope
  return { a with output := .sql sql ++ a.output }

/-- A part that starts without content before it. -/
def fresh (r : Render) : Render := fun _ scope => r false scope

/-- A part that counts as content whatever it is rendered to. -/
def asContent (r : Render) : Render := fun available scope => do
  let a ← r available scope
  return { a with available := true }

/-- A part that makes no difference to whether there is content. -/
def keeping (output : Scope → Except Error Output) : Render := fun available scope => do
  return ⟨available, scope, ← output scope⟩

end Render

/-! ## Expressions of directives -/

/-- An error of the expression of a directive. -/
def Directive.error (d : Directive) (expression : String) (e : Expr.Error) : Error :=
  .expression expression d.location e

namespace Renderer

def parse (r : Renderer) (d : Directive) (expression : String) : Except Error Expr.Tree :=
  (Expr.parse r.limit expression).mapError (d.error expression)

/-- The value of an expression of a directive. -/
def eval (r : Renderer) (d : Directive) (expression : String) (scope : Scope) :
    Except Error BoundValue := do
  let tree ← r.parse d expression
  (Expr.eval r.registry scope tree).mapError (d.error expression)

/-- The value to bind. A name that is not in the scope binds null. -/
def evalBind (r : Renderer) (d : Directive) (scope : Scope) : Except Error BoundValue := do
  let tree ← r.parse d d.expression
  let value := (Expr.eval r.registry scope tree).mapError (d.error d.expression)
  match tree with
  | .name name _ => if scope.contains name then value else return .null .any
  | _ => value

def evalCondition (r : Renderer) (d : Directive) (scope : Scope) : Except Error Bool := do
  let tree ← r.parse d d.expression
  (Expr.evalCondition r.registry scope tree).mapError (d.error d.expression)

end Renderer

/-- The text of a value that is written as it is. -/
def plainText (v : Value) : String :=
  match v with
  | .null => ""
  | v => v.text

/-! ## Placeholders -/

/-- Outputs in brackets, with commas between them. -/
def tuple (outputs : List Output) : Output :=
  .sql "(" ++ .join (outputs.intersperse (.sql ", ")) ++ .sql ")"

/-- The placeholders of an item of a list. -/
def itemOutput (format : Formatter) : Value → Output
  | .pair a b => tuple [.placeholder format (.of a), .placeholder format (.of b)]
  | .triple a b c =>
    tuple [.placeholder format (.of a), .placeholder format (.of b), .placeholder format (.of c)]
  | v => .placeholder format (.of v)

/-- The placeholders of a value: one, or a group for the items of a list. -/
def bindOutput (format : Formatter) (v : BoundValue) : Output :=
  match v.value with
  | .list [] => tuple [.sql "null"]
  | .list items => tuple (items.map (itemOutput format))
  | _ => .placeholder format v

/-! ## Clauses and loops -/

/-- Whether a text starts with a clause keyword, blanks and comments apart. -/
def startsWithClause (text : String) : Bool :=
  match (lex text).tokens.find? fun t => t.kind ≠ .blank ∧ t.kind ≠ .comment with
  | some t => match t.kind with
    | .clause _ => true
    | _ => false
  | none => false

/-- A clause that is left out if its body is empty. Without content in the body only clauses within
it are kept. -/
def elidable (keyword : String) (body : Render) : Render := fun available scope => do
  let a ← body false scope
  if a.available then return ⟨available, a.scope, .sql keyword ++ a.output⟩
  else if startsWithClause a.output.text then return ⟨true, a.scope, a.output⟩
  else return ⟨available, a.scope, .empty⟩

/-- The names that a loop binds: the item, its index, and whether another one follows. -/
def loopNames (identifier : String) : List String :=
  [identifier, identifier ++ "_index", identifier ++ "_has_next"]

/-- The scope of one round of a loop. -/
def bindLoop (identifier : String) (item : Value) (index : Nat) (hasNext : Bool) (scope : Scope) :
    Scope :=
  ((scope.insert identifier (.of item)).insert (identifier ++ "_index")
    (.of (.int (Number.countInt32 index)))).insert (identifier ++ "_has_next")
    (.of (.bool hasNext))

/-- Renders the body once for each item. -/
def rounds (identifier : String) (body : Render) : Nat → List Value → Render
  | _, [] => .nothing
  | index, item :: items =>
    Render.andThen
      (fun available scope =>
        body available (bindLoop identifier item index (!items.isEmpty) scope))
      (rounds identifier body (index + 1) items)

/-- A loop; afterwards its names are bound as before. -/
def loop (identifier : String) (items : List Value) (body : Render) : Render :=
  fun available saved => do
    let a ← rounds identifier body 0 items available saved
    return { a with
      scope := (loopNames identifier).foldl (fun s n => s.restore saved n) a.scope }

/-! ## Trees -/

namespace Renderer

def renderBind (r : Renderer) (d : Directive) : Render :=
  .keeping fun scope => do return bindOutput r.formatter (← r.evalBind d scope)

def renderLiteral (r : Renderer) (d : Directive) : Render :=
  .keeping fun scope => do return .sql (r.formatter (← r.eval d d.expression scope))

/-- An empty text is written as nothing. -/
def renderEmbedded (r : Renderer) (d : Directive) : Render := fun available scope => do
  let text := plainText (← r.eval d d.expression scope).value
  if text.isEmpty then return ⟨available, scope, .empty⟩ else return ⟨true, scope, .sql text⟩

def renderExpand (r : Renderer) (d : Directive) : Render := fun _ scope => do
  let table := (← r.eval d d.expression scope).value
  if table.isNull then
    throw (.structural (.unresolvedAlias d.expression) d.location)
  let name := table.text
  let columns := r.expander (if name.isEmpty then "" else name ++ ".")
  return ⟨true, scope, .sql (", ".intercalate columns)⟩

/-- One of two parts, as the condition of a directive decides. -/
def choose (r : Renderer) (d : Directive) (yes no : Render) : Render := fun available scope => do
  if ← r.evalCondition d scope then yes available scope else no available scope

def renderLoop (r : Renderer) (d : Directive) (identifier expression : String) (body : Render) :
    Render := fun available scope => do
  match (← r.eval d expression scope).value with
  | .list items => loop identifier items body available scope
  | v => throw (.structural (.notIterable expression v.type) d.location)

mutual

def renderTree (r : Renderer) : Tree → Render
  | .statement ts => renderAll r ts
  | .setOperation left _ keyword right =>
    .asContent <|
      .andThen (.fresh (renderTree r left)) (.after keyword (.fresh (renderTree r right)))
  | .clause kind keyword ts =>
    if kind.isAlwaysWritten then .after keyword (renderAll r ts)
    else elidable keyword (renderAll r ts)
  | .logical _ keyword ts => fun available =>
    (if available then .after keyword (renderAll r ts) else renderAll r ts) available
  | .word text | .other text => .content text
  | .blank text | .comment text => .passing text
  | .brackets inner =>
    .asContent (.andThen (.after "(" (.fresh (renderTree r inner))) (.passing ")"))
  | .bind d _ => r.renderBind d
  | .literal d _ => r.renderLiteral d
  | .embedded d => r.renderEmbedded d
  | .expand d _ => r.renderExpand d
  | .ifBlock test ts elseifs else? =>
    r.choose test (renderAll r ts) (renderBranches r elseifs (renderElse r else?))
  | .forBlock d identifier expression ts => r.renderLoop d identifier expression (renderAll r ts)

def renderAll (r : Renderer) : List Tree → Render
  | [] => .nothing
  | t :: ts => .andThen (renderTree r t) (renderAll r ts)

def renderBranches (r : Renderer) : List (Directive × List Tree) → Render → Render
  | [], otherwise => otherwise
  | (d, ts) :: bs, otherwise => r.choose d (renderAll r ts) (renderBranches r bs otherwise)

def renderElse (r : Renderer) : Option (List Tree) → Render
  | none => .nothing
  | some ts => renderAll r ts

end

/-- The statement of a template and its parameters. -/
def render (r : Renderer) (tree : Tree) (parameters : Scope) : Except Error Statement := do
  let a ← r.renderTree tree false parameters
  return .ofOutput a.output

end Renderer

end TwoWaySql.Template
