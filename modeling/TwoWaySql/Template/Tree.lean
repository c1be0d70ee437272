import TwoWaySql.Template.Token

/-!
# Template trees

A clause holds what follows its keyword, a connector the predicate after it. The sample that a value
directive replaces is kept, so that a tree can be written as a template again; only `else` and `end`
come out in one form.
-/

namespace TwoWaySql.Template

/-- A directive as it was written. -/
structure Directive where
  /-- The body, trimmed. -/
  expression : String
  text : String
  location : Location
  deriving DecidableEq

inductive Tree where
  | statement (children : List Tree)
  | setOperation (left : Tree) (op : SetOperator) (keyword : String) (right : Tree)
  | clause (kind : ClauseKind) (keyword : String) (children : List Tree)
  | logical (op : Connector) (keyword : String) (children : List Tree)
  | word (text : String)
  | blank (text : String)
  | other (text : String)
  | comment (text : String)
  | brackets (inner : Tree)
  | bind (directive : Directive) (sample? : Option Tree)
  | literal (directive : Directive) (sample? : Option Tree)
  | embedded (directive : Directive)
  | expand (directive : Directive) (sample? : Option Tree)
  | ifBlock (test : Directive) (children : List Tree) (elseifs : List (Directive × List Tree))
      (else? : Option (List Tree))
  | forBlock (directive : Directive) (identifier expression : String) (children : List Tree)

instance : Inhabited Tree := ⟨.statement []⟩

namespace Tree

mutual

/-- The template that the tree stands for. -/
def template : Tree → String
  | statement ts => templates ts
  | setOperation l _ keyword r => l.template ++ keyword ++ r.template
  | clause _ keyword ts => keyword ++ templates ts
  | logical _ keyword ts => keyword ++ templates ts
  | word s | blank s | other s | comment s => s
  | brackets t => "(" ++ t.template ++ ")"
  | bind d s => d.text ++ sampleTemplate s
  | literal d s => d.text ++ sampleTemplate s
  | embedded d => d.text
  | expand d s => d.text ++ sampleTemplate s
  | ifBlock test ts bs e =>
    test.text ++ templates ts ++ branchTemplates bs ++ elseTemplate e ++ "/*%end*/"
  | forBlock d _ _ ts => d.text ++ templates ts ++ "/*%end*/"

def templates : List Tree → String
  | [] => ""
  | t :: ts => t.template ++ templates ts

def sampleTemplate : Option Tree → String
  | none => ""
  | some t => t.template

def branchTemplates : List (Directive × List Tree) → String
  | [] => ""
  | (d, ts) :: bs => d.text ++ templates ts ++ branchTemplates bs

def elseTemplate : Option (List Tree) → String
  | none => ""
  | some ts => "/*%else*/" ++ templates ts

end

end Tree

end TwoWaySql.Template
