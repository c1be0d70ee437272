import TwoWaySql.Cache
import TwoWaySql.Expr.Builtin
import TwoWaySql.Settings
import TwoWaySql.Template.Renderer

/-!
# Compiling templates

A compiler parses a template, or finds its tree in a cache, and renders it. Compilers may share a
cache, so it is handed on from one run to the next.
-/

namespace TwoWaySql

open Template

/-- What a run has to tell. -/
inductive Event where
  | cacheHit (bytes : Nat)
  | cacheMiss (bytes : Nat)
  | built (text : String) (values : Nat)

namespace Event

def text : Event → String
  | cacheHit bytes => s!"Template cache hit len={bytes}"
  | cacheMiss bytes => s!"Template cache miss len={bytes}"
  | built sql values => s!"Built statement sql={sql} values={values}"

end Event

/-- What a run leads to: its result, the cache afterwards, and what happened. -/
structure Run (α : Type) where
  result : Except Error α
  cache? : Option Cache
  events : List Event

/-- A compiler is the renderer of its statements; the limit also bounds the nesting of templates. -/
abbrev Compiler := Renderer

namespace Compiler

/-- Standard literals, no columns and the built-in members. -/
def standard : Compiler where
  formatter := Dialect.generic.formatter
  expander := fun _ => []
  registry := .builtin
  limit := defaultDepth

/-- The tree of a template. -/
def parse (c : Compiler) (cache? : Option Cache) (template : String) : Run Tree :=
  match cache? with
  | none => ⟨Template.parse c.limit template, none, []⟩
  | some cache =>
    let bytes := byteLength template.toList
    match cache.get template with
    | (some tree, cache) => ⟨.ok tree, some cache, [.cacheHit bytes]⟩
    | (none, cache) =>
      match Template.parse c.limit template with
      | .ok tree => ⟨.ok tree, some (cache.insert template tree), [.cacheMiss bytes]⟩
      | .error e => ⟨.error e, some cache, [.cacheMiss bytes]⟩

/-- The statement of a template and its parameters. -/
def build (c : Compiler) (cache? : Option Cache) (template : String) (parameters : Scope) :
    Run Statement :=
  let parsed := c.parse cache? template
  match parsed.result with
  | .error e => { parsed with result := .error e }
  | .ok tree =>
    match c.render tree parameters with
    | .error e => { parsed with result := .error e }
    | .ok statement =>
      { parsed with
        result := .ok statement
        events := parsed.events ++ [.built statement.text statement.values.length] }

/-- The compiler of settings, and its cache. -/
def ofSettings (s : Settings) : Compiler × Option Cache :=
  ({ standard with limit := s.maxDepth }, s.cacheCapacity?.map .empty)

/-- The compiler and its cache as logs name them. -/
def describe (c : Compiler) (cache? : Option Cache) : String :=
  let cache := match cache? with
    | none => "None"
    | some cache => "Some(" ++ cache.describe ++ ")"
  "StatementBuilder \x7b extensions: " ++ c.registry.describe ++ ", max_depth: " ++
    toString c.limit ++ ", cache: " ++ cache ++ ", .. \x7d"

end Compiler

end TwoWaySql
