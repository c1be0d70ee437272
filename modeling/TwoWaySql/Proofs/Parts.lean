import TwoWaySql.Template.Renderer

/-!
# Rendering in two stages

Evaluating the directives of a tree comes first: it takes branches, unrolls loops and leaves parts,
which hold texts and values but no directives. Writing the parts comes second and decides which
keywords and clauses are left out. `renderTree_eq` says that rendering does nothing else. So the
parts of a tree in a scope are what rendering visits there, in order.
-/

namespace TwoWaySql.Template

/-- What a tree is once its directives are evaluated. -/
inductive Part where
  /-- A blank or a comment. -/
  | space (text : String)
  /-- SQL that counts as content. -/
  | content (text : String)
  /-- The value of a bind directive. -/
  | bind (value : BoundValue)
  /-- The value of a literal directive. -/
  | literal (value : BoundValue)
  | logical (keyword : String) (parts : List Part)
  | clause (kind : ClauseKind) (keyword : String) (parts : List Part)
  | group (parts : List Part)
  | operands (left : List Part) (keyword : String) (right : List Part)

namespace Part

/-! ## Writing -/

/-- What is written for a clause that may be left out, from whether there is content before it and
what its body writes. -/
def writeElidable (keyword : String) (available : Bool) (body : Bool × Output) : Bool × Output :=
  if body.1 then (available, .sql keyword ++ body.2)
  else if startsWithClause body.2.text then (true, body.2)
  else (available, .empty)

mutual

/-- Writes a part, given whether there is content before it; gives whether there is content now. -/
def write (format : Formatter) : Part → Bool → Bool × Output
  | space text, available => (available, .sql text)
  | content text, _ => (true, .sql text)
  | bind v, available => (available, bindOutput format v)
  | literal v, available => (available, .sql (format v))
  | logical keyword ps, available =>
    let body := writeAll format ps available
    (body.1, if available then .sql keyword ++ body.2 else body.2)
  | clause kind keyword ps, available =>
    if kind.isAlwaysWritten then
      let body := writeAll format ps available
      (body.1, .sql keyword ++ body.2)
    else writeElidable keyword available (writeAll format ps false)
  | group ps, _ => (true, .sql "(" ++ (writeAll format ps false).2 ++ .sql ")")
  | operands left keyword right, _ =>
    (true, (writeAll format left false).2 ++ .sql keyword ++ (writeAll format right false).2)

def writeAll (format : Formatter) : List Part → Bool → Bool × Output
  | [], available => (available, .empty)
  | p :: ps, available =>
    let first := write format p available
    let rest := writeAll format ps first.1
    (rest.1, first.2 ++ rest.2)

end

/-- What a list of parts writes as a scope of its own. -/
def output (format : Formatter) (ps : List Part) : Output := (writeAll format ps false).2

theorem writeAll_append (format : Formatter) (ps qs : List Part) (available : Bool) :
    writeAll format (ps ++ qs) available =
      let first := writeAll format ps available
      let rest := writeAll format qs first.1
      (rest.1, first.2 ++ rest.2) := by
  induction ps generalizing available with
  | nil => simp [writeAll]
  | cons p ps ih => simp [writeAll, ih, Output.append_assoc]

theorem writeAll_singleton (format : Formatter) (p : Part) (available : Bool) :
    writeAll format [p] available = write format p available := by simp [writeAll]

end Part

/-! ## Evaluating directives -/

/-- Gives parts, and the scope afterwards. -/
abbrev Resolve := Scope → Except Error (List Part × Scope)

namespace Resolve

def nothing : Resolve := fun scope => .ok ([], scope)

/-- Parts that leave the scope as it is. -/
def leaf (parts : Scope → Except Error (List Part)) : Resolve := fun scope => do
  return (← parts scope, scope)

def andThen (first second : Resolve) : Resolve := fun scope => do
  let a ← first scope
  let b ← second a.2
  return (a.1 ++ b.1, b.2)

/-- One part that holds others. -/
def within (whole : List Part → Part) (parts : Resolve) : Resolve := fun scope => do
  let a ← parts scope
  return ([whole a.1], a.2)

/-- One part that holds two lists of others. -/
def withinTwo (whole : List Part → List Part → Part) (first second : Resolve) : Resolve :=
  fun scope => do
    let a ← first scope
    let b ← second a.2
    return ([whole a.1 b.1], b.2)

/-- The rounds of a loop. -/
def rounds (identifier : String) (body : Resolve) : Nat → List Value → Resolve
  | _, [] => nothing
  | index, item :: items =>
    andThen (fun scope => body (bindLoop identifier item index (!items.isEmpty) scope))
      (rounds identifier body (index + 1) items)

def loop (identifier : String) (items : List Value) (body : Resolve) : Resolve := fun saved => do
  let a ← rounds identifier body 0 items saved
  return (a.1, (loopNames identifier).foldl (fun s n => s.restore saved n) a.2)

end Resolve

namespace Renderer

def resolveEmbedded (r : Renderer) (d : Directive) : Resolve := .leaf fun scope => do
  let text := plainText (← r.eval d d.expression scope).value
  return if text.isEmpty then [] else [.content text]

def resolveExpand (r : Renderer) (d : Directive) : Resolve := .leaf fun scope => do
  let table := (← r.eval d d.expression scope).value
  if table.isNull then
    throw (.structural (.unresolvedAlias d.expression) d.location)
  let columns := r.expander (if table.text.isEmpty then "" else table.text ++ ".")
  return [.content (", ".intercalate columns)]

def resolveChoice (r : Renderer) (d : Directive) (yes no : Resolve) : Resolve := fun scope => do
  if ← r.evalCondition d scope then yes scope else no scope

def resolveLoop (r : Renderer) (d : Directive) (identifier expression : String) (body : Resolve) :
    Resolve := fun scope => do
  match (← r.eval d expression scope).value with
  | .list items => Resolve.loop identifier items body scope
  | v => throw (.structural (.notIterable expression v.type) d.location)

mutual

/-- The parts of a tree in a scope. -/
def resolve (r : Renderer) : Tree → Resolve
  | .statement ts => resolveAll r ts
  | .setOperation left _ keyword right =>
    .withinTwo (.operands · keyword ·) (resolve r left) (resolve r right)
  | .clause kind keyword ts => .within (.clause kind keyword) (resolveAll r ts)
  | .logical _ keyword ts => .within (.logical keyword) (resolveAll r ts)
  | .word text | .other text => .leaf fun _ => .ok [.content text]
  | .blank text | .comment text => .leaf fun _ => .ok [.space text]
  | .brackets inner => .within .group (resolve r inner)
  | .bind d _ => .leaf fun scope => do return [.bind (← r.evalBind d scope)]
  | .literal d _ => .leaf fun scope => do return [.literal (← r.eval d d.expression scope)]
  | .embedded d => r.resolveEmbedded d
  | .expand d _ => r.resolveExpand d
  | .ifBlock test ts elseifs else? =>
    r.resolveChoice test (resolveAll r ts) (resolveBranches r elseifs (resolveElse r else?))
  | .forBlock d identifier expression ts => r.resolveLoop d identifier expression (resolveAll r ts)

def resolveAll (r : Renderer) : List Tree → Resolve
  | [] => .nothing
  | t :: ts => .andThen (resolve r t) (resolveAll r ts)

def resolveBranches (r : Renderer) : List (Directive × List Tree) → Resolve → Resolve
  | [], otherwise => otherwise
  | (d, ts) :: bs, otherwise =>
    r.resolveChoice d (resolveAll r ts) (resolveBranches r bs otherwise)

def resolveElse (r : Renderer) : Option (List Tree) → Resolve
  | none => .nothing
  | some ts => resolveAll r ts

end

end Renderer

/-! ## Both stages -/

/-- What writing parts leads to. -/
def rendered (format : Formatter) (available : Bool) (x : List Part × Scope) : Rendered :=
  let w := Part.writeAll format x.1 available
  ⟨w.1, x.2, w.2⟩

/-- Rendering is evaluating and then writing. -/
def TwoStage (format : Formatter) (f : Render) (g : Resolve) : Prop :=
  ∀ available scope, f available scope = (g scope).map (rendered format available)

namespace TwoStage

variable {format : Formatter} {f f' : Render} {g g' : Resolve}

theorem nothing : TwoStage format .nothing .nothing := fun _ _ => rfl

/-- A directive or a text: what it writes and whether it is content is that of one part or none. -/
theorem leaf {parts : Scope → Except Error (List Part)}
    (h : ∀ available scope, f available scope =
      (parts scope).map fun ps => rendered format available (ps, scope)) :
    TwoStage format f (.leaf parts) := by
  intro available scope
  rw [h, Resolve.leaf]
  cases parts scope <;> rfl

theorem content (text : String) :
    TwoStage format (.content text) (.leaf fun _ => .ok [.content text]) :=
  leaf fun _ _ => by simp [Render.content, Except.map, rendered, Part.writeAll, Part.write]

theorem passing (text : String) :
    TwoStage format (.passing text) (.leaf fun _ => .ok [.space text]) :=
  leaf fun _ _ => by simp [Render.passing, Except.map, rendered, Part.writeAll, Part.write]

theorem andThen (h : TwoStage format f g) (h' : TwoStage format f' g') :
    TwoStage format (.andThen f f') (.andThen g g') := by
  intro available scope
  simp only [Render.andThen, Resolve.andThen, h available scope]
  cases g scope with
  | error e => rfl
  | ok x =>
    have e := h' (rendered format available x).available x.2
    change (f' _ x.2 >>= _) = _
    rw [e]
    cases hx : g' x.2 with
    | error e => simp [bind, Except.bind, Except.map, hx]
    | ok y =>
      simp [bind, Except.bind, Except.map, pure, Except.pure, hx, rendered, Part.writeAll_append]

/-- A part that holds others, if it writes what is made of theirs. -/
theorem within {whole : List Part → Part} (start : Bool → Bool)
    (make : Bool → Rendered → Rendered)
    (h : TwoStage format f g)
    (hf : ∀ available scope, f' available scope =
      (f (start available) scope).map (make available))
    (hw : ∀ available ps scope, make available (rendered format (start available) (ps, scope)) =
      rendered format available ([whole ps], scope)) :
    TwoStage format f' (.within whole g) := by
  intro available scope
  rw [hf, h, Resolve.within]
  cases g scope with
  | error e => rfl
  | ok x => exact congrArg Except.ok (hw available x.1 x.2)

theorem rounds {identifier : String} (h : TwoStage format f g) (index : Nat) (items : List Value) :
    TwoStage format (Template.rounds identifier f index items)
      (Resolve.rounds identifier g index items) := by
  induction items generalizing index with
  | nil => exact nothing
  | cons item items ih => exact andThen (fun _ _ => h _ _) (ih (index + 1))

theorem loop {identifier : String} {items : List Value} (h : TwoStage format f g) :
    TwoStage format (Template.loop identifier items f) (Resolve.loop identifier items g) := by
  intro available scope
  simp only [Template.loop, Resolve.loop, rounds h 0 items available scope]
  cases Resolve.rounds identifier g 0 items scope <;> rfl

variable {r : Renderer} {d : Directive}

theorem choose (h : TwoStage format f g) (h' : TwoStage format f' g') :
    TwoStage format (r.choose d f f') (r.resolveChoice d g g') := by
  intro available scope
  simp only [Renderer.choose, Renderer.resolveChoice]
  cases r.evalCondition d scope with
  | error e => rfl
  | ok b =>
    cases b with
    | true => exact h available scope
    | false => exact h' available scope

theorem renderLoop {identifier expression : String} (h : TwoStage format f g) :
    TwoStage format (r.renderLoop d identifier expression f)
      (r.resolveLoop d identifier expression g) := by
  intro available scope
  simp only [Renderer.renderLoop, Renderer.resolveLoop]
  cases r.eval d expression scope with
  | error e => rfl
  | ok v =>
    obtain ⟨value, type⟩ := v
    cases value <;> first | exact loop h available scope | rfl

theorem renderBind : TwoStage r.formatter (r.renderBind d)
    (.leaf fun scope => do return [.bind (← r.evalBind d scope)]) := by
  refine leaf fun available scope => ?_
  simp only [Renderer.renderBind, Render.keeping]
  cases r.evalBind d scope with
  | error e => rfl
  | ok v =>
    simp [pure, Except.pure, bind, Except.bind, Except.map, rendered, Part.writeAll, Part.write]

theorem renderLiteral : TwoStage r.formatter (r.renderLiteral d)
    (.leaf fun scope => do return [.literal (← r.eval d d.expression scope)]) := by
  refine leaf fun available scope => ?_
  simp only [Renderer.renderLiteral, Render.keeping]
  cases r.eval d d.expression scope with
  | error e => rfl
  | ok v =>
    simp [pure, Except.pure, bind, Except.bind, Except.map, rendered, Part.writeAll, Part.write]

theorem renderEmbedded : TwoStage format (r.renderEmbedded d) (r.resolveEmbedded d) := by
  refine leaf fun available scope => ?_
  simp only [Renderer.renderEmbedded]
  cases r.eval d d.expression scope with
  | error e => rfl
  | ok v =>
    by_cases h : (plainText v.value).isEmpty <;>
      simp [pure, Except.pure, bind, Except.bind, Except.map, rendered, Part.writeAll, Part.write,
        h]

theorem renderExpand : TwoStage format (r.renderExpand d) (r.resolveExpand d) := by
  refine leaf fun available scope => ?_
  simp only [Renderer.renderExpand]
  cases r.eval d d.expression scope with
  | error e => rfl
  | ok v =>
    by_cases h : v.value.isNull <;>
      simp [pure, Except.pure, bind, Except.bind, Except.map, rendered, Part.writeAll, Part.write,
        h, throw, throwThe, MonadExceptOf.throw]

theorem after {keyword : String} {whole : List Part → Part}
    (h : TwoStage format f g)
    (hw : ∀ available ps, Part.write format (whole ps) available =
      let body := Part.writeAll format ps available
      (body.1, .sql keyword ++ body.2)) :
    TwoStage format (.after keyword f) (.within whole g) := by
  refine within id (fun _ x => { x with output := .sql keyword ++ x.output })
    h (fun available scope => ?_) fun available ps scope => ?_
  · simp only [Render.after, id]
    cases f available scope <;> rfl
  · simp [rendered, Part.writeAll_singleton, hw]

theorem elidable {kind : ClauseKind} {keyword : String} (h : TwoStage format f g)
    (hk : kind.isAlwaysWritten = false) :
    TwoStage format (Template.elidable keyword f) (.within (.clause kind keyword) g) := by
  refine within (fun _ => false)
    (fun available x =>
      let w := Part.writeElidable keyword available (x.available, x.output)
      ⟨w.1, x.scope, w.2⟩)
    h (fun available scope => ?_) fun available ps scope => ?_
  · simp only [Template.elidable, Part.writeElidable]
    cases f false scope with
    | error e => rfl
    | ok x =>
      simp only [bind, Except.bind, Except.map, pure, Except.pure]
      split
      · rfl
      · split <;> rfl
  · simp [rendered, Part.writeAll_singleton, Part.write, hk]

theorem logical {keyword : String} (h : TwoStage format f g) :
    TwoStage format (fun available => (if available then .after keyword f else f) available)
      (.within (.logical keyword) g) := by
  refine within id
    (fun available x =>
      { x with output := if available then .sql keyword ++ x.output else x.output })
    h (fun available scope => ?_) fun available ps scope => ?_
  · cases available with
    | true =>
      simp only [↓reduceIte, Render.after, id]
      cases f true scope <;> rfl
    | false =>
      simp only [Bool.false_eq_true, ↓reduceIte, id]
      cases f false scope <;> rfl
  · simp [rendered, Part.writeAll_singleton, Part.write]

theorem brackets (h : TwoStage format f g) :
    TwoStage format (.asContent (.andThen (.after "(" (.fresh f)) (.passing ")")))
      (.within .group g) := by
  refine within (fun _ => false)
    (fun _ x => { x with available := true, output := .sql "(" ++ x.output ++ .sql ")" })
    h (fun available scope => ?_) fun available ps scope => ?_
  · simp only [Render.asContent, Render.andThen, Render.after, Render.fresh]
    cases f false scope <;> rfl
  · simp [rendered, Part.writeAll_singleton, Part.write]

theorem operands {keyword : String} (h : TwoStage format f g) (h' : TwoStage format f' g') :
    TwoStage format (.asContent (.andThen (.fresh f) (.after keyword (.fresh f'))))
      (.withinTwo (.operands · keyword ·) g g') := by
  intro available scope
  simp only [Render.asContent, Render.andThen, Render.after, Render.fresh, Resolve.withinTwo,
    h false scope]
  cases g scope with
  | error e => rfl
  | ok x =>
    simp only [bind, Except.bind, Except.map, rendered, h' false x.2]
    cases g' x.2 with
    | error e => rfl
    | ok y =>
      simp [pure, Except.pure, Part.writeAll_singleton, Part.write, Output.append_assoc]

end TwoStage

mutual

theorem renderTree_twoStage (r : Renderer) :
    (t : Tree) → TwoStage r.formatter (r.renderTree t) (r.resolve t)
  | .statement ts => by
    simp only [Renderer.renderTree, Renderer.resolve]
    exact renderAll_twoStage r ts
  | .setOperation left _ _ right => by
    simp only [Renderer.renderTree, Renderer.resolve]
    exact .operands (renderTree_twoStage r left) (renderTree_twoStage r right)
  | .clause kind _ ts => by
    simp only [Renderer.renderTree, Renderer.resolve]
    cases hk : kind.isAlwaysWritten with
    | true =>
      simp only [↓reduceIte]
      exact .after (renderAll_twoStage r ts) (by simp [Part.write, hk])
    | false =>
      simp only [Bool.false_eq_true, ↓reduceIte]
      exact .elidable (renderAll_twoStage r ts) hk
  | .logical _ _ ts => by
    simp only [Renderer.renderTree, Renderer.resolve]
    exact .logical (renderAll_twoStage r ts)
  | .word text => by
    simp only [Renderer.renderTree, Renderer.resolve]
    exact .content text
  | .other text => by
    simp only [Renderer.renderTree, Renderer.resolve]
    exact .content text
  | .blank text => by
    simp only [Renderer.renderTree, Renderer.resolve]
    exact .passing text
  | .comment text => by
    simp only [Renderer.renderTree, Renderer.resolve]
    exact .passing text
  | .brackets inner => by
    simp only [Renderer.renderTree, Renderer.resolve]
    exact .brackets (renderTree_twoStage r inner)
  | .bind _ _ => by
    simp only [Renderer.renderTree, Renderer.resolve]
    exact .renderBind
  | .literal _ _ => by
    simp only [Renderer.renderTree, Renderer.resolve]
    exact .renderLiteral
  | .embedded _ => by
    simp only [Renderer.renderTree, Renderer.resolve]
    exact .renderEmbedded
  | .expand _ _ => by
    simp only [Renderer.renderTree, Renderer.resolve]
    exact .renderExpand
  | .ifBlock _ ts elseifs else? => by
    simp only [Renderer.renderTree, Renderer.resolve]
    exact .choose (renderAll_twoStage r ts)
      (renderBranches_twoStage r elseifs (renderElse_twoStage r else?))
  | .forBlock _ _ _ ts => by
    simp only [Renderer.renderTree, Renderer.resolve]
    exact .renderLoop (renderAll_twoStage r ts)

theorem renderAll_twoStage (r : Renderer) :
    (ts : List Tree) → TwoStage r.formatter (r.renderAll ts) (r.resolveAll ts)
  | [] => by
    simp only [Renderer.renderAll, Renderer.resolveAll]
    exact .nothing
  | t :: ts => by
    simp only [Renderer.renderAll, Renderer.resolveAll]
    exact .andThen (renderTree_twoStage r t) (renderAll_twoStage r ts)

theorem renderBranches_twoStage (r : Renderer) {f : Render} {g : Resolve} :
    (bs : List (Directive × List Tree)) → TwoStage r.formatter f g →
      TwoStage r.formatter (r.renderBranches bs f) (r.resolveBranches bs g)
  | [], h => by
    simp only [Renderer.renderBranches, Renderer.resolveBranches]
    exact h
  | (_, ts) :: bs, h => by
    simp only [Renderer.renderBranches, Renderer.resolveBranches]
    exact .choose (renderAll_twoStage r ts) (renderBranches_twoStage r bs h)

theorem renderElse_twoStage (r : Renderer) :
    (else? : Option (List Tree)) → TwoStage r.formatter (r.renderElse else?) (r.resolveElse else?)
  | none => by
    simp only [Renderer.renderElse, Renderer.resolveElse]
    exact .nothing
  | some ts => by
    simp only [Renderer.renderElse, Renderer.resolveElse]
    exact renderAll_twoStage r ts

end

/-- A statement is what the parts of its tree write. -/
theorem render_eq_ok_iff {r : Renderer} {tree : Tree} {parameters : Scope} {s : Statement} :
    r.render tree parameters = .ok s ↔
      ∃ ps scope, r.resolve tree parameters = .ok (ps, scope) ∧
        s = .ofOutput (Part.output r.formatter ps) := by
  simp only [Renderer.render, renderTree_twoStage r tree false parameters]
  cases r.resolve tree parameters with
  | error e => simp [bind, Except.bind, Except.map]
  | ok x =>
    obtain ⟨ps, scope⟩ := x
    simp [bind, Except.bind, Except.map, pure, Except.pure, rendered, Part.output, eq_comm]

end TwoWaySql.Template
