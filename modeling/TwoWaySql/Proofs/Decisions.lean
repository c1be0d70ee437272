import TwoWaySql.Proofs.FreeNames

/-!
# Decisions

What rendering decides with values: which conditions hold, how often loops run, and how many
placeholders stand for a value. Where no directive writes a value itself, nothing else of the values
reaches the text, so two renderings that decide alike write the same text (`render_text_congr`).
-/

namespace TwoWaySql.Template

open Scope (Same SameBut)
open Resolve (Reads)

/-! ## Shapes -/

/-- What the placeholders of an item of a list show of it. -/
inductive ItemShape where
  | single
  | pair
  | triple
  deriving DecidableEq

/-- What the placeholders of a value show of it. -/
inductive Shape where
  | single
  | list (items : List ItemShape)
  deriving DecidableEq

def itemShape : Value → ItemShape
  | .pair _ _ => .pair
  | .triple _ _ _ => .triple
  | _ => .single

def shape : Value → Shape
  | .list items => .list (items.map itemShape)
  | _ => .single

def ItemShape.text : ItemShape → String
  | single => "?"
  | pair => "(?, ?)"
  | triple => "(?, ?, ?)"

section

variable {proj : Output → String} (hsql : ∀ s, proj (.sql s) = s)
  (happend : ∀ a b, proj (a ++ b) = proj a ++ proj b)
include hsql happend

theorem proj_join (outputs : List Output) :
    proj (.join outputs) = String.join (outputs.map proj) := by
  induction outputs with
  | nil => exact hsql ""
  | cons o os ih =>
    show proj (o ++ Output.join os) = _
    rw [happend, ih, List.map_cons, String.join_cons]

/-- What outputs in brackets show in the text, or in the log. -/
theorem proj_tuple (outputs : List Output) :
    proj (tuple outputs) = "(" ++ String.join ((outputs.map proj).intersperse ", ") ++ ")" := by
  have hsep : (outputs.intersperse (.sql ", ")).map proj =
      (outputs.map proj).intersperse ", " := by
    induction outputs with
    | nil => rfl
    | cons o os ih =>
      cases os with
      | nil => rfl
      | cons p ps =>
        simp only [List.intersperse_cons_cons, List.map_cons, hsql] at ih ⊢
        rw [ih]
  show proj (.sql "(" ++ .join (outputs.intersperse (.sql ", ")) ++ .sql ")") = _
  rw [happend, happend, hsql, hsql, proj_join hsql happend, hsep]

end

theorem text_tuple (outputs : List Output) :
    (tuple outputs).text = "(" ++ String.join ((outputs.map (·.text)).intersperse ", ") ++ ")" :=
  proj_tuple (fun _ => rfl) (fun _ _ => rfl) outputs

theorem text_itemOutput (format : Formatter) (v : Value) :
    (itemOutput format v).text = (itemShape v).text := by
  cases v with
  | pair a b =>
    refine (text_tuple _).trans ?_
    show "(" ++ String.join (["?", "?"].intersperse ", ") ++ ")" = "(?, ?)"
    decide
  | triple a b c =>
    refine (text_tuple _).trans ?_
    show "(" ++ String.join (["?", "?", "?"].intersperse ", ") ++ ")" = "(?, ?, ?)"
    decide
  | _ => rfl

/-- The text of a group of placeholders. -/
def Shape.text : Shape → String
  | single => "?"
  | list [] => "(null)"
  | list items => "(" ++ String.join ((items.map ItemShape.text).intersperse ", ") ++ ")"

/-- The placeholders of a value show no more than its shape. -/
theorem text_bindOutput (format : Formatter) (v : BoundValue) :
    (bindOutput format v).text = (shape v.value).text := by
  obtain ⟨value, type⟩ := v
  cases value with
  | list items =>
    cases items with
    | nil =>
      show "(" ++ String.join ["null"] ++ ")" = "(null)"
      decide
    | cons item items =>
      have hitems : ((item :: items).map (itemOutput format)).map (·.text) =
          ((item :: items).map itemShape).map ItemShape.text := by
        rw [List.map_map, List.map_map]
        exact List.map_congr_left fun v _ => text_itemOutput format v
      refine (text_tuple _).trans ?_
      rw [hitems]
      rfl
  | _ => rfl

/-! ## Parts that differ in values only -/

mutual

/-- The parts are the same but for bound values, and these have the same shapes. -/
inductive Part.Alike : Part → Part → Prop where
  | space (text : String) : Part.Alike (.space text) (.space text)
  | content (text : String) : Part.Alike (.content text) (.content text)
  | bind {v w : BoundValue} : shape v.value = shape w.value → Part.Alike (.bind v) (.bind w)
  | logical (keyword : String) {ps qs : List Part} : Part.AlikeAll ps qs →
      Part.Alike (.logical keyword ps) (.logical keyword qs)
  | clause (kind : ClauseKind) (keyword : String) {ps qs : List Part} : Part.AlikeAll ps qs →
      Part.Alike (.clause kind keyword ps) (.clause kind keyword qs)
  | group {ps qs : List Part} : Part.AlikeAll ps qs → Part.Alike (.group ps) (.group qs)
  | operands (keyword : String) {ps qs ps' qs' : List Part} : Part.AlikeAll ps qs →
      Part.AlikeAll ps' qs' → Part.Alike (.operands ps keyword ps') (.operands qs keyword qs')

inductive Part.AlikeAll : List Part → List Part → Prop where
  | nil : Part.AlikeAll [] []
  | cons {p q : Part} {ps qs : List Part} : Part.Alike p q → Part.AlikeAll ps qs →
      Part.AlikeAll (p :: ps) (q :: qs)

end

namespace Part

theorem AlikeAll.append {ps qs : List Part} (h : AlikeAll ps qs) {ps' qs' : List Part}
    (h' : AlikeAll ps' qs') : AlikeAll (ps ++ ps') (qs ++ qs') := by
  induction ps generalizing qs with
  | nil =>
    cases h
    exact h'
  | cons p ps ih =>
    cases h with
    | cons hp hps => exact .cons hp (ih hps)

theorem AlikeAll.single {p q : Part} (h : Alike p q) : AlikeAll [p] [q] := .cons h .nil

/-- What is written, as far as it does not depend on values: whether there is content, and the
text. -/
def seen (w : Bool × Output) : Bool × String := (w.1, w.2.text)

theorem seen_writeElidable {keyword : String} {available : Bool} {w w' : Bool × Output}
    (h : seen w = seen w') :
    seen (writeElidable keyword available w) = seen (writeElidable keyword available w') := by
  obtain ⟨hcontent, htext⟩ := Prod.mk.inj h
  unfold writeElidable
  rw [hcontent, htext]
  split
  · simp [seen, htext]
  · split
    · simp [seen, htext]
    · rfl

variable (format format' : Formatter)

mutual

/-- Parts that differ in values only show the same. -/
theorem Alike.seen_eq {p q : Part} (available : Bool) :
    Alike p q → seen (p.write format available) = seen (q.write format' available)
  | .space text => by rw [write, write]
  | .content text => by rw [write, write]
  | .bind h => by
    rw [write, write, seen, seen, text_bindOutput, text_bindOutput, h]
  | .logical keyword h => by
    obtain ⟨hcontent, htext⟩ := Prod.mk.inj (h.seen_eq available)
    rw [write, write]
    cases available <;> simp [seen, hcontent, htext]
  | .clause kind keyword h => by
    rw [write, write]
    split
    · obtain ⟨hcontent, htext⟩ := Prod.mk.inj (h.seen_eq available)
      simp [seen, hcontent, htext]
    · exact seen_writeElidable (h.seen_eq false)
  | .group h => by
    obtain ⟨-, htext⟩ := Prod.mk.inj (h.seen_eq false)
    rw [write, write]
    simp [seen, htext]
  | .operands keyword h h' => by
    obtain ⟨-, htext⟩ := Prod.mk.inj (h.seen_eq false)
    obtain ⟨-, htext'⟩ := Prod.mk.inj (h'.seen_eq false)
    rw [write, write]
    simp [seen, htext, htext']

theorem AlikeAll.seen_eq {ps qs : List Part} (available : Bool) :
    AlikeAll ps qs →
      seen (writeAll format ps available) = seen (writeAll format' qs available)
  | .nil => by rw [writeAll, writeAll]
  | @AlikeAll.cons p q _ _ h hs => by
    obtain ⟨hcontent, htext⟩ := Prod.mk.inj (h.seen_eq available)
    obtain ⟨hcontent', htext'⟩ := Prod.mk.inj (hs.seen_eq (q.write format' available).1)
    rw [writeAll, writeAll, hcontent]
    simp [seen, htext, htext', hcontent']

end

end Part

/-! ## Decisions of a rendering -/

/-- What rendering decides with a value. -/
inductive Decision where
  /-- Whether the condition of an `if` or `elseif` holds. -/
  | condition (holds : Bool)
  /-- How many rounds a loop has. -/
  | rounds (count : Nat)
  /-- Which placeholders stand for the value of a bind directive. -/
  | placeholders (shape : Shape)
  deriving DecidableEq

/-- The decisions of the rounds of a loop from an index on; each round has the scope of the loop but
for the names of the loop. -/
def roundDecisions (identifier : String) (scope : Scope) (body : Scope → List Decision) :
    Nat → List Value → List Decision
  | _, [] => []
  | index, item :: items =>
    body (bindLoop identifier item index (!items.isEmpty) scope) ++
      roundDecisions identifier scope body (index + 1) items

namespace Renderer

/-- A condition, and the decisions of the branch that it selects. -/
def choiceDecisions (r : Renderer) (d : Directive) (scope : Scope) (yes no : List Decision) :
    List Decision :=
  match r.evalCondition d scope with
  | .ok holds => .condition holds :: if holds then yes else no
  | .error _ => []

/-- The number of rounds of a loop, and their decisions. -/
def loopDecisions (r : Renderer) (d : Directive) (identifier expression : String) (scope : Scope)
    (body : Scope → List Decision) : List Decision :=
  match r.eval d expression scope with
  | .ok ⟨.list items, _⟩ =>
    .rounds items.length :: roundDecisions identifier scope body 0 items
  | _ => []

mutual

/-- The decisions of rendering a tree in a scope, in order. -/
def decisions (r : Renderer) (scope : Scope) : Tree → List Decision
  | .statement ts | .clause _ _ ts | .logical _ _ ts => decisionsAll r scope ts
  | .setOperation left _ _ right => decisions r scope left ++ decisions r scope right
  | .word _ | .blank _ | .other _ | .comment _ => []
  | .brackets inner => decisions r scope inner
  | .bind d _ =>
    match r.evalBind d scope with
    | .ok v => [.placeholders (shape v.value)]
    | .error _ => []
  | .literal _ _ | .embedded _ | .expand _ _ => []
  | .ifBlock test ts elseifs else? =>
    r.choiceDecisions test scope (decisionsAll r scope ts)
      (branchDecisions r scope elseifs (elseDecisions r scope else?))
  | .forBlock d identifier expression ts =>
    r.loopDecisions d identifier expression scope fun s => decisionsAll r s ts

def decisionsAll (r : Renderer) (scope : Scope) : List Tree → List Decision
  | [] => []
  | t :: ts => decisions r scope t ++ decisionsAll r scope ts

def branchDecisions (r : Renderer) (scope : Scope) :
    List (Directive × List Tree) → List Decision → List Decision
  | [], otherwise => otherwise
  | (d, ts) :: bs, otherwise =>
    r.choiceDecisions d scope (decisionsAll r scope ts) (branchDecisions r scope bs otherwise)

def elseDecisions (r : Renderer) (scope : Scope) : Option (List Tree) → List Decision
  | none => []
  | some ts => decisionsAll r scope ts

end

end Renderer

/-! ## Trees without values in their text -/

namespace Tree

mutual

/-- Whether no literal, embedded or expand directive is rendered in the tree: values come in by bind
directives only. -/
def bindsOnly : Tree → Bool
  | statement ts | clause _ _ ts | logical _ _ ts | forBlock _ _ _ ts => bindsOnlyAll ts
  | setOperation left _ _ right => left.bindsOnly && right.bindsOnly
  | word _ | blank _ | other _ | comment _ | bind _ _ => true
  | brackets inner => inner.bindsOnly
  | literal _ _ | embedded _ | expand _ _ => false
  | ifBlock _ ts elseifs else? =>
    bindsOnlyAll ts && (branchesBindOnly elseifs && elseBindsOnly else?)

def bindsOnlyAll : List Tree → Bool
  | [] => true
  | t :: ts => t.bindsOnly && bindsOnlyAll ts

def branchesBindOnly : List (Directive × List Tree) → Bool
  | [] => true
  | (_, ts) :: bs => bindsOnlyAll ts && branchesBindOnly bs

def elseBindsOnly : Option (List Tree) → Bool
  | none => true
  | some ts => bindsOnlyAll ts

end

end Tree

/-! ## Two renderings side by side -/

theorem Resolve.Reads.scope_same {names : List String} {g : Resolve} (hg : Reads names [] g)
    {s t : Scope} {ps : List Part} (h : g s = .ok (ps, t)) : t.Same s := by
  have halike := hg s s (.of_same (.refl s))
  rw [h] at halike
  cases halike with
  | ok _ ht _ => exact ht

/-- If both outcomes are successes and what they decided starts the same decisions, their parts
differ in values only, and the same decisions follow. -/
def Lockstep (ds ds' : List Decision) (x x' : Except Error (List Part × Scope)) : Prop :=
  ∀ ps t ps' t', x = .ok (ps, t) → x' = .ok (ps', t') →
    ∀ rest rest', ds ++ rest = ds' ++ rest' → Part.AlikeAll ps ps' ∧ rest = rest'

namespace Lockstep

variable {ds ds' es es' : List Decision} {x x' : Except Error (List Part × Scope)}
  {g g' h h' : Resolve} {s s' u u' : Scope}

theorem leaf {ps ps' : List Part} (hps : Part.AlikeAll ps ps') :
    Lockstep [] [] (Resolve.leaf (fun _ => .ok ps) u) (Resolve.leaf (fun _ => .ok ps') u') := by
  intro qs t qs' t' hx hx' rest rest' hrest
  cases hx
  cases hx'
  exact ⟨hps, hrest⟩

theorem within {whole : List Part → Part}
    (hwhole : ∀ ps qs, Part.AlikeAll ps qs → Part.Alike (whole ps) (whole qs))
    (hg : Lockstep ds ds' (g u) (g' u')) :
    Lockstep ds ds' (Resolve.within whole g u) (Resolve.within whole g' u') := by
  intro qs t qs' t' hx hx' rest rest' hrest
  obtain ⟨⟨ps, v⟩, hps, hx⟩ := bind_eq_ok.mp hx
  obtain ⟨⟨ps', v'⟩, hps', hx'⟩ := bind_eq_ok.mp hx'
  cases hx
  cases hx'
  obtain ⟨halike, hrest⟩ := hg ps _ ps' _ hps hps' rest rest' hrest
  exact ⟨.single (hwhole ps ps' halike), hrest⟩

/-- One after the other: the first ends where the decisions of the second start. -/
theorem both {f : List Part → List Part → List Part}
    (hf : ∀ ps qs ps' qs', Part.AlikeAll ps ps' → Part.AlikeAll qs qs' →
      Part.AlikeAll (f ps qs) (f ps' qs'))
    (hg : Lockstep ds ds' (g u) (g' u'))
    (hh : ∀ ps t ps' t', g u = .ok (ps, t) → g' u' = .ok (ps', t') →
      Lockstep es es' (h t) (h' t')) :
    Lockstep (ds ++ es) (ds' ++ es')
      (do let a ← g u; let b ← h a.2; return (f a.1 b.1, b.2))
      (do let a ← g' u'; let b ← h' a.2; return (f a.1 b.1, b.2)) := by
  intro rs w rs' w' hx hx' rest rest' hrest
  obtain ⟨⟨ps, t⟩, hps, hx⟩ := bind_eq_ok.mp hx
  obtain ⟨⟨ps', t'⟩, hps', hx'⟩ := bind_eq_ok.mp hx'
  obtain ⟨⟨qs, v⟩, hqs, hx⟩ := bind_eq_ok.mp hx
  obtain ⟨⟨qs', v'⟩, hqs', hx'⟩ := bind_eq_ok.mp hx'
  cases hx
  cases hx'
  rw [List.append_assoc, List.append_assoc] at hrest
  obtain ⟨halike, hrest⟩ := hg ps t ps' t' hps hps' _ _ hrest
  obtain ⟨halike', hrest⟩ := hh ps t ps' t' hps hps' qs _ qs' _ hqs hqs' rest rest' hrest
  exact ⟨hf ps qs ps' qs' halike halike', hrest⟩

theorem andThen (hg : Lockstep ds ds' (g u) (g' u'))
    (hh : ∀ ps t ps' t', g u = .ok (ps, t) → g' u' = .ok (ps', t') →
      Lockstep es es' (h t) (h' t')) :
    Lockstep (ds ++ es) (ds' ++ es') (Resolve.andThen g h u) (Resolve.andThen g' h' u') :=
  both (fun _ _ _ _ hps hqs => hps.append hqs) hg hh

theorem withinTwo {whole : List Part → List Part → Part}
    (hwhole : ∀ ps qs ps' qs', Part.AlikeAll ps ps' → Part.AlikeAll qs qs' →
      Part.Alike (whole ps qs) (whole ps' qs'))
    (hg : Lockstep ds ds' (g u) (g' u'))
    (hh : ∀ ps t ps' t', g u = .ok (ps, t) → g' u' = .ok (ps', t') →
      Lockstep es es' (h t) (h' t')) :
    Lockstep (ds ++ es) (ds' ++ es') (Resolve.withinTwo whole g h u)
      (Resolve.withinTwo whole g' h' u') :=
  both (f := fun ps qs => [whole ps qs])
    (fun ps qs ps' qs' hps hqs => .single (hwhole ps qs ps' qs' hps hqs)) hg hh

variable (r r' : Renderer) (d : Directive)

theorem bind (hu : u.Same s) (hu' : u'.Same s') (sample? : Option Tree) :
    Lockstep (r.decisions s (.bind d sample?)) (r'.decisions s' (.bind d sample?))
      (r.resolve (.bind d sample?) u) (r'.resolve (.bind d sample?) u') := by
  intro ps t ps' t' hx hx' rest rest' hrest
  rw [Renderer.resolve, Resolve.leaf] at hx hx'
  rw [r.evalBind_congr d (.of_same hu)] at hx
  rw [r'.evalBind_congr d (.of_same hu')] at hx'
  obtain ⟨qs, hqs, hx⟩ := bind_eq_ok.mp hx
  obtain ⟨qs', hqs', hx'⟩ := bind_eq_ok.mp hx'
  obtain ⟨v, hv, hqs⟩ := bind_eq_ok.mp hqs
  obtain ⟨v', hv', hqs'⟩ := bind_eq_ok.mp hqs'
  cases hqs
  cases hqs'
  cases hx
  cases hx'
  simp only [Renderer.decisions, hv, hv', List.cons_append, List.nil_append, List.cons.injEq,
    Decision.placeholders.injEq] at hrest
  exact ⟨.single (.bind hrest.1), hrest.2⟩

theorem choice (hu : u.Same s) (hu' : u'.Same s') (hyes : Lockstep ds ds' (g u) (g' u'))
    (hno : Lockstep es es' (h u) (h' u')) :
    Lockstep (r.choiceDecisions d s ds es) (r'.choiceDecisions d s' ds' es')
      (r.resolveChoice d g h u) (r'.resolveChoice d g' h' u') := by
  intro ps t ps' t' hx hx' rest rest' hrest
  obtain ⟨holds, hholds, hx⟩ := bind_eq_ok.mp hx
  obtain ⟨holds', hholds', hx'⟩ := bind_eq_ok.mp hx'
  rw [r.evalCondition_same d hu] at hholds
  rw [r'.evalCondition_same d hu'] at hholds'
  simp only [Renderer.choiceDecisions, hholds, hholds', List.cons_append, List.cons.injEq,
    Decision.condition.injEq] at hrest
  obtain ⟨rfl, hrest⟩ := hrest
  cases holds with
  | true => exact hyes ps t ps' t' hx hx' rest rest' hrest
  | false => exact hno ps t ps' t' hx hx' rest rest' hrest

/-- Each round starts with the bindings of the loop but for the names of the loop, which it binds
itself. -/
theorem rounds {identifier : String} {body body' : Scope → List Decision}
    {names names' : List String} (hg : Reads names [] g) (hg' : Reads names' [] g')
    (hbody : ∀ {v v' t t' : Scope}, t.Same v → t'.Same v' →
      Lockstep (body v) (body' v') (g t) (g' t'))
    (items items' : List Value) (hlength : items.length = items'.length) (index : Nat)
    (hu : SameBut (loopNames identifier) u s) (hu' : SameBut (loopNames identifier) u' s') :
    Lockstep (roundDecisions identifier s body index items)
      (roundDecisions identifier s' body' index items')
      (Resolve.rounds identifier g index items u)
      (Resolve.rounds identifier g' index items' u') := by
  induction items generalizing items' index u u' with
  | nil =>
    obtain rfl : items' = [] := List.eq_nil_of_length_eq_zero hlength.symm
    exact leaf .nil
  | cons item items ih =>
    cases items' with
    | nil => cases hlength
    | cons item' items' =>
      refine andThen (hbody (bindLoop_same identifier item index _ hu)
        (bindLoop_same identifier item' index _ hu')) fun ps t ps' t' hps hps' => ?_
      have ht := ((SameBut.of_same (hg.scope_same hps)).trans
        (bindLoop_sameBut identifier item index _ u)).trans hu
      have ht' := ((SameBut.of_same (hg'.scope_same hps')).trans
        (bindLoop_sameBut identifier item' index _ u')).trans hu'
      exact ih items' (Nat.succ.inj hlength) (index + 1) ht ht'

theorem loop {identifier expression : String} {body body' : Scope → List Decision}
    {names names' : List String} (hg : Reads names [] g) (hg' : Reads names' [] g')
    (hbody : ∀ {v v' t t' : Scope}, t.Same v → t'.Same v' →
      Lockstep (body v) (body' v') (g t) (g' t'))
    (hu : u.Same s) (hu' : u'.Same s') :
    Lockstep (r.loopDecisions d identifier expression s body)
      (r'.loopDecisions d identifier expression s' body')
      (r.resolveLoop d identifier expression g u)
      (r'.resolveLoop d identifier expression g' u') := by
  intro ps t ps' t' hx hx' rest rest' hrest
  obtain ⟨v, hv, hx⟩ := bind_eq_ok.mp hx
  obtain ⟨v', hv', hx'⟩ := bind_eq_ok.mp hx'
  rw [r.eval_congr d (.of_same hu)] at hv
  rw [r'.eval_congr d (.of_same hu')] at hv'
  obtain ⟨value, type⟩ := v
  obtain ⟨value', type'⟩ := v'
  cases value with
  | list items =>
    cases value' with
    | list items' =>
      obtain ⟨⟨qs, w⟩, hqs, hx⟩ := bind_eq_ok.mp hx
      obtain ⟨⟨qs', w'⟩, hqs', hx'⟩ := bind_eq_ok.mp hx'
      cases hx
      cases hx'
      simp only [Renderer.loopDecisions, hv, hv', List.cons_append, List.cons.injEq,
        Decision.rounds.injEq] at hrest
      exact rounds hg hg' hbody items items' hrest.1 0 (.of_same hu) (.of_same hu') qs w qs' w' hqs
        hqs' rest rest' hrest.2
    | _ => cases hx'
  | _ => cases hx

end Lockstep

section Trees

variable (r r' : Renderer)

mutual

/-- Two renderings of a tree go in lockstep, each in a scope with the bindings of its parameters. -/
theorem resolve_lockstep : (t : Tree) → t.bindsOnly = true → ∀ {s s' u u' : Scope}, u.Same s →
    u'.Same s' →
      Lockstep (r.decisions s t) (r'.decisions s' t) (r.resolve t u) (r'.resolve t u')
  | .statement ts, h, _, _, _, _, hu, hu' => by
    rw [Tree.bindsOnly] at h
    rw [Renderer.decisions, Renderer.decisions, Renderer.resolve, Renderer.resolve]
    exact resolveAll_lockstep ts h hu hu'
  | .setOperation left _ keyword right, h, _, _, _, _, hu, hu' => by
    rw [Tree.bindsOnly, Bool.and_eq_true] at h
    rw [Renderer.decisions, Renderer.decisions, Renderer.resolve, Renderer.resolve]
    refine .withinTwo (fun _ _ _ _ hps hqs => .operands keyword hps hqs)
      (resolve_lockstep left h.1 hu hu') fun _ _ _ _ hps hps' => ?_
    exact resolve_lockstep right h.2 (((resolve_reads r left).scope_same hps).trans hu)
      (((resolve_reads r' left).scope_same hps').trans hu')
  | .clause kind keyword ts, h, _, _, _, _, hu, hu' => by
    rw [Tree.bindsOnly] at h
    rw [Renderer.decisions, Renderer.decisions, Renderer.resolve, Renderer.resolve]
    exact .within (fun _ _ => .clause kind keyword) (resolveAll_lockstep ts h hu hu')
  | .logical _ keyword ts, h, _, _, _, _, hu, hu' => by
    rw [Tree.bindsOnly] at h
    rw [Renderer.decisions, Renderer.decisions, Renderer.resolve, Renderer.resolve]
    exact .within (fun _ _ => .logical keyword) (resolveAll_lockstep ts h hu hu')
  | .word text, _, _, _, _, _, _, _ | .other text, _, _, _, _, _, _, _ => by
    rw [Renderer.decisions, Renderer.decisions, Renderer.resolve, Renderer.resolve]
    exact .leaf (.single (.content text))
  | .blank text, _, _, _, _, _, _, _ | .comment text, _, _, _, _, _, _, _ => by
    rw [Renderer.decisions, Renderer.decisions, Renderer.resolve, Renderer.resolve]
    exact .leaf (.single (.space text))
  | .brackets inner, h, _, _, _, _, hu, hu' => by
    rw [Tree.bindsOnly] at h
    rw [Renderer.decisions, Renderer.decisions, Renderer.resolve, Renderer.resolve]
    exact .within (fun _ _ => .group) (resolve_lockstep inner h hu hu')
  | .bind d sample?, _, _, _, _, _, hu, hu' => .bind r r' d hu hu' sample?
  | .ifBlock test ts elseifs else?, h, _, _, _, _, hu, hu' => by
    rw [Tree.bindsOnly, Bool.and_eq_true, Bool.and_eq_true] at h
    rw [Renderer.decisions, Renderer.decisions, Renderer.resolve, Renderer.resolve]
    exact .choice r r' test hu hu' (resolveAll_lockstep ts h.1 hu hu')
      (resolveBranches_lockstep elseifs h.2.1 (resolveElse_lockstep else? h.2.2 hu hu') hu hu')
  | .forBlock d identifier expression ts, h, _, _, _, _, hu, hu' => by
    rw [Tree.bindsOnly] at h
    rw [Renderer.decisions, Renderer.decisions, Renderer.resolve, Renderer.resolve]
    exact .loop r r' d (resolveAll_reads r ts) (resolveAll_reads r' ts)
      (fun ht ht' => resolveAll_lockstep ts h ht ht') hu hu'

theorem resolveAll_lockstep : (ts : List Tree) → Tree.bindsOnlyAll ts = true →
    ∀ {s s' u u' : Scope}, u.Same s → u'.Same s' →
      Lockstep (r.decisionsAll s ts) (r'.decisionsAll s' ts) (r.resolveAll ts u)
        (r'.resolveAll ts u')
  | [], _, _, _, _, _, _, _ => by
    rw [Renderer.decisionsAll, Renderer.decisionsAll, Renderer.resolveAll, Renderer.resolveAll]
    exact .leaf .nil
  | t :: ts, h, _, _, _, _, hu, hu' => by
    rw [Tree.bindsOnlyAll, Bool.and_eq_true] at h
    rw [Renderer.decisionsAll, Renderer.decisionsAll, Renderer.resolveAll, Renderer.resolveAll]
    refine .andThen (resolve_lockstep t h.1 hu hu') fun _ _ _ _ hps hps' => ?_
    exact resolveAll_lockstep ts h.2 (((resolve_reads r t).scope_same hps).trans hu)
      (((resolve_reads r' t).scope_same hps').trans hu')

theorem resolveBranches_lockstep {ds ds' : List Decision} {g g' : Resolve} :
    (bs : List (Directive × List Tree)) → Tree.branchesBindOnly bs = true →
    ∀ {s s' u u' : Scope}, Lockstep ds ds' (g u) (g' u') → u.Same s → u'.Same s' →
      Lockstep (r.branchDecisions s bs ds) (r'.branchDecisions s' bs ds')
        (r.resolveBranches bs g u) (r'.resolveBranches bs g' u')
  | [], _, _, _, _, _, hg, _, _ => by
    rw [Renderer.branchDecisions, Renderer.branchDecisions, Renderer.resolveBranches,
      Renderer.resolveBranches]
    exact hg
  | (d, ts) :: bs, h, _, _, _, _, hg, hu, hu' => by
    rw [Tree.branchesBindOnly, Bool.and_eq_true] at h
    rw [Renderer.branchDecisions, Renderer.branchDecisions, Renderer.resolveBranches,
      Renderer.resolveBranches]
    exact .choice r r' d hu hu' (resolveAll_lockstep ts h.1 hu hu')
      (resolveBranches_lockstep bs h.2 hg hu hu')

theorem resolveElse_lockstep : (else? : Option (List Tree)) → Tree.elseBindsOnly else? = true →
    ∀ {s s' u u' : Scope}, u.Same s → u'.Same s' →
      Lockstep (r.elseDecisions s else?) (r'.elseDecisions s' else?) (r.resolveElse else? u)
        (r'.resolveElse else? u')
  | none, _, _, _, _, _, _, _ => by
    rw [Renderer.elseDecisions, Renderer.elseDecisions, Renderer.resolveElse, Renderer.resolveElse]
    exact .leaf .nil
  | some ts, h, _, _, _, _, hu, hu' => by
    rw [Tree.elseBindsOnly] at h
    rw [Renderer.elseDecisions, Renderer.elseDecisions, Renderer.resolveElse, Renderer.resolveElse]
    exact resolveAll_lockstep ts h hu hu'

end

end Trees

/-- Two renderings of a template without literal, embedded and expand directives that decide alike
write the same text, whatever the values are and however they are formatted. -/
theorem render_text_congr (r r' : Renderer) (tree : Tree) (parameters parameters' : Scope)
    (s s' : Statement) (hbinds : tree.bindsOnly = true) (hs : r.render tree parameters = .ok s)
    (hs' : r'.render tree parameters' = .ok s')
    (hdecisions : r.decisions parameters tree = r'.decisions parameters' tree) :
    s.text = s'.text := by
  obtain ⟨ps, t, hps, rfl⟩ := render_eq_ok_iff.mp hs
  obtain ⟨ps', t', hps', rfl⟩ := render_eq_ok_iff.mp hs'
  have hlockstep := resolve_lockstep r r' tree hbinds (SameBut.refl parameters)
    (SameBut.refl parameters')
  obtain ⟨halike, -⟩ := hlockstep ps t ps' t' hps hps' [] [] (congrArg (· ++ []) hdecisions)
  exact (Prod.mk.inj (halike.seen_eq r.formatter r'.formatter false)).2

/-- What is bound and how it is formatted is of no account, text that would break out included. -/
theorem render_text_congr_injection :
    ∃ r tree parameters parameters' s s',
      r = { Compiler.standard with formatter := fun _ => "1 or 1=1" } ∧
      parameters = .ofList [("x", .of (.bool true)),
        ("xs", .of (.list [.int 1, .pair (.int 2) .null]))] ∧
      parameters' = .ofList [("x", .of (.bool true)),
        ("xs", .of (.list [.string "0) or (1=1", .pair (.string "--") (.bool true)]))] ∧
      parse 8 "a where /*%if x*/b in /*xs*/(1)/*%end*//*%for n in xs*/ and c=/*n*/2/*%end*/" =
        .ok tree ∧
      Compiler.standard.render tree parameters = .ok s ∧ r.render tree parameters' = .ok s' ∧
      s.log = "a where b in (1, (2, NULL)) and c=1 and c=(2, NULL)" ∧
      s'.log = "a where b in (1 or 1=1, (1 or 1=1, 1 or 1=1)) and c=1 or 1=1 and c=1 or 1=1" ∧
      s.text = s'.text := by
  let r : Renderer := { Compiler.standard with formatter := fun _ => "1 or 1=1" }
  let parameters : Scope := .ofList [("x", .of (.bool true)),
    ("xs", .of (.list [.int 1, .pair (.int 2) .null]))]
  let parameters' : Scope := .ofList [("x", .of (.bool true)),
    ("xs", .of (.list [.string "0) or (1=1", .pair (.string "--") (.bool true)]))]
  have hruns : (do
      let tree ← parse 8
        "a where /*%if x*/b in /*xs*/(1)/*%end*//*%for n in xs*/ and c=/*n*/2/*%end*/"
      let s ← Compiler.standard.render tree parameters
      let s' ← r.render tree parameters'
      let alike := decide
        (Compiler.standard.decisions parameters tree = r.decisions parameters' tree)
      return (tree.bindsOnly, alike, s.log, s'.log)).toOption.map id = some (true, true,
        "a where b in (1, (2, NULL)) and c=1 and c=(2, NULL)",
        "a where b in (1 or 1=1, (1 or 1=1, 1 or 1=1)) and c=1 or 1=1 and c=1 or 1=1") := by
    decide +kernel
  obtain ⟨_, hruns, rfl⟩ := exists_ok_of_map hruns
  obtain ⟨tree, htree, hruns⟩ := bind_eq_ok.mp hruns
  obtain ⟨s, hs, hruns⟩ := bind_eq_ok.mp hruns
  obtain ⟨s', hs', hruns⟩ := bind_eq_ok.mp hruns
  simp only [pure, Except.pure, Except.ok.injEq, Prod.mk.injEq, decide_eq_true_eq] at hruns
  obtain ⟨hbinds, hdecisions, hlog, hlog'⟩ := hruns
  exact ⟨r, tree, parameters, parameters', s, s', rfl, rfl, rfl, htree, hs, hs', hlog, hlog',
    render_text_congr _ r tree _ _ s s' hbinds hs hs' hdecisions⟩

end TwoWaySql.Template
