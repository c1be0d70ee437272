import TwoWaySql.Proofs.Parts
import TwoWaySql.Proofs.RoundTrip

/-!
# Rendering without locations

Locations are for errors: a tree without its locations has the same parts as the tree itself, or
none like it (`resolve_unlocated`).
-/

namespace TwoWaySql.Template

/-- Both give the same parts and scope, or both fail. -/
def Resolve.Agrees (g g' : Resolve) : Prop := ∀ scope, (g scope).toOption = (g' scope).toOption

namespace Resolve.Agrees

variable {g g' f f' : Resolve}

theorem refl (g : Resolve) : Agrees g g := fun _ => rfl

theorem leaf {parts parts' : Scope → Except Error (List Part)}
    (h : ∀ scope, (parts scope).toOption = (parts' scope).toOption) :
    Agrees (.leaf parts) (.leaf parts') := fun scope => by
  simp only [Resolve.leaf, toOption_bind, h scope]

theorem andThen (h : Agrees g g') (h' : Agrees f f') : Agrees (g.andThen f) (g'.andThen f') :=
  fun scope => by
    simp only [Resolve.andThen, toOption_bind, h scope, h' _]

theorem within (whole : List Part → Part) (h : Agrees g g') :
    Agrees (within whole g) (within whole g') := fun scope => by
  simp only [Resolve.within, toOption_bind, h scope]

theorem withinTwo (whole : List Part → List Part → Part) (h : Agrees g g') (h' : Agrees f f') :
    Agrees (withinTwo whole g f) (withinTwo whole g' f') := fun scope => by
  simp only [Resolve.withinTwo, toOption_bind, h scope, h' _]

theorem rounds (identifier : String) (h : Agrees g g') (index : Nat) (items : List Value) :
    Agrees (rounds identifier g index items) (rounds identifier g' index items) := by
  induction items generalizing index with
  | nil => exact refl _
  | cons item items ih => exact andThen (fun _ => h _) (ih (index + 1))

theorem loop (identifier : String) (items : List Value) (h : Agrees g g') :
    Agrees (loop identifier items g) (loop identifier items g') := fun scope => by
  simp only [Resolve.loop, toOption_bind, rounds identifier h 0 items scope]

end Resolve.Agrees

/-! ## Directives -/

section Directives

variable (r : Renderer) (d : Directive) {g g' f f' : Resolve}

theorem Renderer.eval_unlocated (expression : String) (scope : Scope) :
    (r.eval d.unlocated expression scope).toOption = (r.eval d expression scope).toOption := by
  simp only [eval, parse, toOption_bind, toOption_mapError]

theorem Renderer.evalBind_unlocated (scope : Scope) :
    (r.evalBind d.unlocated scope).toOption = (r.evalBind d scope).toOption := by
  simp only [evalBind, parse, toOption_bind, toOption_mapError]
  refine Option.bind_congr fun tree _ => ?_
  cases tree with
  | name name _ =>
    dsimp only
    split
    · simp only [toOption_mapError]
    · rfl
  | _ => simp only [toOption_mapError]

theorem Renderer.evalCondition_unlocated (scope : Scope) :
    (r.evalCondition d.unlocated scope).toOption = (r.evalCondition d scope).toOption := by
  simp only [evalCondition, parse, toOption_bind, toOption_mapError]
  rfl

theorem agrees_choice (h : Resolve.Agrees g g') (h' : Resolve.Agrees f f') :
    Resolve.Agrees (r.resolveChoice d.unlocated g f) (r.resolveChoice d g' f') := fun scope => by
  simp only [Renderer.resolveChoice, toOption_bind, r.evalCondition_unlocated]
  refine Option.bind_congr fun holds _ => ?_
  cases holds with
  | true => exact h scope
  | false => exact h' scope

theorem agrees_loop (identifier expression : String) (h : Resolve.Agrees g g') :
    Resolve.Agrees (r.resolveLoop d.unlocated identifier expression g)
      (r.resolveLoop d identifier expression g') := fun scope => by
  simp only [Renderer.resolveLoop, toOption_bind, r.eval_unlocated]
  refine Option.bind_congr fun v _ => ?_
  obtain ⟨value, type⟩ := v
  cases value with
  | list items => exact h.loop identifier items scope
  | _ => rfl

end Directives

/-! ## Trees -/

variable (r : Renderer)

mutual

theorem resolve_unlocated : (t : Tree) → Resolve.Agrees (r.resolve t.unlocated) (r.resolve t)
  | .statement ts => by
    simp only [Tree.unlocated, Renderer.resolve]
    exact resolveAll_unlocated ts
  | .setOperation left _ _ right => by
    simp only [Tree.unlocated, Renderer.resolve]
    exact .withinTwo _ (resolve_unlocated left) (resolve_unlocated right)
  | .clause _ _ ts => by
    simp only [Tree.unlocated, Renderer.resolve]
    exact .within _ (resolveAll_unlocated ts)
  | .logical _ _ ts => by
    simp only [Tree.unlocated, Renderer.resolve]
    exact .within _ (resolveAll_unlocated ts)
  | .word _ | .other _ | .blank _ | .comment _ => by
    simp only [Tree.unlocated]
    exact .refl _
  | .brackets inner => by
    simp only [Tree.unlocated, Renderer.resolve]
    exact .within _ (resolve_unlocated inner)
  | .bind d _ => by
    simp only [Tree.unlocated, Renderer.resolve]
    exact .leaf fun scope => by simp only [toOption_bind, r.evalBind_unlocated]
  | .literal d _ => by
    simp only [Tree.unlocated, Renderer.resolve]
    exact .leaf fun scope => by
      simp only [toOption_bind, r.eval_unlocated]
      rfl
  | .embedded d => by
    simp only [Tree.unlocated, Renderer.resolve, Renderer.resolveEmbedded]
    exact .leaf fun scope => by
      simp only [toOption_bind, r.eval_unlocated]
      rfl
  | .expand d _ => by
    simp only [Tree.unlocated, Renderer.resolve, Renderer.resolveExpand]
    refine .leaf fun scope => ?_
    simp only [toOption_bind, r.eval_unlocated]
    refine Option.bind_congr fun v _ => ?_
    split <;> rfl
  | .ifBlock test ts elseifs else? => by
    simp only [Tree.unlocated, Renderer.resolve]
    exact agrees_choice r test (resolveAll_unlocated ts)
      (resolveBranches_unlocated elseifs (resolveElse_unlocated else?))
  | .forBlock d identifier expression ts => by
    simp only [Tree.unlocated, Renderer.resolve]
    exact agrees_loop r d identifier expression (resolveAll_unlocated ts)

theorem resolveAll_unlocated :
    (ts : List Tree) → Resolve.Agrees (r.resolveAll (Tree.unlocatedAll ts)) (r.resolveAll ts)
  | [] => .refl _
  | t :: ts => by
    simp only [Tree.unlocatedAll, Renderer.resolveAll]
    exact .andThen (resolve_unlocated t) (resolveAll_unlocated ts)

theorem resolveBranches_unlocated {g g' : Resolve} :
    (bs : List (Directive × List Tree)) → Resolve.Agrees g g' →
      Resolve.Agrees (r.resolveBranches (Tree.unlocatedBranches bs) g) (r.resolveBranches bs g')
  | [], h => by
    simp only [Tree.unlocatedBranches, Renderer.resolveBranches]
    exact h
  | (d, ts) :: bs, h => by
    simp only [Tree.unlocatedBranches, Renderer.resolveBranches]
    exact agrees_choice r d (resolveAll_unlocated ts) (resolveBranches_unlocated bs h)

theorem resolveElse_unlocated :
    (else? : Option (List Tree)) →
      Resolve.Agrees (r.resolveElse (Tree.unlocatedElse else?)) (r.resolveElse else?)
  | none => .refl _
  | some ts => by
    simp only [Tree.unlocatedElse, Renderer.resolveElse]
    exact resolveAll_unlocated ts

end

/-- A tree and the tree without its locations have the same parts, or both have none. -/
theorem resolve_unlocated_eq_ok {t : Tree} {scope : Scope} {x : List Part × Scope} :
    r.resolve t.unlocated scope = .ok x ↔ r.resolve t scope = .ok x := by
  rw [← toOption_eq_some, ← toOption_eq_some, resolve_unlocated r t scope]

end TwoWaySql.Template
