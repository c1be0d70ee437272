import Mathlib.Algebra.Group.Nat.Defs
import TwoWaySql.Proofs.FreeNames

/-!
# Loops unrolled

All rounds of a loop are rendered with one scope, in which each round binds the names of the loop
anew and loops within bind and restore names of their own. What a round is rendered to is all the
same what its body is rendered to in the scope of the loop with only the names of that round bound
(`renderTree_unroll`).
-/

namespace TwoWaySql.Template

open Scope (SameBut)

/-! ## Rounds -/

/-- The scope of a round: that of the loop, but for the item, its index, and whether another one
follows. -/
def roundScope (identifier : String) (count : Nat) (scope : Scope) (item : Value) (index : Nat) :
    Scope :=
  ((scope.insert identifier (.of item)).insert (identifier ++ "_index")
    (.of (.int (.ofNat index)))).insert (identifier ++ "_has_next")
    (.of (.bool (index + 1 < count)))

/-- A round after what was rendered before. -/
def renderRound (r : Renderer) (identifier : String) (body : List Tree) (count : Nat)
    (scope : Scope) (before : Bool × Output) (round : Value × Nat) :
    Except Error (Bool × Output) := do
  let x ← r.renderAll body before.1 (roundScope identifier count scope round.1 round.2)
  return (x.available, before.2 ++ x.output)

/-- The body once for each item, each time in the scope of the round. -/
def unroll (r : Renderer) (identifier : String) (body : List Tree) (items : List Value)
    (available : Bool) (scope : Scope) : Except Error (Bool × Output) :=
  items.zipIdx.foldlM (renderRound r identifier body items.length scope) (available, .empty)

theorem countInt32_eq {n : Nat} (h : n < 2 ^ 31) : Number.countInt32 n = .ofNat n := by
  have hint : (Int32.ofNat n).toInt = n := Int32.toInt_ofNat_of_lt h
  rw [Number.countInt32, Number.int32?_eq_some_iff.mpr hint, Option.getD_some]

theorem bindLoop_eq_roundScope {identifier : String} {item : Value} {items : List Value}
    {index count : Nat} (h : index + (items.length + 1) = count) (hcount : count < 2 ^ 31)
    (scope : Scope) :
    bindLoop identifier item index (!items.isEmpty) scope =
      roundScope identifier count scope item index := by
  have hindex : index < 2 ^ 31 := by omega
  have hnext : (!items.isEmpty) = decide (index + 1 < count) := by
    cases items with
    | nil =>
      have hlast : ¬index + 1 < count := by simp at h; omega
      simp [hlast]
    | cons item items =>
      have hmore : index + 1 < count := by simp at h; omega
      simp [hmore]
  rw [bindLoop, roundScope, countInt32_eq hindex, hnext]

variable (r : Renderer)

/-- A round is the body in any scope that has its bindings. -/
theorem renderRound_eq {identifier : String} {body : List Tree} {count : Nat} {scope s : Scope}
    {item : Value} {index : Nat} (h : s.Same (roundScope identifier count scope item index))
    (before : Bool × Output) :
    renderRound r identifier body count scope before (item, index) =
      (r.renderAll body before.1 s).map fun x => (x.available, before.2 ++ x.output) := by
  have hcongr := (renderAll_twoStage r body).written_congr (resolveAll_reads r body) (.of_same h)
    before.1
  have hmap (x : Except Error Rendered) :
      x.map (fun x => (x.available, before.2 ++ x.output)) =
        (x.map Rendered.written).map fun w => (w.1, before.2 ++ w.2) := by
    cases x <;> rfl
  rw [hmap, hcongr, ← hmap, renderRound]
  cases r.renderAll body before.1 (roundScope identifier count scope item index) <;> rfl

/-- The rounds left of a loop, in any scope that differs from that of the loop in its names only. -/
theorem rounds_unroll (identifier : String) (body : List Tree) {scope : Scope} {count : Nat}
    (hcount : count < 2 ^ 31) (items : List Value) (index : Nat)
    (h : index + items.length = count) (available : Bool) (written : Output) (s : Scope)
    (hs : SameBut (loopNames identifier) s scope) :
    (rounds identifier (r.renderAll body) index items available s).map
        (fun x => (x.available, written ++ x.output)) =
      (items.zipIdx index).foldlM (renderRound r identifier body count scope)
        (available, written) := by
  induction items generalizing index available written s with
  | nil => simp [rounds, Render.nothing, Except.map, pure, Except.pure]
  | cons item items ih =>
    have hlength : index + (items.length + 1) = count := h
    have hround := bindLoop_same identifier item index (!items.isEmpty) hs
    rw [bindLoop_eq_roundScope hlength hcount scope] at hround
    rw [List.zipIdx_cons, List.foldlM_cons, renderRound_eq r hround, rounds, Render.andThen]
    cases hx : r.renderAll body available
        (bindLoop identifier item index (!items.isEmpty) s) with
    | error e => rfl
    | ok x =>
      -- the round leaves the names of the loop as it bound them, and all others alone
      have hscope := (renderAll_twoStage r body).scope_same (resolveAll_reads r body) hx
      have hx' : SameBut (loopNames identifier) x.scope scope :=
        ((SameBut.of_same hscope).trans (bindLoop_sameBut identifier item index _ s)).trans hs
      have hrest := ih (index + 1) (by omega) x.available (written ++ x.output) x.scope hx'
      simp only [Except.map, bind, Except.bind] at hrest ⊢
      rw [← hrest]
      cases rounds identifier (r.renderAll body) (index + 1) items x.available x.scope with
      | error e => rfl
      | ok z => simp [pure, Except.pure, Output.append_assoc]

theorem loop_written (identifier : String) (items : List Value) (f : Render) (available : Bool)
    (s : Scope) :
    (loop identifier items f available s).map Rendered.written =
      (rounds identifier f 0 items available s).map Rendered.written := by
  simp only [loop]
  cases rounds identifier f 0 items available s <;> rfl

/-- A tree leaves the bindings of the scope as they are. A loop comes to its body once for each
item, in the scope of the loop but for the names of the round. -/
theorem renderTree_unroll :
    (∀ (t : Tree) (available : Bool) (s : Scope) (x : Rendered),
      r.renderTree t available s = .ok x → x.scope.Same s) ∧
    ∀ (d : Directive) (identifier expression : String) (body : List Tree) (available : Bool)
      (s : Scope) (v : BoundValue) (items : List Value),
      r.eval d expression s = .ok v → v.value = .list items → items.length < 2 ^ 31 →
      (r.renderTree (.forBlock d identifier expression body) available s).map Rendered.written =
        unroll r identifier body items available s := by
  constructor
  · intro t available s x hx
    exact (renderTree_twoStage r t).scope_same (resolve_reads r t) hx
  · intro d identifier expression body available s v items hv hitems hlength
    have hloop : r.renderTree (.forBlock d identifier expression body) available s =
        loop identifier items (r.renderAll body) available s := by
      simp [Renderer.renderTree, Renderer.renderLoop, hv, hitems, bind, Except.bind]
    have hrounds := rounds_unroll r identifier body hlength items 0 (Nat.zero_add _) available
      .empty s (.refl s)
    simp only [Output.empty_append] at hrounds
    rw [hloop, loop_written, unroll, ← hrounds]
    rfl

/-- A loop whose identifier is the name of the index of the loop around it. -/
def shadowingLoop : Directive × String × String × List Tree :=
  (⟨"i in xs", "/*%for i in xs*/", ⟨"", 0⟩⟩, "i", "xs",
    [.forBlock ⟨"i_index in i", "/*%for i_index in i*/", ⟨"", 0⟩⟩ "i_index" "i"
      [.bind ⟨"i_index", "/*i_index*/", ⟨"", 0⟩⟩ none],
    .bind ⟨"i_index", "/*i_index*/", ⟨"", 0⟩⟩ none,
    .bind ⟨"i_has_next", "/*i_has_next*/", ⟨"", 0⟩⟩ none])

/-- After the loop within, the index is bound again; after both, the name that the caller bound. -/
theorem renderTree_unroll_shadowing :
    ∃ d identifier expression body s v items x, shadowingLoop = (d, identifier, expression, body) ∧
      s = .ofList [("i_index", .of (.string "k")),
        ("xs", .of (.list [.list [.int 7, .int 8], .list []]))] ∧
      Compiler.standard.eval d expression s = .ok v ∧ v.value = .list items ∧
      items.length < 2 ^ 31 ∧
      Compiler.standard.renderTree (.forBlock d identifier expression body) false s = .ok x ∧
      x.output.log = "780TRUE1FALSE" ∧ x.scope.Same s ∧
      (Compiler.standard.renderTree (.forBlock d identifier expression body) false s).map
        Rendered.written = unroll Compiler.standard identifier body items false s := by
  have hlog : (Compiler.standard.renderTree (.forBlock shadowingLoop.1 shadowingLoop.2.1
      shadowingLoop.2.2.1 shadowingLoop.2.2.2) false (.ofList [("i_index", .of (.string "k")),
        ("xs", .of (.list [.list [.int 7, .int 8], .list []]))])).toOption.map (·.output.log) =
      some "780TRUE1FALSE" := by
    decide +kernel
  have hcount : (Compiler.standard.eval shadowingLoop.1 shadowingLoop.2.2.1
      (.ofList [("i_index", .of (.string "k")),
        ("xs", .of (.list [.list [.int 7, .int 8], .list []]))])).toOption.map
      (fun v => (Expr.Builtin.items v.value).length) = some 2 := by
    decide +kernel
  obtain ⟨x, hx, hlog⟩ := exists_ok_of_map hlog
  obtain ⟨⟨value, type⟩, hv, hcount⟩ := exists_ok_of_map hcount
  obtain ⟨hscope, hunroll⟩ := renderTree_unroll Compiler.standard
  cases value with
  | list items =>
    have hlength : items.length < 2 ^ 31 := by
      rw [show items.length = 2 from hcount]
      decide
    exact ⟨_, _, _, _, _, _, items, x, rfl, rfl, hv, rfl, hlength, hx, hlog,
      hscope _ _ _ _ hx, hunroll _ _ _ _ _ _ _ _ hv rfl hlength⟩
  | _ => cases hcount

end TwoWaySql.Template
