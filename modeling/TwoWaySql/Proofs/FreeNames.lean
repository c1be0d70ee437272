import TwoWaySql.Compiler
import TwoWaySql.Proofs.Scoping

/-!
# Free names

The free names of a template are those its directives read, but for the names of a loop within the
loop. A tree is rendered alike in scopes that bind its free names alike, and leaves all bindings as
they are (`resolve_reads`), so what a template is built to depends on no other name
(`build_congr_freeNames`).
-/

namespace TwoWaySql

namespace Template

open Scope (AgreeOn SameBut)

/-! ## Names of directives and trees -/

/-- The names that an expression reads; none if it is none. -/
def expressionNames (limit : Nat) (expression : String) : List String :=
  match Expr.parse limit expression with
  | .ok tree => tree.freeNames
  | .error _ => []

namespace Tree

mutual

/-- The free names of a tree. Samples are not rendered, so their names do not count. -/
def freeNames (limit : Nat) : Tree → List String
  | statement ts | clause _ _ ts | logical _ _ ts => freeNamesAll limit ts
  | setOperation left _ _ right => freeNames limit left ++ freeNames limit right
  | word _ | blank _ | other _ | comment _ => []
  | brackets inner => freeNames limit inner
  | bind d _ | literal d _ | embedded d | expand d _ => expressionNames limit d.expression
  | ifBlock test ts elseifs else? =>
    expressionNames limit test.expression ++
      (freeNamesAll limit ts ++ (branchNames limit elseifs ++ elseNames limit else?))
  | forBlock _ identifier expression ts =>
    expressionNames limit expression ++
      (freeNamesAll limit ts).filter (· ∉ loopNames identifier)

def freeNamesAll (limit : Nat) : List Tree → List String
  | [] => []
  | t :: ts => freeNames limit t ++ freeNamesAll limit ts

def branchNames (limit : Nat) : List (Directive × List Tree) → List String
  | [] => []
  | (d, ts) :: bs =>
    expressionNames limit d.expression ++ (freeNamesAll limit ts ++ branchNames limit bs)

def elseNames (limit : Nat) : Option (List Tree) → List String
  | none => []
  | some ts => freeNamesAll limit ts

end

end Tree

/-! ## Directives -/

namespace Renderer

variable {s s' : Scope} (r : Renderer) (d : Directive)

/-- A parsed expression has the same value in scopes that bind its names alike. -/
theorem eval_agree {expression : String} {tree : Expr.Tree}
    (h : AgreeOn (expressionNames r.limit expression) s s')
    (hparse : Expr.parse r.limit expression = .ok tree) :
    AgreeOn tree.freeNames s s' ∧
      Expr.eval r.registry s tree = Expr.eval r.registry s' tree := by
  rw [expressionNames, hparse] at h
  have hnames : ∀ n ∈ tree.names, s.lookup n = s'.lookup n :=
    fun n hn => h n (List.mem_eraseDups.mpr hn)
  exact ⟨h, Expr.eval_congr r.registry tree hnames⟩

theorem eval_congr {expression : String} (h : AgreeOn (expressionNames r.limit expression) s s') :
    r.eval d expression s = r.eval d expression s' := by
  simp only [eval, parse]
  cases hparse : Expr.parse r.limit expression with
  | error e => rfl
  | ok tree =>
    obtain ⟨-, heval⟩ := r.eval_agree h hparse
    exact congrArg (·.mapError (d.error expression)) heval

/-- A bare name is free, so both scopes bind it or neither does. -/
theorem evalBind_congr (h : AgreeOn (expressionNames r.limit d.expression) s s') :
    r.evalBind d s = r.evalBind d s' := by
  simp only [evalBind, parse]
  cases hparse : Expr.parse r.limit d.expression with
  | error e => rfl
  | ok tree =>
    obtain ⟨hnames, heval⟩ := r.eval_agree h hparse
    cases tree with
    | name name location =>
      have hname : name ∈ (Expr.Tree.name name location).freeNames := by
        simp [Expr.Tree.freeNames, Expr.Tree.names]
      simp only [mapError_ok, bind, Except.bind, heval, hnames.contains hname]
    | _ => exact congrArg (·.mapError (d.error d.expression)) heval

theorem evalCondition_congr (h : AgreeOn (expressionNames r.limit d.expression) s s') :
    r.evalCondition d s = r.evalCondition d s' := by
  simp only [evalCondition, parse, Expr.evalCondition]
  cases hparse : Expr.parse r.limit d.expression with
  | error e => rfl
  | ok tree =>
    obtain ⟨-, heval⟩ := r.eval_agree h hparse
    simp only [mapError_ok, bind, Except.bind, heval]

theorem evalCondition_same (h : s.Same s') : r.evalCondition d s = r.evalCondition d s' :=
  r.evalCondition_congr d (.of_same h)

end Renderer

/-! ## Parts -/

namespace Resolve

/-- Both runs fail alike, or give the same parts and leave all bindings but those of hidden names as
they are, each in its own scope. -/
inductive Alike (hidden : List String) (s s' : Scope) :
    Except Error (List Part × Scope) → Except Error (List Part × Scope) → Prop where
  | error (e : Error) : Alike hidden s s' (.error e) (.error e)
  | ok (ps : List Part) {t t' : Scope} : SameBut hidden t s → SameBut hidden t' s' →
      Alike hidden s s' (.ok (ps, t)) (.ok (ps, t'))

/-- Runs in scopes that bind these names alike are alike. -/
def Reads (names hidden : List String) (g : Resolve) : Prop :=
  ∀ s s', AgreeOn names s s' → Alike hidden s s' (g s) (g s')

variable {names names' hidden : List String} {s s' : Scope} {g g' : Resolve}

namespace Alike

variable {x x' : Except Error (List Part × Scope)}

theorem bind (h : Alike hidden s s' x x')
    {f : List Part × Scope → Except Error (List Part × Scope)}
    (hf : ∀ ps t t', SameBut hidden t s → SameBut hidden t' s' →
      Alike hidden s s' (f (ps, t)) (f (ps, t'))) : Alike hidden s s' (x >>= f) (x' >>= f) := by
  cases h with
  | error e => exact .error e
  | ok ps ht ht' => exact hf ps _ _ ht ht'

theorem of_sameBut {inner : List String} {t t' : Scope} (h : Alike inner t t' x x')
    (ht : ∀ u, SameBut inner u t → SameBut hidden u s)
    (ht' : ∀ u, SameBut inner u t' → SameBut hidden u s') : Alike hidden s s' x x' := by
  cases h with
  | error e => exact .error e
  | ok ps hu hu' => exact .ok ps (ht _ hu) (ht' _ hu')

end Alike

theorem Reads.mono (h : Reads names hidden g) (hsub : names ⊆ names') : Reads names' hidden g :=
  fun s s' hs => h s s' (hs.mono hsub)

theorem reads_nothing : Reads names hidden nothing := fun s s' _ => .ok [] (.refl s) (.refl s')

theorem reads_leaf {parts : Scope → Except Error (List Part)}
    (h : ∀ s s', AgreeOn names s s' → parts s = parts s') : Reads names [] (leaf parts) := by
  intro s s' hs
  simp only [leaf, h s s' hs]
  cases parts s' with
  | error e => exact .error e
  | ok ps => exact .ok ps (.refl s) (.refl s')

theorem reads_within {whole : List Part → Part} (hg : Reads names hidden g) :
    Reads names hidden (within whole g) := fun s s' hs =>
  (hg s s' hs).bind fun ps _ _ ht ht' => .ok [whole ps] ht ht'

/-- The second run starts with what the first one leaves, which may differ in names that do not
matter to it. -/
theorem reads_andThen (hg : Reads names hidden g) (hg' : Reads names' hidden g')
    (hhidden : ∀ n ∈ names', n ∉ hidden) : Reads (names ++ names') hidden (andThen g g') := by
  intro s s' hs
  refine (hg s s' hs.left).bind fun ps t t' ht ht' => ?_
  have hsecond := hg' t t' (hs.right.of_sameBut ht ht' hhidden)
  refine (hsecond.of_sameBut (fun u hu => hu.trans ht) fun u hu => hu.trans ht').bind ?_
  exact fun qs u u' hu hu' => .ok (ps ++ qs) hu hu'

theorem reads_withinTwo {whole : List Part → List Part → Part} (hg : Reads names [] g)
    (hg' : Reads names' [] g') : Reads (names ++ names') [] (withinTwo whole g g') := by
  intro s s' hs
  refine (hg s s' hs.left).bind fun ps t t' ht ht' => ?_
  have hsecond := hg' t t' (hs.right.of_sameBut ht ht' fun _ _ => List.not_mem_nil)
  refine (hsecond.of_sameBut (fun u hu => hu.trans ht) fun u hu => hu.trans ht').bind ?_
  exact fun qs u u' hu hu' => .ok [whole ps qs] hu hu'

/-! ### Loops -/

theorem reads_rounds (identifier : String) (hg : Reads names [] g) (index : Nat)
    (items : List Value) :
    Reads (names.filter (· ∉ loopNames identifier)) (loopNames identifier)
      (rounds identifier g index items) := by
  induction items generalizing index with
  | nil => exact reads_nothing
  | cons item items ih =>
    have hround : Reads (names.filter (· ∉ loopNames identifier)) (loopNames identifier)
        fun scope => g (bindLoop identifier item index (!items.isEmpty) scope) := by
      intro s s' hs
      have hbound := bindLoop_agreeOn identifier item index (!items.isEmpty) names hs
      refine (hg _ _ hbound).of_sameBut ?_ ?_
      · exact fun u hu => (SameBut.of_same hu).trans (bindLoop_sameBut identifier item index _ s)
      · exact fun u hu => (SameBut.of_same hu).trans (bindLoop_sameBut identifier item index _ s')
    have hrounds := reads_andThen hround (ih (index + 1)) fun n hn => by
      simpa using (List.mem_filter.mp hn).2
    exact hrounds.mono (by simp)

theorem reads_loop (identifier : String) (items : List Value) (hg : Reads names [] g) :
    Reads (names.filter (· ∉ loopNames identifier)) [] (loop identifier items g) := by
  intro s s' hs
  simp only [loop]
  have hrounds := reads_rounds identifier hg 0 items s s' hs
  revert hrounds
  generalize rounds identifier g 0 items s = x
  generalize rounds identifier g 0 items s' = x'
  intro hrounds
  cases hrounds with
  | error e => exact .error e
  | ok ps ht ht' =>
    exact .ok ps (restore_loopNames identifier ht) (restore_loopNames identifier ht')

end Resolve

open Resolve

/-! ## Trees -/

section Choices

variable (r : Renderer) (d : Directive) {names names' : List String} {g g' : Resolve}

theorem reads_choice (hg : Reads names [] g) (hg' : Reads names' [] g') :
    Reads (expressionNames r.limit d.expression ++ (names ++ names')) []
      (r.resolveChoice d g g') := by
  intro s s' hs
  simp only [Renderer.resolveChoice, r.evalCondition_congr d hs.left]
  cases r.evalCondition d s' with
  | error e => exact .error e
  | ok b =>
    cases b with
    | true => exact hg s s' hs.right.left
    | false => exact hg' s s' hs.right.right

theorem reads_resolveLoop (identifier expression : String) (hg : Reads names [] g) :
    Reads (expressionNames r.limit expression ++ names.filter (· ∉ loopNames identifier)) []
      (r.resolveLoop d identifier expression g) := by
  intro s s' hs
  simp only [Renderer.resolveLoop, r.eval_congr d hs.left]
  cases r.eval d expression s' with
  | error e => exact .error e
  | ok v =>
    obtain ⟨value, type⟩ := v
    cases value with
    | list items => exact reads_loop identifier items hg s s' hs.right
    | _ => exact .error _

end Choices

variable (r : Renderer)

mutual

/-- A tree reads its free names. -/
theorem resolve_reads : (t : Tree) → Reads (t.freeNames r.limit) [] (r.resolve t)
  | .statement ts => by
    rw [Renderer.resolve, Tree.freeNames]
    exact resolveAll_reads ts
  | .setOperation left _ _ right => by
    rw [Renderer.resolve, Tree.freeNames]
    exact reads_withinTwo (resolve_reads left) (resolve_reads right)
  | .clause _ _ ts => by
    rw [Renderer.resolve, Tree.freeNames]
    exact reads_within (resolveAll_reads ts)
  | .logical _ _ ts => by
    rw [Renderer.resolve, Tree.freeNames]
    exact reads_within (resolveAll_reads ts)
  | .word _ | .other _ | .blank _ | .comment _ => by
    rw [Renderer.resolve]
    exact reads_leaf fun _ _ _ => rfl
  | .brackets inner => by
    rw [Renderer.resolve, Tree.freeNames]
    exact reads_within (resolve_reads inner)
  | .bind d _ => by
    rw [Renderer.resolve, Tree.freeNames]
    exact reads_leaf fun s s' hs => by rw [r.evalBind_congr d hs]
  | .literal d _ => by
    rw [Renderer.resolve, Tree.freeNames]
    exact reads_leaf fun s s' hs => by rw [r.eval_congr d hs]
  | .embedded d => by
    rw [Renderer.resolve, Tree.freeNames]
    exact reads_leaf fun s s' hs => by rw [r.eval_congr d hs]
  | .expand d _ => by
    rw [Renderer.resolve, Tree.freeNames]
    exact reads_leaf fun s s' hs => by rw [r.eval_congr d hs]
  | .ifBlock test ts elseifs else? => by
    rw [Renderer.resolve, Tree.freeNames]
    exact reads_choice r test (resolveAll_reads ts)
      (resolveBranches_reads elseifs (resolveElse_reads else?))
  | .forBlock d identifier expression ts => by
    rw [Renderer.resolve, Tree.freeNames]
    exact reads_resolveLoop r d identifier expression (resolveAll_reads ts)

theorem resolveAll_reads :
    (ts : List Tree) → Reads (Tree.freeNamesAll r.limit ts) [] (r.resolveAll ts)
  | [] => by
    rw [Renderer.resolveAll]
    exact reads_nothing
  | t :: ts => by
    rw [Renderer.resolveAll, Tree.freeNamesAll]
    exact reads_andThen (resolve_reads t) (resolveAll_reads ts) fun _ _ => List.not_mem_nil

theorem resolveBranches_reads {names : List String} {g : Resolve} :
    (bs : List (Directive × List Tree)) → Reads names [] g →
      Reads (Tree.branchNames r.limit bs ++ names) [] (r.resolveBranches bs g)
  | [], hg => by
    rw [Renderer.resolveBranches, Tree.branchNames]
    exact hg
  | (d, ts) :: bs, hg => by
    rw [Renderer.resolveBranches, Tree.branchNames]
    have hchoice := reads_choice r d (resolveAll_reads ts) (resolveBranches_reads bs hg)
    simpa only [List.append_assoc] using hchoice

theorem resolveElse_reads :
    (else? : Option (List Tree)) →
      Reads (Tree.elseNames r.limit else?) [] (r.resolveElse else?)
  | none => by
    rw [Renderer.resolveElse]
    exact reads_nothing
  | some ts => by
    rw [Renderer.resolveElse, Tree.elseNames]
    exact resolveAll_reads ts

end

/-! ## Rendering -/

/-- What a part is rendered to, apart from the scope. -/
def Rendered.written (x : Rendered) : Bool × Output := (x.available, x.output)

section Stages

variable {format : Formatter} {f : Render} {g : Resolve} {names : List String} {available : Bool}
  {s s' : Scope}

theorem TwoStage.scope_same (h : TwoStage format f g) (hg : Reads names [] g) {x : Rendered}
    (hx : f available s = .ok x) : x.scope.Same s := by
  rw [h available s] at hx
  obtain ⟨⟨ps, t⟩, hps, rfl⟩ := map_eq_ok.mp hx
  have halike := hg s s (.of_same (.refl s))
  rw [hps] at halike
  cases halike with
  | ok _ ht _ => exact ht

theorem TwoStage.written_congr (h : TwoStage format f g) (hg : Reads names [] g)
    (hs : AgreeOn names s s') (available : Bool) :
    (f available s).map Rendered.written = (f available s').map Rendered.written := by
  rw [h available s, h available s']
  have halike := hg s s' hs
  revert halike
  generalize g s = x
  generalize g s' = x'
  intro halike
  cases halike <;> rfl

end Stages

/-- Rendering trees gives the same in scopes with the same bindings, and keeps these. -/
theorem renderAll_same {ts : List Tree} {available : Bool} {s s' : Scope} {x : Rendered}
    (h : s.Same s') (hx : r.renderAll ts available s = .ok x) :
    x.scope.Same s ∧ ∃ x', r.renderAll ts available s' = .ok x' ∧ x'.available = x.available ∧
      x'.output = x.output := by
  have hscope := (renderAll_twoStage r ts).scope_same (resolveAll_reads r ts) hx
  have hcongr := (renderAll_twoStage r ts).written_congr (resolveAll_reads r ts) (.of_same h)
    available
  rw [hx] at hcongr
  obtain ⟨x', hx', hwritten⟩ := map_eq_ok.mp hcongr.symm
  obtain ⟨havailable, houtput⟩ := Prod.mk.inj hwritten
  exact ⟨hscope, x', hx', havailable, houtput⟩

/-- Rendering depends on the free names of the tree. -/
theorem render_congr {tree : Tree} {s s' : Scope} (h : AgreeOn (tree.freeNames r.limit) s s') :
    r.render tree s = r.render tree s' := by
  have hcongr := (renderTree_twoStage r tree).written_congr (resolve_reads r tree) h false
  have hmap (scope : Scope) : r.render tree scope =
      ((r.renderTree tree false scope).map Rendered.written).map fun w =>
        Statement.ofOutput w.2 := by
    simp only [Renderer.render]
    cases r.renderTree tree false scope <;> rfl
  rw [hmap, hmap, hcongr]

end Template

/-! ## Templates -/

/-- Parameters that bind the free names of a template alike build the same, or fail alike. -/
theorem build_congr_freeNames (c : Compiler) (cache? : Option Cache) (template : String)
    (parameters parameters' : Scope)
    (h : ∀ tree, (c.parse cache? template).result = .ok tree →
      ∀ n ∈ tree.freeNames c.limit, parameters.lookup n = parameters'.lookup n) :
    c.build cache? template parameters = c.build cache? template parameters' := by
  simp only [Compiler.build]
  cases hparse : (c.parse cache? template).result with
  | error e => rfl
  | ok tree =>
    have hrender := Template.render_congr c (h tree hparse)
    simp only [hrender]

/-- Within the loop its identifier is not free, and a free name may be bound by neither. -/
theorem build_congr_freeNames_loop :
    ∃ tree parameters parameters', parameters = .ofList [("i", .of (.int 9)),
        ("xs", .of (.list [.int 1, .int 2]))] ∧
      parameters' = .ofList [("xs", .of (.list [.int 1, .int 2])), ("z", .of .null)] ∧
      (Compiler.standard.parse none "/*%for i in xs*//*i*/0/*%end*//*y*/0").result = .ok tree ∧
      tree.freeNames Compiler.standard.limit = ["xs", "y"] ∧
      (Compiler.standard.build none "/*%for i in xs*//*i*/0/*%end*//*y*/0"
        parameters).result.toOption.map (·.log) = some "12NULL" ∧
      Compiler.standard.build none "/*%for i in xs*//*i*/0/*%end*//*y*/0" parameters =
        Compiler.standard.build none "/*%for i in xs*//*i*/0/*%end*//*y*/0" parameters' := by
  have hnames : (Compiler.standard.parse none
      "/*%for i in xs*//*i*/0/*%end*//*y*/0").result.toOption.map
      (·.freeNames Compiler.standard.limit) = some ["xs", "y"] := by
    decide +kernel
  have hlog : (Compiler.standard.build none "/*%for i in xs*//*i*/0/*%end*//*y*/0"
      (.ofList [("i", .of (.int 9)), ("xs", .of (.list [.int 1, .int 2]))])).result.toOption.map
      (·.log) = some "12NULL" := by
    decide +kernel
  obtain ⟨tree, htree, hnames⟩ := exists_ok_of_map hnames
  refine ⟨tree, _, _, rfl, rfl, htree, hnames, hlog, build_congr_freeNames _ _ _ _ _ ?_⟩
  intro tree' htree' n hn
  obtain rfl : tree = tree' := Except.ok.inj (htree.symm.trans htree')
  rw [hnames] at hn
  simp only [List.mem_cons, List.not_mem_nil, or_false] at hn
  rcases hn with rfl | rfl <;> rfl

end TwoWaySql
