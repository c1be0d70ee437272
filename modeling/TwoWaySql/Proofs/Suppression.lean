import TwoWaySql.Proofs.WrittenInFull

/-!
# With and without content before

Whether there is content before a tree decides which keywords of connectors are written, and nothing
else. The renderings with and without content fail with the same error, or they leave the same scope
and the same values (`renderTree_content_before`): no value is lost with a keyword, and no condition
or loop is decided otherwise.
-/

namespace TwoWaySql

/-- An output is another one without some of its keywords, which have `p`. -/
inductive Output.Without (p : String → Prop) : Output → Output → Prop where
  | same (o : Output) : Without p o o
  | keyword {keyword : String} : p keyword → Without p .empty (.sql keyword)
  | append {less more less' more' : Output} : Without p less more → Without p less' more' →
      Without p (less ++ less') (more ++ more')

/-- Keywords have no values. -/
theorem Output.Without.values_eq {p : String → Prop} {less more : Output}
    (h : less.Without p more) : less.values = more.values := by
  induction h with
  | same o => rfl
  | keyword => rfl
  | append _ _ ih ih' => rw [values_append, values_append, ih, ih']

namespace Template

open TwoWaySql.Template.Tree (Everywhere Within everywhere_append everywhere_cons
  everywhere_singleton)

/-! ## Two renderings side by side -/

/-- What a part is rendered to without content before it, and with content. With content before
there is content afterwards. -/
inductive Beside (p : String → Prop) : Except Error Rendered → Except Error Rendered → Prop where
  | failed (e : Error) : Beside p (.error e) (.error e)
  | rendered (available : Bool) (scope : Scope) {less more : Output} : less.Without p more →
      Beside p (.ok ⟨available, scope, less⟩) (.ok ⟨true, scope, more⟩)

theorem Beside.bind {p : String → Prop} {x y : Except Error Rendered} (h : Beside p x y)
    {k k' : Rendered → Except Error Rendered}
    (hk : ∀ available scope less more, less.Without p more →
      Beside p (k ⟨available, scope, less⟩) (k' ⟨true, scope, more⟩)) :
    Beside p (x >>= k) (y >>= k') := by
  cases h with
  | failed e => exact .failed e
  | rendered available scope hless => exact hk available scope _ _ hless

/-- Content before a part decides about keywords with `p` only. -/
def DecidesKeywords (p : String → Prop) (f : Render) : Prop :=
  ∀ scope, Beside p (f false scope) (f true scope)

namespace DecidesKeywords

variable {p : String → Prop} {f g : Render}

/-- Two renderings that may have come together: with content before both there is no difference. -/
theorem beside (h : DecidesKeywords p f) (available : Bool) (scope : Scope) :
    Beside p (f available scope) (f true scope) := by
  cases available with
  | false => exact h scope
  | true =>
    have hscope := h scope
    generalize f false scope = without, f true scope = withContent at hscope ⊢
    cases hscope with
    | failed e => exact .failed e
    | rendered _ scope _ => exact .rendered true scope (.same _)

theorem nothing : DecidesKeywords p .nothing := fun scope => .rendered false scope (.same _)

theorem content (sql : String) : DecidesKeywords p (.content sql) :=
  fun scope => .rendered true scope (.same _)

theorem passing (sql : String) : DecidesKeywords p (.passing sql) :=
  fun scope => .rendered false scope (.same _)

theorem keeping (output : Scope → Except Error Output) : DecidesKeywords p (.keeping output) := by
  intro scope
  simp only [Render.keeping]
  cases output scope with
  | error e => exact .failed e
  | ok o => exact .rendered false scope (.same o)

theorem andThen (hf : DecidesKeywords p f) (hg : DecidesKeywords p g) :
    DecidesKeywords p (.andThen f g) := by
  intro scope
  refine (hf scope).bind fun available scope less more hfirst => ?_
  refine (hg.beside available scope).bind fun available scope less more hsecond => ?_
  exact .rendered available scope (.append hfirst hsecond)

theorem after (sql : String) (h : DecidesKeywords p f) : DecidesKeywords p (.after sql f) := by
  intro scope
  refine (h scope).bind fun available scope less more hless => ?_
  exact .rendered available scope (.append (.same _) hless)

/-- The one place where content before matters. -/
theorem logical {keyword : String} (hkeyword : p keyword) (h : DecidesKeywords p f) :
    DecidesKeywords p fun available => (if available then .after keyword f else f) available := by
  intro scope
  have hscope := h scope
  simp only [Bool.false_eq_true, ↓reduceIte, Render.after]
  generalize f false scope = without, f true scope = withContent at hscope ⊢
  cases hscope with
  | failed e => exact .failed e
  | @rendered available scope less more hless =>
    have hkeyword : (Output.empty ++ less).Without p (.sql keyword ++ more) :=
      .append (.keyword hkeyword) hless
    rw [Output.empty_append] at hkeyword
    exact .rendered available scope hkeyword

/-- A part that opens a scope of its own does not know of the content before it. -/
theorem asContent (h : ∀ scope, f false scope = f true scope) :
    DecidesKeywords p (.asContent f) := by
  intro scope
  simp only [Render.asContent, h scope]
  cases f true scope with
  | error e => exact .failed e
  | ok a => exact .rendered true a.scope (.same _)

theorem elidable (keyword : String) (body : Render) :
    DecidesKeywords p (Template.elidable keyword body) := by
  intro scope
  simp only [Template.elidable]
  cases body false scope with
  | error e => exact .failed e
  | ok a =>
    simp only [bind, Except.bind]
    split
    · exact .rendered false a.scope (.same _)
    · split
      · exact .rendered true a.scope (.same _)
      · exact .rendered false a.scope (.same _)

theorem rounds (identifier : String) (h : DecidesKeywords p f) (index : Nat)
    (items : List Value) : DecidesKeywords p (Template.rounds identifier f index items) := by
  induction items generalizing index with
  | nil => exact nothing
  | cons item items ih => exact andThen (fun _ => h _) (ih (index + 1))

theorem loop (identifier : String) (items : List Value) (h : DecidesKeywords p f) :
    DecidesKeywords p (Template.loop identifier items f) := by
  intro scope
  refine (h.rounds identifier 0 items scope).bind fun available after less more hless => ?_
  exact .rendered available _ hless

section Directives

variable (r : Renderer) (d : Directive)

theorem embedded : DecidesKeywords p (r.renderEmbedded d) := by
  intro scope
  simp only [Renderer.renderEmbedded]
  cases r.eval d d.expression scope with
  | error e => exact .failed e
  | ok v =>
    simp only [bind, Except.bind]
    split
    · exact .rendered false scope (.same _)
    · exact .rendered true scope (.same _)

theorem expand : DecidesKeywords p (r.renderExpand d) := by
  intro scope
  simp only [Renderer.renderExpand]
  cases r.eval d d.expression scope with
  | error e => exact .failed e
  | ok v =>
    simp only [bind, Except.bind]
    split
    · exact .failed _
    · exact .rendered true scope (.same _)

theorem choose (hf : DecidesKeywords p f) (hg : DecidesKeywords p g) :
    DecidesKeywords p (r.choose d f g) := by
  intro scope
  simp only [Renderer.choose]
  cases r.evalCondition d scope with
  | error e => exact .failed e
  | ok holds =>
    cases holds with
    | true => exact hf scope
    | false => exact hg scope

theorem renderLoop (identifier expression : String) (h : DecidesKeywords p f) :
    DecidesKeywords p (r.renderLoop d identifier expression f) := by
  intro scope
  simp only [Renderer.renderLoop]
  cases r.eval d expression scope with
  | error e => exact .failed e
  | ok v =>
    obtain ⟨value, type⟩ := v
    cases value with
    | list items => exact h.loop identifier items scope
    | _ => exact .failed _

end Directives

end DecidesKeywords

/-! ## Trees -/

/-- A connector has a keyword with `p`. -/
def Tree.ConnectorHas (p : String → Prop) : Tree → Prop
  | .logical _ keyword _ => p keyword
  | _ => True

section

variable {p : String → Prop}

mutual

theorem renderTree_decidesKeywords (r : Renderer) : (t : Tree) →
    Everywhere (Tree.ConnectorHas p) [t] → DecidesKeywords p (r.renderTree t)
  | .statement ts, h => by
    simp only [Renderer.renderTree]
    exact renderAll_decidesKeywords r ts (everywhere_singleton.mp h).2
  | .setOperation .., _ => by
    simp only [Renderer.renderTree]
    exact .asContent fun _ => rfl
  | .clause kind keyword ts, h => by
    have hts := renderAll_decidesKeywords r ts (everywhere_singleton.mp h).2
    simp only [Renderer.renderTree]
    split
    · exact hts.after keyword
    · exact .elidable keyword _
  | .logical _ _ ts, h => by
    obtain ⟨hkeyword, hts⟩ := everywhere_singleton.mp h
    simp only [Renderer.renderTree]
    exact .logical hkeyword (renderAll_decidesKeywords r ts hts)
  | .word text, _ | .other text, _ => by
    simp only [Renderer.renderTree]
    exact .content text
  | .blank text, _ | .comment text, _ => by
    simp only [Renderer.renderTree]
    exact .passing text
  | .brackets _, _ => by
    simp only [Renderer.renderTree]
    exact .asContent fun _ => rfl
  | .bind _ _, _ | .literal _ _, _ => by
    simp only [Renderer.renderTree]
    exact .keeping _
  | .embedded d, _ => by
    simp only [Renderer.renderTree]
    exact .embedded r d
  | .expand d _, _ => by
    simp only [Renderer.renderTree]
    exact .expand r d
  | .ifBlock test ts elseifs else?, h => by
    obtain ⟨hbodies, helse⟩ := everywhere_append.mp (everywhere_singleton.mp h).2
    obtain ⟨hts, hbodies⟩ := everywhere_append.mp hbodies
    simp only [Renderer.renderTree]
    exact .choose r test (renderAll_decidesKeywords r ts hts)
      (renderBranches_decidesKeywords r elseifs hbodies (renderElse_decidesKeywords r else? helse))
  | .forBlock d identifier expression ts, h => by
    simp only [Renderer.renderTree]
    exact .renderLoop r d identifier expression
      (renderAll_decidesKeywords r ts (everywhere_singleton.mp h).2)

theorem renderAll_decidesKeywords (r : Renderer) : (ts : List Tree) →
    Everywhere (Tree.ConnectorHas p) ts → DecidesKeywords p (r.renderAll ts)
  | [], _ => .nothing
  | t :: ts, h => by
    obtain ⟨ht, hts⟩ := everywhere_cons.mp h
    simp only [Renderer.renderAll]
    exact .andThen (renderTree_decidesKeywords r t ht) (renderAll_decidesKeywords r ts hts)

theorem renderBranches_decidesKeywords (r : Renderer) {f : Render} :
    (bs : List (Directive × List Tree)) →
      Everywhere (Tree.ConnectorHas p) (bs.flatMap (·.2)) → DecidesKeywords p f →
      DecidesKeywords p (r.renderBranches bs f)
  | [], _, hf => by
    simp only [Renderer.renderBranches]
    exact hf
  | (d, ts) :: bs, h, hf => by
    obtain ⟨hts, hbs⟩ := everywhere_append.mp h
    simp only [Renderer.renderBranches]
    exact .choose r d (renderAll_decidesKeywords r ts hts)
      (renderBranches_decidesKeywords r bs hbs hf)

theorem renderElse_decidesKeywords (r : Renderer) : (else? : Option (List Tree)) →
    Everywhere (Tree.ConnectorHas p) (else?.getD []) → DecidesKeywords p (r.renderElse else?)
  | none, _ => .nothing
  | some ts, h => by
    simp only [Renderer.renderElse]
    exact renderAll_decidesKeywords r ts h

end

end

/-- A tree is rendered without content before it and with content: both renderings fail with the
same error, or both succeed with the same scope and the same values. Then there is content after the
second one, and the first one wrote the same but for keywords of connectors of the tree. -/
theorem renderTree_content_before (r : Renderer) (t : Tree) (scope : Scope) :
    (∃ e, r.renderTree t false scope = .error e ∧ r.renderTree t true scope = .error e) ∨
    ∃ without withContent, r.renderTree t false scope = .ok without ∧
      r.renderTree t true scope = .ok withContent ∧ withContent.available = true ∧
      without.scope = withContent.scope ∧ without.output.values = withContent.output.values ∧
      without.output.Without (fun keyword => ∃ op ts, Within (.logical op keyword ts) t)
        withContent.output := by
  have hown : Everywhere
      (Tree.ConnectorHas fun keyword => ∃ op ts, Within (.logical op keyword ts) t) [t] := by
    intro u hu
    cases u with
    | logical op keyword ts => exact ⟨op, ts, Tree.holds_singleton.mp hu⟩
    | _ => exact trivial
  have hscope := renderTree_decidesKeywords r t hown scope
  generalize r.renderTree t false scope = x, r.renderTree t true scope = y at hscope ⊢
  cases hscope with
  | failed e => exact .inl ⟨e, rfl, rfl⟩
  | rendered available scope hless =>
    exact .inr ⟨_, _, rfl, rfl, rfl, rfl, hless.values_eq, hless⟩

end Template

end TwoWaySql
