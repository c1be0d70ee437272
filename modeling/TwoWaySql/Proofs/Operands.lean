import TwoWaySql.Proofs.Acceptance
import TwoWaySql.Proofs.Concatenation
import TwoWaySql.Proofs.Elision
import TwoWaySql.Proofs.FreeNames
import TwoWaySql.Proofs.Locations
import TwoWaySql.Proofs.NestingLimit

/-!
# Operands and brackets

What is left of a set operator is complete before the operator is read, and what is right of it is
read as by itself, with the left operand at the bottom (`run_graft`). Set operators in the right
operand bind to the left, so it is their innermost left operand that the whole left one goes to.
-/

namespace TwoWaySql.Template

open Text (isKeyword)

/-- The tree of a template after which the operands of another one come. -/
def Tree.graft (left : LeftOperand) : Tree → Tree
  | .setOperation l op keyword r => .setOperation (l.graft left) op keyword r
  | t => .setOperation left.tree left.op left.keyword t

namespace Level

def graft (left : LeftOperand) (l : Level) : Level :=
  { l with left? := some (match l.left? with
      | none => left
      | some operand => { operand with tree := operand.tree.graft left }) }

variable (left : LeftOperand)

theorem graft_add (t : Tree) (l : Level) : (l.add t).graft left = (l.graft left).add t := by
  obtain ⟨left?, children, frames⟩ := l
  cases frames <;> rfl

theorem graft_settled (l : Level) : (l.graft left).settled = l.settled.graft left := rfl

theorem graft_tree (l : Level) : (l.graft left).tree = l.tree.graft left := by
  obtain ⟨left?, children, frames⟩ := l
  cases left? <;> rfl

theorem graft_finish {l : Level} {tree : Tree} (h : l.finish = .ok tree) :
    (l.graft left).finish = .ok (tree.graft left) := by
  obtain ⟨hframes, rfl⟩ := finish_eq_ok h
  rw [finish_eq, graft_settled, show (l.settled.graft left).frames = [] from hframes, graft_tree]
  rfl

theorem size_graft_le (l : Level) : (l.graft left).size ≤ l.size + 1 := by
  cases hleft : l.left? with
  | none =>
    simp [graft, size, hleft]
    omega
  | some operand => simp [graft, size, hleft]

end Level

/-- The levels with a left operand at the bottom, the innermost level first. -/
def graftBottom (left : LeftOperand) : Level → List Suspended → Level × List Suspended
  | l, [] => (l.graft left, [])
  | l, o :: outer =>
    let below := graftBottom left o.level outer
    (l, { o with level := below.1 } :: below.2)

section Bottom

variable (left : LeftOperand)

theorem graftBottom_map {f : Level → Level} (hf : ∀ l, (f l).graft left = f (l.graft left))
    (l : Level) (outer : List Suspended) :
    graftBottom left (f l) outer =
      (f (graftBottom left l outer).1, (graftBottom left l outer).2) := by
  cases outer with
  | nil => simp [graftBottom, hf]
  | cons o outer => rfl

theorem settled_graftBottom (l : Level) (outer : List Suspended) :
    (graftBottom left l outer).1.settled.frames = l.settled.frames := by
  cases outer <;> rfl

theorem size_graftBottom_le (l : Level) (outer : List Suspended) :
    (graftBottom left l outer).1.size +
        ((graftBottom left l outer).2.map fun o => o.level.size + 1).sum ≤
      l.size + (outer.map fun o => o.level.size + 1).sum + 1 := by
  induction outer generalizing l with
  | nil =>
    have hsize := l.size_graft_le left
    simpa [graftBottom] using hsize
  | cons o outer ih =>
    have hbelow := ih o.level
    simp only [graftBottom, List.map_cons, List.sum_cons]
    omega

end Bottom

namespace ParserState

def graft (left : LeftOperand) (s : ParserState) : ParserState :=
  ⟨(graftBottom left s.level s.outer).1, (graftBottom left s.level s.outer).2, s.waiting?⟩

variable {limit : Nat} {source : String} {s s' : ParserState} {t : Token} (left : LeftOperand)

theorem depth_graft_le (s : ParserState) : (s.graft left).depth ≤ s.depth + 1 := by
  have hsize := size_graftBottom_le left s.level s.outer
  rw [depth_eq, depth_eq]
  exact hsize

/-- What is done to the innermost level is done to it whatever is at the bottom. -/
theorem graft_level {f : Level → Level} (hf : ∀ l, (f l).graft left = f (l.graft left))
    (s : ParserState) (w? : Option Waiting) :
    graft left ⟨f s.level, s.outer, w?⟩ = ⟨f (s.graft left).level, (s.graft left).outer, w?⟩ := by
  unfold graft
  rw [graftBottom_map left hf]

theorem graft_settle (s : ParserState) : (s.graft left).settle = s.settle.graft left := by
  obtain ⟨level, outer, waiting?⟩ := s
  cases waiting? with
  | none => rfl
  | some w => exact (graft_level left (fun l => l.graft_add left (w.tree none)) _ none).symm

theorem reads_graft (h : Reads limit source s t s') :
    Reads (limit + 1) source (s.graft left) t (s'.graft left) := by
  cases h with
  | @leaf tree htree =>
    have heq := graft_level left (fun l => l.graft_add left tree) s s.waiting?
    rw [add, heq]
    exact .leaf htree
  | wait hkind hsample => exact .wait hkind hsample
  | openBracket hkind hdepth =>
    have hle := s.depth_graft_le left
    exact .openBracket hkind (by omega)
  | @closeBracket o outer inner hkind houter hinner =>
    obtain ⟨level, _, waiting?⟩ := s
    obtain rfl := houter
    have heq := graft_level left (fun l => l.graft_add left (o.tree inner))
      ⟨o.level, outer, none⟩ none
    rw [heq]
    exact .closeBracket (o := { o with level := (graftBottom left o.level outer).1 }) hkind rfl
      hinner
  | @clause kind hkind =>
    rw [graft_level left (f := fun l => l.settled.openFrame (.clause kind t.text []))
      (fun _ => rfl)]
    exact .clause hkind
  | @connector op hkind =>
    rw [graft_level left
      (f := fun l => (l.complete Frame.isLogical).openFrame (.logical op t.text []))
      (fun _ => rfl)]
    exact .connector hkind
  | set hkind hleft =>
    obtain ⟨level, outer, waiting?⟩ := s
    cases outer with
    | nil => exact .set hkind (Level.graft_finish left hleft)
    | cons o outer => exact .set hkind hleft
  | ifBlock hkind =>
    rw [openFrame, graft_level left (f := fun l => l.openFrame _) (fun _ => rfl)]
    exact .ifBlock hkind
  | forBlock hkind hparts =>
    rw [openFrame, graft_level left (f := fun l => l.openFrame _) (fun _ => rfl)]
    exact .forBlock hkind hparts
  | @branch kind f f' fs hkind hbranch hframes hf =>
    rw [graft_level left (f := fun l => { l.settled with frames := f' :: fs }) (fun _ => rfl)]
    exact .branch hkind hbranch ((settled_graftBottom left _ _).trans hframes) hf
  | @endBlock f fs hkind hframes =>
    rw [graft_level left (f := fun l => ({ l.settled with frames := fs } : Level).add f.tree)
      (fun _ => Level.graft_add left _ _)]
    exact .endBlock hkind ((settled_graftBottom left _ _).trans hframes)

theorem steps_graft (h : Steps limit source s t s') :
    Steps (limit + 1) source (s.graft left) t (s'.graft left) := by
  cases h with
  | @sample w sample hwaiting hsample =>
    rw [add, graft_level left (fun l => l.graft_add left _)]
    exact .sample hwaiting hsample
  | brackets hwaiting hkind htakes hdepth =>
    have hle := s.depth_graft_le left
    exact .brackets hwaiting hkind htakes (by omega)
  | token hnot hdepth hreads =>
    have hle := s.settle.depth_graft_le left
    have hgraft := reads_graft left hreads
    rw [← graft_settle] at hle hgraft
    exact .token hnot (by omega) hgraft

/-- A run does the same with a left operand at the bottom, which counts once more. -/
theorem run_graft {ts : List Token} (hend : ∀ t ∈ ts, Token.isEnd t = false)
    (h : s.run limit source ts = .ok s') :
    (s.graft left).run (limit + 1) source ts = .ok (s'.graft left) := by
  induction ts generalizing s with
  | nil =>
    cases h
    rfl
  | cons t ts ih =>
    obtain ⟨ht, hts⟩ := List.forall_mem_cons.mp hend
    rw [run_cons] at h ⊢
    obtain ⟨u, hstep, h⟩ := bind_eq_ok.mp h
    have hsteps := steps_graft left ((step_eq_ok ht).mp hstep)
    exact bind_eq_ok.mpr ⟨u.graft left, (step_eq_ok ht).mpr hsteps, ih hts h⟩

theorem Finishes.graft {tree : Tree} (h : s.Finishes limit tree) :
    (s.graft left).Finishes (limit + 1) (tree.graft left) := by
  have hle := s.settle.depth_graft_le left
  have hdepth := h.depth_le
  refine ⟨by rw [graft_settle]; omega, ?_, ?_⟩
  · rw [ParserState.graft, h.outer_eq]
    rfl
  · rw [graft_settle, ParserState.graft, settle_outer, h.outer_eq]
    exact Level.graft_finish left h.finish_eq

/-! ## Brackets -/

variable (base : List Suspended)

theorem depth_under (s : ParserState) :
    (s.under base).depth = s.depth + (base.map fun o => o.level.size + 1).sum := by
  rw [depth_eq, depth_eq]
  simp only [under, List.map_append, List.sum_append]
  omega

theorem Reads.under (h : Reads limit source s t s') :
    Reads (limit + (base.map fun o => o.level.size + 1).sum) source (s.under base) t
      (s'.under base) := by
  cases h with
  | leaf htree => exact .leaf htree
  | wait hkind hsample => exact .wait hkind hsample
  | openBracket hkind hdepth => exact .openBracket hkind (by rw [depth_under]; omega)
  | closeBracket hkind houter hinner =>
    exact .closeBracket hkind (congrArg (· ++ base) houter) hinner
  | clause hkind => exact .clause hkind
  | connector hkind => exact .connector hkind
  | set hkind hleft => exact .set hkind hleft
  | ifBlock hkind => exact .ifBlock hkind
  | forBlock hkind hparts => exact .forBlock hkind hparts
  | branch hkind hbranch hframes hf => exact .branch hkind hbranch hframes hf
  | endBlock hkind hframes => exact .endBlock hkind hframes

theorem Steps.under (h : Steps limit source s t s') :
    Steps (limit + (base.map fun o => o.level.size + 1).sum) source (s.under base) t
      (s'.under base) := by
  cases h with
  | sample hwaiting hsample => exact .sample hwaiting hsample
  | brackets hwaiting hkind htakes hdepth =>
    exact .brackets hwaiting hkind htakes (by rw [depth_under]; omega)
  | token hnot hdepth hreads =>
    refine .token hnot ?_ ?_
    · rw [settle_under, depth_under]
      omega
    · rw [settle_under]
      exact hreads.under base

/-- A run does the same over suspended levels, which count too. -/
theorem under_run {ts : List Token} (hend : ∀ t ∈ ts, Token.isEnd t = false)
    (h : s.run limit source ts = .ok s') :
    (s.under base).run (limit + (base.map fun o => o.level.size + 1).sum) source ts =
      .ok (s'.under base) := by
  induction ts generalizing s with
  | nil =>
    cases h
    rfl
  | cons t ts ih =>
    obtain ⟨ht, hts⟩ := List.forall_mem_cons.mp hend
    rw [run_cons] at h ⊢
    obtain ⟨u, hstep, h⟩ := bind_eq_ok.mp h
    have hsteps := ((step_eq_ok ht).mp hstep).under base
    exact bind_eq_ok.mpr ⟨u.under base, (step_eq_ok ht).mpr hsteps, ih hts h⟩

/-! ## Tokens that are no samples -/

/-- A set operator or a bracket that is closed ends a directive that waits for its sample. -/
theorem step_of_reads (hset : (∃ op, t.kind = .set op) ∨ t.kind = .closeBracket)
    (hdepth : s.settle.depth ≤ limit) (h : Reads limit source s.settle t s') :
    s.step limit source t = .ok s' := by
  have hend : Token.isEnd t = false := by
    rcases hset with ⟨op, hkind⟩ | hkind <;> simp [Token.isEnd, hkind]
  refine (step_eq_ok hend).mpr (.token (fun w _ => ⟨?_, ?_⟩) hdepth h)
  · unfold Waiting.sample?
    rcases hset with ⟨op, hkind⟩ | hkind <;> rw [hkind] <;> split <;> first | contradiction | rfl
  · rcases hset with ⟨op, hkind⟩ | hkind <;> simp [hkind]

end ParserState

open ParserState

/-- A template is parsed to a tree, but for locations, if its tokens without locations are. -/
theorem exists_parse_iff {limit : Nat} {source : String} {u : Tree} :
    (∃ tree, parse limit source = .ok tree ∧ tree.unlocated = u) ↔
      Ends (lex source).tokens ∧
        ∃ s, start.run limit "" ((statementTokens source).map Token.bare) = .ok s ∧
          s.Finishes limit u := by
  have hsame := unlocated_run limit source start (statementTokens source)
  constructor
  · rintro ⟨tree, hparse, rfl⟩
    obtain ⟨hends, s, hrun, hfinishes⟩ := parse_eq_ok_iff.mp hparse
    rw [hrun] at hsame
    exact ⟨hends, s.unlocated, toOption_eq_some.mp hsame,
      unlocated_finishes.mpr ⟨tree, hfinishes, rfl⟩⟩
  · rintro ⟨hends, s, hrun, hfinishes⟩
    rw [show start.unlocated = start from rfl, hrun] at hsame
    obtain ⟨s', hrun', rfl⟩ := exists_ok_of_map hsame.symm
    obtain ⟨tree, htree, heq⟩ := unlocated_finishes.mp hfinishes
    exact ⟨tree, parse_eq_ok_iff.mpr ⟨hends, s', hrun', htree⟩, heq⟩

theorem isEnd_of_mem_bare {source : String} :
    ∀ t ∈ (statementTokens source).map Token.bare, Token.isEnd t = false := by
  intro t ht
  obtain ⟨u, hu, rfl⟩ := List.mem_map.mp ht
  exact (isEnd_of_mem_statementTokens hu : Token.isEnd u = false)

/-- Two templates with a set operator between them are parsed as each by itself. -/
theorem parse_operands {limit : Nat} {t₁ t₂ keyword : String} {op : SetOperator}
    {tree₁ tree₂ : Tree} (hlast : BlankLast (lex t₁))
    (hkeyword : isKeyword op.keyword keyword.toList = true)
    (hfirst : ∀ t ∈ (statementTokens t₂).head?, t.kind = .blank)
    (h₁ : parse limit t₁ = .ok tree₁) (h₂ : parse limit t₂ = .ok tree₂) :
    ∃ tree, parse (limit + 1) (t₁ ++ keyword ++ t₂) = .ok tree ∧
      tree.unlocated = tree₂.unlocated.graft ⟨tree₁.unlocated, op, keyword⟩ := by
  obtain ⟨-, u₁, hrun₁, hfinishes₁⟩ := exists_parse_iff.mp ⟨tree₁, h₁, rfl⟩
  obtain ⟨hends, u₂, hrun₂, hfinishes₂⟩ := exists_parse_iff.mp ⟨tree₂, h₂, rfl⟩
  obtain ⟨hends', htokens⟩ := lex_operands hlast hkeyword hends hfirst
  have hends₁ : ∀ t ∈ (statementTokens t₁).map Token.bare, Token.isEnd t = false :=
    isEnd_of_mem_bare
  let left : LeftOperand := ⟨tree₁.unlocated, op, keyword⟩
  have hstep : u₁.step (limit + 1) "" ⟨.set op, keyword, 0⟩ = .ok (start.graft left) := by
    have hreads : Reads (limit + 1) "" u₁.settle ⟨.set op, keyword, 0⟩
        ⟨⟨some left, [], []⟩, u₁.settle.outer, u₁.settle.waiting?⟩ :=
      .set rfl hfinishes₁.finish_eq
    rw [settle_outer, settle_waiting, hfinishes₁.outer_eq] at hreads
    exact step_of_reads (.inl ⟨op, rfl⟩) (Nat.le_succ_of_le hfinishes₁.depth_le) hreads
  refine exists_parse_iff.mpr ⟨hends', u₂.graft left, ?_, hfinishes₂.graft left⟩
  rw [htokens, run_append, run_of_limit_le (Nat.le_succ limit) hends₁ hrun₁]
  change run _ _ u₁ _ = _
  rw [run_cons, hstep]
  exact run_graft left isEnd_of_mem_bare hrun₂

/-- A template in brackets is parsed as by itself. -/
theorem parse_bracketed {limit : Nat} {template : String} {tree : Tree}
    (hlast : BlankLast (lex template)) (h : parse limit template = .ok tree) :
    ∃ outer, parse (limit + 2) ("(" ++ template ++ ")") = .ok outer ∧
      outer.unlocated = .statement [.brackets tree.unlocated] := by
  obtain ⟨-, u, hrun, hfinishes⟩ := exists_parse_iff.mp ⟨tree, h, rfl⟩
  obtain ⟨hends, htokens⟩ := lex_brackets hlast
  let o : Suspended := ⟨.start, ⟨"", 0⟩, none⟩
  have hopen : start.step (limit + 2) "" ⟨.openBracket, "(", 0⟩ = .ok (start.under [o]) := by
    refine (step_eq_ok rfl).mpr (.token (by simp [start]) ?_ (.openBracket rfl ?_))
    · exact Nat.succ_le_succ (Nat.zero_le _)
    · exact Nat.succ_le_succ (Nat.succ_le_succ (Nat.zero_le _))
  have hclose : (u.under [o]).step (limit + 2) "" ⟨.closeBracket, ")", 0⟩ =
      .ok ⟨⟨none, [.brackets tree.unlocated], []⟩, [], none⟩ := by
    refine step_of_reads (.inr rfl) ?_ ?_
    · rw [settle_under, depth_under]
      exact Nat.add_le_add_right hfinishes.depth_le 2
    · rw [settle_under]
      refine .closeBracket (o := o) rfl ?_ hfinishes.finish_eq
      rw [ParserState.under, settle_outer, hfinishes.outer_eq]
      rfl
  have hgroup : (start.under [o]).run (limit + 2) ""
      ((statementTokens template).map Token.bare) = .ok (u.under [o]) :=
    under_run [o] isEnd_of_mem_bare hrun
  refine exists_parse_iff.mpr
    ⟨hends, ⟨⟨none, [.brackets tree.unlocated], []⟩, [], none⟩, ?_, ⟨?_, rfl, rfl⟩⟩
  · rw [htokens, run_cons, hopen]
    change run _ _ (start.under [o]) _ = _
    rw [run_append, hgroup]
    exact run_singleton.mpr hclose
  · exact Nat.succ_le_succ (Nat.zero_le _)

/-! ## Rendering -/

variable {r : Renderer}

/-- Scopes that bind the same names to the same give the same parts, and are left like that. -/
theorem resolve_same {t : Tree} {s s' v : Scope} {ps : List Part} (h : s.Same s')
    (ht : r.resolve t s = .ok (ps, v)) :
    v.Same s ∧ ∃ v', r.resolve t s' = .ok (ps, v') ∧ v'.Same s' := by
  have halike := resolve_reads r t s s' (.of_same h)
  rw [ht] at halike
  generalize r.resolve t s' = x' at halike ⊢
  cases halike with
  | ok _ hv hv' => exact ⟨hv, _, rfl, hv'⟩

theorem output_operands (left : List Part) (keyword : String) (right : List Part) :
    Part.output r.formatter [.operands left keyword right] =
      Part.output r.formatter left ++ .sql keyword ++ Part.output r.formatter right := by
  simp [Part.output, Part.writeAll, Part.write]

theorem resolve_setOperation (op : SetOperator) (keyword : String) {left right : Tree}
    {scope v w : Scope} {ps qs : List Part} (hleft : r.resolve left scope = .ok (ps, v))
    (hright : r.resolve right scope = .ok (qs, w)) :
    ∃ w', r.resolve (.setOperation left op keyword right) scope =
      .ok ([.operands ps keyword qs], w') := by
  have hv : v.Same scope := (resolve_same (.refl scope) hleft).1
  obtain ⟨-, w', hright', -⟩ := resolve_same (fun n hn => (hv n hn).symm) hright
  refine ⟨w', ?_⟩
  rw [Renderer.resolve]
  exact bind_eq_ok.mpr ⟨(ps, v), hleft, bind_eq_ok.mpr ⟨(qs, w'), hright', rfl⟩⟩

theorem resolve_of_setOperation {left right : Tree} {op : SetOperator} {keyword : String}
    {scope w : Scope} {parts : List Part}
    (h : r.resolve (.setOperation left op keyword right) scope = .ok (parts, w)) :
    ∃ ps qs v w', r.resolve left scope = .ok (ps, v) ∧ r.resolve right scope = .ok (qs, w') ∧
      parts = [.operands ps keyword qs] := by
  rw [Renderer.resolve] at h
  obtain ⟨⟨ps, v⟩, hleft, h⟩ := bind_eq_ok.mp h
  obtain ⟨⟨qs, w⟩, hright, h⟩ := bind_eq_ok.mp h
  cases h
  have hv : v.Same scope := (resolve_same (.refl scope) hleft).1
  obtain ⟨-, w', hright', -⟩ := resolve_same hv hright
  exact ⟨ps, qs, v, w', hleft, hright', rfl⟩

/-- Each operand is rendered as by itself. -/
theorem resolve_graft (left : LeftOperand) {scope v : Scope} {ps : List Part}
    (hleft : r.resolve left.tree scope = .ok (ps, v)) (t : Tree) {qs : List Part} {w : Scope}
    (ht : r.resolve t scope = .ok (qs, w)) :
    ∃ parts w', r.resolve (t.graft left) scope = .ok (parts, w') ∧
      Part.output r.formatter parts =
        Part.output r.formatter ps ++ .sql left.keyword ++ Part.output r.formatter qs := by
  fun_induction Tree.graft left t generalizing qs w with
  | case1 l op keyword right ih =>
    obtain ⟨ls, rs, u, u', hl, hr, rfl⟩ := resolve_of_setOperation ht
    obtain ⟨parts, w', hparts, houtput⟩ := ih hl
    obtain ⟨w'', hresolve⟩ := resolve_setOperation op keyword hparts hr
    refine ⟨_, w'', hresolve, ?_⟩
    simp only [output_operands, houtput, Output.append_assoc]
  | case2 t _ =>
    obtain ⟨w', hresolve⟩ := resolve_setOperation left.op left.keyword hleft ht
    exact ⟨_, w', hresolve, output_operands _ _ _⟩

theorem resolve_brackets {tree : Tree} {scope v : Scope} {ps : List Part}
    (h : r.resolve tree scope = .ok (ps, v)) :
    r.resolve (.statement [.brackets tree]) scope = .ok ([.group ps], v) := by
  simp only [Renderer.resolve, Renderer.resolveAll]
  exact bind_eq_ok.mpr ⟨([.group ps], v), bind_eq_ok.mpr ⟨(ps, v), h, rfl⟩, rfl⟩

end TwoWaySql.Template

namespace TwoWaySql

open Template Text

theorem Compiler.build_eq_ok_iff_resolve {c : Compiler} {template : String} {parameters : Scope}
    {s : Statement} :
    (c.build none template parameters).result = .ok s ↔
      ∃ tree ps scope, Template.parse c.limit template = .ok tree ∧
        c.resolve tree parameters = .ok (ps, scope) ∧
        s = .ofOutput (Part.output c.formatter ps) := by
  rw [build_result]
  constructor
  · intro h
    obtain ⟨tree, hparse, hrender⟩ := bind_eq_ok.mp h
    obtain ⟨ps, scope, hresolve, hs⟩ := render_eq_ok_iff.mp hrender
    exact ⟨tree, ps, scope, hparse, hresolve, hs⟩
  · rintro ⟨tree, ps, scope, hparse, hresolve, hs⟩
    exact bind_eq_ok.mpr ⟨tree, hparse, render_eq_ok_iff.mpr ⟨ps, scope, hresolve, hs⟩⟩

/-- Within the limit, templates with a set operator between them are built as each by itself, and a
template in brackets is built as by itself. -/
theorem build_operands (c : Compiler) (parameters : Scope) (t₁ : String) (s₁ : Statement)
    (hsemicolon : ∀ t ∈ (lex t₁).tokens, t.kind ≠ .delimiter)
    (hlast : ∀ t ∈ (statementTokens t₁).getLast?, t.kind = .blank)
    (h₁ : (c.build none t₁ parameters).result = .ok s₁) :
    (∀ (op : SetOperator) (keyword t₂ : String) (s₂ : Statement),
      isKeyword op.keyword keyword.toList = true →
      (∀ t ∈ (statementTokens t₂).head?, t.kind = .blank) →
      (c.build none t₂ parameters).result = .ok s₂ →
      WithinLimit c.limit (t₁ ++ keyword ++ t₂) →
      (c.build none (t₁ ++ keyword ++ t₂) parameters).result =
        .ok ⟨s₁.text ++ keyword ++ s₂.text, s₁.values ++ s₂.values,
          s₁.log ++ keyword ++ s₂.log⟩) ∧
    (WithinLimit c.limit ("(" ++ t₁ ++ ")") →
      (c.build none ("(" ++ t₁ ++ ")") parameters).result =
        .ok ⟨"(" ++ s₁.text ++ ")", s₁.values, "(" ++ s₁.log ++ ")"⟩) := by
  obtain ⟨tree₁, ps₁, v₁, hparse₁, hresolve₁, rfl⟩ := Compiler.build_eq_ok_iff_resolve.mp h₁
  have hends₁ := (parse_eq_ok_iff.mp hparse₁).1
  have hblank := blankLast_of_ends hends₁ hsemicolon hlast
  have hunlocated₁ := (resolve_unlocated_eq_ok c).mpr hresolve₁
  constructor
  · intro op keyword t₂ s₂ hkeyword hfirst h₂ hwithin
    obtain ⟨tree₂, ps₂, v₂, hparse₂, hresolve₂, rfl⟩ := Compiler.build_eq_ok_iff_resolve.mp h₂
    obtain ⟨tree, hparse, htree⟩ := parse_operands hblank hkeyword hfirst hparse₁ hparse₂
    obtain ⟨parts, w, hresolve, houtput⟩ := resolve_graft ⟨tree₁.unlocated, op, keyword⟩
      hunlocated₁ tree₂.unlocated ((resolve_unlocated_eq_ok c).mpr hresolve₂)
    rw [← htree] at hresolve
    refine Compiler.build_eq_ok_iff_resolve.mpr
      ⟨tree, parts, w, parse_of_withinLimit hparse hwithin,
        (resolve_unlocated_eq_ok c).mp hresolve, ?_⟩
    rw [houtput]
    simp [Statement.ofOutput, Output.sql]
  · intro hwithin
    obtain ⟨tree, hparse, htree⟩ := parse_bracketed hblank hparse₁
    have hresolve := resolve_brackets hunlocated₁
    rw [← htree] at hresolve
    refine Compiler.build_eq_ok_iff_resolve.mpr ⟨tree, _, v₁, parse_of_withinLimit hparse hwithin,
      (resolve_unlocated_eq_ok c).mp hresolve, ?_⟩
    simp [Statement.ofOutput, Output.sql, Part.output, Part.writeAll, Part.write]

/-- Both templates have operands of their own, and the first one ends within its clause. -/
theorem build_operands_chained :
    ∃ s₁ s₂,
      (Compiler.standard.build none "select a union select b from t where a = /*x*/1 and\n"
        (.ofList [("x", .of (.int 5))])).result = .ok s₁ ∧
      (Compiler.standard.build none " select c from u where /*x*/1 minus select /*y*/2 "
        (.ofList [("x", .of (.int 5))])).result = .ok s₂ ∧
      s₁.log = "select a union select b from t where a = 5 and\n" ∧
      s₂.log = " select c from u minus select NULL " ∧
      (Compiler.standard.build none
        ("select a union select b from t where a = /*x*/1 and\n" ++ "InterSect" ++
          " select c from u where /*x*/1 minus select /*y*/2 ")
        (.ofList [("x", .of (.int 5))])).result =
          .ok ⟨s₁.text ++ "InterSect" ++ s₂.text, s₁.values ++ s₂.values,
            s₁.log ++ "InterSect" ++ s₂.log⟩ ∧
      (Compiler.standard.build none
        ("(" ++ "select a union select b from t where a = /*x*/1 and\n" ++ ")")
        (.ofList [("x", .of (.int 5))])).result =
          .ok ⟨"(" ++ s₁.text ++ ")", s₁.values, "(" ++ s₁.log ++ ")"⟩ := by
  have hlog₁ : (Compiler.standard.build none
      "select a union select b from t where a = /*x*/1 and\n"
      (.ofList [("x", .of (.int 5))])).result.toOption.map (·.log) =
        some "select a union select b from t where a = 5 and\n" := by
    decide +kernel
  have hlog₂ : (Compiler.standard.build none
      " select c from u where /*x*/1 minus select /*y*/2 "
      (.ofList [("x", .of (.int 5))])).result.toOption.map (·.log) =
        some " select c from u minus select NULL " := by
    decide +kernel
  obtain ⟨s₁, h₁, hs₁⟩ := exists_ok_of_map hlog₁
  obtain ⟨s₂, h₂, hs₂⟩ := exists_ok_of_map hlog₂
  obtain ⟨hset, hbrackets⟩ := build_operands Compiler.standard (.ofList [("x", .of (.int 5))])
    "select a union select b from t where a = /*x*/1 and\n" s₁ (by decide +kernel)
    (by decide +kernel) h₁
  exact ⟨s₁, s₂, h₁, h₂, hs₁, hs₂,
    hset .intersect "InterSect" " select c from u where /*x*/1 minus select /*y*/2 " s₂
      (by decide) (by decide +kernel) h₂ (withinLimit_of_isSome (by decide +kernel)),
    hbrackets (withinLimit_of_isSome (by decide +kernel))⟩

end TwoWaySql
