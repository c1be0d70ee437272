import TwoWaySql.Proofs.TreeText

/-!
# Parsing a tree's template again

A step looks at the kinds, texts and bodies of tokens but at no location: without locations, states
and trees go through the same steps. A template and its canonical form have the same tokens but for
locations, so both parse to the same tree but for locations (`parse_roundTrip`).
-/

namespace TwoWaySql.Template

/-! ## Without locations -/

/-- The location that stands for all. -/
def nowhere : Location := ⟨"", 0⟩

def Directive.unlocated (d : Directive) : Directive := { d with location := nowhere }

namespace Tree

mutual

/-- The tree without its locations. -/
def unlocated : Tree → Tree
  | statement ts => .statement (unlocatedAll ts)
  | setOperation l op keyword r => .setOperation l.unlocated op keyword r.unlocated
  | clause kind keyword ts => .clause kind keyword (unlocatedAll ts)
  | logical op keyword ts => .logical op keyword (unlocatedAll ts)
  | word s => .word s
  | blank s => .blank s
  | other s => .other s
  | comment s => .comment s
  | brackets t => .brackets t.unlocated
  | bind d s => .bind d.unlocated (unlocatedSample s)
  | literal d s => .literal d.unlocated (unlocatedSample s)
  | embedded d => .embedded d.unlocated
  | expand d s => .expand d.unlocated (unlocatedSample s)
  | ifBlock test ts bs e =>
    .ifBlock test.unlocated (unlocatedAll ts) (unlocatedBranches bs) (unlocatedElse e)
  | forBlock d i e ts => .forBlock d.unlocated i e (unlocatedAll ts)

def unlocatedAll : List Tree → List Tree
  | [] => []
  | t :: ts => t.unlocated :: unlocatedAll ts

def unlocatedSample : Option Tree → Option Tree
  | none => none
  | some t => some t.unlocated

def unlocatedBranches : List (Directive × List Tree) → List (Directive × List Tree)
  | [] => []
  | (d, ts) :: bs => (d.unlocated, unlocatedAll ts) :: unlocatedBranches bs

def unlocatedElse : Option (List Tree) → Option (List Tree)
  | none => none
  | some ts => some (unlocatedAll ts)

end

@[simp] theorem unlocatedAll_eq (ts : List Tree) : unlocatedAll ts = ts.map unlocated := by
  induction ts with
  | nil => rfl
  | cons t ts ih => simp [unlocatedAll, ih]

@[simp] theorem unlocatedSample_eq (s : Option Tree) : unlocatedSample s = s.map unlocated := by
  cases s <;> rfl

/-- A branch without its locations. -/
def unlocatedBranch (b : Directive × List Tree) : Directive × List Tree :=
  (b.1.unlocated, b.2.map unlocated)

@[simp] theorem unlocatedBranches_eq (bs : List (Directive × List Tree)) :
    unlocatedBranches bs = bs.map unlocatedBranch := by
  induction bs with
  | nil => rfl
  | cons b bs ih => simp [unlocatedBranches, unlocatedBranch, ih]

@[simp] theorem unlocatedElse_eq (e : Option (List Tree)) :
    unlocatedElse e = e.map (List.map unlocated) := by
  cases e <;> simp [unlocatedElse]

end Tree

namespace Frame

def unlocated : Frame → Frame
  | clause kind keyword ts => .clause kind keyword (ts.map Tree.unlocated)
  | logical op keyword ts => .logical op keyword (ts.map Tree.unlocated)
  | ifBlock test ts => .ifBlock test.unlocated (ts.map Tree.unlocated)
  | elseifBlock test body bs d ts =>
    .elseifBlock test.unlocated (body.map Tree.unlocated) (bs.map Tree.unlocatedBranch) d.unlocated
      (ts.map Tree.unlocated)
  | elseBlock test body bs ts =>
    .elseBlock test.unlocated (body.map Tree.unlocated) (bs.map Tree.unlocatedBranch)
      (ts.map Tree.unlocated)
  | forBlock d i e ts => .forBlock d.unlocated i e (ts.map Tree.unlocated)

theorem unlocated_add (t : Tree) (f : Frame) :
    (f.add t).unlocated = f.unlocated.add t.unlocated := by
  cases f <;> rfl

theorem unlocated_tree (f : Frame) : f.unlocated.tree = f.tree.unlocated := by
  cases f <;> simp [unlocated, tree, Tree.unlocated, Tree.unlocatedBranch]

theorem unlocated_isLogical (f : Frame) : f.unlocated.isLogical = f.isLogical := by
  cases f <;> rfl

theorem unlocated_isClauseOrLogical (f : Frame) :
    f.unlocated.isClauseOrLogical = f.isClauseOrLogical := by
  cases f <;> rfl

theorem unlocated_opening? (f : Frame) :
    f.unlocated.opening? = f.opening?.map Directive.unlocated := by
  cases f <;> rfl

/-- No location of an `else` is kept. -/
theorem unlocated_branch {kind : DirectiveKind} {d d' : Directive}
    (hd : kind = .elseBranch ∨ d' = d.unlocated) (test : Directive) (body : List Tree)
    (bs : List (Directive × List Tree)) :
    branch kind d' test.unlocated (body.map Tree.unlocated) (bs.map Tree.unlocatedBranch) =
      (branch kind d test body bs).unlocated := by
  unfold branch
  split
  · rfl
  · rename_i hkind
    rw [hd.resolve_left hkind]
    rfl

end Frame

theorem completeWhile_unlocated {p : Frame → Bool} (hp : ∀ f, p f.unlocated = p f)
    (t? : Option Tree) (fs : List Frame) :
    completeWhile p (t?.map Tree.unlocated) (fs.map Frame.unlocated) =
      ((completeWhile p t? fs).1.map Tree.unlocated,
        (completeWhile p t? fs).2.map Frame.unlocated) := by
  induction fs generalizing t? with
  | nil => rfl
  | cons f fs ih =>
    have hadd : (t?.map Tree.unlocated).elim f.unlocated f.unlocated.add =
        (t?.elim f f.add).unlocated := by
      cases t? <;> simp [Frame.unlocated_add]
    simp only [List.map_cons, completeWhile, hadd, hp]
    split
    · rw [Frame.unlocated_tree]
      exact ih (some (t?.elim f f.add).tree)
    · rfl

def LeftOperand.unlocated (l : LeftOperand) : LeftOperand := { l with tree := l.tree.unlocated }

namespace Level

def unlocated (l : Level) : Level where
  left? := l.left?.map LeftOperand.unlocated
  children := l.children.map Tree.unlocated
  frames := l.frames.map Frame.unlocated

theorem unlocated_size (l : Level) : l.unlocated.size = l.size := by
  simp [unlocated, size]

theorem unlocated_add (t : Tree) (l : Level) :
    (l.add t).unlocated = l.unlocated.add t.unlocated := by
  obtain ⟨left?, children, frames⟩ := l
  cases frames with
  | nil => rfl
  | cons f fs => simp [unlocated, add, Frame.unlocated_add]

theorem unlocated_complete {p : Frame → Bool} (hp : ∀ f, p f.unlocated = p f) (l : Level) :
    l.unlocated.complete p = (l.complete p).unlocated := by
  have h := completeWhile_unlocated hp none l.frames
  simp only [Option.map_none] at h
  simp only [complete, unlocated, h]
  cases (completeWhile p none l.frames).1 <;> simp

theorem unlocated_settled (l : Level) : l.unlocated.settled = l.settled.unlocated :=
  unlocated_complete Frame.unlocated_isClauseOrLogical l

theorem unlocated_tree (l : Level) : l.unlocated.tree = l.tree.unlocated := by
  obtain ⟨left?, children, frames⟩ := l
  cases left? <;> simp [unlocated, tree, Tree.unlocated, LeftOperand.unlocated]

theorem unlocated_finish (l : Level) :
    l.unlocated.finish.toOption = l.finish.toOption.map Tree.unlocated := by
  have h : l.settled.unlocated.frames.head?.bind Frame.opening? =
      (l.settled.frames.head?.bind Frame.opening?).map Directive.unlocated := by
    cases hf : l.settled.frames <;> simp [unlocated, hf, Frame.unlocated_opening?]
  rw [finish_eq, finish_eq, unlocated_settled, h]
  cases l.settled.frames.head?.bind Frame.opening? with
  | none => simp [Except.toOption, unlocated_tree]
  | some d => rfl

end Level

def Waiting.unlocated (w : Waiting) : Waiting := { w with directive := w.directive.unlocated }

theorem Waiting.unlocated_tree (w : Waiting) (sample? : Option Tree) :
    w.unlocated.tree (sample?.map Tree.unlocated) = (w.tree sample?).unlocated := by
  obtain ⟨kind, d⟩ := w
  cases kind <;> simp [unlocated, tree, Tree.unlocated]

def Suspended.unlocated (o : Suspended) : Suspended :=
  ⟨o.level.unlocated, nowhere, o.sampleOf?.map Waiting.unlocated⟩

theorem Suspended.unlocated_tree (o : Suspended) (inner : Tree) :
    o.unlocated.tree inner.unlocated = (o.tree inner).unlocated := by
  obtain ⟨level, opening, sampleOf?⟩ := o
  cases sampleOf? with
  | none => simp [unlocated, tree, Tree.unlocated]
  | some w =>
    have h := w.unlocated_tree (some (.brackets inner))
    simpa [unlocated, tree, Tree.unlocated] using h

namespace ParserState

def unlocated (s : ParserState) : ParserState :=
  ⟨s.level.unlocated, s.outer.map Suspended.unlocated, s.waiting?.map Waiting.unlocated⟩

variable {limit : Nat} {source : String} {s : ParserState} {t : Token}

/-! ## Steps without locations -/

theorem unlocated_depth (s : ParserState) : s.unlocated.depth = s.depth := by
  simp [depth, unlocated, Suspended.unlocated, Level.unlocated_size, List.foldr_map]

theorem unlocated_add (tree : Tree) (s : ParserState) :
    (s.add tree).unlocated = s.unlocated.add tree.unlocated := by
  simp [unlocated, add, Level.unlocated_add]

theorem unlocated_settle (s : ParserState) : s.unlocated.settle = s.settle.unlocated := by
  obtain ⟨level, outer, waiting?⟩ := s
  cases waiting? with
  | none => rfl
  | some w =>
    have h := w.unlocated_tree none
    rw [Option.map_none] at h
    simp [unlocated, settle, add, Level.unlocated_add, h]

theorem unlocated_openBracket (s : ParserState) (location : Location)
    (sampleOf? : Option Waiting) :
    (openBracket limit s.unlocated nowhere (sampleOf?.map Waiting.unlocated)).toOption =
      (openBracket limit s location sampleOf?).toOption.map unlocated := by
  unfold openBracket
  rw [unlocated_depth]
  split <;> rfl

theorem unlocated_closeBracket (s : ParserState) (location : Location) :
    (s.unlocated.closeBracket nowhere).toOption =
      (s.closeBracket location).toOption.map unlocated := by
  obtain ⟨level, outer, waiting?⟩ := s
  cases outer with
  | nil => rfl
  | cons o outer =>
    have h := level.unlocated_finish
    simp only [unlocated, closeBracket, List.map_cons, toOption_bind]
    rw [h]
    cases level.finish with
    | error e => rfl
    | ok inner =>
      have htree := o.unlocated_tree inner
      have hlevel : o.unlocated.level = o.level.unlocated := rfl
      simp only [Except.toOption, Option.map_some, Option.bind_some, pure, Except.pure, hlevel]
      change some (ParserState.mk (o.level.unlocated.add (o.unlocated.tree _)) _ _) =
        some (unlocated ⟨o.level.add (o.tree inner), outer, none⟩)
      rw [htree, ← Level.unlocated_add]
      rfl

theorem unlocated_addBranch {kind : DirectiveKind} {d d' : Directive}
    (hd : kind = .elseBranch ∨ d' = d.unlocated) (s : ParserState) :
    (s.unlocated.addBranch kind d').toOption = (s.addBranch kind d).toOption.map unlocated := by
  unfold addBranch
  rw [show s.unlocated.level.complete Frame.isClauseOrLogical = s.level.settled.unlocated from
      s.level.unlocated_settled,
    show s.level.complete Frame.isClauseOrLogical = s.level.settled from rfl]
  generalize s.level.settled = level
  obtain ⟨left?, children, frames⟩ := level
  cases frames with
  | nil => rfl
  | cons f fs =>
    cases f with
    | ifBlock test ts =>
      have h := Frame.unlocated_branch hd test ts.reverse []
      rw [List.map_reverse] at h
      exact congrArg (fun f' => some (ParserState.mk ⟨_, _, f' :: _⟩ _ _)) h
    | elseifBlock test body bs e ts =>
      have h := Frame.unlocated_branch hd test body ((e, ts.reverse) :: bs)
      simp only [List.map_cons, Tree.unlocatedBranch, List.map_reverse] at h
      exact congrArg (fun f' => some (ParserState.mk ⟨_, _, f' :: _⟩ _ _)) h
    | _ => rfl

theorem unlocated_endBlock (s : ParserState) (location : Location) :
    (s.unlocated.endBlock nowhere).toOption = (s.endBlock location).toOption.map unlocated := by
  unfold endBlock
  rw [show s.unlocated.level.complete Frame.isClauseOrLogical = s.level.settled.unlocated from
      s.level.unlocated_settled,
    show s.level.complete Frame.isClauseOrLogical = s.level.settled from rfl]
  generalize s.level.settled = level
  obtain ⟨left?, children, frames⟩ := level
  cases frames with
  | nil => rfl
  | cons f fs =>
    have h := Level.unlocated_add f.tree ⟨left?, children, fs⟩
    rw [← Frame.unlocated_tree] at h
    exact congrArg (fun l => some { s.unlocated with level := l }) h.symm

/-- A directive that is neither `else` nor `end` is the same wherever it stands. -/
theorem directive_bare (source : String) {kind : DirectiveKind} (hkind : t.kind = .directive kind)
    (helse : kind ≠ .elseBranch) (hend : kind ≠ .blockEnd) :
    Token.directive "" (Token.bare t) = (Token.directive source t).unlocated := by
  obtain ⟨_, text, start⟩ := t
  obtain rfl := hkind
  cases kind with
  | elseBranch => exact absurd rfl helse
  | blockEnd => exact absurd rfl hend
  | _ => rfl

theorem unlocated_addDirective (source : String) (s : ParserState) {kind : DirectiveKind}
    (hkind : t.kind = .directive kind) :
    (s.unlocated.addDirective kind (Token.directive "" (Token.bare t))).toOption =
      (s.addDirective kind (Token.directive source t)).toOption.map unlocated := by
  have hbare := directive_bare source hkind
  cases kind with
  | elseBranch => exact unlocated_addBranch (.inl rfl) s
  | elseifBranch => exact unlocated_addBranch (.inr (hbare (by decide) (by decide))) s
  | blockEnd => exact unlocated_endBlock s _
  | bind | literal | expand | ifBranch =>
    rw [hbare (by decide) (by decide)]
    rfl
  | embedded =>
    rw [hbare (by decide) (by decide)]
    simp [addDirective, Except.toOption, unlocated_add, Tree.unlocated]
  | forLoop =>
    rw [hbare (by decide) (by decide)]
    simp only [addDirective, Directive.unlocated]
    split <;> rfl

theorem unlocated_checkDepth (s : ParserState) (location : Location) :
    (s.unlocated.checkDepth limit nowhere).toOption =
      (s.checkDepth limit location).toOption := by
  unfold checkDepth
  rw [unlocated_depth]
  split <;> rfl

theorem unlocated_addToken (s : ParserState) (t : Token) :
    (s.unlocated.addToken limit "" (Token.bare t)).toOption =
      (s.addToken limit source t).toOption.map unlocated := by
  have hdirective (kind : DirectiveKind) (hkind : t.kind = .directive kind) :=
    unlocated_addDirective source s hkind
  obtain ⟨kind, text, start⟩ := t
  unfold addToken
  simp only [toOption_bind]
  rw [show (⟨"", (Token.bare ⟨kind, text, start⟩).start⟩ : Location) = nowhere from rfl,
    unlocated_checkDepth s ⟨source, start⟩]
  cases (s.checkDepth limit ⟨source, start⟩).toOption with
  | none => rfl
  | some u =>
    cases kind with
    | stop | delimiter => rfl
    | word | quote => exact congrArg some (unlocated_add (.word text) s).symm
    | blank => exact congrArg some (unlocated_add (.blank text) s).symm
    | comment => exact congrArg some (unlocated_add (.comment text) s).symm
    | other => exact congrArg some (unlocated_add (.other text) s).symm
    | openBracket => exact unlocated_openBracket s ⟨source, start⟩ none
    | closeBracket => exact unlocated_closeBracket s ⟨source, start⟩
    | clause kind =>
      exact congrArg
        (fun l => some { s.unlocated with level := l.openFrame (.clause kind text []) })
        s.level.unlocated_settled
    | connector op =>
      exact congrArg (fun l => some { s.unlocated with level := l.openFrame (.logical op text []) })
        (Level.unlocated_complete Frame.unlocated_isLogical s.level)
    | set op =>
      have h := s.level.unlocated_finish
      simp only [Token.bare, toOption_bind]
      rw [show s.unlocated.level = s.level.unlocated from rfl, h]
      cases s.level.finish <;> rfl
    | directive kind => exact hdirective kind rfl

theorem unlocated_sample? (w : Waiting) (t : Token) :
    w.unlocated.sample? (Token.bare t) = (w.sample? t).map Tree.unlocated := by
  obtain ⟨kind, d⟩ := w
  obtain ⟨tokenKind, text, start⟩ := t
  cases kind with
  | bind | literal => cases tokenKind <;> rfl
  | expand =>
    cases tokenKind with
    | other =>
      by_cases htext : text = "*" <;>
        simp [Waiting.sample?, Waiting.unlocated, Token.bare, Token.canonicalText, htext,
          Tree.unlocated]
    | _ => rfl

theorem unlocated_step (limit : Nat) (source : String) (s : ParserState) (t : Token) :
    (s.unlocated.step limit "" (Token.bare t)).toOption =
      (s.step limit source t).toOption.map unlocated := by
  unfold step
  cases hw : s.waiting? with
  | none =>
    rw [show s.unlocated.waiting? = none by simp [unlocated, hw]]
    exact unlocated_addToken s t
  | some w =>
    rw [show s.unlocated.waiting? = some w.unlocated by simp [unlocated, hw]]
    dsimp only
    rw [unlocated_sample?]
    cases w.sample? t with
    | some sample =>
      have h := w.unlocated_tree (some sample)
      rw [Option.map_some] at h ⊢
      dsimp only
      rw [h]
      exact congrArg (fun u : ParserState => some { u with waiting? := none })
        (unlocated_add (w.tree (some sample)) s).symm
    | none =>
      rw [Option.map_none, unlocated_settle]
      dsimp only
      by_cases hbracket : t.kind = .openBracket ∧ w.takesBrackets = true
      · have hbracket' : (Token.bare t).kind = .openBracket ∧ w.unlocated.takesBrackets = true :=
          hbracket
        rw [if_pos hbracket, if_pos hbracket']
        exact unlocated_openBracket { s with waiting? := none } ⟨source, t.start⟩ (some w)
      · have hbracket' : ¬((Token.bare t).kind = .openBracket ∧
            w.unlocated.takesBrackets = true) := hbracket
        rw [if_neg hbracket, if_neg hbracket']
        exact unlocated_addToken s.settle t

theorem unlocated_run (limit : Nat) (source : String) (s : ParserState) (ts : List Token) :
    (s.unlocated.run limit "" (ts.map Token.bare)).toOption =
      (s.run limit source ts).toOption.map unlocated := by
  induction ts generalizing s with
  | nil => rfl
  | cons t ts ih =>
    rw [List.map_cons, run_cons, run_cons, toOption_bind, toOption_bind,
      unlocated_step limit source]
    cases s.step limit source t with
    | error e => rfl
    | ok s' => exact ih s'

theorem unlocated_finishes {tree : Tree} :
    s.unlocated.Finishes limit tree ↔ ∃ tree', s.Finishes limit tree' ∧ tree'.unlocated = tree := by
  have hdepth : s.unlocated.settle.depth = s.settle.depth := by
    rw [unlocated_settle, unlocated_depth]
  have hfinish : s.unlocated.settle.level.finish.toOption =
      s.settle.level.finish.toOption.map Tree.unlocated := by
    rw [unlocated_settle]
    exact s.settle.level.unlocated_finish
  constructor
  · intro h
    rw [h.finish_eq] at hfinish
    obtain ⟨tree', htree, heq⟩ := exists_ok_of_map hfinish.symm
    exact ⟨tree', ⟨hdepth ▸ h.depth_le, List.map_eq_nil_iff.mp h.outer_eq, htree⟩, heq⟩
  · rintro ⟨tree', h, rfl⟩
    rw [h.finish_eq] at hfinish
    obtain ⟨_, htree, heq⟩ := exists_ok_of_map (f := id) (by rw [Option.map_id]; exact hfinish)
    refine ⟨hdepth ▸ h.depth_le, List.map_eq_nil_iff.mpr h.outer_eq, ?_⟩
    rw [htree, ← heq]
    rfl

end ParserState

open ParserState

/-- The canonical form of a template has its tokens. -/
theorem statementTokens_canonical {source : String} (h : Ends (lex source).tokens) :
    Ends (lex (canonicalTemplate source)).tokens ∧
      (statementTokens (canonicalTemplate source)).map Token.bare =
        (statementTokens source).map Token.bare := by
  obtain ⟨ts, stop, hlex, hbare⟩ := lex_canonical h
  have hend : ∀ t ∈ ts, Token.isEnd t = false := by
    intro t ht
    have hmem : Token.bare t ∈ (statementTokens source).map Token.bare :=
      hbare ▸ List.mem_map_of_mem ht
    obtain ⟨u, hu, heq⟩ := List.mem_map.mp hmem
    have hkind : u.kind = t.kind := congrArg (·.kind) heq
    have hend := isEnd_of_mem_statementTokens hu
    unfold Token.isEnd at hend ⊢
    rwa [hkind] at hend
  rw [statementTokens, hlex]
  refine ⟨⟨⟨.stop, "", stop⟩, by simp, rfl⟩, ?_⟩
  rw [List.takeWhile_append_of_pos (by simpa using hend)]
  simpa [Token.isEnd] using hbare

/-- A tree is written as the tokens before the end of its statement, with `else` and `end` in one
form, and what it is written as is parsed to the same tree but for locations. -/
theorem parse_roundTrip (limit : Nat) (source : String) (tree : Tree)
    (h : parse limit source = .ok tree) :
    tree.template = String.join ((statementTokens source).map Token.canonicalText) ∧
      ∃ again, parse limit tree.template = .ok again ∧ again.unlocated = tree.unlocated := by
  refine ⟨template_of_parse h, ?_⟩
  rw [template_of_parse h]
  obtain ⟨hends, s, hrun, hfinishes⟩ := parse_eq_ok_iff.mp h
  obtain ⟨hends', hbare⟩ := statementTokens_canonical hends
  have hsame := unlocated_run limit source start (statementTokens source)
  rw [← hbare, unlocated_run limit (canonicalTemplate source), hrun] at hsame
  obtain ⟨s', hrun', hs'⟩ := exists_ok_of_map hsame
  have hfinishes' := unlocated_finishes.mpr ⟨tree, hfinishes, rfl⟩
  rw [← hs'] at hfinishes'
  obtain ⟨again, hagain, heq⟩ := unlocated_finishes.mp hfinishes'
  exact ⟨again, parse_eq_ok_iff.mpr ⟨hends', s', hrun', hagain⟩, heq⟩

/-- Blanks within `else` and `end` and what comes after the semicolon are lost, nothing else. -/
theorem parse_roundTrip_branches :
    ∃ tree, parse 8 "select a from t where /*%if x*/ a = /*x*/(1) /*%else */and (b) /*%end */;c" =
        .ok tree ∧
      tree.template =
        "select a from t where /*%if x*/ a = /*x*/(1) /*%else*/and (b) /*%end*/" ∧
      ∃ again, parse 8 tree.template = .ok again ∧ again.unlocated = tree.unlocated := by
  have htext : (parse 8
      "select a from t where /*%if x*/ a = /*x*/(1) /*%else */and (b) /*%end */;c").toOption.map
      Tree.template =
        some "select a from t where /*%if x*/ a = /*x*/(1) /*%else*/and (b) /*%end*/" := by
    decide +kernel
  obtain ⟨tree, htree, htemplate⟩ := exists_ok_of_map htext
  exact ⟨tree, htree, htemplate, (parse_roundTrip 8 _ tree htree).2⟩

end TwoWaySql.Template
