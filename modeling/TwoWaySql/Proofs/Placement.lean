import TwoWaySql.Proofs.Directives
import TwoWaySql.Proofs.Expr.Diagnostics
import TwoWaySql.Proofs.WrittenInFull

/-!
# Directives of a template in its tree

The directives in a tree are tokens of the template (`Tree.Grounded`): every token that the parser
reads keeps this of all that is open (`ParserState.Grounded.step`). Where the parser fails instead,
it is at a token or at the lexeme that is broken (`grounded_parse`).
-/

namespace TwoWaySql.Template

open Text
open Template.Tree (Everywhere everywhere_append everywhere_cons everywhere_leaf everywhere_nil
  everywhere_singleton)

variable {source : String}

/-! ## Errors -/

/-- A place in the template at which a token starts, or the lexeme that is not read as one. The line
and the position in it are those of the text before. -/
structure AtToken (template : String) (l : Location) : Prop where
  source : l.source = template
  starts : (∃ t ∈ (lex template).tokens, t.start = l.offset) ∨
    ∃ cause, (lex template).failure? = some (cause, l.offset)
  lines : ∃ before after, template.toList = before ++ after ∧ l.offset = byteLength before ∧
    l.line = before.count '\n' + 1 ∧
    l.position = (before.reverse.takeWhile (· ≠ '\n')).length + 1

/-- A directive of the template starts at the place `l`, and a text that fails at `place` is its
expression. -/
structure FailsWithin (source text : String) (l place : Location) : Prop where
  directive : ∃ t ∈ (lex source).tokens, ∃ kind body, t.start = l.offset ∧
    t.kind = .directive kind ∧ Token.body? t = some body ∧ text.toList <:+ body.toList ∧
    (kind ≠ .forLoop → text = body)
  place : place.IsIn text

/-- An error points at what is wrong in the template. -/
structure Error.Located (source : String) (e : Error) : Prop where
  location : AtToken source e.location
  expression : ∀ text l inner, e = .expression text l inner →
    FailsWithin source text l inner.location ∧ e.kind = kindOfCause inner.cause

/-- What a run gives satisfies `p`, or it fails with an error that is located. -/
abbrev LocatedOr {α : Type} (source : String) (p : α → Prop) (x : Except Error α) : Prop :=
  Outcome p (Error.Located source) x

theorem located_structural {l : Location} (h : AtToken source l) (cause : StructuralCause) :
    (Error.structural cause l).Located source := ⟨h, fun _ _ _ heq => by cases heq⟩

theorem located_lexical {l : Location} (h : AtToken source l) (cause : LexicalCause) :
    (Error.lexical cause l).Located source := ⟨h, fun _ _ _ heq => by cases heq⟩

theorem atToken_of_isPlace {offset : Nat}
    (h : (∃ t ∈ (lex source).tokens, t.start = offset) ∨
      ∃ cause, (lex source).failure? = some (cause, offset))
    (hplace : IsPlace source.toList offset) : AtToken source ⟨source, offset⟩ := by
  obtain ⟨before, after, htext, rfl⟩ := isPlace_iff.mp hplace
  refine ⟨rfl, h, before, after, htext, rfl, ?_, ?_⟩
  · rw [Location.line, Location.before_byteLength htext]
  · rw [Location.position, Location.before_byteLength htext]

theorem atToken_of_mem {t : Token} (h : t ∈ (lex source).tokens) :
    AtToken source ⟨source, t.start⟩ :=
  atToken_of_isPlace (.inl ⟨t, h, rfl⟩) (scanner.slices_lexFrom () source.toList t h).1

/-- A directive of the template. -/
def IsDirective (source : String) (kind : DirectiveKind) (d : Directive) : Prop :=
  ∃ t ∈ (lex source).tokens, t.kind = .directive kind ∧ d = Token.directive source t

namespace IsDirective

variable {kind : DirectiveKind} {d : Directive}

theorem atToken (h : IsDirective source kind d) : AtToken source d.location := by
  obtain ⟨t, ht, -, rfl⟩ := h
  exact atToken_of_mem ht

theorem body (h : IsDirective source kind d) :
    ∃ t ∈ (lex source).tokens, t.start = d.location.offset ∧ t.kind = .directive kind ∧
      Token.body? t = some d.expression ∧ trim d.expression.toList = d.expression.toList := by
  obtain ⟨t, ht, hkind, rfl⟩ := h
  obtain ⟨inner, hinner⟩ := encloses_of_mem_lex ht hkind
  have hbody := body?_of_encloses hkind hinner
  have hexpression : (Token.directive source t).expression = String.ofList (trim inner) := by
    unfold Token.directive
    dsimp only
    rw [hbody]
    rfl
  refine ⟨t, ht, rfl, hkind, by rw [hexpression]; exact hbody, ?_⟩
  rw [hexpression, String.toList_ofList, trim_trim]

/-- The error of an expression of the directive is located if it lies within the expression. -/
theorem located (h : IsDirective source kind d) {expression : String} {e : Expr.Error}
    (hsuffix : expression.toList <:+ d.expression.toList)
    (hwhole : kind ≠ .forLoop → expression = d.expression) (he : e.location.IsIn expression) :
    (d.error expression e).Located source := by
  refine ⟨h.atToken, ?_⟩
  rintro text l inner heq
  cases heq
  obtain ⟨t, ht, hstart, hkind, hbody, -⟩ := h.body
  refine ⟨⟨⟨t, ht, kind, d.expression, hstart, hkind, hbody, hsuffix, hwhole⟩, he⟩, ?_⟩
  unfold Directive.error Error.kind kindOfCause
  rfl

end IsDirective

/-- A directive of the template, of any kind. -/
def HasDirective (source : String) (d : Directive) : Prop := ∃ kind, IsDirective source kind d

/-- The directive of a loop, and the parts of its body. -/
def IsLoop (source : String) (d : Directive) (identifier expression : String) : Prop :=
  IsDirective source .forLoop d ∧
    loopParts? d.expression.toList = some (identifier.toList, expression.toList)

/-- The directives of a tree itself, apart from the trees within it, are those of a template. -/
def Tree.Grounded (source : String) : Tree → Prop
  | .bind d _ | .literal d _ | .embedded d | .expand d _ => HasDirective source d
  | .ifBlock test _ elseifs _ => HasDirective source test ∧ ∀ b ∈ elseifs, HasDirective source b.1
  | .forBlock d identifier expression _ => IsLoop source d identifier expression
  | _ => True

/-! ## What is open -/

namespace Frame

variable {f f' : Frame} {t : Tree} {d : Directive} {kind : DirectiveKind}

/-- The directives of an open construct itself are those of a template. -/
def OwnGrounded (source : String) : Frame → Prop
  | clause .. | logical .. => True
  | ifBlock test _ => HasDirective source test
  | elseifBlock test _ bs d _ =>
    HasDirective source test ∧ HasDirective source d ∧ ∀ b ∈ bs, HasDirective source b.1
  | elseBlock test _ bs _ => HasDirective source test ∧ ∀ b ∈ bs, HasDirective source b.1
  | forBlock d identifier expression _ => IsLoop source d identifier expression

/-- The directives of an open construct and of what is in it are those of a template. -/
structure Grounded (source : String) (f : Frame) : Prop where
  own : f.OwnGrounded source
  children : Everywhere (Tree.Grounded source) f.children

theorem Grounded.add (h : f.Grounded source) (ht : Everywhere (Tree.Grounded source) [t]) :
    (f.add t).Grounded source := by
  constructor
  · have hown := h.own
    cases f <;> exact hown
  · refine (everywhere_cons.mpr ⟨ht, h.children⟩).mono fun u hu => ?_
    rw [List.mem_cons]
    exact mem_children_add.mp hu

theorem Grounded.tree (h : f.Grounded source) : Everywhere (Tree.Grounded source) [f.tree] := by
  refine everywhere_singleton.mpr ⟨?_, h.children.mono fun _ => mem_children_tree.mp⟩
  have hown := h.own
  cases f with
  | clause | logical => trivial
  | ifBlock => exact ⟨hown, nofun⟩
  | elseifBlock test body bs d ts =>
    refine ⟨hown.1, fun b hb => ?_⟩
    rcases List.mem_cons.mp (List.mem_reverse.mp hb) with rfl | hb
    · exact hown.2.1
    · exact hown.2.2 b hb
  | elseBlock => exact ⟨hown.1, fun b hb => hown.2 b (List.mem_reverse.mp hb)⟩
  | forBlock => exact hown

theorem Grounded.nextBranch (h : f.Grounded source) (hd : HasDirective source d)
    (hf : f.nextBranch? kind d = some f') : f'.Grounded source := by
  refine ⟨?_, h.children.mono fun _ => (mem_children_nextBranch? hf).mp⟩
  have hown := h.own
  cases f with
  | ifBlock test ts =>
    cases hf
    unfold branch
    split
    · exact ⟨hown, nofun⟩
    · exact ⟨hown, hd, nofun⟩
  | elseifBlock test body bs e ts =>
    cases hf
    obtain ⟨htest, he, hbs⟩ := hown
    unfold branch
    split
    · exact ⟨htest, List.forall_mem_cons.mpr ⟨he, hbs⟩⟩
    · exact ⟨htest, hd, List.forall_mem_cons.mpr ⟨he, hbs⟩⟩
  | _ => cases hf

theorem Grounded.opening (h : f.Grounded source) (hd : f.opening? = some d) :
    HasDirective source d := by
  have hown := h.own
  cases f with
  | clause | logical => cases hd
  | ifBlock => exact Option.some_inj.mp hd ▸ hown
  | forBlock => exact Option.some_inj.mp hd ▸ ⟨_, hown.1⟩
  | elseifBlock | elseBlock => exact Option.some_inj.mp hd ▸ hown.1

end Frame

/-- The directives of all that is in a level are those of a template. -/
structure Level.Grounded (source : String) (l : Level) : Prop where
  left : ∀ left ∈ l.left?, Everywhere (Tree.Grounded source) [left.tree]
  children : Everywhere (Tree.Grounded source) l.children
  frames : ∀ f ∈ l.frames, f.Grounded source

namespace Level

variable {l : Level} {t : Tree}

theorem grounded_start : Level.start.Grounded source := ⟨nofun, everywhere_nil, nofun⟩

theorem Grounded.add (h : l.Grounded source) (ht : Everywhere (Tree.Grounded source) [t]) :
    (l.add t).Grounded source := by
  unfold Level.add
  split
  · exact ⟨h.left, everywhere_cons.mpr ⟨ht, h.children⟩, h.frames⟩
  · rename_i f fs hframes
    have hfs := h.frames
    rw [hframes] at hfs
    obtain ⟨hf, hfs⟩ := List.forall_mem_cons.mp hfs
    exact ⟨h.left, h.children, List.forall_mem_cons.mpr ⟨hf.add ht, hfs⟩⟩

theorem Grounded.openFrame {f : Frame} (h : l.Grounded source) (hf : f.Grounded source) :
    (l.openFrame f).Grounded source :=
  ⟨h.left, h.children, List.forall_mem_cons.mpr ⟨hf, h.frames⟩⟩

theorem Grounded.complete (h : l.Grounded source) (p : Frame → Bool) :
    (l.complete p).Grounded source := by
  obtain ⟨htree, hframes⟩ := forall_completeWhile (p := p) everywhere_nil
    (fun _ _ hf ht => hf.add ht) (fun _ hf => hf.tree) h.frames
  exact ⟨h.left, everywhere_append.mpr ⟨htree, h.children⟩, hframes⟩

theorem Grounded.tree (h : l.Grounded source) : Everywhere (Tree.Grounded source) [l.tree] := by
  have hright : Everywhere (Tree.Grounded source) [.statement l.children.reverse] :=
    everywhere_singleton.mpr ⟨trivial, h.children.mono fun _ => List.mem_reverse.mp⟩
  unfold Level.tree
  split
  · exact hright
  · rename_i left hleft
    exact everywhere_singleton.mpr ⟨trivial, everywhere_cons.mpr ⟨h.left left hleft, hright⟩⟩

/-- A block that is open where the level ends is reported where it starts. -/
theorem Grounded.finish (h : l.Grounded source) :
    LocatedOr source (fun t => Everywhere (Tree.Grounded source) [t]) l.finish := by
  have hsettled : l.settled.Grounded source := h.complete _
  rw [Level.finish_eq]
  split
  · rename_i d hopening
    obtain ⟨f, hf, hd⟩ := Option.bind_eq_some_iff.mp hopening
    obtain ⟨kind, hd⟩ := (hsettled.frames f (List.mem_of_head? hf)).opening hd
    exact located_structural hd.atToken _
  · exact hsettled.tree

end Level

/-! ## States of the parser -/

/-- The directives of all that is in the state are those of a template, and so are its brackets. -/
structure ParserState.Grounded (source : String) (s : ParserState) : Prop where
  level : s.level.Grounded source
  outer : ∀ o ∈ s.outer, o.level.Grounded source ∧ AtToken source o.opening ∧
    ∀ w ∈ o.sampleOf?, HasDirective source w.directive
  waiting : ∀ w ∈ s.waiting?, HasDirective source w.directive

theorem Waiting.grounded_tree {w : Waiting} {sample? : Option Tree}
    (hw : HasDirective source w.directive)
    (hsample : Everywhere (Tree.Grounded source) sample?.toList) :
    Everywhere (Tree.Grounded source) [w.tree sample?] := by
  obtain ⟨kind, d⟩ := w
  cases kind <;> exact everywhere_singleton.mpr ⟨hw, hsample⟩

theorem grounded_leaf {t : Tree} (hchildren : t.children = []) (h : t.Grounded source) :
    Everywhere (Tree.Grounded source) [t] := (everywhere_leaf hchildren).mpr h

theorem Waiting.grounded_sample {w : Waiting} {t : Token} {sample : Tree}
    (h : w.sample? t = some sample) : Everywhere (Tree.Grounded source) [sample] := by
  unfold Waiting.sample? at h
  split at h
  · cases h; exact grounded_leaf rfl trivial
  · cases h; exact grounded_leaf rfl trivial
  · cases h; exact grounded_leaf rfl trivial
  · cases h; exact grounded_leaf rfl trivial
  · split at h
    · cases h; exact grounded_leaf rfl trivial
    · cases h
  · cases h

namespace ParserState

variable {limit : Nat} {s : ParserState} {l : Location} {t : Token} {d : Directive}
  {kind : DirectiveKind}

theorem grounded_start : start.Grounded source := ⟨Level.grounded_start, nofun, nofun⟩

theorem Grounded.add (hs : s.Grounded source) {tree : Tree}
    (h : Everywhere (Tree.Grounded source) [tree]) : (s.add tree).Grounded source :=
  ⟨hs.level.add h, hs.outer, hs.waiting⟩

theorem Grounded.settle (hs : s.Grounded source) : s.settle.Grounded source := by
  unfold ParserState.settle
  split
  · exact hs
  · rename_i w hw
    exact ⟨hs.level.add (Waiting.grounded_tree (hs.waiting w hw) everywhere_nil), hs.outer, nofun⟩

theorem Grounded.openBracket (hs : s.Grounded source) (hl : AtToken source l)
    {sampleOf? : Option Waiting} (hw : ∀ w ∈ sampleOf?, HasDirective source w.directive) :
    LocatedOr source (Grounded source) (s.openBracket limit l sampleOf?) := by
  unfold ParserState.openBracket
  split
  · exact located_structural hl _
  · exact ⟨Level.grounded_start, List.forall_mem_cons.mpr ⟨⟨hs.level, hl, hw⟩, hs.outer⟩, nofun⟩

theorem Grounded.closeBracket (hs : s.Grounded source) (hl : AtToken source l) :
    LocatedOr source (Grounded source) (s.closeBracket l) := by
  unfold ParserState.closeBracket
  split
  · exact located_structural hl _
  · rename_i o outer houter
    have hsuspended := hs.outer
    rw [houter] at hsuspended
    obtain ⟨⟨hlevel, -, hsample⟩, hrest⟩ := List.forall_mem_cons.mp hsuspended
    apply hs.level.finish.bind
    intro inner hinner
    have hgroup : Everywhere (Tree.Grounded source) [.brackets inner] :=
      everywhere_singleton.mpr ⟨trivial, hinner⟩
    refine ⟨hlevel.add ?_, hrest, nofun⟩
    split
    · exact hgroup
    · exact Waiting.grounded_tree (hsample _ ‹_›) hgroup

theorem Grounded.addBranch (hs : s.Grounded source) (hd : IsDirective source kind d) :
    LocatedOr source (Grounded source) (s.addBranch kind d) := by
  have hsettled := hs.level.complete Frame.isClauseOrLogical
  have branch {f f' : Frame} {fs : List Frame} (hf : f.nextBranch? kind d = some f')
      (hframes : (s.level.complete Frame.isClauseOrLogical).frames = f :: fs) :
      Grounded source { s with
        level := { s.level.complete Frame.isClauseOrLogical with frames := f' :: fs } } := by
    have hfs := hsettled.frames
    rw [hframes] at hfs
    obtain ⟨hgrounded, hrest⟩ := List.forall_mem_cons.mp hfs
    have hbranch := List.forall_mem_cons.mpr ⟨hgrounded.nextBranch ⟨kind, hd⟩ hf, hrest⟩
    exact ⟨⟨hsettled.left, hsettled.children, hbranch⟩, hs.outer, hs.waiting⟩
  unfold ParserState.addBranch
  dsimp only
  split
  · exact branch rfl ‹_›
  · exact branch rfl ‹_›
  · exact located_structural hd.atToken _
  · exact located_structural hd.atToken _

theorem Grounded.endBlock (hs : s.Grounded source) (hl : AtToken source l) :
    LocatedOr source (Grounded source) (s.endBlock l) := by
  have hsettled := hs.level.complete Frame.isClauseOrLogical
  unfold ParserState.endBlock
  dsimp only
  split
  · exact located_structural hl _
  · rename_i f fs hframes
    have hfs := hsettled.frames
    rw [hframes] at hfs
    obtain ⟨hf, hrest⟩ := List.forall_mem_cons.mp hfs
    have hlevel : Level.Grounded source
        { s.level.complete Frame.isClauseOrLogical with frames := fs } :=
      ⟨hsettled.left, hsettled.children, hrest⟩
    exact ⟨hlevel.add hf.tree, hs.outer, hs.waiting⟩

theorem Grounded.addDirective (hs : s.Grounded source) (hd : IsDirective source kind d) :
    LocatedOr source (Grounded source) (s.addDirective kind d) := by
  have wait (sample : SampleKind) : ({ s with waiting? := some ⟨sample, d⟩ } :
      ParserState).Grounded source := by
    refine ⟨hs.level, hs.outer, fun w hw => ?_⟩
    cases hw
    exact ⟨kind, hd⟩
  cases kind with
  | bind | literal | expand => exact wait _
  | embedded => exact hs.add (grounded_leaf rfl ⟨_, hd⟩)
  | ifBranch => exact ⟨hs.level.openFrame ⟨⟨_, hd⟩, everywhere_nil⟩, hs.outer, hs.waiting⟩
  | elseifBranch | elseBranch => exact hs.addBranch hd
  | blockEnd => exact hs.endBlock hd.atToken
  | forLoop =>
    unfold ParserState.addDirective
    dsimp only
    split
    · exact located_lexical hd.atToken _
    · rename_i identifier expression hparts
      refine ⟨hs.level.openFrame ⟨⟨hd, ?_⟩, everywhere_nil⟩, hs.outer, hs.waiting⟩
      rw [String.toList_ofList, String.toList_ofList]
      exact hparts

theorem checkDepth_located (hl : AtToken source l) (limit : Nat) (s : ParserState) :
    LocatedOr source (fun _ => True) (s.checkDepth limit l) := by
  unfold checkDepth
  split
  · exact located_structural hl _
  · exact trivial

theorem Grounded.addToken (hs : s.Grounded source) (ht : t ∈ (lex source).tokens) :
    LocatedOr source (Grounded source) (s.addToken limit source t) := by
  have hl := atToken_of_mem ht
  have leaf {tree : Tree} (hchildren : tree.children = []) (h : tree.Grounded source) :
      (s.add tree).Grounded source := hs.add (grounded_leaf hchildren h)
  have keyword (p : Frame → Bool) {f : Frame} (hf : f.Grounded source) :
      ({ s with level := (s.level.complete p).openFrame f } : ParserState).Grounded source :=
    ⟨(hs.level.complete p).openFrame hf, hs.outer, hs.waiting⟩
  apply (checkDepth_located hl limit s).bind
  intro _ _
  split
  · exact hs
  · exact hs
  · exact leaf rfl trivial
  · exact leaf rfl trivial
  · exact leaf rfl trivial
  · exact leaf rfl trivial
  · exact leaf rfl trivial
  · exact hs.openBracket hl nofun
  · exact hs.closeBracket hl
  · exact keyword _ ⟨trivial, everywhere_nil⟩
  · exact keyword _ ⟨trivial, everywhere_nil⟩
  · apply hs.level.finish.bind
    intro left hleft
    refine ⟨⟨fun operand hoperand => ?_, everywhere_nil, nofun⟩, hs.outer, hs.waiting⟩
    cases hoperand
    exact hleft
  · exact hs.addDirective ⟨t, ht, ‹_›, rfl⟩

theorem Grounded.step (hs : s.Grounded source) (ht : t ∈ (lex source).tokens) :
    LocatedOr source (Grounded source) (s.step limit source t) := by
  unfold ParserState.step
  split
  · exact hs.addToken ht
  · rename_i w hw
    have hwaiting := hs.waiting w hw
    split
    · rename_i sample hsample
      have htree : Everywhere (Tree.Grounded source) [w.tree (some sample)] :=
        Waiting.grounded_tree hwaiting (Waiting.grounded_sample hsample)
      exact ⟨hs.level.add htree, hs.outer, nofun⟩
    · split
      · have hnext : ({ s with waiting? := none } : ParserState).Grounded source :=
          ⟨hs.level, hs.outer, nofun⟩
        refine hnext.openBracket (atToken_of_mem ht) fun v hv => ?_
        cases hv
        exact hwaiting
      · exact hs.settle.addToken ht

theorem Grounded.finish (hs : s.Grounded source) (ht : t ∈ (lex source).tokens) :
    LocatedOr source (fun tree => Everywhere (Tree.Grounded source) [tree])
      (s.finish limit source t) := by
  apply (checkDepth_located (atToken_of_mem ht) limit s.settle).bind
  intro _ _
  split
  · exact hs.settle.level.finish
  · rename_i o outer houter
    have ho : o ∈ s.settle.outer := by
      rw [houter]
      exact List.mem_cons_self
    exact located_structural (hs.settle.outer o ho).2.1 _

end ParserState

end TwoWaySql.Template
