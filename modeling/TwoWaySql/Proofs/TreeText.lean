import TwoWaySql.Proofs.Parsing

/-!
# Trees written as templates again

What a parser state has taken in has a text: that of the complete trees, of the constructs open
around them and of the directive that waits. A step appends the text of its token, in canonical
form, so a tree is written as the tokens it was parsed from (`template_of_parse`).
-/

namespace TwoWaySql.Template

namespace Tree

theorem templates_append (ts us : List Tree) :
    templates (ts ++ us) = templates ts ++ templates us := by
  induction ts with
  | nil => simp [templates]
  | cons t ts ih => simp [templates, ih, String.append_assoc]

theorem templates_reverse_cons (t : Tree) (ts : List Tree) :
    templates (t :: ts).reverse = templates ts.reverse ++ t.template := by
  simp [templates_append, templates]

theorem branchTemplates_append (bs cs : List (Directive × List Tree)) :
    branchTemplates (bs ++ cs) = branchTemplates bs ++ branchTemplates cs := by
  induction bs with
  | nil => simp [branchTemplates]
  | cons b bs ih => simp [branchTemplates, ih, String.append_assoc]

end Tree

open Template.Tree (templates branchTemplates)

/-- Brackets are written as such. -/
def Token.Spelled (t : Token) : Prop :=
  (t.kind = .openBracket → t.text = "(") ∧ (t.kind = .closeBracket → t.text = ")")

/-! ## The text taken in -/

namespace Frame

/-- The text of an open construct so far. -/
def text : Frame → String
  | clause _ keyword ts => keyword ++ templates ts.reverse
  | logical _ keyword ts => keyword ++ templates ts.reverse
  | ifBlock test ts => test.text ++ templates ts.reverse
  | elseifBlock test body bs d ts =>
    test.text ++ templates body ++ branchTemplates bs.reverse ++ (d.text ++ templates ts.reverse)
  | elseBlock test body bs ts =>
    test.text ++ templates body ++ branchTemplates bs.reverse ++
      ("/*%else*/" ++ templates ts.reverse)
  | forBlock d _ _ ts => d.text ++ templates ts.reverse

/-- What ends a construct that needs an end. -/
def ending (f : Frame) : String := if f.isClauseOrLogical then "" else "/*%end*/"

theorem text_add (t : Tree) (f : Frame) : (f.add t).text = f.text ++ t.template := by
  cases f <;> simp only [add, text, Tree.templates_reverse_cons, String.append_assoc]

theorem template_tree (f : Frame) : f.tree.template = f.text ++ f.ending := by
  cases f <;>
    simp [tree, Tree.template, text, ending, isClauseOrLogical, Tree.branchTemplates_append,
      Tree.branchTemplates, Tree.elseTemplate, String.append_assoc]

theorem text_branch {kind : DirectiveKind} (d test : Directive) (body : List Tree)
    (bs : List (Directive × List Tree)) :
    (branch kind d test body bs).text = test.text ++ templates body ++ branchTemplates bs.reverse ++
      if kind = .elseBranch then "/*%else*/" else d.text := by
  unfold branch
  split <;> simp [text, templates]

theorem text_nextBranch? {kind : DirectiveKind} {d : Directive} {f f' : Frame}
    (h : f.nextBranch? kind d = some f') :
    f'.text = f.text ++ if kind = .elseBranch then "/*%else*/" else d.text := by
  unfold nextBranch? at h
  split at h
  · cases h
    rw [text_branch]
    simp [text, branchTemplates]
  · cases h
    rw [text_branch]
    simp [text, branchTemplates, Tree.branchTemplates_append, String.append_assoc]
  · cases h

theorem isClauseOrLogical_of_isLogical {f : Frame} (h : f.isLogical = true) :
    f.isClauseOrLogical = true := by
  cases f <;> first | rfl | cases h

theorem isClauseOrLogical_of_opening? {f : Frame} (h : f.opening? = none) :
    f.isClauseOrLogical = true := by
  cases f <;> first | rfl | cases h

end Frame

/-- The text of open constructs, the innermost first. -/
def framesText : List Frame → String
  | [] => ""
  | f :: fs => framesText fs ++ f.text

/-- Completing clauses and connectors writes nothing. -/
theorem text_completeWhile {p : Frame → Bool} (hp : ∀ f, p f = true → f.isClauseOrLogical = true)
    (t? : Option Tree) (fs : List Frame) :
    templates (completeWhile p t? fs).1.toList ++ framesText (completeWhile p t? fs).2 =
      framesText fs ++ templates t?.toList := by
  induction fs generalizing t? with
  | nil => simp [completeWhile, framesText]
  | cons f fs ih =>
    have hadd : (t?.elim f f.add).text = f.text ++ templates t?.toList := by
      cases t? <;> simp [templates, Frame.text_add]
    simp only [completeWhile]
    split
    · rename_i h
      rw [ih]
      simp [templates, Frame.template_tree, Frame.ending, hp _ h, hadd, framesText,
        String.append_assoc]
    · simp [templates, framesText, hadd, String.append_assoc]

/-- No frame is left to which `p` applies. -/
theorem completeWhile_head {p : Frame → Bool} {t? : Option Tree} {fs : List Frame} {f : Frame}
    (h : (completeWhile p t? fs).2.head? = some f) : p f = false := by
  induction fs generalizing t? with
  | nil => cases h
  | cons g fs ih =>
    simp only [completeWhile] at h
    split at h
    · exact ih h
    · rename_i hp
      cases h
      simpa using hp

namespace Level

def text (l : Level) : String :=
  l.left?.elim "" (fun left => left.tree.template ++ left.keyword) ++
    templates l.children.reverse ++ framesText l.frames

theorem text_add (t : Tree) (l : Level) : (l.add t).text = l.text ++ t.template := by
  unfold add
  split
  · rename_i h
    simp only [text, h, framesText, Tree.templates_reverse_cons, String.append_assoc,
      String.append_empty]
  · rename_i f fs h
    simp only [text, h, framesText, Frame.text_add, String.append_assoc]

theorem text_openFrame (f : Frame) (l : Level) : (l.openFrame f).text = l.text ++ f.text := by
  simp only [openFrame, text, framesText, String.append_assoc]

theorem text_complete {p : Frame → Bool} (hp : ∀ f, p f = true → f.isClauseOrLogical = true)
    (l : Level) : (l.complete p).text = l.text := by
  have h := text_completeWhile hp none l.frames
  simp only [complete, text]
  generalize completeWhile p none l.frames = completed at h ⊢
  obtain ⟨t?, fs⟩ := completed
  cases t? with
  | none => simpa [templates] using h
  | some t =>
    simp only [Option.toList_some, List.singleton_append, Tree.templates_reverse_cons]
    simp only [Option.toList_some, templates, Option.toList_none, String.append_empty] at h
    rw [String.append_assoc, String.append_assoc, h, String.append_assoc]

theorem text_settled (l : Level) : l.settled.text = l.text := text_complete (fun _ h => h) l

theorem template_tree {l : Level} (h : l.frames = []) : l.tree.template = l.text := by
  unfold tree text
  cases l.left? with
  | none => simp [Tree.template, h, framesText]
  | some left => simp [Tree.template, h, framesText, String.append_assoc]

/-- A level that is finished has no construct open. -/
theorem finish_eq_ok {l : Level} {tree : Tree} (h : l.finish = .ok tree) :
    l.settled.frames = [] ∧ tree = l.settled.tree := by
  rw [finish_eq] at h
  split at h
  · cases h
  · rename_i hopening
    refine ⟨?_, (Except.ok.inj h).symm⟩
    cases hhead : l.settled.frames.head? with
    | none => exact List.head?_eq_none_iff.mp hhead
    | some f =>
      rw [hhead] at hopening
      have hblock : f.isClauseOrLogical = false := completeWhile_head hhead
      rw [Frame.isClauseOrLogical_of_opening? hopening] at hblock
      cases hblock

theorem template_of_finish {l : Level} {tree : Tree} (h : l.finish = .ok tree) :
    tree.template = l.text := by
  obtain ⟨hframes, rfl⟩ := finish_eq_ok h
  rw [template_tree hframes, text_settled]

end Level

theorem Waiting.template_tree (w : Waiting) (sample? : Option Tree) :
    (w.tree sample?).template = w.directive.text ++ templates sample?.toList := by
  unfold Waiting.tree
  split <;> cases sample? <;> simp [Tree.template, Tree.sampleTemplate, templates]

/-- A sample is written as its token. -/
theorem Waiting.template_sample {w : Waiting} {t : Token} {tree : Tree}
    (h : w.sample? t = some tree) :
    tree.template = t.text ∧ Token.canonicalText t = t.text := by
  unfold Waiting.sample? at h
  split at h <;> rename_i hkind
  · cases h; exact ⟨rfl, by simp [Token.canonicalText, hkind]⟩
  · cases h; exact ⟨rfl, by simp [Token.canonicalText, hkind]⟩
  · cases h; exact ⟨rfl, by simp [Token.canonicalText, hkind]⟩
  · cases h; exact ⟨rfl, by simp [Token.canonicalText, hkind]⟩
  · split at h
    · cases h; exact ⟨rfl, by simp [Token.canonicalText, hkind]⟩
    · cases h
  · cases h

/-- The directive whose sample is a group, or nothing. -/
def sampleText (w? : Option Waiting) : String := w?.elim "" fun w => w.directive.text

def Suspended.text (o : Suspended) : String := o.level.text ++ sampleText o.sampleOf? ++ "("

theorem Suspended.template_tree (o : Suspended) (inner : Tree) :
    (o.tree inner).template = sampleText o.sampleOf? ++ "(" ++ inner.template ++ ")" := by
  unfold Suspended.tree
  split <;> rename_i h
  · simp [h, sampleText, Tree.template]
  · simp [h, sampleText, Tree.template, Waiting.template_tree, templates, String.append_assoc]

/-- The text of suspended levels, the innermost first. -/
def outerText : List Suspended → String
  | [] => ""
  | o :: os => outerText os ++ o.text

namespace ParserState

def text (s : ParserState) : String := outerText s.outer ++ s.level.text ++ sampleText s.waiting?

variable {limit : Nat} {source : String} {s s' : ParserState} {t : Token}

theorem text_settle (s : ParserState) : s.settle.text = s.text := by
  unfold settle
  split <;> rename_i h
  · rfl
  · simp [text, add, h, sampleText, Level.text_add, Waiting.template_tree, templates,
      String.append_assoc]


/-- Without a directive that waits there is only the text of the levels. -/
theorem text_settled (level : Level) (outer : List Suspended) :
    text ⟨level, outer, none⟩ = outerText outer ++ level.text := by
  simp [text, sampleText]

theorem template_leaf? {tree : Tree} (h : Token.leaf? source t = some tree) :
    tree.template = Token.canonicalText t := by
  unfold Token.leaf? at h
  split at h <;> rename_i hkind
  · cases h; simp [Tree.template, Token.canonicalText, hkind]
  · cases h; simp [Tree.template, Token.canonicalText, hkind]
  · cases h; simp [Tree.template, Token.canonicalText, hkind]
  · cases h; simp [Tree.template, Token.canonicalText, hkind]
  · cases h; simp [Tree.template, Token.canonicalText, hkind]
  · cases h; simp [Tree.template, Token.canonicalText, hkind, Token.directive]
  · cases h

theorem text_reads {level : Level} {outer : List Suspended} (ht : Token.Spelled t)
    (h : Reads limit source ⟨level, outer, none⟩ t s') :
    s'.text = outerText outer ++ level.text ++ Token.canonicalText t := by
  cases h with
  | leaf htree =>
    rw [← template_leaf? htree]
    simp only [add, text_settled, Level.text_add, String.append_assoc]
  | @wait d kind hkind hsample =>
    have hsame : Token.canonicalText t = t.text := by
      cases d with
      | bind | literal | expand => simp [Token.canonicalText, hkind]
      | _ => cases hsample
    simp [text, sampleText, Token.directive, hsame]
  | openBracket hkind =>
    have hsame : Token.canonicalText t = "(" := by simp [Token.canonicalText, hkind, ht.1 hkind]
    simp [text_settled, hsame, outerText, Suspended.text, sampleText, Level.start, Level.text,
      templates, framesText, String.append_assoc]
  | closeBracket hkind houter hinner =>
    have hsame : Token.canonicalText t = ")" := by simp [Token.canonicalText, hkind, ht.2 hkind]
    obtain rfl := houter
    simp only [text_settled, hsame, outerText, Suspended.text, Level.text_add,
      Suspended.template_tree, Level.template_of_finish hinner, String.append_assoc]
  | clause hkind =>
    have hsame : Token.canonicalText t = t.text := by simp [Token.canonicalText, hkind]
    simp [text_settled, hsame, Level.text_openFrame, Level.text_settled, Frame.text, templates,
      String.append_assoc]
  | connector hkind =>
    have hsame : Token.canonicalText t = t.text := by simp [Token.canonicalText, hkind]
    have hlevel := level.text_complete fun _ => Frame.isClauseOrLogical_of_isLogical
    simp [text_settled, hsame, Level.text_openFrame, hlevel, Frame.text, templates,
      String.append_assoc]
  | set hkind hleft =>
    have hsame : Token.canonicalText t = t.text := by simp [Token.canonicalText, hkind]
    rw [text_settled, hsame, ← Level.template_of_finish hleft]
    simp [Level.text, templates, framesText, String.append_assoc]
  | ifBlock hkind =>
    have hsame : Token.canonicalText t = t.text := by simp [Token.canonicalText, hkind]
    simp [text_settled, hsame, openFrame, Level.text_openFrame, Frame.text, templates,
      Token.directive, String.append_assoc]
  | forBlock hkind =>
    have hsame : Token.canonicalText t = t.text := by simp [Token.canonicalText, hkind]
    simp [text_settled, hsame, openFrame, Level.text_openFrame, Frame.text, templates,
      Token.directive, String.append_assoc]
  | @branch kind f f' fs hkind hbranch hframes hf =>
    have hsame : Token.canonicalText t =
        if kind = .elseBranch then "/*%else*/" else (Token.directive source t).text := by
      rcases hbranch with rfl | rfl <;> simp [Token.canonicalText, hkind, Token.directive]
    rw [text_settled, hsame, ← level.text_settled]
    simp [Level.text, hframes, framesText, Frame.text_nextBranch? hf, String.append_assoc]
  | @endBlock f fs hkind hframes =>
    have hblock : f.isClauseOrLogical = false :=
      completeWhile_head (show level.settled.frames.head? = some f by rw [hframes]; rfl)
    have hsame : Token.canonicalText t = f.ending := by
      simp [Token.canonicalText, hkind, Frame.ending, hblock]
    rw [text_settled, hsame, ← level.text_settled, Level.text_add, Frame.template_tree]
    simp [Level.text, hframes, framesText, String.append_assoc]

/-- A step takes in its token. -/
theorem text_step (ht : Token.Spelled t) (hend : Token.isEnd t = false)
    (h : s.step limit source t = .ok s') : s'.text = s.text ++ Token.canonicalText t := by
  cases (step_eq_ok hend).mp h with
  | @sample w sample hwaiting hsample =>
    obtain ⟨htree, hsame⟩ := Waiting.template_sample hsample
    simp [text, add, hwaiting, sampleText, Level.text_add, Waiting.template_tree, templates, htree,
      hsame, String.append_assoc]
  | @brackets w hwaiting hkind =>
    have hsame : Token.canonicalText t = "(" := by simp [Token.canonicalText, hkind, ht.1 hkind]
    simp [text, hwaiting, hsame, outerText, Suspended.text, sampleText, Level.start, Level.text,
      templates, framesText, String.append_assoc]
  | token _ _ hreads =>
    rw [settle_eq] at hreads
    rw [text_reads ht hreads, ← text_settled, ← settle_eq, text_settle]

theorem template_of_finishes {tree : Tree} (h : s.Finishes limit tree) :
    tree.template = s.text := by
  rw [Level.template_of_finish h.finish_eq, ← text_settle, settle_eq, text_settled, h.outer_eq]
  simp [outerText]

/-- A run takes in its tokens. -/
theorem text_run {ts : List Token} (hspelled : ∀ t ∈ ts, Token.Spelled t)
    (hend : ∀ t ∈ ts, Token.isEnd t = false) (h : s.run limit source ts = .ok s') :
    s'.text = s.text ++ String.join (ts.map Token.canonicalText) := by
  refine run_induction
    (motive := fun us u => u.text = s.text ++ String.join (us.map Token.canonicalText))
    h (by simp) fun us u t u' ht hstep hu => ?_
  rw [text_step (hspelled t ht) (hend t ht) hstep, hu]
  simp [String.append_assoc]

end ParserState

/-! ## Templates -/

theorem spelled_of_scan {c : Char} {cs : List Char} {k : TokenKind} {n offset : Nat}
    (h : scan c cs = .ok (k, n)) :
    Token.Spelled ⟨k, String.ofList (c :: cs.take n), offset⟩ := by
  obtain ⟨-, -, -, hopen, hclose⟩ := scan_start h
  constructor
  · intro hk
    obtain ⟨rfl, rfl⟩ := hopen hk
    rfl
  · intro hk
    obtain ⟨rfl, rfl⟩ := hclose hk
    rfl

theorem spelled_of_lexFrom (cs : List Char) (offset : Nat) :
    ∀ t ∈ (scanner.lexFrom () offset cs).tokens, Token.Spelled t :=
  forall_mem_lexFrom (fun _ => ⟨nofun, nofun⟩) (fun _ _ _ _ _ => spelled_of_scan) cs offset

/-- A tree is written as the tokens before the end of its statement. -/
theorem template_of_parse {limit : Nat} {source : String} {tree : Tree}
    (h : parse limit source = .ok tree) : tree.template = canonicalTemplate source := by
  obtain ⟨-, s, hrun, hfinishes⟩ := parse_eq_ok_iff.mp h
  have hspelled : ∀ t ∈ statementTokens source, Token.Spelled t := fun t ht =>
    spelled_of_lexFrom source.toList 0 t ((List.takeWhile_prefix _).subset ht)
  rw [ParserState.template_of_finishes hfinishes,
    ParserState.text_run hspelled (fun _ => isEnd_of_mem_statementTokens) hrun]
  simp [ParserState.start, ParserState.text, outerText, sampleText, Level.start, Level.text,
    templates, framesText, canonicalTemplate]

end TwoWaySql.Template
