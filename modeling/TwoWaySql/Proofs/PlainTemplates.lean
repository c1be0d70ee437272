import TwoWaySql.Compiler
import TwoWaySql.Proofs.Elision
import TwoWaySql.Proofs.WrittenInFull

/-!
# Templates without directives

Without directives the parser never waits for a sample and opens no blocks, so all that it takes in
is plain (`isPlain_run`), and the tree of the template has no directives. Hence such a template is
built whatever the parameters are, and comes out as it is under the conditions under which its tree
keeps everything (`build_plain`).
-/

namespace TwoWaySql

namespace Template

open Template.Tree (Everywhere PlainItems everywhere_cons everywhere_leaf everywhere_singleton
  plainItems_append plainItems_cons plainItems_nil)

def Token.isDirective (t : Token) : Bool :=
  match t.kind with
  | .directive _ => true
  | _ => false

/-- A token that is no directive and has a text. -/
structure Token.IsPlain (t : Token) : Prop where
  isDirective_eq : Token.isDirective t = false
  text_ne_empty : t.text ≠ ""

theorem Token.IsPlain.kind_ne {t : Token} (h : Token.IsPlain t) (kind : DirectiveKind) :
    t.kind ≠ .directive kind := by
  intro hkind
  have hdirective := h.isDirective_eq
  rw [isDirective, hkind] at hdirective
  cases hdirective

/-! ## What is taken in -/

/-- An open clause or connector, with a keyword and plain trees in it. -/
def Frame.IsPlain : Frame → Prop
  | clause _ keyword ts | logical _ keyword ts => keyword ≠ "" ∧ PlainItems ts
  | _ => False

namespace Frame

variable {f : Frame} {t : Tree}

theorem IsPlain.add (h : f.IsPlain) (ht : PlainItems [t]) : (f.add t).IsPlain := by
  cases f with
  | clause | logical => exact ⟨h.1, plainItems_cons.mpr ⟨ht, h.2⟩⟩
  | _ => exact h.elim

theorem IsPlain.tree (h : f.IsPlain) : PlainItems [f.tree] := by
  cases f with
  | clause | logical =>
    have hbody := h.2.reverse
    exact ⟨everywhere_singleton.mpr ⟨⟨h.1, hbody.items⟩, hbody.plain⟩,
      List.forall_mem_singleton.mpr rfl⟩
  | _ => exact h.elim

end Frame

structure Level.IsPlain (l : Level) : Prop where
  left : ∀ left ∈ l.left?, left.keyword ≠ "" ∧ Everywhere Tree.IsPlain [left.tree]
  children : PlainItems l.children
  frames : ∀ f ∈ l.frames, f.IsPlain

namespace Level

variable {l : Level} {t : Tree}

theorem isPlain_start : Level.start.IsPlain := ⟨nofun, plainItems_nil, nofun⟩

theorem IsPlain.add (h : l.IsPlain) (ht : PlainItems [t]) : (l.add t).IsPlain := by
  unfold Level.add
  split
  · exact ⟨h.left, plainItems_cons.mpr ⟨ht, h.children⟩, h.frames⟩
  · rename_i f fs hframes
    have hfs := h.frames
    rw [hframes] at hfs
    obtain ⟨hf, hfs⟩ := List.forall_mem_cons.mp hfs
    exact ⟨h.left, h.children, List.forall_mem_cons.mpr ⟨hf.add ht, hfs⟩⟩

theorem IsPlain.openFrame {f : Frame} (h : l.IsPlain) (hf : f.IsPlain) :
    (l.openFrame f).IsPlain :=
  ⟨h.left, h.children, List.forall_mem_cons.mpr ⟨hf, h.frames⟩⟩

theorem IsPlain.complete (h : l.IsPlain) (p : Frame → Bool) : (l.complete p).IsPlain := by
  obtain ⟨htree, hframes⟩ := forall_completeWhile (p := p) plainItems_nil
    (fun _ _ hf ht => hf.add ht) (fun _ hf => hf.tree) h.frames
  exact ⟨h.left, plainItems_append.mpr ⟨htree, h.children⟩, hframes⟩

theorem IsPlain.tree (h : l.IsPlain) : Everywhere Tree.IsPlain [l.tree] := by
  have hright : Everywhere Tree.IsPlain [.statement l.children.reverse] :=
    everywhere_singleton.mpr ⟨h.children.reverse.items, h.children.reverse.plain⟩
  unfold Level.tree
  split
  · exact hright
  · rename_i left hleft
    obtain ⟨hkeyword, htree⟩ := h.left left hleft
    exact everywhere_singleton.mpr ⟨hkeyword, everywhere_cons.mpr ⟨htree, hright⟩⟩

theorem IsPlain.of_finish (h : l.IsPlain) (hfinish : l.finish = .ok t) :
    Everywhere Tree.IsPlain [t] := by
  obtain ⟨-, rfl⟩ := finish_eq_ok hfinish
  exact (h.complete _).tree

end Level

namespace ParserState

/-- Nothing but plain trees is in the state, and no directive waits for a sample. -/
structure IsPlain (s : ParserState) : Prop where
  level : s.level.IsPlain
  outer : ∀ o ∈ s.outer, o.level.IsPlain ∧ o.sampleOf? = none
  waiting : s.waiting? = none

variable {limit : Nat} {source : String} {s s' : ParserState} {t : Token}

theorem isPlain_start : start.IsPlain := ⟨Level.isPlain_start, nofun, rfl⟩

theorem IsPlain.settle_eq (h : s.IsPlain) : s.settle = s := by
  simp [settle, h.waiting]

theorem plainItems_leaf {tree : Tree} (ht : Token.IsPlain t)
    (h : Token.leaf? source t = some tree) : PlainItems [tree] := by
  have leaf {u : Tree} (hchildren : u.children = []) (hplain : u.IsPlain)
      (hitem : u.isOperation = false) : PlainItems [u] :=
    ⟨(everywhere_leaf hchildren).mpr hplain, List.forall_mem_singleton.mpr hitem⟩
  unfold Token.leaf? at h
  split at h
  · cases h; exact leaf rfl trivial rfl
  · cases h; exact leaf rfl trivial rfl
  · cases h; exact leaf rfl trivial rfl
  · cases h; exact leaf rfl trivial rfl
  · cases h; exact leaf rfl trivial rfl
  · exact absurd ‹_› (ht.kind_ne .embedded)
  · cases h

theorem isPlain_reads (hs : s.IsPlain) (ht : Token.IsPlain t) (h : Reads limit source s t s') :
    s'.IsPlain := by
  cases h with
  | leaf htree => exact ⟨hs.level.add (plainItems_leaf ht htree), hs.outer, hs.waiting⟩
  | openBracket =>
    exact ⟨Level.isPlain_start, List.forall_mem_cons.mpr ⟨⟨hs.level, rfl⟩, hs.outer⟩, rfl⟩
  | @closeBracket o outer inner _ houter hinner =>
    have hsuspended := hs.outer
    rw [houter] at hsuspended
    obtain ⟨⟨hlevel, hsample⟩, houter⟩ := List.forall_mem_cons.mp hsuspended
    have hgroup : PlainItems [o.tree inner] := by
      rw [Suspended.tree, hsample]
      exact ⟨everywhere_singleton.mpr ⟨trivial, hs.level.of_finish hinner⟩,
        List.forall_mem_singleton.mpr rfl⟩
    exact ⟨hlevel.add hgroup, houter, rfl⟩
  | clause =>
    exact ⟨(hs.level.complete _).openFrame ⟨ht.text_ne_empty, plainItems_nil⟩, hs.outer, hs.waiting⟩
  | connector =>
    exact ⟨(hs.level.complete _).openFrame ⟨ht.text_ne_empty, plainItems_nil⟩, hs.outer, hs.waiting⟩
  | @set op left _ hleft =>
    refine ⟨⟨fun operand hoperand => ?_, plainItems_nil, nofun⟩, hs.outer, hs.waiting⟩
    cases hoperand
    exact ⟨ht.text_ne_empty, hs.level.of_finish hleft⟩
  | wait hkind | ifBlock hkind | forBlock hkind | branch hkind | endBlock hkind =>
    exact absurd hkind (ht.kind_ne _)

theorem isPlain_step (hs : s.IsPlain) (ht : Token.IsPlain t) (hend : Token.isEnd t = false)
    (h : s.step limit source t = .ok s') : s'.IsPlain := by
  cases (step_eq_ok hend).mp h with
  | sample hwaiting | brackets hwaiting =>
    rw [hs.waiting] at hwaiting
    cases hwaiting
  | token _ _ hreads =>
    rw [hs.settle_eq] at hreads
    exact isPlain_reads hs ht hreads

/-- Plain tokens are taken in as plain trees. -/
theorem isPlain_run {ts : List Token} (hplain : ∀ t ∈ ts, Token.IsPlain t)
    (hend : ∀ t ∈ ts, Token.isEnd t = false) (hs : s.IsPlain)
    (h : s.run limit source ts = .ok s') : s'.IsPlain :=
  run_induction (motive := fun _ u => u.IsPlain) h hs
    fun _ _ t _ ht hstep hu => isPlain_step hu (hplain t ht) (hend t ht) hstep

end ParserState

/-! ## The text of a statement -/

/-- The template has no directive before its first semicolon. -/
def HasNoDirective (source : String) : Prop :=
  ∀ t ∈ statementTokens source, Token.isDirective t = false

instance (source : String) : Decidable (HasNoDirective source) :=
  inferInstanceAs (Decidable (∀ t ∈ statementTokens source, _))

/-- The template up to its first semicolon. -/
def statementText (source : String) : String :=
  String.join ((statementTokens source).map (·.text))

/-- Tokens before the end have a text. -/
theorem text_ne_empty_of_lexFrom (cs : List Char) (offset : Nat) :
    ∀ t ∈ (scanner.lexFrom () offset cs).tokens, Token.isEnd t = false → t.text ≠ "" :=
  forall_mem_lexFrom (fun _ hend => by cases hend)
    (fun c cs k n offset _ _ htext => by simpa using congrArg String.toList htext) cs offset

theorem isPlain_of_mem_statementTokens {source : String} (h : HasNoDirective source) {t : Token}
    (ht : t ∈ statementTokens source) : Token.IsPlain t :=
  ⟨h t ht, text_ne_empty_of_lexFrom source.toList 0 t ((List.takeWhile_prefix _).subset ht)
    (isEnd_of_mem_statementTokens ht)⟩

/-- After the tokens of the statement there is a semicolon or nothing. -/
theorem untilEnd_texts (cs : List Char) (offset : Nat)
    (hends : Ends (scanner.lexFrom () offset cs).tokens) :
    ∃ rest, cs = (untilEnd (scanner.lexFrom () offset cs).tokens).flatMap (·.text.toList) ++ rest ∧
      ∀ c ∈ rest.head?, c = ';' := by
  induction cs using lex_induction generalizing offset with
  | nil => exact ⟨[], by simp [lexFrom_nil, untilEnd, Token.isEnd], nofun⟩
  | error c cs cause h => simp [lexFrom_error h, Ends] at hends
  | token c cs k n h ih =>
    obtain ⟨hstop, hdelimiter, -⟩ := scan_start h
    rw [lexFrom_token h] at hends ⊢
    dsimp only at hends ⊢
    by_cases hk : k = .delimiter
    · obtain rfl := hdelimiter hk
      exact ⟨';' :: cs, by simp [untilEnd, Token.isEnd, hk], by simp⟩
    · have hend := isEnd_eq_false (t := ⟨k, String.ofList (c :: cs.take n), offset⟩) hstop hk
      obtain ⟨rest, htexts, hrest⟩ := ih _ (hends.tail hend)
      refine ⟨rest, ?_, hrest⟩
      rw [untilEnd_cons hend, List.flatMap_cons, String.toList_ofList, List.append_assoc, ← htexts,
        List.cons_append, List.take_append_drop]

theorem eq_statementText_append {source : String} (hends : Ends (lex source).tokens) :
    ∃ rest : String, source = statementText source ++ rest ∧ ∀ c ∈ rest.toList.head?, c = ';' := by
  obtain ⟨rest, htexts, hrest⟩ := untilEnd_texts source.toList 0 hends
  refine ⟨String.ofList rest, String.toList_injective ?_, by simpa using hrest⟩
  rw [String.toList_append, String.toList_ofList, statementText, String.toList_join,
    List.flatMap_map]
  exact htexts

theorem canonicalTemplate_eq {source : String} (h : HasNoDirective source) :
    canonicalTemplate source = statementText source := by
  unfold canonicalTemplate statementText
  congr 1
  refine List.map_congr_left fun t ht => ?_
  have hplain := isPlain_of_mem_statementTokens h ht
  rcases canonicalText_cases t with hsame | ⟨hkind, -⟩ | ⟨hkind, -⟩
  · exact hsame
  · exact absurd hkind (hplain.kind_ne _)
  · exact absurd hkind (hplain.kind_ne _)

/-- The tree of a template without directives has none. -/
theorem isPlain_of_parse {limit : Nat} {source : String} {tree : Tree}
    (hparse : parse limit source = .ok tree) (h : HasNoDirective source) :
    Everywhere Tree.IsPlain [tree] := by
  obtain ⟨-, s, hrun, hfinishes⟩ := parse_eq_ok_iff.mp hparse
  have hs := ParserState.isPlain_run (fun t ht => isPlain_of_mem_statementTokens h ht)
    (fun _ => isEnd_of_mem_statementTokens) ParserState.isPlain_start hrun
  have hfinish := hfinishes.finish_eq
  rw [hs.settle_eq] at hfinish
  exact hs.level.of_finish hfinish

end Template

open Template

/-- A template without directives is built whatever the parameters are, without values. It comes out
as it is, up to its first semicolon, if and only if every clause that may be left out has content in
its body and every connector has content before it in its scope. -/
theorem build_plain (c : Compiler) (template : String) (parameters : Scope) (tree : Tree)
    (hparse : Template.parse c.limit template = .ok tree) (hplain : HasNoDirective template) :
    ∃ s rest, (c.build none template parameters).result = .ok s ∧ s.values = [] ∧ s.log = s.text ∧
      template = statementText template ++ rest ∧ (∀ a ∈ rest.toList.head?, a = ';') ∧
      (s.text = statementText template ↔ tree.ClausesFilled ∧ tree.ConnectorsLed) := by
  obtain ⟨after, text, hrender, hs, -⟩ :=
    writesUpTo_renderTree c tree (isPlain_of_parse hparse hplain) false parameters
  obtain ⟨rest, htemplate, hrest⟩ := eq_statementText_append (parse_eq_ok_iff.mp hparse).1
  refine ⟨.ofOutput (.sql text), rest, ?_, rfl, rfl, htemplate, hrest, ?_⟩
  · rw [Compiler.build_result]
    exact bind_eq_ok.mpr ⟨tree, hparse, bind_eq_ok.mpr ⟨_, hrender, rfl⟩⟩
  · rw [← canonicalTemplate_eq hplain, ← template_of_parse hparse, ← Tree.keeps_iff]
    exact hs.eq_iff

/-- Brackets and operands are scopes of their own: content before brackets is not before a connector
in them. -/
theorem build_plain_brackets :
    (∃ tree s, Template.parse Compiler.standard.limit "where (a or b) and c union d;e" = .ok tree ∧
        (Compiler.standard.build none "where (a or b) and c union d;e" (.ofList [])).result =
          .ok s ∧
        s.text = "where (a or b) and c union d" ∧ tree.ClausesFilled ∧ tree.ConnectorsLed) ∧
      ∃ tree s, Template.parse Compiler.standard.limit "where a (and b)" = .ok tree ∧
        (Compiler.standard.build none "where a (and b)" (.ofList [])).result = .ok s ∧
        s.text = "where a ( b)" ∧ ¬(tree.ClausesFilled ∧ tree.ConnectorsLed) := by
  have parses (template : String)
      (h : (Template.parse Compiler.standard.limit template).toOption.isSome = true) :
      ∃ tree, Template.parse Compiler.standard.limit template = .ok tree := by
    cases hparse : Template.parse Compiler.standard.limit template with
    | error e => rw [hparse] at h; cases h
    | ok tree => exact ⟨tree, rfl⟩
  have writes {template text : String} {s : Statement}
      (h : (Compiler.standard.build none template (.ofList [])).result.toOption.map (·.text) =
        some text)
      (hs : (Compiler.standard.build none template (.ofList [])).result = .ok s) :
      s.text = text := by
    rw [hs] at h
    exact Option.some.inj h
  constructor
  · obtain ⟨tree, htree⟩ := parses "where (a or b) and c union d;e" (by decide +kernel)
    obtain ⟨s, -, hs, -, -, -, -, hiff⟩ :=
      build_plain Compiler.standard _ (.ofList []) tree htree (by decide +kernel)
    have htext : s.text = "where (a or b) and c union d" := writes (by decide +kernel) hs
    exact ⟨tree, s, htree, hs, htext, hiff.mp (htext.trans (by decide +kernel))⟩
  · obtain ⟨tree, htree⟩ := parses "where a (and b)" (by decide +kernel)
    obtain ⟨s, -, hs, -, -, -, -, hiff⟩ :=
      build_plain Compiler.standard _ (.ofList []) tree htree (by decide +kernel)
    have htext : s.text = "where a ( b)" := writes (by decide +kernel) hs
    refine ⟨tree, s, htree, hs, htext, fun hkeeps => ?_⟩
    have hall := htext.symm.trans (hiff.mpr hkeeps)
    exact absurd hall (by decide +kernel)

end TwoWaySql
