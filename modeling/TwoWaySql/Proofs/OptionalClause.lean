import TwoWaySql.Compiler
import TwoWaySql.Proofs.OptionalParsing

/-!
# Clauses with optional predicates

Without a predicate the body of a clause is laid out as blanks and comments, which start no clause
(`silent_layout`). So a clause with optional predicates, wherever it is in a template, is rendered
to nothing without a predicate, and else to its keyword and its body as laid out
(`render_optionalClause`).
-/

namespace TwoWaySql.Template

open Text

/-! ## Blanks and comments -/

/-- A text of blanks and comments. -/
inductive Silent : List Char → Prop where
  | nil : Silent []
  | token {c : Char} {cs : List Char} {k : TokenKind} {n : Nat} : scan c cs = .ok (k, n) →
      k = .blank ∨ k = .comment → Silent (cs.drop n) → Silent (c :: cs)

theorem Silent.find?_tokens {cs : List Char} (h : Silent cs) (offset : Nat) :
    ((scanner.lexFrom () offset cs).tokens.find?
      fun t => t.kind ≠ .blank ∧ t.kind ≠ .comment).all (·.kind = .stop) = true := by
  induction h generalizing offset with
  | nil =>
    rw [lexFrom_nil]
    rfl
  | token hscan hk _ ih =>
    rw [lexFrom_token hscan]
    rcases hk with rfl | rfl <;> simpa using ih _

theorem Silent.startsWithClause_eq_false {text : String} (h : Silent text.toList) :
    startsWithClause text = false := by
  have hfind := h.find?_tokens 0
  unfold startsWithClause lex
  split
  · rename_i t ht
    rw [ht] at hfind
    have ht : t.kind = .stop := by simpa using hfind
    rw [ht]
  · rfl

theorem Silent.cons {c : Char} {cs : List Char} (hc : isBlank c = true) (h : Silent cs) :
    Silent (c :: cs) := by
  have hscan : scan c cs = .ok (.blank, runLength isBlank cs) := scan_of_scanRule (.blank hc)
  refine .token hscan (.inl rfl) ?_
  cases h with
  | nil => exact .nil
  | @token d cs k n hd hk hrest =>
    by_cases hblank : isBlank d = true
    · -- the blanks of both are one token
      have hdscan : scan d cs = .ok (.blank, runLength isBlank cs) :=
        scan_of_scanRule (.blank hblank)
      obtain ⟨-, rfl⟩ := Prod.mk.inj (Except.ok.inj (hd.symm.trans hdscan))
      simpa [runLength, hblank] using hrest
    · have hnone : runLength isBlank (d :: cs) = 0 := by simp [runLength, hblank]
      rw [hnone]
      exact .token hd hk hrest

theorem Silent.blanks {a cs : List Char} (ha : ∀ c ∈ a, isBlank c = true) (h : Silent cs) :
    Silent (a ++ cs) := by
  induction a with
  | nil => exact h
  | cons c a ih =>
    obtain ⟨hc, ha⟩ := List.forall_mem_cons.mp ha
    exact .cons hc (ih ha)

/-- A comment that is read before `rest` is one before other text, unless it needs the end of the
line and `rest` starts with that. -/
theorem Silent.comment {c : Char} {a rest cs : List Char}
    (hscan : scan c (a ++ rest) = .ok (.comment, a.length))
    (hline : (∀ d ∈ rest.head?, d = '\n') → ∀ d ∈ cs.head?, d = '\n') (h : Silent cs) :
    Silent (c :: (a ++ cs)) := by
  refine .token (k := .comment) (n := a.length) ?_ (.inr rfl) (by rwa [List.drop_left])
  rcases scan_comment hscan with ⟨rfl, hhead, hlength⟩ | ⟨rfl, hhead, hcomment⟩
  · have hrest : ∀ d ∈ rest.head?, d = '\n' := by
      simpa using head?_of_runLength_append hlength.symm
    have hcs := hline hrest
    have hdash {text : List Char} (htext : ∀ d ∈ text.head?, d = '\n') :
        ∀ d ∈ text.head?, d ≠ '-' := by
      intro d hd
      rw [htext d hd]
      decide
    rw [head?_append_eq_some (hdash hrest), ← head?_append_eq_some (hdash hcs)] at hhead
    rw [runLength_append (by simpa using hrest),
      ← runLength_append (r := cs) (by simpa using hcs)] at hlength
    rw [hlength]
    exact scan_of_scanRule (.lineComment rfl hhead)
  · obtain ⟨m, -, hm, -⟩ := scanComment_eq_ok hcomment
    cases a with
    | nil => cases hm
    | cons e b =>
      exact scan_of_scanRule (.comment rfl hhead (scanComment_append cs hcomment (Nat.le_refl _)))

/-! ## Bodies without a predicate -/

section Layout

variable {r : Renderer} {limit : Nat} {source : String} {scope : Scope}

theorem mem_of_firstOf {cs : List (Directive × Choice)} {otherwise c : Choice}
    (h : firstOf r scope cs otherwise = .ok c) : c = otherwise ∨ c ∈ cs.map (·.2) := by
  induction cs with
  | nil =>
    cases h
    exact .inl rfl
  | cons e cs ih =>
    obtain ⟨holds, -, h⟩ := bind_eq_ok.mp h
    cases holds with
    | true =>
      cases h
      exact .inr List.mem_cons_self
    | false => exact (ih h).imp_right (List.mem_cons_of_mem _)

/-- The branch taken is one of the block, or empty. -/
theorem mem_tokens_of_selected {b : OptionalBlock} {c : Choice} {t : Token}
    (h : b.selected r source scope = .ok c) (ht : t ∈ c.tokens) : t ∈ b.tokens := by
  obtain ⟨test, body, elseifs, else?, ending⟩ := b
  simp only [OptionalBlock.tokens, List.mem_append, List.mem_cons, List.mem_flatMap]
  rcases mem_of_firstOf h with rfl | hc
  · cases else? with
    | none => cases ht
    | some e => simp [show t ∈ e.2.tokens from ht]
  · rcases List.mem_cons.mp hc with rfl | hc
    · simp [ht]
    · rw [List.map_map] at hc
      obtain ⟨e, he, rfl⟩ := List.mem_map.mp hc
      exact .inl (.inl (.inr ⟨e, he, .inr ht⟩))

theorem isBlank_of_mem_blankText {ts : List (TokenOf .blank)}
    (h : ∀ t ∈ ts, ∀ c ∈ t.1.text.toList, isBlank c = true) :
    ∀ c ∈ (blankText ts).toList, isBlank c = true := by
  induction ts with
  | nil => simp [blankText]
  | cons t ts ih =>
    obtain ⟨ht, hts⟩ := List.forall_mem_cons.mp h
    intro c hc
    rw [blankText, List.map_cons, String.join_cons, String.toList_append, List.mem_append] at hc
    exact hc.elim (ht c) (ih hts c)

/-- Without a predicate a body is laid out as blanks and comments. It starts with the end of a line
if its tokens do. -/
theorem silent_layout {parts : List OptionalPart} {post : List Token} {offset : Nat}
    {cs : List Char} {started : Bool} {o : Output}
    (htokens : (scanner.lexFrom () offset cs).tokens = parts.flatMap (·.tokens) ++ post)
    (hend : ∀ t ∈ parts.flatMap (·.tokens), Token.isEnd t = false)
    (h : layout r limit source scope started parts = .ok ([], o)) :
    Silent o.text.toList ∧
      ((∀ c ∈ cs.head?, c = '\n') → ∀ c ∈ o.text.toList.head?, c = '\n') := by
  induction parts generalizing offset cs o with
  | nil =>
    cases h
    exact ⟨.nil, by simp⟩
  | cons part parts ih =>
    rw [List.flatMap_cons, List.append_assoc] at htokens
    rw [List.flatMap_cons, List.forall_mem_append] at hend
    have hpart {t : Token} (ht : t ∈ part.tokens) :
        t ∈ (scanner.lexFrom () offset cs).tokens := by
      rw [htokens]
      exact List.mem_append_left _ ht
    obtain ⟨offset', rest, hrest⟩ := lexFrom_eq_append htokens hend.1
    cases part with
    | blank t =>
      obtain ⟨c, a, rest, rfl, htext, -, hrest⟩ := lexFrom_eq_cons htokens (hend.1 _ (.head _))
      obtain ⟨⟨ps, o'⟩, hlayout, h⟩ := bind_eq_ok.mp h
      cases h
      obtain ⟨hsilent, -⟩ := ih hrest hend.2 hlayout
      refine ⟨?_, by simp [Output.sql, htext]⟩
      rw [Output.text_append, String.toList_append]
      exact .blanks (isBlank_of_mem_text (hpart (.head _)) t.2) hsilent
    | comment t =>
      obtain ⟨c, a, rest, rfl, htext, hscan, hrest⟩ := lexFrom_eq_cons htokens (hend.1 _ (.head _))
      obtain ⟨⟨ps, o'⟩, hlayout, h⟩ := bind_eq_ok.mp h
      cases h
      obtain ⟨hsilent, hline⟩ := ih hrest hend.2 hlayout
      refine ⟨?_, by simp [Output.sql, htext]⟩
      rw [t.2] at hscan
      simpa [Output.sql, htext] using Silent.comment hscan hline hsilent
    | block b =>
      obtain ⟨chosen, hselected, h⟩ := bind_eq_ok.mp h
      obtain ⟨c, a, rest', rfl, -, hscan, -⟩ := lexFrom_eq_cons htokens (hend.1 _ (.head _))
      have hslash : c = '/' := (scan_start hscan).2.2.1 _ b.test.2
      refine ⟨?_, by simp [hslash]⟩
      cases chosen with
      | blank ts =>
        obtain ⟨⟨ps, o'⟩, hlayout, h⟩ := bind_eq_ok.mp h
        cases h
        rw [Output.text_append, String.toList_append]
        refine .blanks (isBlank_of_mem_blankText fun t ht => ?_) (ih hrest hend.2 hlayout).1
        have htokens := mem_tokens_of_selected hselected (List.mem_map_of_mem ht)
        exact isBlank_of_mem_text (hpart htokens) t.2
      | predicate p =>
        obtain ⟨own, -, h⟩ := bind_eq_ok.mp h
        obtain ⟨⟨ps, o'⟩, -, h⟩ := bind_eq_ok.mp h
        cases h

end Layout

/-! ## Clauses of a template -/

theorem startsWithClause_layout {r : Renderer} {limit : Nat} {source : String} {scope : Scope}
    {c : OptionalClause} {pre post : List Token} {o : Output}
    (htokens : statementTokens source = pre ++ c.tokens ++ post)
    (h : layout r limit source scope false c.parts = .ok ([], o)) :
    startsWithClause o.text = false := by
  have hend : ∀ t ∈ statementTokens source, Token.isEnd t = false :=
    fun _ => isEnd_of_mem_statementTokens
  have hlex : (scanner.lexFrom () 0 source.toList).tokens = statementTokens source ++
      (lex source).tokens.dropWhile fun t => !Token.isEnd t :=
    List.takeWhile_append_dropWhile.symm
  -- the clause is read up to its keyword, and then its body
  have hbody : statementTokens source =
      (pre ++ [c.keyword.1]) ++ (c.parts.flatMap (·.tokens) ++ post) := by
    rw [htokens, OptionalClause.tokens]
    simp
  rw [hbody, List.append_assoc, List.append_assoc _ post] at hlex
  rw [hbody] at hend
  simp only [List.mem_append] at hend
  obtain ⟨offset, rest, hrest⟩ := lexFrom_eq_append hlex fun t ht =>
    hend t (.inl (List.mem_append.mp ht))
  have hsilent := silent_layout hrest (fun t ht => hend t (.inr (.inl ht))) h
  exact hsilent.1.startsWithClause_eq_false

/-- A clause with optional predicates, wherever it is in a template, is rendered to nothing without
a predicate, and else to its keyword and its body as laid out. -/
theorem render_optionalClause {limit : Nat} {source : String} {tree : Tree} {c : OptionalClause}
    {pre post : List Token} (hparse : parse limit source = .ok tree)
    (htokens : statementTokens source = pre ++ c.tokens ++ post)
    (hpost : ∀ t ∈ post.head?, Token.endsClause t = true) :
    (c.tree limit source).Within tree ∧
      ∀ (r : Renderer) (available : Bool) (scope : Scope) (x : Rendered),
        r.renderTree (c.tree limit source) available scope = .ok x →
        ∃ ps o, layout r limit source scope false c.parts = .ok (ps, o) ∧
          x.output = if ps.isEmpty then .empty else .sql c.keyword.1.text ++ o := by
  refine ⟨within_of_parse hparse htokens hpost, fun r available scope x hx => ?_⟩
  obtain ⟨ps, o, hlayout, houtput⟩ := renderTree_optional r c hx
  refine ⟨ps, o, hlayout, ?_⟩
  cases ps with
  | cons p ps => exact houtput
  | nil =>
    rw [houtput, startsWithClause_layout htokens hlayout]
    rfl

/-- Two predicates, of which the second has a bind directive with a sample. -/
def twoOptions : OptionalClause where
  kind := .filter
  isAlwaysWritten_eq := rfl
  keyword := ⟨⟨.clause .filter, "where", 2⟩, rfl⟩
  parts :=
    [.block
      { test := ⟨⟨.directive .ifBranch, "/*%if x*/", 7⟩, rfl⟩
        body := .predicate
          { lead := [⟨⟨.blank, " ", 16⟩, rfl⟩]
            connective? := some ⟨.and, ⟨⟨.connector .and, "and", 17⟩, rfl⟩⟩
            items := [.blank ⟨⟨.blank, " ", 20⟩, rfl⟩, .word ⟨⟨.word, "b", 21⟩, rfl⟩]
            hasContent := rfl }
        elseifs := []
        else? := none
        ending := ⟨⟨.directive .blockEnd, "/*%end*/", 22⟩, rfl⟩ },
    .block
      { test := ⟨⟨.directive .ifBranch, "/*%if y*/", 30⟩, rfl⟩
        body := .predicate
          { lead := [⟨⟨.blank, " ", 39⟩, rfl⟩]
            connective? := some ⟨.or, ⟨⟨.connector .or, "or", 40⟩, rfl⟩⟩
            items := [.blank ⟨⟨.blank, " ", 42⟩, rfl⟩, .word ⟨⟨.word, "c", 43⟩, rfl⟩,
              .other ⟨⟨.other, "=", 44⟩, rfl⟩, .bind ⟨⟨.directive .bind, "/*y*/", 45⟩, rfl⟩,
              .word ⟨⟨.word, "2", 50⟩, rfl⟩]
            hasContent := rfl }
        elseifs := []
        else? := none
        ending := ⟨⟨.directive .blockEnd, "/*%end*/", 51⟩, rfl⟩ }]

/-- The connector of the first predicate that is written is left out. -/
theorem render_optionalClause_twoOptions :
    ∃ tree, parse 8 "a where/*%if x*/ and b/*%end*//*%if y*/ or c=/*y*/2/*%end*/" = .ok tree ∧
      (twoOptions.tree 8
        "a where/*%if x*/ and b/*%end*//*%if y*/ or c=/*y*/2/*%end*/").Within tree ∧
      ∃ x, Compiler.standard.renderTree (twoOptions.tree 8
          "a where/*%if x*/ and b/*%end*//*%if y*/ or c=/*y*/2/*%end*/") false
          (.ofList [("x", .of (.bool false)), ("y", .of (.bool true))]) = .ok x ∧
        x.output.text = "where  c=?" ∧
        ∃ ps o, layout Compiler.standard 8
            "a where/*%if x*/ and b/*%end*//*%if y*/ or c=/*y*/2/*%end*/"
            (.ofList [("x", .of (.bool false)), ("y", .of (.bool true))]) false twoOptions.parts =
              .ok (ps, o) ∧
          x.output = if ps.isEmpty then .empty else .sql "where" ++ o := by
  have htree : (parse 8
      "a where/*%if x*/ and b/*%end*//*%if y*/ or c=/*y*/2/*%end*/").toOption.map (·.template) =
      some "a where/*%if x*/ and b/*%end*//*%if y*/ or c=/*y*/2/*%end*/" := by
    decide +kernel
  have htext : (Compiler.standard.renderTree (twoOptions.tree 8
      "a where/*%if x*/ and b/*%end*//*%if y*/ or c=/*y*/2/*%end*/") false
      (.ofList [("x", .of (.bool false)), ("y", .of (.bool true))])).toOption.map (·.output.text) =
      some "where  c=?" := by
    decide +kernel
  have htokens : statementTokens "a where/*%if x*/ and b/*%end*//*%if y*/ or c=/*y*/2/*%end*/" =
      [⟨.word, "a", 0⟩, ⟨.blank, " ", 1⟩] ++ twoOptions.tokens ++ [] := by
    decide +kernel
  obtain ⟨tree, htree, -⟩ := exists_ok_of_map htree
  obtain ⟨x, hx, htext⟩ := exists_ok_of_map htext
  obtain ⟨hwithin, hrender⟩ := render_optionalClause htree htokens nofun
  exact ⟨tree, htree, hwithin, x, hx, htext, hrender _ _ _ _ hx⟩

end TwoWaySql.Template
