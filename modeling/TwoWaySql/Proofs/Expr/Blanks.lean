import TwoWaySql.Proofs.Expr.Boundaries
import TwoWaySql.Proofs.Expr.Places
import TwoWaySql.Proofs.Expr.Reading
import TwoWaySql.Proofs.Spans

/-!
# Blanks between the tokens of an expression

Where a token ends, a blank may follow as well, and blanks before a token are not part of it. So
blanks make no difference between two tokens, at the start or at the end of an expression, but for
the place after the name of a function (`parse_blanks`).
-/

namespace TwoWaySql.Expr

open Text (isBlank isIdentifierPart isIdentifierPart_of_isBlank)

variable {a rest text blanks : List Char} {b b' b'' : Bool} {c : Char} {k : TokenKind} {n : Nat}
  {ts us : List Token}

/-! ## Single tokens -/

/-- A blank starts a token of blanks wherever it stands. -/
theorem scan_blank (hc : isBlank c = true) :
    scan b c a = .token .blank (runLength isBlank a) b := by
  rw [scan_eq_scanPlain fun _ => binaryOperator?_blank hc]
  exact if_pos hc

theorem ne_blank_of_scanMember (h : scanMember b a = .token k n b') : k ≠ .blank := by
  unfold scanMember at h
  dsimp only at h
  repeat' split at h
  all_goals cases h
  all_goals decide

/-- No other character starts one. -/
theorem isBlank_of_scan (h : scan b c a = .token .blank n b') : isBlank c = true := by
  refine Decidable.byContradiction fun hc => ?_
  unfold scan at h
  split at h
  · cases h
  rw [if_neg hc] at h
  iterate 4 -- a comma, brackets and `!`
    split at h
    · cases h
  iterate 2 -- a character or a string
    split at h
    · split at h <;> cases h
  split at h
  · cases (isNumber_of_scanNumber h).1
  split at h
  · obtain ⟨hword, -⟩ := Scan.token.inj h
    rcases wordKind_cases (c :: a.takeWhile isIdentifierPart) with hkind | hkind | hkind | hkind <;>
      rw [hkind] at hword <;> cases hword
  split at h
  · exact absurd rfl (ne_blank_of_scanMember h)
  · cases h

/-- A blank may follow any token but blanks. -/
theorem mayPrecede_of_isBlank (hc : isBlank c = true) (hk : k ≠ .blank) :
    k.mayPrecede c = true := by
  have hpart := isIdentifierPart_of_isBlank hc
  have hdigit := Text.isDigit_of_isIdentifierPart hpart
  have hne (d : Char) (hd : isBlank d = false) : c ≠ d := by
    rintro rfl
    rw [hc] at hd
    cases hd
  have hother := hne '(' (by decide)
  have hpoint := hne '.' (by decide)
  have hquote := hne '"' (by decide)
  have hequal := hne '=' (by decide)
  have hand := hne '&' (by decide)
  have hor := hne '|' (by decide)
  cases k with
  | blank => exact absurd rfl hk
  | _ => simp [TokenKind.mayPrecede, *]

/-! ## Texts -/

/-- Blanks before a text are read over, also if the text starts with blanks itself. -/
theorem Scans.blanks_before (h : Scans [] b text ts b') (hblanks : ∀ c ∈ blanks, isBlank c = true) :
    ∃ us, Scans [] b (blanks ++ text) us b' ∧ significant us = significant ts := by
  obtain ⟨us, hus, hsame⟩ : ∃ us, Scans [] b (text.dropWhile isBlank) us b' ∧
      significant us = significant ts := by
    cases h with
    | nil => exact ⟨[], .nil, rfl⟩
    | @cons _ _ _ c cs k n ts hscan hn h =>
      cases hc : isBlank c with
      | false =>
        rw [List.dropWhile_cons_of_neg (by simp [hc])]
        exact ⟨_, .cons hscan hn h, rfl⟩
      | true =>
        rw [scan_blank hc, List.append_nil] at hscan
        cases hscan
        rw [drop_runLength] at h
        rw [List.dropWhile_cons_of_pos hc]
        exact ⟨ts, h, (significant_blank rfl ts).symm⟩
  have hgap : ∀ c ∈ blanks ++ text.takeWhile isBlank, isBlank c = true :=
    List.forall_mem_append.mpr ⟨hblanks, List.all_eq_true.mp List.all_takeWhile⟩
  have hnext : ∀ d ∈ (text.dropWhile isBlank ++ []).head?, isBlank d = false := fun d hd => by
    have hnot := List.head?_dropWhile_not isBlank text
    rw [List.append_nil] at hd
    rw [Option.mem_def.mp hd] at hnot
    exact hnot
  obtain ⟨gs, hgs, -, hnone⟩ : ∃ gs, Scans (text.dropWhile isBlank ++ []) b
      (blanks ++ text.takeWhile isBlank) gs b ∧ (∀ t ∈ gs, Token.Readable t) ∧
        significant gs = [] := scans_blanks hgap hnext
  refine ⟨gs ++ us, ?_, by rw [significant_append, hnone, List.nil_append, hsame]⟩
  have happend := hgs.append hus
  rwa [List.append_assoc, List.takeWhile_append_dropWhile] at happend

/-- Blanks between two texts are read over unless the first one ends with a function. -/
theorem Scans.blanks_between {d : Char} (h : Scans rest b text ts b')
    (hfunction : ∀ t ∈ ts.getLast?, t.kind ≠ .function) (hrest : Scans [] b' rest us b'')
    (hblanks : ∀ c ∈ d :: blanks, isBlank c = true) :
    ∃ vs, Scans [] b (text ++ (d :: blanks ++ rest)) vs b'' ∧
      significant vs = significant (ts ++ us) := by
  induction h with
  | nil => exact hrest.blanks_before hblanks
  | @cons b _ b' c cs k n ts hscan hn h ih =>
    by_cases hend : k = .blank ∧ n = cs.length
    · -- the text is nothing but blanks from here on, so that the blanks continue them
      obtain ⟨rfl, rfl⟩ := hend
      have hc := isBlank_of_scan hscan
      rw [List.drop_length] at h
      cases h
      rw [scan_blank hc] at hscan
      obtain ⟨-, hrun, rfl⟩ := Scan.token.inj hscan
      have hcs : ∀ c ∈ cs, isBlank c = true := by
        have htake := take_runLength isBlank (cs ++ rest)
        rw [hrun, List.take_left] at htake
        rw [htake]
        exact List.all_eq_true.mp List.all_takeWhile
      have hall : ∀ e ∈ c :: cs ++ d :: blanks, isBlank e = true :=
        List.forall_mem_append.mpr ⟨List.forall_mem_cons.mpr ⟨hc, hcs⟩, hblanks⟩
      obtain ⟨vs, hvs, hsame⟩ := hrest.blanks_before hall
      rw [List.append_assoc] at hvs
      exact ⟨vs, hvs, hsame.trans (significant_blank rfl us).symm⟩
    · have hlast (hlength : n = cs.length) : k ≠ .function := by
        rw [hlength, List.drop_length] at h
        cases h
        exact hfunction _ rfl
      have hmore := (extends_scan _ _ _ (shortens_scan _ _ _ hscan hn hlast)).2.2
        (d :: blanks ++ rest) fun hlength e he => by
          obtain rfl : d = e := Option.some.inj he
          exact mayPrecede_of_isBlank (hblanks d List.mem_cons_self) fun hk => hend ⟨hk, hlength⟩
      obtain ⟨vs, hvs, hsame⟩ := ih (fun t ht => hfunction t <| by
        rw [List.getLast?_cons, Option.mem_def.mp ht]
        rfl) hrest
      have hcons : Scans [] b (c :: (cs ++ (d :: blanks ++ rest))) (_ :: vs) b'' :=
        .cons (by rwa [List.append_nil]) (by rw [List.length_append]; omega)
          (by rwa [List.drop_append_of_le_length hn])
      rw [List.take_append_of_le_length hn] at hcons
      exact ⟨_, hcons, by
        rw [← List.singleton_append, significant_append, hsame, ← significant_append]; rfl⟩

/-! ## Expressions -/

/-- The text `right` goes on after `left` where a token starts or where the text ends, and not
between the name of a function and its bracket. -/
def Boundary (left right : String) : Prop :=
  ∃ before t after, (lex (left ++ right)).tokens = before ++ t :: after ∧
    t.start = byteLength left.toList ∧ ∀ u ∈ before.getLast?, u.kind ≠ .function

theorem bare_texts (ts : List Token) :
    (ts.map Token.bare).flatMap (·.text.toList) = ts.flatMap (·.text.toList) :=
  List.flatMap_map ..

/-- At a boundary, a text is read in two parts. -/
theorem Boundary.scans {left right : String} (h : Boundary left right)
    (hlex : (lex (left ++ right)).failure? = none) :
    ∃ ts us b b', Scans right.toList false left.toList ts b ∧ Scans [] b right.toList us b' ∧
      (∀ t ∈ ts.getLast?, t.kind ≠ .function) ∧
      (lex (left ++ right)).tokens.map Token.bare = ts ++ us ++ [stopToken] := by
  obtain ⟨before, t, after, htokens, hstart, hlast⟩ := h
  obtain ⟨ts, b', hscans, hbare⟩ := scans_of_lexFrom hlex
  have hts : ts = before.map Token.bare ++ ((t :: after).map Token.bare).dropLast := by
    have heq := congrArg List.dropLast (hbare.symm.trans (congrArg _ htokens))
    rwa [List.dropLast_concat, List.map_append, List.dropLast_append_of_ne_nil (by simp)] at heq
  rw [hts] at hscans
  obtain ⟨x, y, b, htext, hx, hy⟩ := hscans.split
  rw [List.append_nil] at hx
  -- the first part ends where the token starts, so it is `left`
  have htiles := scanner.tiles_lexFrom false 0 (left ++ right).toList
  rw [← lex, htokens] at htiles
  have hplace := htiles.start_eq
  rw [← bare_texts, ← hx.text_eq, hstart, Nat.zero_add] at hplace
  have hleft : left.toList = x := by
    rw [← takeBytes_append left.toList right.toList, hplace, ← String.toList_append, htext,
      takeBytes_append]
  have hright : right.toList = y := by
    rw [String.toList_append, hleft] at htext
    exact List.append_cancel_left htext
  rw [hleft, hright]
  refine ⟨_, _, b, b', hx, hy, fun u hu => ?_, hts ▸ hbare⟩
  rw [List.getLast?_map] at hu
  obtain ⟨v, hv, rfl⟩ := Option.map_eq_some_iff.mp hu
  exact hlast v hv

/-- Blanks between two tokens of an expression, at its start or at its end make no difference but
for the locations, unless they come between the name of a function and its bracket. -/
theorem parse_blanks (limit : Nat) (left blanks right : String) (tree : Tree)
    (h : parse limit (left ++ right) = .ok tree) (hboundary : Boundary left right)
    (hblanks : ∀ c ∈ blanks.toList, isBlank c = true) :
    ∃ tree', parse limit (left ++ blanks ++ right) = .ok tree' ∧
      tree'.unlocated = tree.unlocated := by
  obtain ⟨x, hx, -⟩ := map_eq_ok.mp h
  obtain ⟨hlex, -⟩ := parseOperand_eq_ok.mp hx
  obtain ⟨ts, us, b, b', hleft, hright, hlast, htokens⟩ := hboundary.scans hlex
  obtain ⟨vs, hvs, hsame⟩ : ∃ vs, Scans [] false (left ++ blanks ++ right).toList vs b' ∧
      significant vs = significant (ts ++ us) := by
    simp only [String.toList_append, List.append_assoc]
    cases hgap : blanks.toList with
    | nil => exact ⟨_, Scans.append (by rwa [List.append_nil]) hright, rfl⟩
    | cons d gap => exact hleft.blanks_between hlast hright (hgap ▸ hblanks)
  obtain ⟨hlex', htokens'⟩ := hvs.lexFrom 0
  refine parse_elsewhere h hlex' ?_
  rw [significant_of_bare htokens, ← hsame]
  exact significant_of_bare htokens'

/-- A line break and a no-break space after an operator, before the sign of a number. -/
theorem parse_blanks_sign :
    ∃ tree, parse 4 "a.f(b) >=-1L && c" = .ok tree ∧ Boundary "a.f(b) >=" "-1L && c" ∧
      ∃ tree', parse 4 ("a.f(b) >=" ++ "\n\u00a0" ++ "-1L && c") = .ok tree' ∧
        tree'.unlocated = tree.unlocated := by
  have hnames : (parse 4 "a.f(b) >=-1L && c").toOption.map Tree.freeNames =
      some ["a", "b", "c"] := by
    decide +kernel
  obtain ⟨tree, htree, -⟩ := exists_ok_of_map hnames
  have hboundary : Boundary "a.f(b) >=" "-1L && c" :=
    ⟨(lex "a.f(b) >=-1L && c").tokens.take 7, ⟨.long, "-1L", 9⟩,
      (lex "a.f(b) >=-1L && c").tokens.drop 8, by decide +kernel⟩
  exact ⟨tree, htree, hboundary, parse_blanks 4 _ "\n\u00a0" _ tree htree hboundary
    (List.all_eq_true.mp (by decide))⟩

end TwoWaySql.Expr
