import TwoWaySql.Proofs.Canonical
import TwoWaySql.Proofs.Characters

/-!
# Texts one after the other

A text that ends in blanks is read the same whatever follows, if that neither goes on with the
blanks nor completes a keyword of two words (`lexFrom_append`). Keywords may be written in any case.
-/

namespace TwoWaySql.Template

open Text

/-! ## Letters -/

theorem isAlpha_of_toLower {c : Char} (h : c.toLower.isLower = true) : c.isAlpha = true := by
  refine Bool.or_eq_true_iff.mpr ?_
  unfold Char.toLower at h
  split at h
  · rename_i hupper
    exact .inl (decide_eq_true hupper)
  · exact .inr h

theorem isBlank_of_isAlpha {c : Char} (h : c.isAlpha = true) : isBlank c = false := by
  have hc := isAlpha_iff.mp h
  rw [Bool.eq_false_iff, isBlank, Ne, CodeRanges.contains_iff]
  rintro ⟨r, hr, hle⟩
  simp only [blankRanges, List.mem_cons, List.not_mem_nil, or_false] at hr
  rcases hr with rfl | rfl | rfl | rfl | rfl | rfl | rfl | rfl | rfl | rfl <;>
    dsimp only at hle <;> omega

theorem isWordPart_of_isAlpha {c : Char} (h : c.isAlpha = true) : isWordPart c = true := by
  have hrange := isAlpha_iff.mp h
  simp [isWordPart, isAlphanumeric, isAlphabetic_ascii (c := c) (by omega), h]

theorem isWordPart_of_isBlank {c : Char} (h : isBlank c = true) : isWordPart c = false := by
  simpa using of_isBlank (p := fun c => !isWordPart c) (by decide +kernel) h

theorem isBlank_of_isWordPart {c : Char} (h : isWordPart c = true) : isBlank c = false :=
  Bool.eq_false_iff.mpr fun hblank => by
    rw [isWordPart_of_isBlank hblank] at h
    cases h

/-- A keyword is made of letters. -/
theorem isAlpha_of_isKeyword {keyword : String} {cs : List Char}
    (hkeyword : ∀ c ∈ keyword.toList, c.isLower = true) (h : isKeyword keyword cs = true) :
    ∀ c ∈ cs, c.isAlpha = true := fun c hc => by
  refine isAlpha_of_toLower (hkeyword _ ?_)
  rw [← beq_iff_eq.mp h]
  exact List.mem_map_of_mem hc

theorem IsSecondWord.isLower {keyword : String} (h : IsSecondWord keyword) :
    ∀ c ∈ keyword.toList, c.isLower = true := by
  rcases h with rfl | rfl <;> exact List.all_eq_true.mp (by decide)

/-! ## Blanks at the end -/

/-- The text is empty or its last character is a blank. -/
def EndsBlank (cs : List Char) : Prop := ∀ c ∈ cs.getLast?, isBlank c = true

theorem EndsBlank.drop {cs : List Char} (h : EndsBlank cs) (n : Nat) : EndsBlank (cs.drop n) := by
  intro c hc
  rw [List.getLast?_drop] at hc
  split at hc
  · cases hc
  · exact h c hc

theorem head?_append_of_pos {a : List Char} (h : 0 < a.length) (r : List Char) :
    (a ++ r).head? = a.head? := by
  obtain ⟨c, b, rfl⟩ := List.exists_cons_of_length_pos h
  rfl

theorem EndsBlank.exists_blank {cs : List Char} (h : EndsBlank cs) (hcs : cs ≠ []) :
    ∃ c ∈ cs, isBlank c = true :=
  ⟨cs.getLast hcs, List.getLast_mem hcs, h _ (List.getLast?_eq_some_getLast hcs)⟩

/-- What may follow blanks without a change to how these or the words before them are read. -/
structure Separate (r : List Char) : Prop where
  notBlank : ∀ c ∈ r.head?, isBlank c = false
  notQuote : ∀ c ∈ r.head?, c ≠ '\x27' ∧ c ≠ '"'
  notSecondWord : ∀ keyword, IsSecondWord keyword →
    isKeyword keyword (r.take keyword.length) = false

theorem separate_nil : Separate [] where
  notBlank := by simp
  notQuote := by simp
  notSecondWord := by
    rintro keyword (rfl | rfl) <;> rfl

variable {a r : List Char}

/-- A keyword does not reach to the end of a text that ends in a blank. -/
theorem lt_length_of_isKeyword {keyword : String} (hk : IsSecondWord keyword) (ha : EndsBlank a)
    (hne : a ≠ []) (h : isKeyword keyword ((a ++ r).take keyword.length) = true) :
    keyword.length < a.length := by
  obtain ⟨c, hc, hblank⟩ := ha.exists_blank hne
  refine Nat.lt_of_not_le fun hle => ?_
  have hmem : c ∈ (a ++ r).take keyword.length := by
    rw [List.take_append]
    exact List.mem_append_left _ (by rwa [List.take_of_length_le hle])
  rw [isBlank_of_isAlpha (isAlpha_of_isKeyword hk.isLower h c hmem)] at hblank
  cases hblank

theorem secondWord?_append_of_endsBlank {keyword : String} (hk : IsSecondWord keyword)
    (ha : EndsBlank a) (hr : Separate r) :
    secondWord? keyword (a ++ r) = secondWord? keyword a := by
  have hle := runLength_le isBlank a
  simp only [secondWord?, runLength_append hr.notBlank a, List.drop_append_of_le_length hle]
  generalize hb : a.drop (runLength isBlank a) = b
  have hends : EndsBlank b := hb ▸ ha.drop _
  by_cases hne : b = []
  · subst hne
    have hnil := separate_nil.notSecondWord keyword hk
    rw [List.take_nil] at hnil
    simp [hr.notSecondWord keyword hk, hnil]
  · have hshort (s : List Char) := lt_length_of_isKeyword (r := s) hk hends hne
    have hshort' := hshort []
    rw [List.append_nil] at hshort'
    by_cases hlt : keyword.length < b.length
    · rw [List.take_append_of_le_length (Nat.le_of_lt hlt),
        List.drop_append_of_le_length (Nat.le_of_lt hlt),
        head?_append_of_pos (by rw [List.length_drop]; omega)]
    · simp [mt (hshort r) hlt, mt hshort' hlt]

theorem wordKind_append_of_endsBlank (ha : EndsBlank a) (hr : Separate r) (word : List Char) :
    wordKind word (a ++ r) = wordKind word a := by
  unfold wordKind
  rw [secondWord?_append_of_endsBlank (.inl rfl) ha hr,
    secondWord?_append_of_endsBlank (.inr rfl) ha hr]

/-- A token of a text that ends in a blank is found whatever may follow the blank. -/
theorem scan_append {c : Char} {k : TokenKind} {n : Nat} (h : scan c a = .ok (k, n))
    (ha : EndsBlank a) (hr : Separate r) (hn : k = .blank ∨ n < a.length) :
    scan c (a ++ r) = .ok (k, n) := by
  have hle := scan_le h
  have hrun {p : Char → Bool} (hlt : runLength p a < a.length) :
      runLength p (a ++ r) = runLength p a := by
    have heq := runLength_append_of_lt (r := []) (by rwa [List.append_nil]) r
    rwa [List.append_nil] at heq
  have hhead (hlt : n < a.length) : (a ++ r).head? = a.head? := head?_append_of_pos (by omega) r
  apply scan_of_scanRule
  rcases hn with rfl | hlt
  · obtain ⟨hc, rfl⟩ := scan_blank h
    rw [← runLength_append hr.notBlank a]
    exact .blank hc
  cases scanRule_of_scan h with
  | blank hc =>
    rw [← runLength_append hr.notBlank a]
    exact .blank hc
  | openBracket hc => exact .openBracket hc
  | closeBracket hc => exact .closeBracket hc
  | delimiter hc => exact .delimiter hc
  | quote hc hq =>
    refine .quote hc (quotedLength?_append (r := []) ?_ (by rwa [List.append_nil]) hle)
    subst hc
    exact fun d hd => (hr.notQuote d hd).1
  | identifier hc hq =>
    refine .identifier hc (quotedLength?_append (r := []) ?_ (by rwa [List.append_nil]) hle)
    subst hc
    exact fun d hd => (hr.notQuote d hd).2
  | lineComment hc hcs =>
    rw [← hrun hlt]
    exact .lineComment hc (by rwa [hhead hlt])
  | comment hc hcs hcomment =>
    refine .comment hc (by rwa [hhead hlt]) ?_
    obtain ⟨d, b, rfl⟩ := List.exists_cons_of_length_pos (Nat.zero_lt_of_lt hlt)
    exact scanComment_append (r := []) r (by simpa using hcomment) (by simpa using hle)
  | signed hc hcs =>
    rw [← hrun hlt]
    exact .signed hc (by rwa [hhead hlt])
  | @word length hblank hword hlength =>
    have hlt' : length < a.length := by omega
    rw [← hrun (hlength ▸ hlt')] at hlength
    have htake : (a ++ r).take length = a.take length :=
      List.take_append_of_le_length (Nat.le_of_lt hlt')
    have hdrop : (a ++ r).drop length = a.drop length ++ r :=
      List.drop_append_of_le_length (Nat.le_of_lt hlt')
    rw [← wordKind_append_of_endsBlank (ha.drop length) hr, ← htake, ← hdrop]
    exact .word hblank hword hlength
  | other hother =>
    exact .other { hother with
      notLineComment := by rw [hhead hlt]; exact hother.notLineComment
      notComment := by rw [hhead hlt]; exact hother.notComment
      notSigned := by rw [hhead hlt]; exact hother.notSigned }

/-! ## Tokens -/

/-- A text that can be read, without semicolons and, if it has any tokens, with a blank as the last
one. -/
structure BlankLast (l : Lexed TokenKind LexicalCause) : Prop where
  failure? : l.failure? = none
  noDelimiter : ∀ t ∈ l.tokens, t.kind ≠ .delimiter
  last : ∀ t ∈ (untilEnd l.tokens).getLast?, t.kind = .blank

/-- Reading goes on to the end if the end is among the tokens. -/
theorem failure?_of_stop {cs : List Char} {offset : Nat} {t : Token}
    (ht : t ∈ (scanner.lexFrom () offset cs).tokens) (hstop : t.kind = .stop) :
    (scanner.lexFrom () offset cs).failure? = none := by
  induction cs using lex_induction generalizing offset with
  | nil => rw [lexFrom_nil]
  | error c cs cause hscan =>
    rw [lexFrom_error hscan] at ht
    cases ht
  | token c cs k n hscan ih =>
    rw [lexFrom_token hscan] at ht ⊢
    rcases List.mem_cons.mp ht with rfl | ht
    · exact absurd hstop (scan_start hscan).1
    · exact ih ht

theorem blankLast_of_ends {template : String} (hends : Ends (lex template).tokens)
    (hdelimiter : ∀ t ∈ (lex template).tokens, t.kind ≠ .delimiter)
    (hlast : ∀ t ∈ (statementTokens template).getLast?, t.kind = .blank) :
    BlankLast (lex template) := by
  obtain ⟨t, ht, hend⟩ := hends
  refine ⟨failure?_of_stop ht ?_, hdelimiter, hlast⟩
  simpa [Token.isEnd, hdelimiter t ht] using hend

theorem BlankLast.tail {c : Char} {cs : List Char} {k : TokenKind} {n offset : Nat}
    (hscan : scan c cs = .ok (k, n)) (h : BlankLast (scanner.lexFrom () offset (c :: cs))) :
    let t : Token := ⟨k, String.ofList (c :: cs.take n), offset⟩
    Token.isEnd t = false ∧ (k = .blank ∨ n < cs.length) ∧
      BlankLast (scanner.lexFrom () t.stop (cs.drop n)) := by
  rw [lexFrom_token hscan] at h
  obtain ⟨hfailure, hdelimiter, hlast⟩ := h
  obtain ⟨hk, hrest⟩ := List.forall_mem_cons.mp hdelimiter
  have hend := isEnd_eq_false (scan_start hscan).1 hk
  dsimp only at hlast
  rw [untilEnd_cons hend, List.getLast?_cons] at hlast
  refine ⟨hend, ?_, hfailure, hrest, fun t ht => hlast t ?_⟩
  · by_cases hlt : n < cs.length
    · exact .inr hlt
    · have hnil : cs.drop n = [] := List.drop_eq_nil_of_le (by omega)
      rw [hnil, lexFrom_nil] at hlast
      exact .inl (hlast _ rfl)
  · rw [Option.mem_def.mp ht]
    rfl

theorem BlankLast.endsBlank {cs : List Char} {offset : Nat}
    (h : BlankLast (scanner.lexFrom () offset cs)) : EndsBlank cs := by
  induction cs using lex_induction generalizing offset with
  | nil => simp [EndsBlank]
  | error c cs cause hscan =>
    rw [lexFrom_error hscan] at h
    cases h.failure?
  | token c cs k n hscan ih =>
    obtain ⟨-, hk, hrest⟩ := h.tail hscan
    intro d hd
    by_cases hlt : n < cs.length
    · refine ih hrest d ?_
      rw [List.getLast?_drop, if_neg (by omega)]
      obtain ⟨e, b, rfl⟩ := List.exists_cons_of_length_pos (Nat.zero_lt_of_lt hlt)
      exact hd
    · -- the token is the whole text
      obtain rfl := hk.resolve_right hlt
      have hmem : (⟨.blank, String.ofList (c :: cs.take n), offset⟩ : Token) ∈
          (scanner.lexFrom () offset (c :: cs)).tokens := by
        rw [lexFrom_token hscan]
        exact List.mem_cons_self
      have hblank := isBlank_of_mem_text hmem rfl d
      rw [String.toList_ofList, List.take_of_length_le (by omega)] at hblank
      exact hblank (List.mem_of_getLast? hd)

/-- Offsets make no difference to how a text is read. -/
theorem bare_lexFrom (cs : List Char) (offset offset' : Nat) :
    (scanner.lexFrom () offset cs).tokens.map Token.bare =
      (scanner.lexFrom () offset' cs).tokens.map Token.bare := by
  induction cs using lex_induction generalizing offset offset' with
  | nil => rw [lexFrom_nil, lexFrom_nil]; rfl
  | error c cs cause hscan => rw [lexFrom_error hscan, lexFrom_error hscan]
  | token c cs k n hscan ih =>
    rw [lexFrom_token hscan, lexFrom_token hscan, List.map_cons, List.map_cons, ih]
    rfl

/-- A text that ends in a blank is read as by itself, and then what follows. -/
theorem lexFrom_append {cs r : List Char} {offset : Nat} (hr : Separate r)
    (h : BlankLast (scanner.lexFrom () offset cs)) (offset' : Nat) :
    ∃ ts offset'', (scanner.lexFrom () offset' (cs ++ r)).tokens =
        ts ++ (scanner.lexFrom () offset'' r).tokens ∧
      ts.map Token.bare = (untilEnd (scanner.lexFrom () offset cs).tokens).map Token.bare := by
  induction cs using lex_induction generalizing offset offset' with
  | nil => exact ⟨[], offset', rfl, by rw [lexFrom_nil]; rfl⟩
  | error c cs cause hscan =>
    rw [lexFrom_error hscan] at h
    cases h.failure?
  | token c cs k n hscan ih =>
    obtain ⟨hend, hn, hrest⟩ := h.tail hscan
    have hle := scan_le hscan
    have hscan' := scan_append hscan (h.endsBlank.drop 1) hr hn
    obtain ⟨ts, offset'', htokens, hbare⟩ :=
      ih hrest (TwoWaySql.Token.stop (⟨k, String.ofList (c :: cs.take n), offset'⟩ : Token))
    refine ⟨⟨k, String.ofList (c :: cs.take n), offset'⟩ :: ts, offset'', ?_, ?_⟩
    · rw [List.cons_append, lexFrom_token hscan']
      simp only [List.take_append_of_le_length hle, List.drop_append_of_le_length hle, htokens,
        List.cons_append]
    · rw [lexFrom_token hscan]
      dsimp only
      rw [untilEnd_cons hend, List.map_cons, List.map_cons, hbare]
      rfl

/-! ## Keywords -/

theorem SetOperator.isLower (op : SetOperator) : ∀ c ∈ op.keyword.toList, c.isLower = true := by
  cases op <;> exact List.all_eq_true.mp (by decide)

theorem separate_append {op : SetOperator} {cs : List Char} (h : isKeyword op.keyword cs = true)
    (r : List Char) : Separate (cs ++ r) := by
  have halpha := isAlpha_of_isKeyword op.isLower h
  have hlength := length_of_isKeyword h
  match cs with
  | [] | [_] => cases op <;> cases hlength
  | c :: d :: cs =>
    have hc := halpha c List.mem_cons_self
    refine ⟨?_, ?_, fun keyword hk => ?_⟩
    · rintro _ ⟨⟩
      exact isBlank_of_isAlpha hc
    · rintro _ ⟨⟩
      constructor <;> rintro rfl <;> cases hc
    · -- no two of these keywords start with the same two letters
      rw [Bool.eq_false_iff]
      intro hsecond
      rw [isKeyword, beq_iff_eq] at h hsecond
      have hby : "by".length = 2 := rfl
      have hupdate : "update".length = 6 := rfl
      rcases hk with rfl | rfl <;> cases op <;>
        simp_all [SetOperator.keyword, asciiLower]

theorem scan_keyword {op : SetOperator} {c : Char} {cs r : List Char}
    (h : isKeyword op.keyword (c :: cs) = true) (hr : ∀ d ∈ r.head?, isWordPart d = false) :
    scan c (cs ++ r) = .ok (.set op, cs.length) := by
  obtain ⟨hc, hcs⟩ := List.forall_mem_cons.mp (isAlpha_of_isKeyword op.isLower h)
  have hrun : runLength isWordPart (cs ++ r) = cs.length := by
    rw [runLength_append hr, runLength, ← List.append_nil cs,
      List.takeWhile_append_of_pos fun d hd => isWordPart_of_isAlpha (hcs d hd)]
    simp
  have hkind (rest : List Char) : wordKind (c :: cs) rest = (.set op, 0) := by
    rw [isKeyword, beq_iff_eq] at h
    unfold wordKind isKeyword
    rw [h]
    cases op <;> rfl
  have hblank : ¬isBlank c = true := by
    rw [isBlank_of_isAlpha hc]
    exact Bool.false_ne_true
  have hscan : ScanRule c (cs ++ r) _ _ := .word hblank (isWordPart_of_isAlpha hc) hrun.symm
  rw [List.take_left, List.drop_left, hkind] at hscan
  exact scan_of_scanRule hscan

/-! ## Templates -/

theorem untilEnd_append {ts : List Token} (h : ∀ t ∈ ts, Token.isEnd t = false) (us : List Token) :
    untilEnd (ts ++ us) = ts ++ untilEnd us :=
  List.takeWhile_append_of_pos fun t ht => by rw [h t ht]; rfl

theorem untilEnd_map_bare (ts : List Token) :
    (untilEnd ts).map Token.bare = untilEnd (ts.map Token.bare) := by
  unfold untilEnd
  rw [List.takeWhile_map]
  rfl

theorem ends_map_bare {ts : List Token} : Ends (ts.map Token.bare) ↔ Ends ts := by
  constructor
  · rintro ⟨_, hmem, hend⟩
    obtain ⟨t, ht, rfl⟩ := List.mem_map.mp hmem
    exact ⟨t, ht, hend⟩
  · rintro ⟨t, ht, hend⟩
    exact ⟨Token.bare t, List.mem_map_of_mem ht, hend⟩

/-- Tokens before the end are not ends, wherever they stand. -/
theorem isEnd_of_bare {ts us : List Token}
    (h : ts.map Token.bare = (untilEnd us).map Token.bare) :
    ∀ t ∈ ts, Token.isEnd t = false := by
  intro t ht
  have hmem : Token.bare t ∈ (untilEnd us).map Token.bare := h ▸ List.mem_map_of_mem ht
  obtain ⟨u, hu, heq⟩ := List.mem_map.mp hmem
  have hend : Token.isEnd u = false := by
    simpa using List.all_eq_true.mp List.all_takeWhile u hu
  have hkind : u.kind = t.kind := congrArg (·.kind) heq
  unfold Token.isEnd at hend ⊢
  rwa [hkind] at hend

/-- A template whose first token is a blank does not go on with a word. -/
theorem notWord_of_head? {template : String} (hends : Ends (lex template).tokens)
    (h : ∀ t ∈ (statementTokens template).head?, t.kind = .blank) :
    ∀ c ∈ template.toList.head?, isWordPart c = false := by
  unfold statementTokens lex at *
  revert hends h
  generalize template.toList = cs
  intro hends h
  cases cs with
  | nil => simp
  | cons c cs =>
    rintro _ ⟨⟩
    cases hscan : scan c cs with
    | error cause =>
      rw [lexFrom_error hscan] at hends
      obtain ⟨t, ht, -⟩ := hends
      cases ht
    | ok x =>
      obtain ⟨k, n⟩ := x
      rw [lexFrom_token hscan] at h
      obtain ⟨hstop, hdelimiter, -⟩ := scan_start hscan
      by_cases hk : k = .delimiter
      · rw [hdelimiter hk]
        exact isWordPart_boundary.1
      · have hend : Token.isEnd (⟨k, String.ofList (c :: cs.take n), 0⟩ : Token) = false :=
          isEnd_eq_false hstop hk
        dsimp only at h
        rw [List.takeWhile_cons_of_pos (by rw [hend]; rfl)] at h
        obtain rfl : k = .blank := h _ rfl
        exact isWordPart_of_isBlank (scan_blank hscan).1

theorem lex_operands {t₁ keyword t₂ : String} {op : SetOperator} (h₁ : BlankLast (lex t₁))
    (hkeyword : isKeyword op.keyword keyword.toList = true) (hends : Ends (lex t₂).tokens)
    (h₂ : ∀ t ∈ (statementTokens t₂).head?, t.kind = .blank) :
    Ends (lex (t₁ ++ keyword ++ t₂)).tokens ∧
      (statementTokens (t₁ ++ keyword ++ t₂)).map Token.bare =
        (statementTokens t₁).map Token.bare ++
          ⟨.set op, keyword, 0⟩ :: (statementTokens t₂).map Token.bare := by
  have hword := notWord_of_head? hends h₂
  obtain ⟨ts, offset, htokens, hbare⟩ :=
    lexFrom_append (separate_append hkeyword t₂.toList) h₁ 0
  have htext : (t₁ ++ keyword ++ t₂).toList = t₁.toList ++ (keyword.toList ++ t₂.toList) := by simp
  obtain ⟨c, cs, hcs⟩ : ∃ c cs, keyword.toList = c :: cs := by
    refine List.exists_cons_of_length_pos ?_
    rw [length_of_isKeyword hkeyword]
    cases op <;> decide
  rw [hcs] at htokens hkeyword htext
  rw [List.cons_append, lexFrom_token (scan_keyword hkeyword hword), List.take_left,
    List.drop_left, ← hcs, String.ofList_toList] at htokens
  dsimp only at htokens
  generalize TwoWaySql.Token.stop (⟨.set op, keyword, offset⟩ : Token) = offset' at htokens
  have hrest := bare_lexFrom t₂.toList offset' 0
  have hlex : (lex (t₁ ++ keyword ++ t₂)).tokens =
      ts ++ ⟨.set op, keyword, offset⟩ :: (scanner.lexFrom () offset' t₂.toList).tokens := by
    rw [lex, htext, List.cons_append]
    exact htokens
  constructor
  · obtain ⟨t, ht, hend⟩ := ends_map_bare.mp (hrest ▸ ends_map_bare.mpr hends)
    exact ⟨t, by rw [hlex]; simp [ht], hend⟩
  · have hstatement : statementTokens (t₁ ++ keyword ++ t₂) =
        ts ++ ⟨.set op, keyword, offset⟩ ::
          untilEnd (scanner.lexFrom () offset' t₂.toList).tokens := by
      change untilEnd (lex _).tokens = _
      rw [hlex, untilEnd_append (isEnd_of_bare hbare), untilEnd_cons rfl]
    have hright : (untilEnd (scanner.lexFrom () offset' t₂.toList).tokens).map Token.bare =
        (statementTokens t₂).map Token.bare := by
      rw [untilEnd_map_bare, hrest, ← untilEnd_map_bare]
      rfl
    rw [hstatement, List.map_append, List.map_cons, hbare, hright]
    rfl

theorem lex_brackets {template : String} (h : BlankLast (lex template)) :
    Ends (lex ("(" ++ template ++ ")")).tokens ∧
      (statementTokens ("(" ++ template ++ ")")).map Token.bare =
        ⟨.openBracket, "(", 0⟩ ::
          ((statementTokens template).map Token.bare ++ [⟨.closeBracket, ")", 0⟩]) := by
  have hclosing : Separate [')'] := by
    refine ⟨?_, ?_, ?_⟩
    · rintro _ ⟨⟩
      decide
    · rintro _ ⟨⟩
      decide
    · rintro keyword (rfl | rfl) <;> decide
  have hopen (cs : List Char) : scan '(' cs = .ok (.openBracket, 0) :=
    scan_of_scanRule (.openBracket rfl)
  have hclose : scan ')' [] = .ok (.closeBracket, 0) := scan_of_scanRule (.closeBracket rfl)
  obtain ⟨ts, offset, stop, hlex, hbare⟩ : ∃ ts offset stop,
      (lex ("(" ++ template ++ ")")).tokens = ⟨.openBracket, "(", 0⟩ ::
        (ts ++ [⟨.closeBracket, ")", offset⟩, ⟨.stop, "", stop⟩]) ∧
      ts.map Token.bare = (statementTokens template).map Token.bare := by
    have htext : ("(" ++ template ++ ")").toList = '(' :: (template.toList ++ [')']) := by simp
    rw [lex, htext, lexFrom_token (hopen _)]
    dsimp only
    rw [List.take_zero, List.drop_zero]
    obtain ⟨ts, offset, htokens, hbare⟩ := lexFrom_append hclosing h
      (TwoWaySql.Token.stop (⟨.openBracket, String.ofList ['('], 0⟩ : Token))
    rw [htokens, lexFrom_token hclose]
    dsimp only
    rw [List.drop_nil, lexFrom_nil]
    exact ⟨ts, offset, _, rfl, hbare⟩
  refine ⟨⟨⟨.stop, "", stop⟩, by rw [hlex]; simp, rfl⟩, ?_⟩
  have hstatement : statementTokens ("(" ++ template ++ ")") =
      ⟨.openBracket, "(", 0⟩ :: (ts ++ [⟨.closeBracket, ")", offset⟩]) := by
    change untilEnd (lex _).tokens = _
    rw [hlex, untilEnd_cons rfl, untilEnd_append (isEnd_of_bare hbare), untilEnd_cons rfl]
    rfl
  rw [hstatement, List.map_cons, List.map_append, hbare]
  rfl

end TwoWaySql.Template
