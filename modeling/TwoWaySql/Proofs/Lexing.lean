import TwoWaySql.Template.Lexer

/-!
# What a token depends on

A token is found by looking at most at what directly follows it. `scan_of_boundary`: where a
semicolon, a comment or the end follows, another one of these may follow instead. A line comment
is the exception, as it would take in what comes in the place of the end.
-/

namespace TwoWaySql.Template

open Text

/-! ## Characters -/

/-- The text is over, or goes on with a semicolon or a slash. -/
def Boundary (cs : List Char) : Prop := ∀ c ∈ cs.head?, c = ';' ∨ c = '/'

theorem boundary_nil : Boundary [] := by simp [Boundary]

theorem boundary_semicolon (cs : List Char) : Boundary (';' :: cs) := by simp [Boundary]

theorem boundary_slash (cs : List Char) : Boundary ('/' :: cs) := by simp [Boundary]

/-- No character that may follow a token satisfies `p`. -/
theorem Boundary.not_of {cs : List Char} (h : Boundary cs) {p : Char → Bool}
    (hp : p ';' = false ∧ p '/' = false) : ∀ c ∈ cs.head?, p c = false := by
  intro c hc
  rcases h c hc with rfl | rfl
  · exact hp.1
  · exact hp.2

theorem Boundary.ne {cs : List Char} (h : Boundary cs) {d : Char} (hd : d ≠ ';' ∧ d ≠ '/') :
    ∀ c ∈ cs.head?, c ≠ d := by
  intro c hc
  rcases h c hc with rfl | rfl
  · exact hd.1.symm
  · exact hd.2.symm

theorem isBlank_boundary : isBlank ';' = false ∧ isBlank '/' = false := by decide

theorem isWordPart_boundary : isWordPart ';' = false ∧ isWordPart '/' = false := by
  decide +kernel

theorem isDigit_boundary : Char.isDigit ';' = false ∧ Char.isDigit '/' = false := by decide

/-! ## Runs -/

theorem runLength_le (p : Char → Bool) (cs : List Char) : runLength p cs ≤ cs.length :=
  (List.takeWhile_prefix p).length_le

/-- A run ends where what follows does not satisfy `p`. -/
theorem runLength_append {p : Char → Bool} {r : List Char} (hr : ∀ c ∈ r.head?, p c = false)
    (a : List Char) : runLength p (a ++ r) = runLength p a := by
  induction a with
  | nil => cases r <;> simp_all [runLength]
  | cons c a ih =>
    simp only [runLength, List.cons_append, List.takeWhile_cons] at ih ⊢
    split
    · simp [ih]
    · rfl

/-- A run that ends within `a` is not changed by what follows. -/
theorem runLength_append_of_lt {p : Char → Bool} {a r : List Char}
    (h : runLength p (a ++ r) < a.length) (r' : List Char) :
    runLength p (a ++ r') = runLength p (a ++ r) := by
  induction a with
  | nil => simp at h
  | cons c a ih =>
    simp only [runLength, List.cons_append, List.takeWhile_cons] at ih h ⊢
    split
    · rename_i hc
      simp only [hc, ↓reduceIte, List.length_cons] at h
      simp only [List.length_cons]
      rw [ih (by omega)]
    · rfl

/-- A run that ends with `a` ends because of what follows. -/
theorem head?_of_runLength_append {p : Char → Bool} {a r : List Char}
    (h : runLength p (a ++ r) = a.length) : ∀ c ∈ r.head?, p c = false := by
  induction a with
  | nil => cases r <;> simp_all [runLength, List.takeWhile_cons]
  | cons c a ih =>
    simp only [runLength, List.cons_append, List.takeWhile_cons] at ih h
    split at h
    · exact ih (by simpa using h)
    · simp at h

theorem head?_append_eq_some {r : List Char} {d : Char} (hr : ∀ c ∈ r.head?, c ≠ d)
    (a : List Char) : (a ++ r).head? = some d ↔ a.head? = some d := by
  cases a with
  | nil => cases r <;> simp_all
  | cons c a => rfl

theorem head?_append_any {p : Char → Bool} {r : List Char} (hr : ∀ c ∈ r.head?, p c = false)
    (a : List Char) : (a ++ r).head?.any p = a.head?.any p := by
  cases a with
  | nil => cases r <;> simp_all
  | cons c a => rfl

/-! ## Quotes and comments -/

theorem quotedLength?_le {quote : Char} {cs : List Char} {n : Nat}
    (h : quotedLength? quote cs = some n) : n ≤ cs.length := by
  fun_induction quotedLength? quote cs generalizing n with
  | case1 => cases h
  | case2 => simp_all [← Option.some_inj.mp h]
  | case3 => simp_all
  | case4 c d cs hc ih =>
    obtain ⟨m, hm, rfl⟩ := Option.map_eq_some_iff.mp h
    have := ih hm
    simp only [List.length_cons] at this ⊢
    omega
  | case5 c cs hc ih =>
    obtain ⟨m, hm, rfl⟩ := Option.map_eq_some_iff.mp h
    have := ih hm
    simp only [List.length_cons]
    omega
  | case6 => simp_all [← Option.some_inj.mp h]

theorem quotedLength?_pos {quote : Char} {cs : List Char} {n : Nat}
    (h : quotedLength? quote cs = some n) : 0 < n := by
  fun_induction quotedLength? quote cs generalizing n with
  | case1 => cases h
  | case2 => simp_all [← Option.some_inj.mp h]
  | case3 => simp_all
  | case4 => obtain ⟨m, -, rfl⟩ := Option.map_eq_some_iff.mp h; omega
  | case5 => obtain ⟨m, -, rfl⟩ := Option.map_eq_some_iff.mp h; omega
  | case6 => simp_all [← Option.some_inj.mp h]

theorem quotedLength?_append {quote : Char} {r r' : List Char} (hr' : ∀ c ∈ r'.head?, c ≠ quote) :
    {a : List Char} → {n : Nat} → quotedLength? quote (a ++ r) = some n → n ≤ a.length →
      quotedLength? quote (a ++ r') = some n
  | [], n, h, hn => by
    have := quotedLength?_pos h
    simp only [List.length_nil] at hn
    omega
  | [c], n, h, hn => by
    simp only [List.length_singleton] at hn
    by_cases hc : c = quote
    · have h1 : n = 1 := by have := quotedLength?_pos h; omega
      cases r' with
      | nil => simp [quotedLength?, hc, h1]
      | cons d r' => simp_all [quotedLength?]
    · cases r with
      | nil => simp [quotedLength?, hc] at h
      | cons d r =>
        simp only [List.cons_append, List.nil_append, quotedLength?, hc, ne_eq, not_false_eq_true,
          ↓reduceIte, Option.map_eq_some_iff] at h
        obtain ⟨m, hm, rfl⟩ := h
        have := quotedLength?_pos hm
        omega
  | c :: d :: a, n, h, hn => by
    simp only [List.cons_append, quotedLength?, List.length_cons] at h hn ⊢
    split at h
    · obtain ⟨m, hm, rfl⟩ := Option.map_eq_some_iff.mp h
      rw [if_pos ‹_›, ← List.cons_append,
        quotedLength?_append hr' hm (by simp only [List.length_cons]; omega), Option.map_some]
    · split at h
      · obtain ⟨m, hm, rfl⟩ := Option.map_eq_some_iff.mp h
        rw [if_neg ‹_›, if_pos ‹_›, quotedLength?_append hr' hm (by omega), Option.map_some]
      · rw [if_neg ‹_›, if_neg ‹_›, h]

theorem commentLength?_le {cs : List Char} {n : Nat} (h : commentLength? cs = some n) :
    n + 2 ≤ cs.length := by
  fun_induction commentLength? cs generalizing n with
  | case1 => cases h
  | case2 => simp_all [← Option.some_inj.mp h]
  | case3 c cs _ ih =>
    obtain ⟨m, hm, rfl⟩ := Option.map_eq_some_iff.mp h
    have := ih hm
    simp only [List.length_cons]
    omega

theorem commentLength?_append {r : List Char} (r' : List Char) :
    {a : List Char} → {n : Nat} → commentLength? (a ++ r) = some n → n + 2 ≤ a.length →
      commentLength? (a ++ r') = some n
  | [], n, _, hn => by simp at hn
  | [c], n, _, hn => by simp at hn
  | c :: d :: a, n, h, hn => by
    by_cases hc : c = '*' ∧ d = '/'
    · obtain ⟨rfl, rfl⟩ := hc
      simpa [commentLength?] using h
    · have step (s : List Char) :
          commentLength? (c :: d :: s) = (commentLength? (d :: s)).map (· + 1) := by
        rw [commentLength?]
        rintro _ ⟨⟩ ⟨⟩
        exact hc ⟨rfl, rfl⟩
      rw [List.cons_append, List.cons_append, step] at h ⊢
      obtain ⟨m, hm, rfl⟩ := Option.map_eq_some_iff.mp h
      simp only [List.length_cons] at hn
      rw [← List.cons_append,
        commentLength?_append r' hm (by simp only [List.length_cons]; omega), Option.map_some]

/-! ## Keywords -/

/-- The second words of the keywords of two words. -/
def IsSecondWord (keyword : String) : Prop := keyword = "by" ∨ keyword = "update"

theorem IsSecondWord.not_boundary {keyword : String} (h : IsSecondWord keyword) {c : Char}
    (hc : c ∈ keyword.toList) : c ≠ ';' ∧ c ≠ '/' := by
  rcases h with rfl | rfl <;> revert c <;> simp

theorem length_of_isKeyword {keyword : String} {cs : List Char} (h : isKeyword keyword cs = true) :
    cs.length = keyword.length := by
  have := congrArg List.length (beq_iff_eq.mp h)
  rwa [asciiLower, List.length_map, String.length_toList] at this

theorem isKeyword_take_append {keyword : String} (hk : IsSecondWord keyword) {r : List Char}
    (hr : Boundary r) (b : List Char) :
    isKeyword keyword ((b ++ r).take keyword.length) =
      isKeyword keyword (b.take keyword.length) := by
  by_cases hb : keyword.length ≤ b.length
  · rw [List.take_append_of_le_length hb]
  · -- the keyword would have to reach into `r`
    have hright : isKeyword keyword (b.take keyword.length) = false := by
      cases h : isKeyword keyword (b.take keyword.length) with
      | false => rfl
      | true =>
        have := length_of_isKeyword h
        rw [List.length_take] at this
        omega
    rw [hright]
    cases h : isKeyword keyword ((b ++ r).take keyword.length) with
    | false => rfl
    | true =>
      have hlength := length_of_isKeyword h
      cases r with
      | nil => simp only [List.append_nil, List.length_take] at hlength; omega
      | cons d r =>
        have hd : d ∈ (b ++ d :: r).take keyword.length := by
          rw [List.take_append, List.take_cons (by omega)]
          simp
        have hlower : d.toLower ∈ keyword.toList := by
          rw [← beq_iff_eq.mp h]
          exact List.mem_map_of_mem hd
        rcases hr d (by simp) with rfl | rfl
        · exact absurd rfl (hk.not_boundary hlower).1
        · exact absurd rfl (hk.not_boundary hlower).2

theorem secondWord?_append {keyword : String} (hk : IsSecondWord keyword) {r : List Char}
    (hr : Boundary r) (a : List Char) : secondWord? keyword (a ++ r) = secondWord? keyword a := by
  have hblanks := runLength_append (hr.not_of isBlank_boundary) a
  have hle := runLength_le isBlank a
  simp only [secondWord?, hblanks, List.drop_append_of_le_length hle, isKeyword_take_append hk hr]
  by_cases hword : isKeyword keyword ((a.drop (runLength isBlank a)).take keyword.length) = true
  · have hlength := length_of_isKeyword hword
    rw [List.length_take] at hlength
    rw [List.drop_append_of_le_length (by omega),
      head?_append_any (hr.not_of isWordPart_boundary)]
  · simp [hword]

theorem secondWord?_le {keyword : String} {cs : List Char} {n : Nat}
    (h : secondWord? keyword cs = some n) : n ≤ cs.length := by
  simp only [secondWord?] at h
  have hle := runLength_le isBlank cs
  split at h
  · rename_i hword
    have hlength := length_of_isKeyword hword.2.1
    rw [List.length_take, List.length_drop] at hlength
    cases h
    omega
  · cases h

theorem wordKind_append {r : List Char} (hr : Boundary r) (word a : List Char) :
    wordKind word (a ++ r) = wordKind word a := by
  unfold wordKind
  rw [secondWord?_append (.inl rfl) hr, secondWord?_append (.inr rfl) hr]

theorem wordKind_le (word rest : List Char) : (wordKind word rest).2 ≤ rest.length := by
  have second {keyword : String} {kind : ClauseKind} {x : ClauseKind × Nat}
      (h : (secondWord? keyword rest).map (kind, ·) = some x) : x.2 ≤ rest.length := by
    obtain ⟨m, hm, rfl⟩ := Option.map_eq_some_iff.mp h
    exact secondWord?_le hm
  have step {p : Prop} [Decidable p] {x y : TokenKind × Nat} (hx : x.2 = 0)
      (hy : y.2 ≤ rest.length) : (if p then x else y).2 ≤ rest.length := by
    split
    · omega
    · exact hy
  unfold wordKind
  iterate 11 refine step rfl ?_
  dsimp only
  split
  · rename_i kind length h
    split at h
    · exact second h
    · split at h
      · exact second h
      · split at h
        · exact second h
        · cases h
  · exact Nat.zero_le _

/-! ## Directives -/

/-- A comment or directive is read from its text, however the source goes on. -/
theorem scanComment_eq_ok {cs : List Char} {k : TokenKind} {n : Nat}
    (h : scanComment cs = .ok (k, n)) :
    ∃ m, commentLength? cs = some m ∧ n = m + 3 ∧ (k = .comment ∨ ∃ d, k = .directive d) := by
  unfold scanComment at h
  split at h
  · cases h
  · rename_i m hm
    refine ⟨m, hm, ?_⟩
    cases hd : directiveKind? (cs.take m) with
    | error e => simp [hd, bind, Except.bind] at h
    | ok d? =>
      simp only [hd, bind, Except.bind] at h
      cases d? with
      | none => cases h; exact ⟨rfl, .inl rfl⟩
      | some d =>
        simp only [pure, Except.pure] at h
        split at h
        · cases h
        · cases h; exact ⟨rfl, .inr ⟨d, rfl⟩⟩

theorem scanComment_append {r : List Char} (r' : List Char) {a : List Char} {k : TokenKind}
    {n : Nat} (h : scanComment (a ++ r) = .ok (k, n)) (hn : n ≤ a.length + 1) :
    scanComment (a ++ r') = .ok (k, n) := by
  obtain ⟨m, hm, rfl, -⟩ := scanComment_eq_ok h
  have hm' := commentLength?_append r' hm (by omega)
  have htake (s : List Char) : (a ++ s).take m = a.take m :=
    List.take_append_of_le_length (by omega)
  unfold scanComment at h ⊢
  simp only [hm, hm', htake] at h ⊢
  exact h

/-! ## Tokens -/

/-- Where `other` has its turn: no other kind of token starts so. -/
structure StartsOther (c : Char) (cs : List Char) : Prop where
  notBlank : ¬ isBlank c = true
  notBracket : c ≠ '(' ∧ c ≠ ')'
  notDelimiter : c ≠ ';'
  notQuote : c ≠ '\x27' ∧ c ≠ '"'
  notLineComment : ¬ (c = '-' ∧ cs.head? = some '-')
  notComment : ¬ (c = '/' ∧ cs.head? = some '*')
  notSigned : ¬ ((c = '+' ∨ c = '-') ∧ cs.head?.any Char.isDigit = true)
  notWord : ¬ isWordPart c = true

/-- The kind of a token and the number of its characters after the first. -/
inductive ScanRule (c : Char) (cs : List Char) : TokenKind → Nat → Prop where
  | blank : isBlank c = true → ScanRule c cs .blank (runLength isBlank cs)
  | openBracket : c = '(' → ScanRule c cs .openBracket 0
  | closeBracket : c = ')' → ScanRule c cs .closeBracket 0
  | delimiter : c = ';' → ScanRule c cs .delimiter 0
  | quote {n : Nat} : c = '\x27' → quotedLength? c cs = some n → ScanRule c cs .quote n
  | identifier {n : Nat} : c = '"' → quotedLength? c cs = some n → ScanRule c cs .word n
  | lineComment : c = '-' → cs.head? = some '-' →
      ScanRule c cs .comment (runLength (· ≠ '\n') cs)
  | comment {k : TokenKind} {n : Nat} : c = '/' → cs.head? = some '*' →
      scanComment (cs.drop 1) = .ok (k, n) → ScanRule c cs k n
  | signed : c = '+' ∨ c = '-' → cs.head?.any Char.isDigit = true →
      ScanRule c cs .word (runLength isWordPart cs)
  | word {length : Nat} : ¬ isBlank c = true → isWordPart c = true →
      length = runLength isWordPart cs →
      ScanRule c cs (wordKind (c :: cs.take length) (cs.drop length)).1
        (length + (wordKind (c :: cs.take length) (cs.drop length)).2)
  | other : StartsOther c cs → ScanRule c cs .other 0

theorem scanRule_of_scan {c : Char} {cs : List Char} {k : TokenKind} {n : Nat}
    (h : scan c cs = .ok (k, n)) : ScanRule c cs k n := by
  unfold scan at h
  by_cases hblank : isBlank c = true
  · rw [if_pos hblank] at h; cases h; exact .blank hblank
  rw [if_neg hblank] at h
  by_cases hopen : c = '('
  · rw [if_pos hopen] at h; cases h; exact .openBracket hopen
  rw [if_neg hopen] at h
  by_cases hclose : c = ')'
  · rw [if_pos hclose] at h; cases h; exact .closeBracket hclose
  rw [if_neg hclose] at h
  by_cases hdelimiter : c = ';'
  · rw [if_pos hdelimiter] at h; cases h; exact .delimiter hdelimiter
  rw [if_neg hdelimiter] at h
  by_cases hquote : c = '\x27'
  · rw [if_pos hquote] at h
    cases hq : quotedLength? c cs with
    | none => rw [hq] at h; cases h
    | some m => rw [hq] at h; cases h; exact .quote hquote hq
  rw [if_neg hquote] at h
  by_cases hidentifier : c = '"'
  · rw [if_pos hidentifier] at h
    cases hq : quotedLength? c cs with
    | none => rw [hq] at h; cases h
    | some m => rw [hq] at h; cases h; exact .identifier hidentifier hq
  rw [if_neg hidentifier] at h
  by_cases hline : c = '-' ∧ cs.head? = some '-'
  · rw [if_pos hline] at h; cases h; exact .lineComment hline.1 hline.2
  rw [if_neg hline] at h
  by_cases hcomment : c = '/' ∧ cs.head? = some '*'
  · rw [if_pos hcomment] at h; exact .comment hcomment.1 hcomment.2 h
  rw [if_neg hcomment] at h
  by_cases hsigned : (c = '+' ∨ c = '-') ∧ cs.head?.any Char.isDigit = true
  · rw [if_pos hsigned] at h; cases h; exact .signed hsigned.1 hsigned.2
  rw [if_neg hsigned] at h
  by_cases hword : isWordPart c = true
  · rw [if_pos hword] at h
    injection h with h
    injection h with hk hn
    subst hk hn
    exact .word hblank hword rfl
  rw [if_neg hword] at h
  cases h
  exact .other ⟨hblank, ⟨hopen, hclose⟩, hdelimiter, ⟨hquote, hidentifier⟩, hline, hcomment,
    hsigned, hword⟩

theorem ne_of_isWordPart {c : Char} (h : isWordPart c = true) :
    c ≠ '(' ∧ c ≠ ')' ∧ c ≠ ';' ∧ c ≠ '\x27' ∧ c ≠ '"' ∧ c ≠ '-' ∧ c ≠ '+' ∧ c ≠ '/' := by
  refine ⟨?_, ?_, ?_, ?_, ?_, ?_, ?_, ?_⟩ <;> rintro rfl <;> revert h <;> decide +kernel

theorem scan_of_scanRule {c : Char} {cs : List Char} {k : TokenKind} {n : Nat}
    (h : ScanRule c cs k n) : scan c cs = .ok (k, n) := by
  unfold scan
  cases h with
  | blank hc => rw [if_pos hc]
  | openBracket hc => subst hc; rfl
  | closeBracket hc => subst hc; rfl
  | delimiter hc => subst hc; rfl
  | quote hc hq =>
    subst hc
    iterate 4 rw [if_neg (by decide)]
    rw [if_pos rfl, hq]
  | identifier hc hq =>
    subst hc
    iterate 5 rw [if_neg (by decide)]
    rw [if_pos rfl, hq]
  | lineComment hc hcs =>
    subst hc
    iterate 6 rw [if_neg (by decide)]
    rw [if_pos ⟨rfl, hcs⟩]
  | comment hc hcs hcomment =>
    subst hc
    iterate 6 rw [if_neg (by decide)]
    rw [if_neg (by simp), if_pos ⟨rfl, hcs⟩, hcomment]
  | signed hc hcs =>
    have hdash : ¬ (c = '-' ∧ cs.head? = some '-') := by
      rintro ⟨-, h⟩
      rw [h] at hcs
      revert hcs
      decide
    have hslash : ¬ (c = '/' ∧ cs.head? = some '*') := by
      rintro ⟨rfl, -⟩
      revert hc
      decide
    rw [if_neg (by rcases hc with rfl | rfl <;> decide),
      if_neg (by rcases hc with rfl | rfl <;> decide),
      if_neg (by rcases hc with rfl | rfl <;> decide),
      if_neg (by rcases hc with rfl | rfl <;> decide),
      if_neg (by rcases hc with rfl | rfl <;> decide),
      if_neg (by rcases hc with rfl | rfl <;> decide),
      if_neg hdash, if_neg hslash, if_pos ⟨hc, hcs⟩]
  | word hblank hword hlength =>
    obtain ⟨h1, h2, h3, h4, h5, h6, h7, h8⟩ := ne_of_isWordPart hword
    rw [if_neg hblank, if_neg h1, if_neg h2, if_neg h3, if_neg h4, if_neg h5,
      if_neg fun h => h6 h.1, if_neg fun h => h8 h.1, if_neg fun h => h.1.elim h7 h6, if_pos hword,
      hlength]
  | other h =>
    rw [if_neg h.notBlank, if_neg h.notBracket.1, if_neg h.notBracket.2, if_neg h.notDelimiter,
      if_neg h.notQuote.1, if_neg h.notQuote.2, if_neg h.notLineComment, if_neg h.notComment,
      if_neg h.notSigned, if_neg h.notWord]

theorem scan_le {c : Char} {cs : List Char} {k : TokenKind} {n : Nat}
    (h : scan c cs = .ok (k, n)) : n ≤ cs.length := by
  cases scanRule_of_scan h with
  | blank | lineComment | signed => exact runLength_le _ _
  | openBracket | closeBracket | delimiter | other => exact Nat.zero_le _
  | quote _ hq | identifier _ hq => exact quotedLength?_le hq
  | comment _ _ hcomment =>
    obtain ⟨m, hm, rfl, -⟩ := scanComment_eq_ok hcomment
    have := commentLength?_le hm
    rw [List.length_drop] at this
    omega
  | word _ _ hlength =>
    have hrun := runLength_le isWordPart cs
    have := wordKind_le (c :: cs.take (runLength isWordPart cs)) (cs.drop (runLength isWordPart cs))
    rw [List.length_drop] at this
    subst hlength
    omega

/-- A token that ends within `a` is found whatever boundary comes after. A line comment that goes on
to the end of the source needs an end there. -/
theorem scan_of_boundary {c : Char} {a r r' : List Char} {k : TokenKind} {n : Nat}
    (h : scan c (a ++ r) = .ok (k, n)) (hn : n ≤ a.length) (hr : Boundary r) (hr' : Boundary r')
    (hend : k = .comment → c = '-' → n = a.length → r' = [] ∨ r ≠ []) :
    scan c (a ++ r') = .ok (k, n) := by
  apply scan_of_scanRule
  have blanks (s : List Char) (hs : Boundary s) := runLength_append (hs.not_of isBlank_boundary) a
  have words (s : List Char) (hs : Boundary s) :=
    runLength_append (hs.not_of isWordPart_boundary) a
  have digit (s : List Char) (hs : Boundary s) :=
    head?_append_any (hs.not_of isDigit_boundary) a
  have head (d : Char) (hd : d ≠ ';' ∧ d ≠ '/') :
      (a ++ r).head? = some d ↔ (a ++ r').head? = some d := by
    rw [head?_append_eq_some (hr.ne hd), head?_append_eq_some (hr'.ne hd)]
  cases scanRule_of_scan h with
  | blank hc => rw [blanks r hr, ← blanks r' hr']; exact .blank hc
  | openBracket hc => exact .openBracket hc
  | closeBracket hc => exact .closeBracket hc
  | delimiter hc => exact .delimiter hc
  | quote hc hq => exact .quote hc (quotedLength?_append (hr'.ne (by subst hc; decide)) hq hn)
  | identifier hc hq =>
    exact .identifier hc (quotedLength?_append (hr'.ne (by subst hc; decide)) hq hn)
  | lineComment hc hcs =>
    rcases Nat.lt_or_eq_of_le hn with hlt | heq
    · rw [← runLength_append_of_lt hlt r']
      exact .lineComment hc ((head '-' (by decide)).mp hcs)
    · -- the comment goes on to the end, so that nothing else follows
      have hr0 : r = [] := by
        cases r with
        | nil => rfl
        | cons d r =>
          have hd := head?_of_runLength_append heq d rfl
          rcases hr d rfl with rfl | rfl <;> simp at hd
      rw [(hend rfl hc heq).resolve_right (by simp [hr0])]
      rw [hr0] at hcs ⊢
      exact .lineComment hc hcs
  | comment hc hcs hcomment =>
    have hcs' := (head '*' (by decide)).mp hcs
    obtain ⟨e, b, rfl⟩ : ∃ e b, a = e :: b := by
      cases a with
      | nil => exact absurd rfl (hr.ne (by decide) _ hcs)
      | cons e b => exact ⟨e, b, rfl⟩
    exact .comment hc hcs' (scanComment_append r' hcomment hn)
  | signed hc hcs =>
    rw [words r hr, ← words r' hr']
    exact .signed hc (by rw [digit r' hr', ← digit r hr]; exact hcs)
  | word hblank hword hlength =>
    have hle := runLength_le isWordPart a
    rw [words r hr] at hlength
    subst hlength
    have htake : (a ++ r').take (runLength isWordPart a) = a.take (runLength isWordPart a) :=
      List.take_append_of_le_length hle
    have hdrop : (a ++ r').drop (runLength isWordPart a) = a.drop (runLength isWordPart a) ++ r' :=
      List.drop_append_of_le_length hle
    rw [List.take_append_of_le_length hle, List.drop_append_of_le_length hle, wordKind_append hr,
      ← wordKind_append hr', ← htake, ← hdrop]
    exact .word hblank hword (words r' hr').symm
  | other hother =>
    refine .other ⟨hother.notBlank, hother.notBracket, hother.notDelimiter, hother.notQuote, ?_, ?_,
      ?_, hother.notWord⟩
    · rw [← head '-' (by decide)]; exact hother.notLineComment
    · rw [← head '*' (by decide)]; exact hother.notComment
    · rw [digit r' hr', ← digit r hr]; exact hother.notSigned

end TwoWaySql.Template
