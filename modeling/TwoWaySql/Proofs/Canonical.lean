import TwoWaySql.Proofs.Tokens
import TwoWaySql.Template.Parser

/-!
# The canonical form of a template

The canonical form writes the tokens of a template up to its first semicolon one after the other,
with `else` and `end` directives in one form. `lex_canonical`: read again, it has the same tokens.
-/

namespace TwoWaySql.Template

/-- The text of a token, in one form for `else` and one for `end`. -/
def Token.canonicalText (t : Token) : String :=
  match t.kind with
  | .directive .elseBranch => "/*%else*/"
  | .directive .blockEnd => "/*%end*/"
  | _ => t.text

/-- The token wherever it stands. -/
def Token.bare (t : Token) : Token := ⟨t.kind, Token.canonicalText t, 0⟩

def canonicalChars (ts : List Token) : List Char :=
  ts.flatMap fun t => (Token.canonicalText t).toList

/-! ## Reading the canonical form -/

theorem scan_else (cs : List Char) :
    scan '/' ("*%else*/".toList ++ cs) = .ok (.directive .elseBranch, 8) := by
  rfl

theorem scan_end (cs : List Char) :
    scan '/' ("*%end*/".toList ++ cs) = .ok (.directive .blockEnd, 7) := by
  rfl

/-- Only `else` and `end` have a text of their own. -/
theorem canonicalText_cases (t : Token) :
    Token.canonicalText t = t.text ∨
      (t.kind = .directive .elseBranch ∧ Token.canonicalText t = "/*%else*/") ∨
      (t.kind = .directive .blockEnd ∧ Token.canonicalText t = "/*%end*/") := by
  obtain ⟨kind, text, start⟩ := t
  unfold Token.canonicalText
  split
  · exact .inr (.inl ⟨‹_›, rfl⟩)
  · exact .inr (.inr ⟨‹_›, rfl⟩)
  · exact .inl rfl

/-- There is an end among the tokens. -/
def Ends (ts : List Token) : Prop := ∃ t ∈ ts, Token.isEnd t = true

def untilEnd (ts : List Token) : List Token := ts.takeWhile fun t => !Token.isEnd t

theorem isEnd_eq_false {t : Token} (hstop : t.kind ≠ .stop) (hdelimiter : t.kind ≠ .delimiter) :
    Token.isEnd t = false := by
  simp [Token.isEnd, hstop, hdelimiter]

theorem untilEnd_cons {t : Token} (h : Token.isEnd t = false) (ts : List Token) :
    untilEnd (t :: ts) = t :: untilEnd ts := by
  simp [untilEnd, h]

theorem Ends.tail {t : Token} {ts : List Token} (h : Ends (t :: ts))
    (ht : Token.isEnd t = false) : Ends ts := by
  obtain ⟨u, hu, hend⟩ := h
  rcases List.mem_cons.mp hu with rfl | hu
  · rw [ht] at hend; cases hend
  · exact ⟨u, hu, hend⟩

/-- The source and its canonical form agree up to a boundary in both. -/
structure Agree (cs canonical : List Char) : Prop where
  exists_common : ∃ a r r', cs = a ++ r ∧ canonical = a ++ r' ∧ Boundary r ∧ Boundary r' ∧
    (r' = [] ∨ r ≠ [])

theorem Agree.append {cs canonical : List Char} (h : Agree cs canonical) (a : List Char) :
    Agree (a ++ cs) (a ++ canonical) := by
  obtain ⟨b, r, r', rfl, rfl, hr⟩ := h
  exact ⟨a ++ b, r, r', by simp, by simp, hr⟩

theorem agree_canonicalChars (cs : List Char) (offset : Nat)
    (hend : Ends (scanner.lexFrom () offset cs).tokens) :
    Agree cs (canonicalChars (untilEnd (scanner.lexFrom () offset cs).tokens)) := by
  induction cs using lex_induction generalizing offset with
  | nil => exact ⟨[], [], [], rfl, by simp [lexFrom_nil, untilEnd, Token.isEnd, canonicalChars],
      boundary_nil, boundary_nil, .inl rfl⟩
  | error c cs cause h => simp [lexFrom_error h, Ends] at hend
  | token c cs k n h ih =>
    obtain ⟨hstop, hdelimiter, hdirective, -⟩ := scan_start h
    rw [lexFrom_token h] at hend ⊢
    by_cases hk : k = .delimiter
    · obtain rfl := hdelimiter hk
      refine ⟨[], ';' :: cs, [], rfl, ?_, boundary_semicolon cs, boundary_nil, .inl rfl⟩
      simp [untilEnd, Token.isEnd, hk, canonicalChars]
    have ht : Token.isEnd (⟨k, String.ofList (c :: cs.take n), offset⟩ : Token) = false :=
      isEnd_eq_false hstop hk
    dsimp only at hend ⊢
    rw [untilEnd_cons ht, canonicalChars, List.flatMap_cons]
    rcases canonicalText_cases ⟨k, String.ofList (c :: cs.take n), offset⟩
      with e | ⟨e, e'⟩ | ⟨e, e'⟩
    · have hagree := (ih _ (hend.tail ht)).append (c :: cs.take n)
      rw [List.cons_append, List.take_append_drop] at hagree
      rw [e, String.toList_ofList]
      exact hagree
    · obtain rfl := hdirective _ e
      rw [e']
      exact ⟨[], '/' :: cs, _, rfl, rfl, boundary_slash cs, boundary_slash _, .inr (by simp)⟩
    · obtain rfl := hdirective _ e
      rw [e']
      exact ⟨[], '/' :: cs, _, rfl, rfl, boundary_slash cs, boundary_slash _, .inr (by simp)⟩

/-- A token that agrees with a token of the source is read as that. -/
theorem lexFrom_agree {c : Char} {cs canonical : List Char} {k : TokenKind} {n : Nat}
    (h : scan c cs = .ok (k, n)) (hagree : Agree (cs.drop n) canonical) (offset : Nat) :
    scanner.lexFrom () offset (c :: cs.take n ++ canonical) =
      let t : Token := ⟨k, String.ofList (c :: cs.take n), offset⟩
      let rest := scanner.lexFrom () t.stop canonical
      ⟨t :: rest.tokens, rest.failure?⟩ := by
  obtain ⟨a, r, r', hcs, rfl, hr, hr', hend⟩ := hagree
  have hlength : (cs.take n).length = n := by rw [List.length_take]; have := scan_le h; omega
  have hsplit : cs = (cs.take n ++ a) ++ r := by
    rw [List.append_assoc, ← hcs, List.take_append_drop]
  have hscan : scan c ((cs.take n ++ a) ++ r') = .ok (k, n) := by
    refine scan_of_boundary (r := r) ?_ (by simp [hlength]) hr hr' fun _ _ _ => hend
    rw [← hsplit]
    exact h
  rw [List.cons_append, ← List.append_assoc, lexFrom_token hscan]
  have htake : ((cs.take n ++ a) ++ r').take n = cs.take n := by
    rw [List.append_assoc, List.take_left' hlength]
  have hdrop : ((cs.take n ++ a) ++ r').drop n = a ++ r' := by
    rw [List.append_assoc, List.drop_left' hlength]
  rw [htake, hdrop]

/-- What the canonical form of tokens is read as: tokens like those, and then the end. -/
def ReadsAs (l : Lexed TokenKind LexicalCause) (ts : List Token) : Prop :=
  ∃ ts' stop, l = ⟨ts' ++ [⟨.stop, "", stop⟩], none⟩ ∧ ts'.map Token.bare = ts.map Token.bare

theorem ReadsAs.cons {l : Lexed TokenKind LexicalCause} {ts : List Token} (h : ReadsAs l ts)
    {t t' : Token} (ht : Token.bare t' = Token.bare t) :
    ReadsAs ⟨t' :: l.tokens, l.failure?⟩ (t :: ts) := by
  obtain ⟨ts', stop, rfl, he⟩ := h
  exact ⟨t' :: ts', stop, rfl, by simp [ht, he]⟩

theorem readsAs_canonicalChars (cs : List Char) (offset : Nat)
    (hend : Ends (scanner.lexFrom () offset cs).tokens) (offset' : Nat) :
    ReadsAs (scanner.lexFrom () offset'
        (canonicalChars (untilEnd (scanner.lexFrom () offset cs).tokens)))
      (untilEnd (scanner.lexFrom () offset cs).tokens) := by
  induction cs using lex_induction generalizing offset offset' with
  | nil =>
    rw [lexFrom_nil]
    exact ⟨[], offset', lexFrom_nil offset', rfl⟩
  | error c cs cause h => simp [lexFrom_error h, Ends] at hend
  | token c cs k n h ih =>
    obtain ⟨hstop, -, hdirective, -⟩ := scan_start h
    rw [lexFrom_token h] at hend ⊢
    by_cases hk : k = .delimiter
    · have hnil (ts : List Token) :
          untilEnd (⟨k, String.ofList (c :: cs.take n), offset⟩ :: ts) = [] := by
        simp [untilEnd, Token.isEnd, hk]
      dsimp only
      rw [hnil]
      exact ⟨[], offset', lexFrom_nil offset', rfl⟩
    have ht : Token.isEnd (⟨k, String.ofList (c :: cs.take n), offset⟩ : Token) = false :=
      isEnd_eq_false hstop hk
    dsimp only at hend ⊢
    have hrest := hend.tail ht
    rw [untilEnd_cons ht, canonicalChars, List.flatMap_cons]
    rcases canonicalText_cases ⟨k, String.ofList (c :: cs.take n), offset⟩
      with e | ⟨e, e'⟩ | ⟨e, e'⟩
    · rw [e, String.toList_ofList]
      have hread := lexFrom_agree h (agree_canonicalChars _ _ hrest) offset'
      rw [canonicalChars] at hread
      rw [hread]
      exact (ih _ hrest _).cons rfl
    · obtain rfl : k = .directive .elseBranch := e
      rw [e']
      change ReadsAs (scanner.lexFrom () offset' ('/' :: ("*%else*/".toList ++ _))) _
      rw [lexFrom_token (scan_else _)]
      exact (ih _ hrest _).cons rfl
    · obtain rfl : k = .directive .blockEnd := e
      rw [e']
      change ReadsAs (scanner.lexFrom () offset' ('/' :: ("*%end*/".toList ++ _))) _
      rw [lexFrom_token (scan_end _)]
      exact (ih _ hrest _).cons rfl

/-! ## Templates -/

/-- The template in canonical form. -/
def canonicalTemplate (source : String) : String :=
  String.join ((statementTokens source).map Token.canonicalText)

theorem lex_canonical {source : String} (h : Ends (lex source).tokens) :
    ReadsAs (lex (canonicalTemplate source)) (statementTokens source) := by
  have hread := readsAs_canonicalChars source.toList 0 h 0
  rwa [canonicalChars, ← List.flatMap_map, ← String.toList_join] at hread

/-- Reading stops early, or there is an end. -/
theorem lex_ends {source : String} (h : (lex source).failure? = none) :
    Ends (lex source).tokens := by
  suffices ∀ cs offset, (scanner.lexFrom () offset cs).failure? = none →
      Ends (scanner.lexFrom () offset cs).tokens from this _ 0 h
  intro cs
  induction cs using lex_induction with
  | nil => intro offset _; rw [lexFrom_nil]; exact ⟨_, List.mem_singleton_self _, rfl⟩
  | error c cs cause h => intro offset hnone; rw [lexFrom_error h] at hnone; cases hnone
  | token c cs k n h ih =>
    intro offset hnone
    rw [lexFrom_token h] at hnone ⊢
    obtain ⟨t, ht, hend⟩ := ih _ hnone
    exact ⟨t, List.mem_cons_of_mem _ ht, hend⟩

end TwoWaySql.Template
