import TwoWaySql.Proofs.Lexing

/-!
# The tokens of a template

`lex_induction` follows the reading of a text from one token to the next. The other way round, the
tokens of a text tell how it is split: after the first ones comes a text that is read as the others
(`lexFrom_eq_append`).
-/

namespace TwoWaySql.Template

open Text

/-- Whether the statement ends with the token. -/
def Token.isEnd (t : Token) : Bool := t.kind = .stop || t.kind = .delimiter

/-- The tokens of a template up to its first semicolon. -/
def statementTokens (source : String) : List Token :=
  (lex source).tokens.takeWhile fun t => !Token.isEnd t

theorem isEnd_of_mem_statementTokens {source : String} {t : Token}
    (h : t ∈ statementTokens source) : Token.isEnd t = false := by
  simpa using List.all_eq_true.mp List.all_takeWhile t h

/-! ## Reading one token after the other -/

theorem lexFrom_nil (offset : Nat) :
    scanner.lexFrom () offset [] = ⟨[⟨.stop, "", offset⟩], none⟩ := by
  rw [Scanner.lexFrom]; rfl

theorem scanner_eq_failure {c : Char} {cs : List Char} {cause : LexicalCause}
    (h : scan c cs = .error cause) : scanner.scan () c cs = .failure cause () := by
  dsimp only [scanner]
  rw [h]

theorem scanner_eq_token_iff {c : Char} {cs : List Char} {k : TokenKind} {n : Nat} {state : Unit} :
    scanner.scan () c cs = .token k n state ↔ scan c cs = .ok (k, n) := by
  dsimp only [scanner]
  cases hscan : scan c cs with
  | error => exact ⟨nofun, nofun⟩
  | ok found => exact ⟨fun h => by cases h; rfl, fun h => by cases h; rfl⟩

theorem lexFrom_error {c : Char} {cs : List Char} {cause : LexicalCause}
    (h : scan c cs = .error cause) (offset : Nat) :
    scanner.lexFrom () offset (c :: cs) = ⟨[], some (cause, offset)⟩ := by
  rw [Scanner.lexFrom, scanner_eq_failure h]

theorem lexFrom_token {c : Char} {cs : List Char} {k : TokenKind} {n : Nat}
    (h : scan c cs = .ok (k, n)) (offset : Nat) :
    scanner.lexFrom () offset (c :: cs) =
      let t : Token := ⟨k, String.ofList (c :: cs.take n), offset⟩
      let rest := scanner.lexFrom () t.stop (cs.drop n)
      ⟨t :: rest.tokens, rest.failure?⟩ := by
  rw [Scanner.lexFrom, scanner_eq_token_iff.mpr h]

/-- What holds at the end and where reading fails, and before each token if it holds after it, holds
of every text. -/
theorem lex_induction {motive : List Char → Prop} (nil : motive [])
    (error : ∀ c cs cause, scan c cs = .error cause → motive (c :: cs))
    (token : ∀ c cs k n, scan c cs = .ok (k, n) → motive (cs.drop n) → motive (c :: cs)) :
    (cs : List Char) → motive cs
  | [] => nil
  | c :: cs =>
    match h : scan c cs with
    | .error cause => error c cs cause h
    | .ok (k, n) => token c cs k n h (lex_induction nil error token (cs.drop n))
termination_by cs => cs.length
decreasing_by simp only [List.length_cons, List.length_drop]; omega

/-! ## Kinds of tokens -/

/-- The kinds that the characters of words can have. -/
def TokenKind.IsWord : TokenKind → Prop
  | .word | .clause _ | .set _ | .connector _ => True
  | _ => False

theorem wordKind_isWord (word rest : List Char) : (wordKind word rest).1.IsWord := by
  have step {p : Prop} [Decidable p] {x y : TokenKind × Nat} (hx : x.1.IsWord) (hy : y.1.IsWord) :
      (if p then x else y).1.IsWord := by
    split
    · exact hx
    · exact hy
  unfold wordKind
  iterate 11 refine step trivial ?_
  dsimp only
  split <;> trivial

/-- How a token of a kind starts. -/
theorem scan_start {c : Char} {cs : List Char} {k : TokenKind} {n : Nat}
    (h : scan c cs = .ok (k, n)) :
    k ≠ .stop ∧ (k = .delimiter → c = ';') ∧ (∀ d, k = .directive d → c = '/') ∧
      (k = .openBracket → c = '(' ∧ n = 0) ∧ (k = .closeBracket → c = ')' ∧ n = 0) := by
  cases scanRule_of_scan h with
  | comment hc _ hcomment =>
    obtain ⟨-, -, -, rfl | ⟨d, rfl⟩⟩ := scanComment_eq_ok hcomment <;> simp [hc]
  | @word length =>
    have hword := wordKind_isWord (c :: cs.take length) (cs.drop length)
    revert hword
    generalize (wordKind _ _).1 = k
    cases k <;> simp [TokenKind.IsWord]
  | openBracket hc | closeBracket hc | delimiter hc => simp [hc]
  | _ => simp

theorem scan_blank {c : Char} {cs : List Char} {n : Nat} (h : scan c cs = .ok (.blank, n)) :
    isBlank c = true ∧ n = runLength isBlank cs := by
  generalize hk : TokenKind.blank = k at h
  cases scanRule_of_scan h with
  | blank hc => exact ⟨hc, rfl⟩
  | comment _ _ hcomment =>
    obtain ⟨-, -, -, rfl | ⟨d, rfl⟩⟩ := scanComment_eq_ok hcomment <;> cases hk
  | @word length =>
    have hword := wordKind_isWord (c :: cs.take length) (cs.drop length)
    rw [← hk] at hword
    exact hword.elim
  | _ => cases hk

/-- A comment goes on to the end of the line or is closed. -/
theorem scan_comment {c : Char} {cs : List Char} {n : Nat} (h : scan c cs = .ok (.comment, n)) :
    (c = '-' ∧ cs.head? = some '-' ∧ n = runLength (· ≠ '\n') cs) ∨
      (c = '/' ∧ cs.head? = some '*' ∧ scanComment (cs.drop 1) = .ok (.comment, n)) := by
  generalize hk : TokenKind.comment = k at h
  cases scanRule_of_scan h with
  | lineComment hc hcs => exact .inl ⟨hc, hcs, rfl⟩
  | comment hc hcs hcomment => exact .inr ⟨hc, hcs, hcomment⟩
  | @word length =>
    have hword := wordKind_isWord (c :: cs.take length) (cs.drop length)
    rw [← hk] at hword
    exact hword.elim
  | _ => cases hk

/-! ## Tokens of a text -/

/-- The text of a token is the start of the source, and the tokens after it are those of the
rest. -/
theorem lexFrom_eq_cons {offset : Nat} {cs : List Char} {t : Token} {ts : List Token}
    (h : (scanner.lexFrom () offset cs).tokens = t :: ts) (hend : Token.isEnd t = false) :
    ∃ c a rest, cs = c :: (a ++ rest) ∧ t.text = String.ofList (c :: a) ∧
      scan c (a ++ rest) = .ok (t.kind, a.length) ∧
      (scanner.lexFrom () (Token.stop t) rest).tokens = ts := by
  obtain ⟨-, hstop, -⟩ | ⟨c, cs, n, next, rfl, hscan, ht, hrest⟩ := Scanner.lexFrom_eq_cons h
  · rw [Token.isEnd, hstop] at hend
    cases hend
  · rw [scanner_eq_token_iff] at hscan
    refine ⟨c, cs.take n, cs.drop n, by rw [List.take_append_drop], by rw [ht], ?_, ?_⟩
    · rw [List.take_append_drop, List.length_take_of_le (scan_le hscan)]
      exact hscan
    · rw [ht, Token.stop, String.toList_ofList]
      exact hrest

/-- What is left after some tokens is read as the tokens after them. -/
theorem lexFrom_eq_append {offset : Nat} {cs : List Char} {ts us : List Token}
    (h : (scanner.lexFrom () offset cs).tokens = ts ++ us)
    (hend : ∀ t ∈ ts, Token.isEnd t = false) :
    ∃ offset' rest, (scanner.lexFrom () offset' rest).tokens = us := by
  induction ts generalizing offset cs with
  | nil => exact ⟨offset, cs, h⟩
  | cons t ts ih =>
    obtain ⟨ht, hts⟩ := List.forall_mem_cons.mp hend
    obtain ⟨c, a, rest, -, -, -, hrest⟩ := lexFrom_eq_cons h ht
    exact ih hrest hts

/-- What holds of the end and of every token that is read holds of all tokens. -/
theorem forall_mem_lexFrom {p : Token → Prop} (stop : ∀ offset, p ⟨.stop, "", offset⟩)
    (token : ∀ c cs k n offset, scan c cs = .ok (k, n) →
      p ⟨k, String.ofList (c :: cs.take n), offset⟩) (cs : List Char) (offset : Nat) :
    ∀ t ∈ (scanner.lexFrom () offset cs).tokens, p t := by
  induction cs using lex_induction generalizing offset with
  | nil =>
    rw [lexFrom_nil, List.forall_mem_singleton]
    exact stop offset
  | error c cs cause h => simp [lexFrom_error h]
  | token c cs k n h ih =>
    rw [lexFrom_token h]
    exact List.forall_mem_cons.mpr ⟨token c cs k n offset h, ih _⟩

theorem isBlank_of_mem_text {offset : Nat} {cs : List Char} {t : Token}
    (ht : t ∈ (scanner.lexFrom () offset cs).tokens) (hkind : t.kind = .blank) :
    ∀ c ∈ t.text.toList, isBlank c = true := by
  refine forall_mem_lexFrom (p := fun t => t.kind = .blank → ∀ c ∈ t.text.toList, isBlank c = true)
    (fun _ => nofun) (fun c cs k n _ h hk => ?_) cs offset t ht hkind
  obtain rfl : k = .blank := hk
  obtain ⟨hc, rfl⟩ := scan_blank h
  rw [String.toList_ofList, take_runLength, List.forall_mem_cons]
  exact ⟨hc, List.all_eq_true.mp List.all_takeWhile⟩

end TwoWaySql.Template
