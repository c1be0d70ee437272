import TwoWaySql.Location

/-!
# Scanners

A scanner finds the kind of the token that a text starts with, how many characters after the first
belong to it, and the state in which the text after it is read. So a token is never empty and its
text is a piece of the source. `lexFrom` repeats it up to the end or the first failure; the texts of
the tokens, put together, are the source up to there (`lexFrom_texts`).
-/

namespace TwoWaySql

/-- How many characters from here on satisfy `p`. -/
def runLength (p : Char → Bool) (cs : List Char) : Nat := (cs.takeWhile p).length

theorem take_runLength (p : Char → Bool) (cs : List Char) :
    cs.take (runLength p cs) = cs.takeWhile p :=
  (List.prefix_iff_eq_take.mp (List.takeWhile_prefix p)).symm

theorem drop_runLength (p : Char → Bool) (cs : List Char) :
    cs.drop (runLength p cs) = cs.dropWhile p := by
  have h : (cs.takeWhile p ++ cs.dropWhile p).drop (runLength p cs) = cs.dropWhile p :=
    List.drop_left
  rwa [List.takeWhile_append_dropWhile] at h

/-- A token, with the text it was written as and the byte offset of its first character. -/
structure Token (κ : Type) where
  kind : κ
  text : String
  start : Nat
  deriving DecidableEq

/-- The byte offset after the token. -/
def Token.stop {κ : Type} (t : Token κ) : Nat := t.start + byteLength t.text.toList

/-- What a text was read as: its tokens, and if the reading stopped before the end, why and at which
byte offset. -/
structure Lexed (κ ε : Type) where
  tokens : List (Token κ)
  failure? : Option (ε × Nat)

/-- The text of all tokens together. -/
def Lexed.text {κ ε : Type} (l : Lexed κ ε) : List Char := l.tokens.flatMap (·.text.toList)

/-- What is found where a text starts, and the state that is left in either case. -/
inductive Scan (σ κ ε : Type) where
  /-- A token of the kind, to which a number of characters after the first belong. -/
  | token (kind : κ) (length : Nat) (state : σ)
  /-- No token, for a cause. -/
  | failure (cause : ε) (state : σ)

/-- The kind of the token that is found, if one is. -/
def Scan.kind? {σ κ ε : Type} : Scan σ κ ε → Option κ
  | token kind _ _ => some kind
  | failure _ _ => none

/-- How a language is read. The state says what matters of the tokens before. -/
structure Scanner (σ κ ε : Type) where
  /-- What starts with a character. -/
  scan : σ → Char → List Char → Scan σ κ ε
  /-- The kind of the token at the end. -/
  stop : κ

namespace Scanner

variable {σ κ ε : Type}

/-- The tokens of `cs`, which starts at a byte offset of the source. -/
def lexFrom (s : Scanner σ κ ε) (state : σ) (offset : Nat) : List Char → Lexed κ ε
  | [] => ⟨[⟨s.stop, "", offset⟩], none⟩
  | c :: cs =>
    match s.scan state c cs with
    | .failure cause _ => ⟨[], some (cause, offset)⟩
    | .token kind length next =>
      let token : Token κ := ⟨kind, String.ofList (c :: cs.take length), offset⟩
      let rest := s.lexFrom next token.stop (cs.drop length)
      { rest with tokens := token :: rest.tokens }
termination_by cs => cs.length
decreasing_by simp only [List.length_cons, List.length_drop]; omega

/-- The tokens are the text up to where the reading stopped, which is the end unless it failed. -/
theorem lexFrom_texts (s : Scanner σ κ ε) (state : σ) (offset : Nat) (cs : List Char) :
    ∃ rest, (s.lexFrom state offset cs).text ++ rest = cs ∧
      ((s.lexFrom state offset cs).failure? = none → rest = []) ∧
      ∀ cause n, (s.lexFrom state offset cs).failure? = some (cause, n) →
        n = offset + byteLength (s.lexFrom state offset cs).text := by
  fun_induction lexFrom s state offset cs with
  | case1 => exact ⟨[], by simp [Lexed.text]⟩
  | case2 state offset c cs => exact ⟨c :: cs, by simp [Lexed.text, byteLength]⟩
  | case3 state offset c cs kind length next h token rest ih =>
    obtain ⟨more, htext, hnone, hsome⟩ := ih
    have e : Lexed.text { rest with tokens := token :: rest.tokens }
        = (c :: cs.take length) ++ rest.text := by simp [Lexed.text, token]
    refine ⟨more, ?_, hnone, ?_⟩
    · rw [e, List.append_assoc, htext, List.cons_append, List.take_append_drop]
    · intro cause n hn
      have hstop : token.stop = offset + byteLength (c :: cs.take length) := by
        simp [token, Token.stop]
      have hrest : n = token.stop + byteLength rest.text := hsome cause n hn
      rw [e, byteLength_append]
      omega

/-- The first token of a text is the end, or it is found where the text starts. -/
theorem lexFrom_eq_cons {s : Scanner σ κ ε} {state : σ} {offset : Nat} {cs : List Char}
    {t : Token κ} {ts : List (Token κ)} (h : (s.lexFrom state offset cs).tokens = t :: ts) :
    (cs = [] ∧ t.kind = s.stop ∧ ts = []) ∨
      ∃ c rest length next, cs = c :: rest ∧ s.scan state c rest = .token t.kind length next ∧
        t = ⟨t.kind, String.ofList (c :: rest.take length), offset⟩ ∧
        (s.lexFrom next (offset + byteLength (c :: rest.take length))
          (rest.drop length)).tokens = ts := by
  cases cs with
  | nil =>
    rw [lexFrom] at h
    obtain ⟨rfl, rfl⟩ := List.cons.inj h
    exact .inl ⟨rfl, rfl, rfl⟩
  | cons c rest =>
    rw [lexFrom] at h
    split at h
    · cases h
    · rename_i kind length next hscan
      obtain ⟨rfl, rfl⟩ := List.cons.inj h
      refine .inr ⟨c, rest, length, next, rfl, hscan, rfl, ?_⟩
      rw [Token.stop, String.toList_ofList]

end Scanner

end TwoWaySql
