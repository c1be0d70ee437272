import TwoWaySql.Proofs.Expr.Lexing
import TwoWaySql.Proofs.Spans

/-!
# The order of the tokens of an expression

Each way of reading a token leaves a flag for the next one, which tells whether operators between
operands and members are read there. In every state that reading can come to, the flag says exactly
whether a value comes before, blanks and the end apart (`flag_eq_true_iff`); a failure changes
nothing of it. So these tokens stand after values only, and else reading an expression loses
nothing, as reading a template does. Only the end is read without a look at the flag, which may
still be set after it (`flag_survives_end`).
-/

namespace TwoWaySql

namespace Scanner

variable {σ κ ε : Type} {s : Scanner σ κ ε}

/-- Where the reading of a source can be: after some tokens, in the state that they leave, at a byte
offset with the text that is left. The end may be read any number of times, and after a failure
reading may go on at any later place. -/
inductive Reaches (s : Scanner σ κ ε) (first : σ) (source : List Char) :
    List (Token κ) → σ → Nat → List Char → Prop where
  | start : Reaches s first source [] first 0 source
  | token {ts : List (Token κ)} {state next : σ} {offset length : Nat} {c : Char} {cs : List Char}
      {kind : κ} : Reaches s first source ts state offset (c :: cs) →
      s.scan state c cs = .token kind length next →
      Reaches s first source (ts ++ [⟨kind, String.ofList (c :: cs.take length), offset⟩])
        next (offset + byteLength (c :: cs.take length)) (cs.drop length)
  | failure {ts : List (Token κ)} {state next : σ} {offset : Nat} {c : Char} {cs : List Char}
      {cause : ε} (length : Nat) : Reaches s first source ts state offset (c :: cs) →
      s.scan state c cs = .failure cause next →
      Reaches s first source ts next (offset + byteLength (c :: cs.take length)) (cs.drop length)
  | stop {ts : List (Token κ)} {state : σ} {offset : Nat} :
      Reaches s first source ts state offset [] →
      Reaches s first source (ts ++ [⟨s.stop, "", offset⟩]) state offset []

/-- Every token of a text is read where reading can be after the tokens before it. -/
theorem Reaches.before {first state : σ} {source rest : List Char} {ts us vs : List (Token κ)}
    {offset : Nat} {t : Token κ} (h : s.Reaches first source ts state offset rest)
    (htokens : (s.lexFrom state offset rest).tokens = us ++ t :: vs) :
    ∃ state' offset' rest', s.Reaches first source (ts ++ us) state' offset' rest' ∧
      (s.lexFrom state' offset' rest').tokens = t :: vs := by
  induction us generalizing ts state offset rest with
  | nil => exact ⟨state, offset, rest, by rwa [List.append_nil], htokens⟩
  | cons u us ih =>
    rcases lexFrom_eq_cons htokens with ⟨-, -, hnil⟩ | ⟨c, cs, length, next, rfl, hscan, hu, hrest⟩
    · simp at hnil
    · have hnext := ih (h.token hscan) hrest
      rwa [← hu, List.append_assoc] at hnext

/-- The end is read only where no text is left. -/
theorem Reaches.not_stop {first state : σ} {source rest : List Char} {ts : List (Token κ)}
    {offset : Nat} (h : s.Reaches first source ts state offset rest) (hs : s.NeverStops)
    (hrest : rest ≠ []) : ∀ t ∈ ts, t.kind ≠ s.stop := by
  induction h with
  | start => exact List.forall_mem_nil _
  | token _ hscan ih =>
    rw [List.forall_mem_append, List.forall_mem_singleton]
    exact ⟨ih (List.cons_ne_nil _ _), hs _ _ _ _ _ _ hscan⟩
  | failure _ _ _ ih => exact ih (List.cons_ne_nil _ _)
  | stop => exact absurd rfl hrest

end Scanner

namespace Expr

/-- The last token that is no blank produces a value. -/
def FollowsValue (ts : List Token) : Prop :=
  ∃ t, (ts.filter (·.kind ≠ .blank)).getLast? = some t ∧ t.kind.producesValue = true

/-- The tokens without the end. -/
def withoutEnd (ts : List Token) : List Token := ts.filter (·.kind ≠ .stop)

section

variable {ts : List Token} {t : Token} {kind : TokenKind}

theorem filter_concat_of_ne (h : t.kind ≠ kind) :
    (ts ++ [t]).filter (·.kind ≠ kind) = ts.filter (·.kind ≠ kind) ++ [t] := by
  rw [List.filter_append, List.filter_cons_of_pos (by simp [h]), List.filter_nil]

theorem filter_concat_of_eq (h : t.kind = kind) :
    (ts ++ [t]).filter (·.kind ≠ kind) = ts.filter (·.kind ≠ kind) := by
  rw [List.filter_append, List.filter_cons_of_neg (by simp [h]), List.filter_nil, List.append_nil]

theorem withoutEnd_eq_self (h : ∀ t ∈ ts, t.kind ≠ .stop) : withoutEnd ts = ts :=
  List.filter_eq_self.mpr fun t ht => decide_eq_true (h t ht)

theorem withoutEnd_concat (h : t.kind ≠ .stop) : withoutEnd (ts ++ [t]) = withoutEnd ts ++ [t] :=
  filter_concat_of_ne h

theorem withoutEnd_stop (h : t.kind = .stop) : withoutEnd (ts ++ [t]) = withoutEnd ts :=
  filter_concat_of_eq h

theorem followsValue_concat (h : t.kind ≠ .blank) :
    FollowsValue (ts ++ [t]) ↔ t.kind.producesValue = true := by
  rw [FollowsValue, filter_concat_of_ne h, List.getLast?_concat]
  simp

theorem followsValue_blank (h : t.kind = .blank) : FollowsValue (ts ++ [t]) ↔ FollowsValue ts := by
  rw [FollowsValue, filter_concat_of_eq h, FollowsValue]

end

theorem scanner_neverStops : scanner.NeverStops := fun _ _ _ _ _ _ h => (extends_scan _ _ _ h).1

variable {source rest : List Char} {ts : List Token} {flag : Bool} {offset : Nat}

/-- The flag that is left is set if and only if a value comes before. Each way of reading a token
leaves the flag by itself, and it is left as the kind of the token says. -/
theorem flag_eq_true_iff (h : scanner.Reaches false source ts flag offset rest) :
    flag = true ↔ FollowsValue (withoutEnd ts) := by
  induction h with
  | start => simp [FollowsValue, withoutEnd]
  | @token ts flag next offset length c cs kind _ hscan ih =>
    have hstop : kind ≠ .stop := scanner_neverStops _ _ _ _ _ _ hscan
    rw [withoutEnd_concat hstop, (promises_of_scan hscan).leaves]
    by_cases hblank : kind = .blank
    · rw [followsValue_blank hblank, hblank]
      exact ih
    · rw [followsValue_concat hblank, kind.leaves_eq_producesValue ⟨hblank, hstop⟩]
  | failure _ _ hscan ih =>
    rw [flag_of_failure hscan]
    exact ih
  | stop _ ih =>
    rw [withoutEnd_stop rfl]
    exact ih

/-- As long as text is left, the end has not been read. -/
theorem withoutEnd_of_reaches (h : scanner.Reaches false source ts flag offset rest)
    (hrest : rest ≠ []) : withoutEnd ts = ts :=
  withoutEnd_eq_self (h.not_stop scanner_neverStops hrest)

/-- Operators between operands and members are read where the flag is set. -/
theorem flag_of_needsValue {t : Token} (h : (scanner.lexFrom flag offset rest).tokens = t :: ts)
    (ht : t.kind.needsValue = true) : flag = true ∧ rest ≠ [] := by
  rcases Scanner.lexFrom_eq_cons h with ⟨-, hstop, -⟩ | ⟨c, cs, length, next, rfl, hscan, -⟩
  · rw [hstop] at ht
    cases ht
  · exact ⟨(promises_of_scan hscan).afterValue ht, List.cons_ne_nil _ _⟩

/-- Reading an expression loses nothing, and a failure is located after the tokens before it. In
every state that reading can come to, also after a failure, the flag is set if and only if the last
token but for blanks and the end produces a value; as long as text is left, there is no end to leave
out. What is found there is within the text, and operators between operands and members directly
follow a value, blanks apart. Each token is read in such a state. -/
theorem lex_followsValue (source : String) :
    (lex source).Lossless .stop source.toList ∧
      (∀ failure, (lex source).failure? = some failure →
        (Error.ofFailure source failure).location = ⟨source, byteLength (lex source).text⟩) ∧
      (∀ ts flag offset rest, scanner.Reaches false source.toList ts flag offset rest →
        (flag = true ↔ FollowsValue (withoutEnd ts)) ∧
        (rest ≠ [] → withoutEnd ts = ts) ∧
        ∀ c cs kind length next, rest = c :: cs → scan flag c cs = .token kind length next →
          length ≤ cs.length ∧ (kind.needsValue = true → FollowsValue ts)) ∧
      ∀ before t after, (lex source).tokens = before ++ t :: after →
        (∃ flag offset rest, scanner.Reaches false source.toList before flag offset rest ∧
          (scanner.lexFrom flag offset rest).tokens = t :: after) ∧
        (t.kind.needsValue = true → FollowsValue before) := by
  have hfollows {ts : List Token} {flag : Bool} {offset : Nat} {rest : List Char}
      (h : scanner.Reaches false source.toList ts flag offset rest) (hflag : flag = true)
      (hrest : rest ≠ []) : FollowsValue ts := by
    have hvalue := (flag_eq_true_iff h).mp hflag
    rwa [withoutEnd_of_reaches h hrest] at hvalue
  refine ⟨scanner_neverStops.lossless false source.toList, fun ⟨cause, offset⟩ hfailure => ?_,
    fun ts flag offset rest h => ⟨flag_eq_true_iff h, withoutEnd_of_reaches h, ?_⟩,
    fun before t after htokens => ?_⟩
  · have hoffset := scanner.offset_failure hfailure
    exact congrArg (Location.mk source) hoffset
  · rintro c cs kind length next rfl hscan
    exact ⟨(extends_scan _ _ _ hscan).2.1,
      fun hneeds => hfollows h ((promises_of_scan hscan).afterValue hneeds) (List.cons_ne_nil _ _)⟩
  · have hstart : scanner.Reaches false source.toList [] false 0 source.toList := .start
    obtain ⟨flag, offset, rest, hreaches, hnext⟩ := hstart.before htokens
    refine ⟨⟨flag, offset, rest, hreaches, hnext⟩, fun hneeds => ?_⟩
    obtain ⟨hflag, hrest⟩ := flag_of_needsValue hnext hneeds
    exact hfollows hreaches hflag hrest

/-- After `a` and the end the flag is still set, although the end produces no value. -/
theorem flag_survives_end :
    (lex "a").tokens = [⟨.name, "a", 0⟩, ⟨.stop, "", 1⟩] ∧
      scanner.Reaches false "a".toList (lex "a").tokens true 1 [] ∧
      ¬ FollowsValue (lex "a").tokens := by
  have htokens : (lex "a").tokens = [⟨.name, "a", 0⟩, ⟨.stop, "", 1⟩] := by decide +kernel
  have hname : scanner.scan false 'a' [] = .token .name 0 true := rfl
  have hreaches := (Scanner.Reaches.start.token hname).stop
  rw [htokens]
  refine ⟨rfl, hreaches, ?_⟩
  rintro ⟨t, hlast, hvalue⟩
  cases hlast
  cases hvalue

end Expr

end TwoWaySql
