import TwoWaySql.Proofs.Expr.Grammar

/-!
# The tokens of an expression

What reading promises about the tokens: members and operators between operands come right after a
value, the open bracket of a function comes right after its name, a character literal has its
character, and each way of reading a token leaves the flag as the kind of the token says.
-/

namespace TwoWaySql.Expr

def TokenKind.isNumber : TokenKind → Bool
  | int | long | float | double | decimal => Bool.true
  | name | property | function | char | string | true | false | null | operator _ | openBracket
  | closeBracket | blank | other | stop => Bool.false

/-- The kinds of tokens that come after a value: members and operators between operands. -/
def TokenKind.needsValue : TokenKind → Bool
  | property | function | operator (.binary _) => Bool.true
  | _ => Bool.false

/-! ## Single tokens -/

theorem isNumber_of_suffixKind? {c : Char} {k : TokenKind} (h : suffixKind? c = some k) :
    k.isNumber = true := by
  unfold suffixKind? at h
  split at h <;> cases h <;> rfl

/-- What is read is a number, after which the flag is set. -/
def ScansNumber (flag : Bool) : Scanned → Prop
  | .token k _ next => k.isNumber = true ∧ next = true
  | .failure _ next => next = flag

section

variable {flag next fraction : Bool} {c : Char} {cs : List Char} {k : TokenKind} {length n : Nat}

theorem scansNumber_failure {cause : LexicalCause} : ScansNumber flag (.failure cause flag) := rfl

theorem ScansNumber.ite {p : Prop} [Decidable p] {x y : Scanned} (hx : ScansNumber flag x)
    (hy : ScansNumber flag y) : ScansNumber flag (if p then x else y) := by
  split
  · exact hx
  · exact hy

/-- A number with a suffix or without one, and whether another part of a word follows. -/
theorem scansNumber_suffix {kind? : Option TokenKind} {cause : LexicalCause} {word : Nat} :
    (∀ kind, kind? = some kind → kind.isNumber = true) →
    ScansNumber flag (if word ≠ 0 then .failure cause flag
      else match kind?, fraction with
        | none, false => .token .int length true
        | none, true | some .long, true => .failure cause flag
        | some kind, _ => .token kind length true) := by
  intro hkind
  refine .ite scansNumber_failure ?_
  split
  · exact ⟨rfl, rfl⟩
  · exact scansNumber_failure
  · exact scansNumber_failure
  · exact ⟨hkind _ rfl, rfl⟩

theorem scansNumber_scanSuffix : ScansNumber flag (scanSuffix flag c cs length fraction) := by
  unfold scanSuffix
  generalize cs.drop length = rest
  cases rest with
  | nil => exact scansNumber_suffix nofun
  | cons s after =>
    cases hsuffix : suffixKind? s with
    | none =>
      simp only [hsuffix]
      exact scansNumber_suffix nofun
    | some kind =>
      simp only [hsuffix]
      exact scansNumber_suffix fun _ h => Option.some.inj h ▸ isNumber_of_suffixKind? hsuffix

theorem scansNumber_scanNumber : ScansNumber flag (scanNumber flag c cs) := by
  unfold scanNumber
  dsimp only
  split
  · exact .ite scansNumber_failure (.ite scansNumber_failure scansNumber_scanSuffix)
  · exact scansNumber_scanSuffix

theorem isNumber_of_scanSuffix (h : scanSuffix flag c cs length fraction = .token k n next) :
    k.isNumber = true ∧ next = true := by
  have hscan : ScansNumber flag (scanSuffix flag c cs length fraction) := scansNumber_scanSuffix
  rwa [h] at hscan

theorem isNumber_of_scanNumber (h : scanNumber flag c cs = .token k n next) :
    k.isNumber = true ∧ next = true := by
  have hscan : ScansNumber flag (scanNumber flag c cs) := scansNumber_scanNumber
  rwa [h] at hscan

end

/-! ## The flag -/

/-- The flag after a token of the kind: blanks and the end leave it as it was, and else it is set if
and only if the token produces a value. -/
def TokenKind.leaves (k : TokenKind) (flag : Bool) : Bool :=
  if k = .blank ∨ k = .stop then flag else k.producesValue

theorem TokenKind.leaves_eq_producesValue {k : TokenKind} (h : k ≠ .blank ∧ k ≠ .stop)
    (flag : Bool) : k.leaves flag = k.producesValue := if_neg (not_or.mpr h)

/-- What reading a token promises. -/
structure Promises (flag : Bool) (cs : List Char) (k : TokenKind) (n : Nat) (next : Bool) :
    Prop where
  afterValue : k.needsValue = true → flag = true
  arguments : k = .function → (cs.drop n).head? = some '('
  character : k = .char → n = 2 ∧ 2 ≤ cs.length
  leaves : next = k.leaves flag

/-- What is read keeps the promises, and a failure leaves the flag as it was. -/
def Promised (flag : Bool) (cs : List Char) : Scanned → Prop
  | .token k n next => Promises flag cs k n next
  | .failure _ next => next = flag

section

variable {flag next : Bool} {cs : List Char} {k : TokenKind} {n : Nat}

theorem promised_failure {cause : LexicalCause} : Promised flag cs (.failure cause flag) := rfl

/-- Only what needs a value and characters promise more than the flag that they leave. -/
theorem promised_plain (hvalue : k.needsValue = false) (hchar : k ≠ .char)
    (hleaves : next = k.leaves flag) : Promised flag cs (.token k n next) := by
  refine ⟨fun h => absurd (hvalue.symm.trans h) nofun, ?_, fun h => absurd h hchar, hleaves⟩
  rintro rfl
  cases hvalue

theorem Promised.ite {p : Prop} [Decidable p] {x y : Scanned} (hx : Promised flag cs x)
    (hy : Promised flag cs y) : Promised flag cs (if p then x else y) := by
  split
  · exact hx
  · exact hy

theorem ScansNumber.promised {x : Scanned} (h : ScansNumber flag x) : Promised flag cs x := by
  cases x with
  | failure => exact h
  | token k n next =>
    obtain ⟨hnumber, rfl⟩ := h
    cases k with
    | int | long | float | double | decimal => exact promised_plain rfl nofun rfl
    | _ => cases hnumber

theorem promised_wordKind {word : List Char} :
    Promised flag cs (.token (wordKind word) n true) := by
  unfold wordKind
  split
  · exact promised_plain rfl nofun rfl
  · split
    · exact promised_plain rfl nofun rfl
    · split <;> exact promised_plain rfl nofun rfl

theorem promised_scanMember : Promised flag cs (scanMember flag cs) := by
  unfold scanMember
  cases cs with
  | nil => exact promised_failure
  | cons c cs =>
    refine .ite promised_failure ?_
    cases flag with
    | false => exact promised_failure
    | true =>
      rw [if_neg (by decide)]
      dsimp only
      split <;> rename_i hbracket
      · exact ⟨fun _ => rfl, fun _ => hbracket, nofun, rfl⟩
      · exact ⟨fun _ => rfl, nofun, nofun, rfl⟩

theorem promised_scan {c : Char} : Promised flag cs (scan flag c cs) := by
  unfold scan
  split
  · rename_i hop
    cases flag with
    | false => cases hop
    | true => exact ⟨fun _ => rfl, nofun, nofun, rfl⟩
  refine .ite ?blank (.ite ?comma (.ite ?openBracket (.ite ?closeBracket (.ite ?not
    (.ite ?character (.ite ?string (.ite scansNumber_scanNumber.promised (.ite promised_wordKind
      (.ite promised_scanMember ?other)))))))))
  case character =>
    split
    · exact ⟨nofun, nofun, fun _ => ⟨rfl, by simp⟩, rfl⟩
    · exact promised_failure
  case string =>
    split
    · exact promised_plain rfl nofun rfl
    · exact promised_failure
  all_goals exact promised_plain rfl nofun rfl

theorem promises_of_scan {c : Char} (h : scan flag c cs = .token k n next) :
    Promises flag cs k n next := by
  have hscan : Promised flag cs (scan flag c cs) := promised_scan
  rwa [h] at hscan

/-- A failure leaves the flag as it was. -/
theorem flag_of_failure {c : Char} {cause : LexicalCause}
    (h : scan flag c cs = .failure cause next) : next = flag := by
  have hscan : Promised flag cs (scan flag c cs) := promised_scan
  rwa [h] at hscan

end

/-! ## Tokens in order -/

/-- Members come after values, and functions before open brackets. -/
def Arranged : Bool → List Token → Prop
  | _, [] => True
  | flag, t :: ts =>
    (t.kind = .property ∨ t.kind = .function → flag = true) ∧
      (t.kind = .function → ∃ u us, ts = u :: us ∧ u.kind = .openBracket) ∧
      Arranged (t.kind.leaves flag) ts

theorem lexFrom_token {flag next : Bool} {c : Char} {cs : List Char} {k : TokenKind} {n : Nat}
    (h : scan flag c cs = .token k n next) (offset : Nat) :
    scanner.lexFrom flag offset (c :: cs) =
      let t : Token := ⟨k, String.ofList (c :: cs.take n), offset⟩
      let rest := scanner.lexFrom next t.stop (cs.drop n)
      ⟨t :: rest.tokens, rest.failure?⟩ := by
  rw [Scanner.lexFrom, show scanner.scan flag c cs = .token k n next from h]

theorem scan_openBracket (flag : Bool) (cs : List Char) :
    scan flag '(' cs = .token .openBracket 0 false := by
  unfold scan
  cases flag <;> rfl

/-- The open bracket that a text starts with is its first token. -/
theorem tokens_of_openBracket (flag : Bool) (offset : Nat) {cs : List Char}
    (h : cs.head? = some '(') :
    ∃ t ts, (scanner.lexFrom flag offset cs).tokens = t :: ts ∧ t.kind = .openBracket := by
  obtain ⟨rest, rfl⟩ := List.head?_eq_some_iff.mp h
  rw [lexFrom_token (scan_openBracket flag rest)]
  exact ⟨_, _, rfl, rfl⟩

theorem arranged_lexFrom (flag : Bool) (offset : Nat) (cs : List Char) :
    Arranged flag (scanner.lexFrom flag offset cs).tokens := by
  fun_induction scanner.lexFrom flag offset cs with
  | case1 =>
    refine ⟨fun h => ?_, fun h => ?_, trivial⟩
    · rcases h with h | h <;> cases h
    · cases h
  | case2 => trivial
  | case3 flag offset c cs kind n next h token rest ih =>
    have hpromises := promises_of_scan h
    have hmember (hkind : kind = .property ∨ kind = .function) : kind.needsValue = true := by
      rcases hkind with rfl | rfl <;> rfl
    refine ⟨fun hkind => hpromises.afterValue (hmember hkind),
      fun hkind => tokens_of_openBracket _ _ (hpromises.arguments hkind), ?_⟩
    rw [← hpromises.leaves]
    exact ih

/-- Literals other than numbers have a value. -/
theorem literalValue?_isSome {flag : Bool} {offset : Nat} {cs : List Char} {t : Token}
    (ht : t ∈ (scanner.lexFrom flag offset cs).tokens) (hliteral : t.kind.isLiteral = true)
    (hnumber : t.kind.isNumber = false) : (literalValue? t.kind t.text.toList).isSome = true := by
  fun_induction scanner.lexFrom flag offset cs with
  | case1 =>
    obtain rfl := List.mem_singleton.mp ht
    cases hliteral
  | case2 => cases ht
  | case3 flag offset c cs kind n next h token rest ih =>
    rcases List.mem_cons.mp ht with rfl | ht
    · cases kind with
      | string | true | false | null => rfl
      | char =>
        obtain ⟨rfl, hlength⟩ := (promises_of_scan h).character rfl
        have hcs : 0 < cs.length := by omega
        simpa [token, literalValue?] using hcs
      | int | long | float | double | decimal => cases hnumber
      | _ => cases hliteral
    · exact ih ht

end TwoWaySql.Expr
