import TwoWaySql.Proofs.Expr.Lexing

/-!
# Reading words and literals

Integers, characters, strings, truth values and null have literals: `writtenLiteral?` writes them,
and reading what it writes gives the value back (`reads_writtenLiteral?`).
-/

namespace TwoWaySql.Expr

open Number (Numeral digits ofDigits)
open Text (isBlank isIdentifier isIdentifierStart isIdentifierPart identifier_ascii
  isIdentifierPart_of_isDigit isBlank_of_isIdentifierPart)

variable {b : Bool} {c : Char} {k : TokenKind} {cs : List Char}

/-! ## Words -/

theorem takeWhile_of_all {p : Char → Bool} (h : cs.all p = true) : cs.takeWhile p = cs := by
  induction cs with
  | nil => rfl
  | cons c cs ih =>
    obtain ⟨hc, hcs⟩ := Bool.and_eq_true_iff.mp h
    rw [List.takeWhile_cons_of_pos hc, ih hcs]

/-- A word is read as a whole. -/
theorem scan_word (h : isIdentifier (c :: cs) = true) :
    scan false c cs = .token (wordKind (c :: cs)) cs.length true := by
  obtain ⟨hstart, hparts⟩ := Bool.and_eq_true_iff.mp h
  have hblank := isBlank_of_isIdentifierPart (Text.isIdentifierPart_of_start hstart)
  have hdigit : c.isDigit = false := by
    cases hdigit : c.isDigit with
    | false => rfl
    | true => rw [(isIdentifierPart_of_isDigit hdigit).2] at hstart; cases hstart
  -- no character with a meaning of its own starts a word
  have hne (d : Char) (hascii : d.toNat < 128)
      (hd : (d.isAlpha || d == '_' || d == '$') = false) : c ≠ d := by
    rintro rfl
    rw [(identifier_ascii hascii).2, hd] at hstart
    cases hstart
  rw [scan_false]
  unfold scanPlain
  rw [if_neg (by simp [hblank]),
    if_neg (hne ',' (by decide) (by decide)), if_neg (hne '(' (by decide) (by decide)),
    if_neg (hne ')' (by decide) (by decide)), if_neg (hne '!' (by decide) (by decide)),
    if_neg (hne '\x27' (by decide) (by decide)), if_neg (hne '"' (by decide) (by decide)),
    if_neg (by simp [hdigit, hne '+' (by decide) (by decide), hne '-' (by decide) (by decide)]),
    if_pos hstart, takeWhile_of_all hparts]

theorem scan_dot : scan true '.' cs = scanMember true cs := by
  have hblank : isBlank '.' = false := by decide
  have hstart : isIdentifierStart '.' = false := (identifier_ascii (by decide)).2
  rw [scan_eq_scanPlain fun _ => rfl]
  unfold scanPlain
  rw [if_neg (by simp [hblank]), if_neg (by decide),
    if_neg (by decide), if_neg (by decide), if_neg (by decide), if_neg (by decide),
    if_neg (by decide), if_neg (by simp), if_neg (by simp [hstart]), if_pos rfl]

/-- A member is a property in front of anything but a bracket. -/
theorem scan_property (h : isIdentifier cs = true) :
    scan true '.' cs = .token .property cs.length true := by
  cases cs with
  | nil => cases h
  | cons c cs =>
    obtain ⟨hstart, hparts⟩ := Bool.and_eq_true_iff.mp h
    rw [scan_dot, scanMember, if_neg (by simp [hstart]), if_neg (by simp)]
    simp [runLength, takeWhile_of_all hparts]

theorem scan_function (h : isIdentifier cs = true) (rest : List Char) :
    scan true '.' (cs ++ '(' :: rest) = .token .function cs.length false := by
  cases cs with
  | nil => cases h
  | cons c cs =>
    obtain ⟨hstart, hparts⟩ := Bool.and_eq_true_iff.mp h
    have hrun : runLength isIdentifierPart (cs ++ '(' :: rest) = cs.length := by
      have hbracket : isIdentifierPart '(' = false := (identifier_ascii (by decide)).1
      rw [Template.runLength_append (by simpa using hbracket), runLength, takeWhile_of_all hparts]
    rw [scan_dot, List.cons_append, scanMember, if_neg (by simp [hstart]), if_neg (by simp)]
    simp [hrun]

/-! ## Integers -/

theorem ofDigits_digits (n : Nat) : ofDigits (digits n) = n :=
  Nat.ofDigitChars_toDigits (by decide) (by decide)

theorem all_isDigit_digits (n : Nat) : (digits n).all Char.isDigit = true :=
  List.all_eq_true.mpr fun _ hc => Nat.isDigit_of_mem_toDigits (by decide) (by decide) hc

/-- The text of an integer: its sign, if it is negative, and its digits. -/
theorem toList_toString (n : Int) :
    (toString n).toList = (if n < 0 then ['-'] else []) ++ digits n.natAbs := by
  rw [Int.toString_eq_repr]
  cases n with
  | ofNat n =>
    rw [if_neg (by simp), List.nil_append]
    exact String.toList_ofList
  | negSucc n =>
    rw [if_pos (Int.negSucc_lt_zero n)]
    exact (String.toList_append ..).trans (congrArg ('-' :: ·) String.toList_ofList)

/-- What may follow the digits of an integer: the suffix of a long one, or nothing. -/
def IsSuffix (suffix : List Char) (k : TokenKind) : Prop :=
  suffix = [] ∧ k = .int ∨ suffix = ['L'] ∧ k = .long

theorem IsSuffix.isDigit {suffix : List Char} (h : IsSuffix suffix k) :
    ∀ d ∈ suffix.head?, d.isDigit = false := by
  rcases h with ⟨rfl, -⟩ | ⟨rfl, -⟩ <;> simp

theorem scanNumber_digits {flag : Bool} {suffix : List Char} (hcs : cs.all Char.isDigit = true)
    (hsuffix : IsSuffix suffix k) :
    scanNumber flag c (cs ++ suffix) = .token k (cs ++ suffix).length true := by
  have hrun : runLength Char.isDigit (cs ++ suffix) = cs.length := by
    rw [Template.runLength_append hsuffix.isDigit, runLength, takeWhile_of_all hcs]
  unfold scanNumber
  dsimp only
  rw [hrun, List.drop_left]
  rcases hsuffix with ⟨rfl, rfl⟩ | ⟨rfl, rfl⟩
  · refine scanSuffix_eq_token_iff.mpr (.inl ⟨rfl, rfl, by simp, ?_⟩)
    simp
  · refine scanSuffix_eq_token_iff.mpr
      (.inr ⟨'L', [], List.drop_left, rfl, by simp, by simp, by simp⟩)

theorem exists_digits (n : Nat) :
    ∃ d ds, digits n = d :: ds ∧ d.isDigit = true ∧ ds.all Char.isDigit = true := by
  have hall := all_isDigit_digits n
  cases hdigits : digits n with
  | nil => exact absurd hdigits Nat.toDigits_ne_nil
  | cons d ds =>
    rw [hdigits] at hall
    exact ⟨d, ds, rfl, Bool.and_eq_true_iff.mp hall⟩

/-- A digit, or a sign before a digit, starts a number. -/
theorem scan_number (h : c.isDigit = true ∨ c = '-' ∧ cs.head?.any Char.isDigit = true) :
    scan false c cs = scanNumber false c cs := by
  have hblank : isBlank c = false := by
    rcases h with h | ⟨rfl, -⟩
    · exact isBlank_of_isIdentifierPart (isIdentifierPart_of_isDigit h).1
    · decide
  have hne (d : Char) (hd : d.isDigit = false ∧ d ≠ '-') : c ≠ d := by
    rintro rfl
    rcases h with h | ⟨rfl, -⟩
    · rw [h] at hd
      cases hd.1
    · exact hd.2 rfl
  have hnumber : (c.isDigit || ((c = '+' || c = '-') && cs.head?.any Char.isDigit)) = true := by
    rcases h with h | ⟨rfl, h⟩ <;> simp [h]
  rw [scan_false]
  unfold scanPlain
  rw [if_neg (by simp [hblank]), if_neg (hne ',' (by decide)), if_neg (hne '(' (by decide)),
    if_neg (hne ')' (by decide)), if_neg (hne '!' (by decide)), if_neg (hne '\x27' (by decide)),
    if_neg (hne '"' (by decide)), if_pos hnumber]

theorem scan_integer (n : Int) {suffix : List Char} (hsuffix : IsSuffix suffix k) :
    ∃ c cs, (toString n).toList ++ suffix = c :: cs ∧
      scan false c cs = .token k cs.length true := by
  obtain ⟨d, ds, hdigits, hd, hds⟩ := exists_digits n.natAbs
  rw [toList_toString, hdigits]
  by_cases hn : n < 0
  · have hall : (d :: ds).all Char.isDigit = true := by simp [hd, hds]
    rw [if_pos hn]
    exact ⟨'-', (d :: ds) ++ suffix, rfl,
      (scan_number (.inr ⟨rfl, by simpa using hd⟩)).trans (scanNumber_digits hall hsuffix)⟩
  · rw [if_neg hn]
    exact ⟨d, ds ++ suffix, rfl, (scan_number (.inl hd)).trans (scanNumber_digits hds hsuffix)⟩

theorem toInt_read (n : Int) {suffix : List Char} (hsuffix : IsSuffix suffix k) :
    (Numeral.read ((toString n).toList ++ suffix)).1.toInt = n := by
  have hsign : Numeral.readSign ((toString n).toList ++ suffix) =
      (decide (n < 0), digits n.natAbs ++ suffix) := by
    rw [toList_toString]
    by_cases hn : n < 0
    · simp [hn, Numeral.readSign]
    · obtain ⟨d, ds, hdigits, hd, -⟩ := exists_digits n.natAbs
      rw [if_neg hn, hdigits, decide_eq_false hn, List.nil_append, List.cons_append]
      unfold Numeral.readSign
      split
      · rename_i heq
        cases heq
        cases hd
      · rename_i heq
        cases heq
        cases hd
      · rfl
  have htake : (digits n.natAbs ++ suffix).takeWhile Char.isDigit = digits n.natAbs := by
    rw [takeWhile_extends fun _ => hsuffix.isDigit, takeWhile_of_all (all_isDigit_digits _)]
  simp only [Numeral.read, hsign, htake, Numeral.toInt, ofDigits_digits]
  by_cases hn : n < 0
  · rw [decide_eq_true hn, if_pos rfl]
    omega
  · rw [decide_eq_false hn, if_neg Bool.false_ne_true]
    omega

/-! ## Strings -/

/-- The text with every quotation mark doubled. -/
def doubleQuotes : List Char → List Char
  | [] => []
  | c :: cs => if c = '"' then '"' :: '"' :: doubleQuotes cs else c :: doubleQuotes cs

theorem stringLength?_doubleQuotes (cs : List Char) :
    stringLength? (doubleQuotes cs ++ ['"']) = some (doubleQuotes cs ++ ['"']).length := by
  induction cs with
  | nil => rfl
  | cons c cs ih =>
    unfold doubleQuotes
    split
    · rw [List.cons_append, List.cons_append, stringLength?, ih]
      rfl
    · rename_i hc
      rw [List.cons_append, stringLength?, if_neg hc, ih]
      · rfl
      · rintro _ rfl
        exact absurd rfl hc

theorem unquote_doubleQuotes (cs : List Char) : unquote (doubleQuotes cs ++ ['"']) = cs := by
  induction cs with
  | nil => rfl
  | cons c cs ih =>
    unfold doubleQuotes
    split
    · rename_i hc
      rw [List.cons_append, List.cons_append, unquote, ih, hc]
    · rename_i hc
      rw [List.cons_append, unquote, ih]
      · rintro _ rfl
        exact absurd rfl hc
      · rintro rfl
        exact absurd rfl hc

/-! ## Literals -/

/-- The kind and the text of the literal that a value is written as. Numbers other than integers are
not written here. -/
def writtenLiteral? : Value → Option (TokenKind × List Char)
  | .int n => some (.int, (toString n.toInt).toList)
  | .long n => some (.long, (toString n.toInt).toList ++ ['L'])
  | .char c => some (.char, ['\x27', c, '\x27'])
  | .string s => some (.string, '"' :: (doubleQuotes s.toList ++ ['"']))
  | .bool true => some (.true, "true".toList)
  | .bool false => some (.false, "false".toList)
  | .null => some (.null, "null".toList)
  | .float _ | .double _ | .decimal _ | .list _ | .pair _ _ | .triple _ _ _ | .record _ => none

/-- What is written as a literal is one token, and its value is the one that is written. -/
theorem reads_writtenLiteral? {v : Value} {text : List Char}
    (h : writtenLiteral? v = some (k, text)) :
    k.isLiteral = true ∧ literalValue? k text = some v ∧
      ∃ c cs, text = c :: cs ∧ scan false c cs = .token k cs.length true := by
  cases v with
  | int n =>
    cases h
    have hplain : IsSuffix [] .int := .inl ⟨rfl, rfl⟩
    have hread := toInt_read n.toInt hplain
    have hscan := scan_integer n.toInt hplain
    rw [List.append_nil] at hread hscan
    refine ⟨rfl, ?_, hscan⟩
    simp only [literalValue?, hread]
    rw [Number.int32?_eq_some_iff.mpr rfl]
    rfl
  | long n =>
    cases h
    have hlong : IsSuffix ['L'] .long := .inr ⟨rfl, rfl⟩
    refine ⟨rfl, ?_, scan_integer n.toInt hlong⟩
    simp only [literalValue?, toInt_read n.toInt hlong]
    rw [Number.int64?_eq_some_iff.mpr rfl]
    rfl
  | char d =>
    cases h
    refine ⟨rfl, rfl, _, _, rfl, ?_⟩
    rfl
  | string s =>
    cases h
    refine ⟨rfl, ?_, _, _, rfl, ?_⟩
    · simp [literalValue?, unquote_doubleQuotes]
    · rw [scan_false]
      unfold scanPlain
      rw [stringLength?_doubleQuotes]
      rfl
  | bool value =>
    cases value with
    | true =>
      cases h
      exact ⟨rfl, rfl, _, _, rfl, scan_word (by decide +kernel)⟩
    | false =>
      cases h
      exact ⟨rfl, rfl, _, _, rfl, scan_word (by decide +kernel)⟩
  | null =>
    cases h
    exact ⟨rfl, rfl, _, _, rfl, scan_word (by decide +kernel)⟩
  | _ => cases h

end TwoWaySql.Expr
