import TwoWaySql.Proofs.Characters
import TwoWaySql.Proofs.Expr.Tokens
import TwoWaySql.Proofs.Lexing

/-!
# What follows a token of an expression

A token is found by looking at most at the character after it: where it may stand before another
character, that one may follow instead of the end (`extends_scan`).
-/

namespace TwoWaySql.Expr

open Text (isBlank isIdentifierStart isIdentifierPart identifier_ascii isIdentifierPart_of_isDigit
  isDigit_of_isIdentifierPart)
open Template (runLength_le runLength_append runLength_append_of_lt)

/-- Whether a character after a token of the kind leaves the token as it is. -/
def TokenKind.mayPrecede : TokenKind → Char → Bool
  | name, c | long, c | float, c | double, c | decimal, c => !isIdentifierPart c
  | true, c | false, c | null, c => !isIdentifierPart c
  | property, c | function, c => !isIdentifierPart c && c ≠ '('
  | int, c => !isIdentifierPart c && c ≠ '.'
  | string, c => c ≠ '"'
  | blank, c => !isBlank c
  | operator _, c => c ≠ '='
  | other, c => !c.isDigit && c ≠ '&' && c ≠ '|' && c ≠ '='
  | char, _ | openBracket, _ | closeBracket, _ | stop, _ => Bool.true

/-- What a reader finds at the start of the text is not the end, it is within the text, and it is
found also if more follows that may stand after it. -/
def Extends (reader : List Char → Scanned) (a : List Char) : Prop :=
  ∀ k n next, reader a = .token k n next → k ≠ .stop ∧ n ≤ a.length ∧
    ∀ r, (n = a.length → ∀ d ∈ r.head?, k.mayPrecede d = true) →
      reader (a ++ r) = .token k n next

variable {a r : List Char} {b next : Bool} {c : Char} {k : TokenKind} {n : Nat}

/-! ## Runs -/

theorem runLength_eq_zero_iff {p : Char → Bool} :
    runLength p a = 0 ↔ ∀ c ∈ a.head?, p c = false := by
  cases a with
  | nil => simp [runLength]
  | cons c a => cases h : p c <;> simp [runLength, h]

/-- A run ends within the text or where more follows. -/
theorem runLength_extends {p : Char → Bool}
    (h : runLength p a = a.length → ∀ c ∈ r.head?, p c = false) :
    runLength p (a ++ r) = runLength p a := by
  by_cases hend : runLength p a = a.length
  · exact runLength_append (h hend) a
  · have hlt := Nat.lt_of_le_of_ne (runLength_le p a) hend
    have heq := runLength_append_of_lt (r := []) (by rwa [List.append_nil]) r
    rwa [List.append_nil] at heq

theorem takeWhile_extends {p : Char → Bool}
    (h : runLength p a = a.length → ∀ c ∈ r.head?, p c = false) :
    (a ++ r).takeWhile p = a.takeWhile p := by
  rw [← take_runLength, runLength_extends h, List.take_append_of_le_length (runLength_le p a),
    take_runLength]

theorem head?_drop_append (h : n < a.length) : ((a ++ r).drop n).head? = (a.drop n).head? := by
  rw [List.head?_drop, List.head?_drop, List.getElem?_append_left h]

/-! ## Parts of the reader -/

/-- A token of one character. -/
theorem extends_one (hk : k ≠ .stop) : Extends (fun _ => .token k 0 next) a := by
  rintro _ _ _ ⟨⟩
  exact ⟨hk, Nat.zero_le _, fun _ _ => rfl⟩

theorem Extends.ite {p : Prop} [Decidable p] {x y : List Char → Scanned} (hx : Extends x a)
    (hy : Extends y a) : Extends (fun cs => if p then x cs else y cs) a := by
  by_cases hp : p
  · simp only [if_pos hp]
    exact hx
  · simp only [if_neg hp]
    exact hy

theorem extends_blank : Extends (fun cs => .token .blank (runLength isBlank cs) b) a := by
  rintro _ _ _ ⟨⟩
  refine ⟨nofun, runLength_le isBlank a, fun r hr => ?_⟩
  dsimp only
  rw [runLength_extends fun hend d hd => by simpa [TokenKind.mayPrecede] using hr hend d hd]

theorem isIdentifierPart_false (hword : k = .name ∨ k = .true ∨ k = .false ∨ k = .null)
    (h : k.mayPrecede c = true) : isIdentifierPart c = false := by
  rcases hword with rfl | rfl | rfl | rfl <;> simpa [TokenKind.mayPrecede] using h

theorem wordKind_cases (word : List Char) :
    wordKind word = .name ∨ wordKind word = .true ∨ wordKind word = .false ∨
      wordKind word = .null := by
  unfold wordKind
  split
  · exact .inr (.inl rfl)
  · split
    · exact .inr (.inr (.inl rfl))
    · split
      · exact .inr (.inr (.inr rfl))
      · exact .inl rfl

theorem extends_word :
    Extends (fun cs => .token (wordKind (c :: cs.takeWhile isIdentifierPart))
      (cs.takeWhile isIdentifierPart).length true) a := by
  rintro _ _ _ ⟨⟩
  have hk : wordKind (c :: a.takeWhile isIdentifierPart) ≠ .stop := by
    rcases wordKind_cases (c :: a.takeWhile isIdentifierPart) with h | h | h | h <;> rw [h] <;>
      exact nofun
  refine ⟨hk, runLength_le isIdentifierPart a, fun r hr => ?_⟩
  have hrun : (a ++ r).takeWhile isIdentifierPart = a.takeWhile isIdentifierPart :=
    takeWhile_extends fun hend d hd => isIdentifierPart_false (wordKind_cases _) (hr hend d hd)
  dsimp only
  rw [hrun]

theorem extends_member : Extends (scanMember b) a := by
  intro k n next h
  cases a with
  | nil => cases h
  | cons c a =>
    simp only [scanMember] at h
    split at h
    · cases h
    rename_i hstart
    split at h
    · cases h
    rename_i hvalue
    have hle := runLength_le isIdentifierPart a
    obtain ⟨hk, hn⟩ : (k = .property ∨ k = .function) ∧ n = runLength isIdentifierPart a + 1 := by
      split at h <;> cases h
      · exact ⟨.inr rfl, rfl⟩
      · exact ⟨.inl rfl, rfl⟩
    refine ⟨by rcases hk with rfl | rfl <;> decide, by rw [hn, List.length_cons]; omega,
      fun r hr => ?_⟩
    have hpart (hend : runLength isIdentifierPart a = a.length) :
        ∀ d ∈ r.head?, isIdentifierPart d = false ∧ d ≠ '(' := fun d hd => by
      have := hr (by rw [hn, hend, List.length_cons]) d hd
      rcases hk with rfl | rfl <;> simpa [TokenKind.mayPrecede] using this
    have hrun : runLength isIdentifierPart (a ++ r) = runLength isIdentifierPart a :=
      runLength_extends fun hend d hd => (hpart hend d hd).1
    have hbracket : ((a ++ r).drop (runLength isIdentifierPart a)).head? = some '(' ↔
        (a.drop (runLength isIdentifierPart a)).head? = some '(' := by
      by_cases hend : runLength isIdentifierPart a = a.length
      · rw [hend, List.drop_left, List.drop_length]
        exact ⟨fun hr => absurd rfl (hpart hend _ hr).2, fun h => by cases h⟩
      · rw [head?_drop_append (by omega)]
    simp only [List.cons_append, scanMember, if_neg hstart, if_neg hvalue, hrun, hbracket]
    exact h

theorem extends_char : Extends (fun cs => match cs with
    | _ :: '\x27' :: _ => .token .char 2 true
    | _ => .failure .unclosedChar b) a := by
  intro k n next h
  dsimp only at h
  split at h
  · cases h
    exact ⟨nofun, by simp, fun r _ => rfl⟩
  · cases h

theorem stringLength?_extends (h : stringLength? a = some n) :
    n ≤ a.length ∧ ((n = a.length → ∀ d ∈ r.head?, d ≠ '"') → stringLength? (a ++ r) = some n) := by
  fun_induction stringLength? a generalizing n with
  | case1 => cases h
  | case2 cs ih =>
    obtain ⟨m, hm, rfl⟩ := Option.map_eq_some_iff.mp h
    obtain ⟨hle, hmore⟩ := ih hm
    refine ⟨by simpa using hle, fun hr => ?_⟩
    rw [List.cons_append, List.cons_append, stringLength?,
      hmore fun hend => hr (by simpa using hend)]
    rfl
  | case3 cs hquote =>
    cases h
    refine ⟨by simp, fun hr => ?_⟩
    cases cs with
    | nil =>
      cases r with
      | nil => rfl
      | cons d r =>
        rw [List.cons_append, List.nil_append, stringLength?]
        · simp
        · rintro _ _ ⟨⟩
          exact hr rfl _ rfl rfl
    | cons d cs =>
      rw [List.cons_append, List.cons_append, stringLength?]
      · simp
      · rintro _ _ ⟨⟩
        exact hquote _ rfl rfl
  | case4 c cs hquote hc ih =>
    obtain ⟨m, hm, rfl⟩ := Option.map_eq_some_iff.mp h
    obtain ⟨hle, hmore⟩ := ih hm
    refine ⟨by simpa using hle, fun hr => ?_⟩
    rw [List.cons_append, stringLength?, if_neg hc, hmore fun hend => hr (by simpa using hend)]
    · rfl
    · rintro _ rfl
      exact absurd rfl hc

theorem extends_string : Extends (fun cs => match stringLength? cs with
    | some length => .token .string length true
    | none => .failure .unclosedString b) a := by
  intro k n next h
  dsimp only at h ⊢
  cases hlength : stringLength? a with
  | none =>
    rw [hlength] at h
    cases h
  | some length =>
    rw [hlength] at h
    cases h
    refine ⟨nofun, (stringLength?_extends (r := []) hlength).1, fun r hr => ?_⟩
    rw [(stringLength?_extends hlength).2 fun hend d hd => by
      simpa [TokenKind.mayPrecede] using hr hend d hd]

/-! ## Numbers -/

theorem isIdentifierPart_of_isNumber (hk : k.isNumber = true) (h : k.mayPrecede c = true) :
    isIdentifierPart c = false := by
  cases k with
  | int => simp [TokenKind.mayPrecede] at h; exact h.1
  | long | float | double | decimal => simpa [TokenKind.mayPrecede] using h
  | _ => cases hk

theorem isIdentifierPart_of_suffixKind? (h : suffixKind? c = some k) :
    isIdentifierPart c = true := by
  unfold suffixKind? at h
  split at h
  case h_5 => cases h
  all_goals exact (identifier_ascii (by decide)).1

/-- What a number ends with decides which number it is. -/
theorem suffix_eq_token_iff {kind? : Option TokenKind} {fraction : Bool} {cause : LexicalCause}
    {word length : Nat} :
    (if word ≠ 0 then .failure cause b
      else match kind?, fraction with
        | none, false => .token .int length true
        | none, true | some .long, true => .failure cause b
        | some kind, _ => .token kind length true : Scanned) = .token k n true ↔
      word = 0 ∧ n = length ∧ (kind? = none ∧ fraction = false ∧ k = .int ∨
        kind? = some k ∧ (fraction = true → k ≠ .long)) := by
  by_cases hword : word = 0
  · rw [if_neg (not_not_intro hword)]
    constructor
    · intro h
      split at h <;> cases h
      · exact ⟨hword, rfl, .inl ⟨rfl, rfl, rfl⟩⟩
      · rename_i hlong
        exact ⟨hword, rfl, .inr ⟨rfl, fun hfraction => hlong hfraction⟩⟩
    · rintro ⟨-, rfl, ⟨rfl, rfl, rfl⟩ | ⟨rfl, hlong⟩⟩
      · rfl
      · cases fraction with
        | false => cases k <;> rfl
        | true => cases k <;> first | rfl | exact absurd rfl (hlong rfl)
  · rw [if_pos hword]
    exact ⟨nofun, fun h => absurd h.1 hword⟩

/-- Digits are followed by no part of a word, or by a suffix and then none. -/
theorem scanSuffix_eq_token_iff {m : Nat} {fraction : Bool} :
    scanSuffix b c a m fraction = .token k n true ↔
      (fraction = false ∧ k = .int ∧ n = m ∧ ∀ d ∈ (a.drop m).head?, isIdentifierPart d = false) ∨
      ∃ s after, a.drop m = s :: after ∧ suffixKind? s = some k ∧ (fraction = true → k ≠ .long) ∧
        n = m + 1 ∧ ∀ d ∈ after.head?, isIdentifierPart d = false := by
  unfold scanSuffix
  generalize a.drop m = rest
  have hplain (hnone : ∀ s ∈ rest.head?, suffixKind? s = none) :
      ¬ ∃ s after, rest = s :: after ∧ suffixKind? s = some k ∧ (fraction = true → k ≠ .long) ∧
        n = m + 1 ∧ ∀ d ∈ after.head?, isIdentifierPart d = false := by
    rintro ⟨s, after, rfl, hsuffix, -⟩
    rw [hnone s rfl] at hsuffix
    cases hsuffix
  cases rest with
  | nil =>
    rw [or_iff_left (hplain nofun), ← runLength_eq_zero_iff]
    refine suffix_eq_token_iff.trans ⟨?_, ?_⟩
    · rintro ⟨hword, rfl, ⟨-, rfl, rfl⟩ | ⟨h, -⟩⟩
      · exact ⟨rfl, rfl, rfl, hword⟩
      · cases h
    · rintro ⟨rfl, rfl, rfl, hword⟩
      exact ⟨hword, rfl, .inl ⟨rfl, rfl, rfl⟩⟩
  | cons s after =>
    cases hsuffix : suffixKind? s with
    | none =>
      rw [or_iff_left (hplain (by simpa using hsuffix)), ← runLength_eq_zero_iff]
      simp only [hsuffix]
      refine suffix_eq_token_iff.trans ⟨?_, ?_⟩
      · rintro ⟨hword, rfl, ⟨-, rfl, rfl⟩ | ⟨h, -⟩⟩
        · exact ⟨rfl, rfl, rfl, hword⟩
        · cases h
      · rintro ⟨rfl, rfl, rfl, hword⟩
        exact ⟨hword, rfl, .inl ⟨rfl, rfl, rfl⟩⟩
    | some kind =>
      simp only [hsuffix]
      refine suffix_eq_token_iff.trans ⟨?_, ?_⟩
      · rintro ⟨hword, rfl, ⟨h, -⟩ | ⟨hkind, hlong⟩⟩
        · cases h
        · exact .inr ⟨s, after, rfl, hsuffix ▸ hkind, hlong, rfl, runLength_eq_zero_iff.mp hword⟩
      · rintro (⟨-, -, -, hpart⟩ | ⟨_, _, ⟨⟩, hkind, hlong, rfl, hword⟩)
        · have hs := hpart s rfl
          rw [isIdentifierPart_of_suffixKind? hsuffix] at hs
          cases hs
        · exact ⟨runLength_eq_zero_iff.mpr hword, rfl, .inr ⟨hsuffix ▸ hkind, hlong⟩⟩

/-- Where the digits are within the text, the whole number is. A fraction does not end with its
digits. -/
theorem scanSuffix_extends {m : Nat} {fraction : Bool} (hm : m ≤ a.length)
    (h : scanSuffix b c a m fraction = .token k n true) :
    m ≤ n ∧ n ≤ a.length ∧ (fraction = true → m < a.length) ∧
      ∀ r, (n = a.length → ∀ d ∈ r.head?, k.mayPrecede d = true) →
        scanSuffix b c (a ++ r) m fraction = .token k n true := by
  have hnumber := (isNumber_of_scanSuffix h).1
  have hlength : (a.drop m).length = a.length - m := List.length_drop
  rcases scanSuffix_eq_token_iff.mp h with ⟨rfl, rfl, rfl, hpart⟩ |
    ⟨s, after, hdrop, hsuffix, hlong, rfl, hpart⟩
  · refine ⟨Nat.le_refl _, hm, nofun, fun r hr => scanSuffix_eq_token_iff.mpr (.inl ?_)⟩
    refine ⟨rfl, rfl, rfl, ?_⟩
    rcases Nat.eq_or_lt_of_le hm with hend | hlt
    · rw [hend, List.drop_left]
      exact fun d hd => isIdentifierPart_of_isNumber hnumber (hr hend d hd)
    · rwa [head?_drop_append hlt]
  · rw [hdrop, List.length_cons] at hlength
    refine ⟨Nat.le_succ m, by omega, fun _ => by omega, fun r hr => ?_⟩
    refine scanSuffix_eq_token_iff.mpr (.inr ⟨s, after ++ r, ?_, hsuffix, hlong, rfl, ?_⟩)
    · rw [List.drop_append_of_le_length hm, hdrop, List.cons_append]
    · cases after with
      | nil =>
        rw [List.length_nil] at hlength
        exact fun d hd => isIdentifierPart_of_isNumber hnumber (hr (by omega) d hd)
      | cons => exact hpart

/-- No point follows a number that ends with its digits. -/
theorem ne_point_of_mayPrecede (hk : k = .int) (h : k.mayPrecede c = true) : c ≠ '.' := by
  subst hk
  simp only [TokenKind.mayPrecede, Bool.and_eq_true, decide_eq_true_eq] at h
  exact h.2

theorem extends_number : Extends (scanNumber b c) a := by
  intro k n next h
  obtain ⟨hnumber, rfl⟩ := isNumber_of_scanNumber h
  have hk : k ≠ .stop := by
    rintro rfl
    cases hnumber
  have hle := runLength_le Char.isDigit a
  have hlength : (a.drop (runLength Char.isDigit a)).length = a.length - runLength Char.isDigit a :=
    List.length_drop
  unfold scanNumber at h
  dsimp only at h
  split at h
  · rename_i after hdrop
    rw [hdrop, List.length_cons] at hlength
    have hlt : runLength Char.isDigit a < a.length := by omega
    have hle' := runLength_le Char.isDigit after
    split at h
    · cases h
    rename_i hdigits
    split at h
    · cases h
    rename_i hpoint
    obtain ⟨hmn, hn, hend, hmore⟩ := scanSuffix_extends (by omega) h
    have hend := hend rfl
    refine ⟨hk, hn, fun r hr => ?_⟩
    have hrun : runLength Char.isDigit (a ++ r) = runLength Char.isDigit a :=
      runLength_extends fun hend => by omega
    have hrun' : runLength Char.isDigit (after ++ r) = runLength Char.isDigit after :=
      runLength_extends fun hend => by omega
    have hdrop' : (a ++ r).drop (runLength Char.isDigit a) = '.' :: (after ++ r) := by
      rw [List.drop_append_of_le_length hle, hdrop, List.cons_append]
    simp only [scanNumber, hrun, hdrop', hrun', if_neg hdigits, head?_drop_append hend,
      if_neg hpoint]
    exact hmore r hr
  · rename_i hpoint
    obtain ⟨hmn, hn, -, hmore⟩ := scanSuffix_extends hle h
    refine ⟨hk, hn, fun r hr => ?_⟩
    have hrun : runLength Char.isDigit (a ++ r) = runLength Char.isDigit a :=
      runLength_extends fun hend d hd => isDigit_of_isIdentifierPart
        (isIdentifierPart_of_isNumber hnumber (hr (by omega) d hd))
    have hpoint' : ∀ after, (a ++ r).drop (runLength Char.isDigit a) ≠ '.' :: after := by
      intro after hdrop
      rw [List.drop_append_of_le_length hle] at hdrop
      cases hrest : a.drop (runLength Char.isDigit a) with
      | cons d rest =>
        rw [hrest] at hdrop
        cases hdrop
        exact hpoint _ hrest
      | nil =>
        -- the digits end the text, so the number is one without a suffix
        rw [hrest, List.nil_append] at hdrop
        rw [hrest, List.length_nil] at hlength
        rcases scanSuffix_eq_token_iff.mp h with ⟨-, hk, rfl, -⟩ | ⟨s, after', hs, -⟩
        · exact ne_point_of_mayPrecede hk (hr (by omega) '.' (by rw [hdrop]; rfl)) rfl
        · rw [hrest] at hs
          cases hs
    unfold scanNumber
    dsimp only
    rw [hrun]
    split
    · rename_i after hdrop
      exact absurd hdrop (hpoint' after)
    · exact hmore r hr

/-! ## Tokens -/

/-- The operators of two characters. -/
def longOperators : List (Char × Char) :=
  [('&', '&'), ('|', '|'), ('=', '='), ('!', '='), ('>', '='), ('<', '=')]

theorem binaryOperator?_pair {d : Char} (x y : List Char) :
    binaryOperator? (c :: d :: x) = binaryOperator? (c :: d :: y) := by
  unfold binaryOperator?
  split
  case h_7 hne heq | h_8 hne heq =>
    cases heq
    split <;> simp_all
  all_goals simp_all

theorem binaryOperator?_single {d : Char} (h : (c, d) ∉ longOperators) (x : List Char) :
    binaryOperator? (c :: d :: x) = binaryOperator? [c] := by
  simp only [longOperators, List.mem_cons, Prod.mk.injEq, List.not_mem_nil, or_false, not_or] at h
  unfold binaryOperator?
  split <;> simp_all

/-- A token of one character is not the start of a longer operator. -/
theorem not_mem_longOperators {d : Char} (h : scan true c [] = .token k n next)
    (hd : k.mayPrecede d = true) : (c, d) ∉ longOperators := by
  have hall : ∀ p ∈ longOperators,
      (scan true p.1 []).kind?.all (fun k => !k.mayPrecede p.2) = true := by
    decide +kernel
  intro hmem
  have hnone := hall _ hmem
  rw [h] at hnone
  simp [Scan.kind?, hd] at hnone

theorem binaryOperator?_extends (h : scan true c a = .token k n next)
    (hr : a = [] → ∀ d ∈ r.head?, k.mayPrecede d = true) :
    binaryOperator? (c :: (a ++ r)) = binaryOperator? (c :: a) := by
  match a, r with
  | d :: a, r => exact binaryOperator?_pair _ _
  | [], [] => rfl
  | [], d :: r => exact binaryOperator?_single (not_mem_longOperators h (hr rfl d rfl)) r

theorem binaryOperator?_length {op : BinaryOp} {m : Nat}
    (h : binaryOperator? (c :: a) = some (op, m)) : m - 1 ≤ a.length := by
  unfold binaryOperator? at h
  split at h <;> cases h <;> rename_i hop
  all_goals
    have hlength := congrArg List.length hop
    simp only [List.length_cons] at hlength
    omega

theorem scan_of_binaryOperator? {op : BinaryOp} {m : Nat}
    (h : binaryOperator? (c :: a) = some (op, m)) :
    scan true c a = .token (.operator (.binary op)) (m - 1) false := by
  unfold scan
  rw [if_pos rfl, h]

/-- The token that starts with `c` where no operator between operands does. -/
def scanPlain (flag : Bool) (c : Char) (cs : List Char) : Scanned :=
  if isBlank c then .token .blank (runLength isBlank cs) flag
  else if c = ',' then .token (.operator .comma) 0 false
  else if c = '(' then .token .openBracket 0 false
  else if c = ')' then .token .closeBracket 0 true
  else if c = '!' then .token (.operator .not) 0 false
  else if c = '\x27' then
    match cs with
    | _ :: '\x27' :: _ => .token .char 2 true
    | _ => .failure .unclosedChar flag
  else if c = '"' then
    match stringLength? cs with
    | some length => .token .string length true
    | none => .failure .unclosedString flag
  else if c.isDigit || ((c = '+' || c = '-') && cs.head?.any Char.isDigit) then
    scanNumber flag c cs
  else if isIdentifierStart c then
    let word := cs.takeWhile isIdentifierPart
    .token (wordKind (c :: word)) word.length true
  else if c = '.' then scanMember flag cs
  else .token .other 0 false

theorem scan_eq_scanPlain (h : b = true → binaryOperator? (c :: a) = none) :
    scan b c a = scanPlain b c a := by
  have hnone : (if b then binaryOperator? (c :: a) else none) = none := by
    cases b with
    | true => exact h rfl
    | false => rfl
  unfold scan
  rw [hnone]
  rfl

/-- No operator between operands stands where an operand is expected. -/
theorem scan_false (c : Char) (cs : List Char) : scan false c cs = scanPlain false c cs :=
  scan_eq_scanPlain nofun

/-- A sign before a digit starts a number. -/
theorem extends_sign : Extends (fun cs =>
    if cs.head?.any Char.isDigit = true then scanNumber b c cs else .token .other 0 false) a := by
  intro k n next h
  dsimp only at h ⊢
  split at h
  · rename_i hdigit
    obtain ⟨hk, hle, hmore⟩ := extends_number k n next h
    refine ⟨hk, hle, fun r hr => ?_⟩
    obtain ⟨d, a, rfl⟩ : ∃ d a', a = d :: a' := by
      cases a with
      | nil => cases hdigit
      | cons d a => exact ⟨d, a, rfl⟩
    rw [List.cons_append, List.head?_cons, if_pos (by simpa using hdigit), ← List.cons_append]
    exact hmore r hr
  · rename_i hdigit
    cases h
    refine ⟨nofun, Nat.zero_le _, fun r hr => if_neg ?_⟩
    cases a with
    | nil =>
      rw [List.nil_append, Option.any_eq_true]
      rintro ⟨d, hd, hdigit⟩
      simpa [TokenKind.mayPrecede, hdigit] using hr rfl d hd
    | cons => exact hdigit

/-- What holds of the readers of each sort of tokens, and of a choice between two readers if it
holds of both, holds of the reader of all of them. -/
theorem scanPlain_induction {p : (List Char → Scanned) → Prop}
    (choice : ∀ (q : Prop) [Decidable q] (x y : List Char → Scanned), p x → p y →
      p fun cs => if q then x cs else y cs)
    (one : ∀ (k : TokenKind) (next : Bool), k ≠ .stop → p fun _ => .token k 0 next)
    (blank : p fun cs => .token .blank (runLength isBlank cs) b)
    (char : p fun cs => match cs with
      | _ :: '\x27' :: _ => .token .char 2 true
      | _ => .failure .unclosedChar b)
    (string : p fun cs => match stringLength? cs with
      | some length => .token .string length true
      | none => .failure .unclosedString b)
    (number : p (scanNumber b c))
    (sign : p fun cs =>
      if cs.head?.any Char.isDigit = true then scanNumber b c cs else .token .other 0 false)
    (word : p fun cs => .token (wordKind (c :: cs.takeWhile isIdentifierPart))
      (cs.takeWhile isIdentifierPart).length true)
    (member : p (scanMember b)) : p (scanPlain b c) := by
  delta scanPlain
  refine choice _ _ _ blank (choice _ _ _ (one _ _ nofun) (choice _ _ _ (one _ _ nofun)
    (choice _ _ _ (one _ _ nofun) (choice _ _ _ (one _ _ nofun) (choice _ _ _ char
      (choice _ _ _ string ?_))))))
  by_cases hdigit : c.isDigit = true
  · simp only [hdigit, Bool.true_or, if_true]
    exact number
  by_cases hsign : (c = '+' || c = '-') = true
  · have hplain : isIdentifierStart c = false ∧ c ≠ '.' := by
      rcases (by simpa using hsign : c = '+' ∨ c = '-') with rfl | rfl <;>
        exact ⟨(identifier_ascii (by decide)).2, by decide⟩
    simp only [hdigit, hsign, Bool.false_or, Bool.true_and, hplain.1, if_neg hplain.2,
      Bool.false_eq_true, if_false]
    exact sign
  · simp only [hdigit, hsign, Bool.false_or, Bool.false_and, Bool.false_eq_true, if_false]
    exact choice _ _ _ word (choice _ _ _ member (one _ _ nofun))

theorem extends_scanPlain : Extends (scanPlain b c) a :=
  scanPlain_induction (p := fun reader => Extends reader a) (fun _ _ _ _ => .ite)
    (fun _ _ => extends_one) extends_blank extends_char extends_string extends_number extends_sign
    extends_word extends_member

theorem extends_scan : Extends (scan b c) a := by
  intro k n next h
  cases hop : if b then binaryOperator? (c :: a) else none with
  | some found =>
    obtain ⟨op, m⟩ := found
    obtain ⟨rfl, hfound⟩ : b = true ∧ binaryOperator? (c :: a) = some (op, m) := by
      cases b with
      | true => exact ⟨rfl, hop⟩
      | false => cases hop
    have hkind : k = .operator (.binary op) ∧ n = m - 1 ∧ next = false := by
      rw [scan_of_binaryOperator? hfound] at h
      cases h
      exact ⟨rfl, rfl, rfl⟩
    have hle : n ≤ a.length := hkind.2.1 ▸ binaryOperator?_length hfound
    refine ⟨by rw [hkind.1]; exact nofun, hle, fun r hr => ?_⟩
    have hmore : binaryOperator? (c :: (a ++ r)) = some (op, m) := by
      rw [binaryOperator?_extends h fun hnil => hr (by subst hnil; exact Nat.le_zero.mp hle),
        hfound]
    rw [scan_of_binaryOperator? hmore, hkind.1, hkind.2.1, hkind.2.2]
  | none =>
    have hnone : b = true → binaryOperator? (c :: a) = none := by
      rintro rfl
      exact hop
    have hplain := h
    rw [scan_eq_scanPlain hnone] at hplain
    obtain ⟨hk, hle, hmore⟩ := extends_scanPlain k n next hplain
    refine ⟨hk, hle, fun r hr => ?_⟩
    rw [scan_eq_scanPlain, hmore r hr]
    rintro rfl
    rw [binaryOperator?_extends h fun hnil => hr (by subst hnil; exact Nat.le_zero.mp hle),
      hnone rfl]

end TwoWaySql.Expr
