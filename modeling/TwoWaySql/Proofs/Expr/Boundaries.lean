import TwoWaySql.Proofs.Expr.Lexing

/-!
# Where a token of an expression ends

A text that goes on after a token may as well end there, or anywhere after it: the token is found
again (`shortens_scan`). A function is the exception, as the bracket after its name makes it one.
-/

namespace TwoWaySql.Expr

open Text (isBlank isIdentifierPart)
open Template (runLength_append runLength_append_of_lt head?_of_runLength_append)

/-- What a reader finds in the first part of a text it finds also if the text ends with that part,
but for a function that ends there. -/
def Shortens (reader : List Char → Scanned) (a r : List Char) : Prop :=
  ∀ k n next, reader (a ++ r) = .token k n next → n ≤ a.length →
    (n = a.length → k ≠ .function) → reader a = .token k n next

variable {a r : List Char} {b next : Bool} {c : Char} {k : TokenKind} {n : Nat}

/-! ## Runs -/

theorem runLength_shortens {p : Char → Bool} (h : runLength p (a ++ r) ≤ a.length) :
    runLength p a = runLength p (a ++ r) := by
  rcases Nat.eq_or_lt_of_le h with hend | hlt
  · exact (runLength_append (head?_of_runLength_append hend) a).symm
  · have heq := runLength_append_of_lt hlt []
    rwa [List.append_nil] at heq

theorem takeWhile_shortens {p : Char → Bool} (h : runLength p (a ++ r) ≤ a.length) :
    a.takeWhile p = (a ++ r).takeWhile p := by
  rw [← take_runLength, ← take_runLength, runLength_shortens h, List.take_append_of_le_length h]

/-! ## Parts of the reader -/

theorem shortens_one : Shortens (fun _ => .token k 0 next) a r := fun _ _ _ h _ _ => h

theorem Shortens.ite {p : Prop} [Decidable p] {x y : List Char → Scanned} (hx : Shortens x a r)
    (hy : Shortens y a r) : Shortens (fun cs => if p then x cs else y cs) a r := by
  by_cases hp : p
  · simp only [if_pos hp]
    exact hx
  · simp only [if_neg hp]
    exact hy

theorem shortens_blank : Shortens (fun cs => .token .blank (runLength isBlank cs) b) a r := by
  rintro _ _ _ ⟨⟩ hn -
  dsimp only
  rw [runLength_shortens hn]

theorem shortens_word :
    Shortens (fun cs => .token (wordKind (c :: cs.takeWhile isIdentifierPart))
      (cs.takeWhile isIdentifierPart).length true) a r := by
  rintro _ _ _ ⟨⟩ hn -
  dsimp only
  rw [takeWhile_shortens hn]

theorem shortens_member : Shortens (scanMember b) a r := by
  intro k n next h hn hfunction
  cases a with
  | nil =>
    cases r with
    | nil => cases h
    | cons c r =>
      simp only [List.nil_append, scanMember] at h
      repeat' split at h
      all_goals cases h
      all_goals exact absurd hn (Nat.not_succ_le_zero _)
  | cons c a =>
    simp only [List.cons_append, scanMember] at h ⊢
    split at h
    · cases h
    rename_i hstart
    split at h
    · cases h
    rename_i hvalue
    rw [if_neg hstart, if_neg hvalue]
    generalize hm : runLength isIdentifierPart (a ++ r) = m at h
    have hlength : n = m + 1 := by split at h <;> cases h <;> rfl
    rw [List.length_cons] at hn hfunction
    have hle : runLength isIdentifierPart (a ++ r) ≤ a.length := by omega
    rw [runLength_shortens hle, hm]
    rcases Nat.eq_or_lt_of_le (show m ≤ a.length by omega) with hend | hlt
    · -- the text ends with the name, so no bracket follows there, and none did
      have hnone : (a.drop m).head? ≠ some '(' := by
        rw [hend, List.drop_length]
        exact (Option.some_ne_none _).symm
      rw [if_neg hnone]
      split at h
      · cases h
        exact absurd rfl (hfunction (by omega))
      · exact h
    · rwa [head?_drop_append hlt] at h

theorem shortens_char : Shortens (fun cs => match cs with
    | _ :: '\x27' :: _ => .token .char 2 true
    | _ => .failure .unclosedChar b) a r := by
  intro k n next h hn _
  dsimp only at h
  split at h
  · rename_i heq
    cases h
    obtain ⟨d, e, a, rfl⟩ : ∃ d e a', a = d :: e :: a' := by
      match a, hn with
      | d :: e :: a, _ => exact ⟨d, e, a, rfl⟩
    simp only [List.cons_append, List.cons.injEq] at heq
    obtain ⟨-, rfl, -⟩ := heq
    rfl
  · cases h

theorem stringLength?_pos (h : stringLength? a = some n) : 0 < n := by
  unfold stringLength? at h
  split at h
  · cases h
  · obtain ⟨m, -, rfl⟩ := Option.map_eq_some_iff.mp h
    omega
  · split at h
    · cases h
      exact Nat.one_pos
    · obtain ⟨m, -, rfl⟩ := Option.map_eq_some_iff.mp h
      omega

theorem stringLength?_shortens (h : stringLength? (a ++ r) = some n) (hn : n ≤ a.length) :
    stringLength? a = some n := by
  fun_induction stringLength? a generalizing n with
  | case1 => exact absurd (stringLength?_pos h) (by simpa using hn)
  | case2 cs ih =>
    rw [List.cons_append, List.cons_append, stringLength?] at h
    obtain ⟨m, hm, rfl⟩ := Option.map_eq_some_iff.mp h
    rw [ih hm (by simpa using hn)]
    rfl
  | case3 cs hquote =>
    -- a quote that follows this one would make the string longer than the text
    rw [List.cons_append] at h
    unfold stringLength? at h
    split at h
    · rename_i heq
      cases heq
    · rename_i rest heq
      obtain ⟨m, -, rfl⟩ := Option.map_eq_some_iff.mp h
      cases cs with
      | nil => simp at hn
      | cons d cs =>
        cases heq
        exact (hquote _ rfl rfl).elim
    · rename_i heq
      cases heq
      rwa [if_pos rfl] at h
  | case4 c cs hquote hc ih =>
    rw [List.cons_append, stringLength?, if_neg hc] at h
    · obtain ⟨m, hm, rfl⟩ := Option.map_eq_some_iff.mp h
      rw [ih hm (by simpa using hn)]
      rfl
    · rintro _ rfl
      exact absurd rfl hc

theorem shortens_string : Shortens (fun cs => match stringLength? cs with
    | some length => .token .string length true
    | none => .failure .unclosedString b) a r := by
  intro k n next h hn _
  dsimp only at h ⊢
  cases hlength : stringLength? (a ++ r) with
  | none =>
    rw [hlength] at h
    cases h
  | some length =>
    rw [hlength] at h
    cases h
    rw [stringLength?_shortens hlength hn]

/-! ## Numbers -/

theorem le_of_scanSuffix {m : Nat} {fraction : Bool}
    (h : scanSuffix b c a m fraction = .token k n next) :
    m ≤ n ∧ (fraction = true → m < n) := by
  obtain ⟨-, rfl⟩ := isNumber_of_scanSuffix h
  rcases scanSuffix_eq_token_iff.mp h with ⟨rfl, -, rfl, -⟩ | ⟨_, _, _, _, _, rfl, _⟩
  · exact ⟨Nat.le_refl _, nofun⟩
  · exact ⟨Nat.le_succ m, fun _ => Nat.lt_succ_self m⟩

theorem scanSuffix_shortens {m : Nat} {fraction : Bool}
    (h : scanSuffix b c (a ++ r) m fraction = .token k n next) (hn : n ≤ a.length) :
    scanSuffix b c a m fraction = .token k n next := by
  obtain ⟨-, rfl⟩ := isNumber_of_scanSuffix h
  have hm : m ≤ a.length := Nat.le_trans (le_of_scanSuffix h).1 hn
  refine scanSuffix_eq_token_iff.mpr ?_
  rcases scanSuffix_eq_token_iff.mp h with ⟨hfraction, hk, hlength, hpart⟩ |
    ⟨s, after, hdrop, hsuffix, hlong, hlength, hpart⟩
  · refine .inl ⟨hfraction, hk, hlength, fun d hd => hpart d ?_⟩
    rw [List.drop_append_of_le_length hm, List.head?_append, Option.mem_def.mp hd]
    rfl
  · rw [List.drop_append_of_le_length hm] at hdrop
    cases hrest : a.drop m with
    | nil =>
      have hlength' := congrArg List.length hrest
      rw [List.length_drop, List.length_nil] at hlength'
      omega
    | cons s' after' =>
      rw [hrest, List.cons_append] at hdrop
      obtain ⟨rfl, rfl⟩ := List.cons.inj hdrop
      refine .inr ⟨_, after', rfl, hsuffix, hlong, hlength, fun d hd => hpart d ?_⟩
      rw [List.head?_append, Option.mem_def.mp hd]
      rfl

/-- The digits that a number starts with are in it. -/
theorem le_of_scanNumber (h : scanNumber b c a = .token k n next) :
    runLength Char.isDigit a ≤ n := by
  unfold scanNumber at h
  dsimp only at h
  split at h
  · split at h
    · cases h
    split at h
    · cases h
    have := (le_of_scanSuffix h).1
    omega
  · exact (le_of_scanSuffix h).1

theorem shortens_number : Shortens (scanNumber b c) a r := by
  intro k n next h hn _
  have hwhole : runLength Char.isDigit (a ++ r) ≤ a.length := Nat.le_trans (le_of_scanNumber h) hn
  have hdrop : (a ++ r).drop (runLength Char.isDigit (a ++ r)) =
      a.drop (runLength Char.isDigit (a ++ r)) ++ r := List.drop_append_of_le_length hwhole
  have hlength : (a.drop (runLength Char.isDigit (a ++ r))).length =
      a.length - runLength Char.isDigit (a ++ r) := List.length_drop
  unfold scanNumber at h ⊢
  rw [runLength_shortens hwhole]
  dsimp only at h ⊢
  split at h
  · rename_i after hpoint
    split at h
    · cases h
    rename_i hdigits
    split at h
    · cases h
    rename_i htwice
    have hlt := (le_of_scanSuffix h).2 rfl
    rw [hdrop] at hpoint
    cases hrest : a.drop (runLength Char.isDigit (a ++ r)) with
    | nil =>
      rw [hrest, List.length_nil] at hlength
      omega
    | cons d after' =>
      rw [hrest, List.cons_append] at hpoint
      rw [hrest] at hlength
      obtain ⟨rfl, rfl⟩ := List.cons.inj hpoint
      rw [List.length_cons] at hlength
      have hfraction : runLength Char.isDigit after' = runLength Char.isDigit (after' ++ r) :=
        runLength_shortens (by omega)
      simp only
      rw [hfraction, if_neg hdigits, ← head?_drop_append (r := r) (by omega), if_neg htwice]
      exact scanSuffix_shortens h hn
  · rename_i hpoint
    split
    · rename_i after hrest
      rw [hdrop, hrest] at hpoint
      exact absurd rfl (hpoint _)
    · exact scanSuffix_shortens h hn

/-- A sign before a digit starts a number. -/
theorem shortens_sign : Shortens (fun cs =>
    if cs.head?.any Char.isDigit = true then scanNumber b c cs else .token .other 0 false) a r := by
  intro k n next h hn hfunction
  dsimp only at h ⊢
  cases a with
  | cons d a =>
    rw [List.cons_append, List.head?_cons] at h
    rw [List.head?_cons]
    split at h
    · rw [if_pos ‹_›]
      exact shortens_number k n next h hn hfunction
    · rw [if_neg ‹_›]
      exact h
  | nil =>
    rw [List.nil_append] at h
    split at h
    · rename_i hdigit
      have hzero := Nat.le_trans (le_of_scanNumber h) hn
      obtain ⟨d, hd, hdigit⟩ := Option.any_eq_true _ _ |>.mp hdigit
      rw [runLength_eq_zero_iff.mp (Nat.le_zero.mp hzero) d hd] at hdigit
      cases hdigit
    · exact h

/-! ## Tokens -/

/-- An operator of two characters would not be within the text if its second one is not. -/
theorem binaryOperator?_shortens (h : scan true c (a ++ r) = .token k n next)
    (hn : n ≤ a.length) :
    binaryOperator? (c :: a) = binaryOperator? (c :: (a ++ r)) := by
  match a, r with
  | d :: a, r => exact binaryOperator?_pair _ _
  | [], [] => rfl
  | [], d :: r =>
    refine (binaryOperator?_single (fun hmem => ?_) r).symm
    have hlong : ∀ p ∈ longOperators, (binaryOperator? [p.1, p.2]).any (·.2 = 2) = true := by decide
    obtain ⟨⟨op, m⟩, hop, hm⟩ := Option.any_eq_true _ _ |>.mp (hlong _ hmem)
    obtain rfl : m = 2 := of_decide_eq_true hm
    rw [List.nil_append, scan_of_binaryOperator? ((binaryOperator?_pair r []).trans hop)] at h
    cases h
    cases hn

theorem shortens_scanPlain : Shortens (scanPlain b c) a r :=
  scanPlain_induction (p := fun reader => Shortens reader a r) (fun _ _ _ _ => .ite)
    (fun _ _ _ => shortens_one) shortens_blank shortens_char shortens_string shortens_number
    shortens_sign shortens_word shortens_member

theorem shortens_scan : Shortens (scan b c) a r := by
  intro k n next h hn hfunction
  cases hop : if b then binaryOperator? (c :: (a ++ r)) else none with
  | some found =>
    obtain ⟨op, m⟩ := found
    obtain ⟨rfl, hfound⟩ : b = true ∧ binaryOperator? (c :: (a ++ r)) = some (op, m) := by
      cases b with
      | true => exact ⟨rfl, hop⟩
      | false => cases hop
    rw [scan_of_binaryOperator? ((binaryOperator?_shortens h hn).trans hfound), ← h,
      scan_of_binaryOperator? hfound]
  | none =>
    have hnone : b = true → binaryOperator? (c :: (a ++ r)) = none := by
      rintro rfl
      exact hop
    have hplain := h
    rw [scan_eq_scanPlain hnone] at hplain
    rw [scan_eq_scanPlain, shortens_scanPlain k n next hplain hn hfunction]
    rintro rfl
    rw [binaryOperator?_shortens h hn, hnone rfl]

end TwoWaySql.Expr
