import TwoWaySql.Proofs.Acceptance
import TwoWaySql.Proofs.Spans
import TwoWaySql.Proofs.Trimming

/-!
# Tokens and directives of a template

Reading a template loses nothing (`lex_lossless`): the tokens are slices of it, side by side, up to
the end or to the lexeme that is broken. A directive starts with the characters of its opening and
ends with those of a comment's end, so that cutting as many bytes off both sides leaves a text in
between; that text, trimmed, is the body.
-/

namespace TwoWaySql.Template

open Text

/-! ## How directives are written -/

/-- The characters before the body of a directive. -/
def DirectiveKind.opening : DirectiveKind → List Char
  | .bind => ['/', '*']
  | .literal => ['/', '*', '^']
  | .embedded => ['/', '*', '#']
  | kind => '/' :: '*' :: '%' :: kind.name.toList

/-- The opening has as many characters as bytes. -/
theorem DirectiveKind.length_opening (kind : DirectiveKind) :
    kind.opening.length = kind.openingLength ∧ byteLength kind.opening = kind.openingLength := by
  cases kind <;> decide

theorem drop_of_commentLength? {cs : List Char} {n : Nat} (h : commentLength? cs = some n) :
    (cs.drop n).take 2 = ['*', '/'] := by
  fun_induction commentLength? cs generalizing n with
  | case1 => cases h
  | case2 => cases h; rfl
  | case3 c cs _ ih =>
    obtain ⟨m, hm, rfl⟩ := Option.map_eq_some_iff.mp h
    exact ih hm

/-- A text within a comment that makes it a directive starts with what its kind needs. -/
theorem opening_of_directiveKind? {text : List Char} {kind : DirectiveKind}
    (h : directiveKind? text = .ok (some kind)) :
    ∃ inner, '/' :: '*' :: text = kind.opening ++ inner := by
  unfold directiveKind? at h
  split at h
  · rename_i named
    split at h
    · rename_i found hfound
      cases h
      have hname := List.find?_some hfound
      have hmem := List.mem_of_find?_eq_some hfound
      obtain ⟨inner, rfl⟩ : kind.name.toList <+: named := by
        rw [startsWithName, Bool.and_eq_true] at hname
        exact List.isPrefixOf_iff_prefix.mp hname.1
      refine ⟨inner, ?_⟩
      simp only [namedDirectives, List.mem_cons, List.not_mem_nil, or_false] at hmem
      rcases hmem with rfl | rfl | rfl | rfl | rfl | rfl <;> rfl
    · cases h
  · cases h; exact ⟨_, rfl⟩
  · cases h; exact ⟨_, rfl⟩
  · split at h
    · cases h; exact ⟨_, rfl⟩
    · cases h
  · cases h

/-- A text is written as a directive of a kind, with some text between the opening and the end. -/
def Encloses (kind : DirectiveKind) (text inner : List Char) : Prop :=
  text = kind.opening ++ inner ++ ['*', '/'] ∧ checkBody kind (trim inner) = .ok ()

namespace Encloses

variable {kind : DirectiveKind} {text inner : List Char}

theorem body (h : Encloses kind text inner) : directiveBody kind text = trim inner := by
  rw [h.1, directiveBody_append _ _ rfl, ← kind.length_opening.1, List.drop_left]

/-- Cutting the bytes of the opening and of the end off leaves the text between them. -/
theorem slice (h : Encloses kind text inner) :
    slice? kind.openingLength (byteLength text - 2) text = some inner := by
  rw [slice?_eq_some_iff]
  refine ⟨kind.opening, ['*', '/'], by rw [h.1, List.append_assoc], kind.length_opening.2.symm, ?_⟩
  rw [h.1, byteLength_append, byteLength_append]
  rfl

/-- Only `else` and `end` have no body. -/
theorem body_eq_nil_iff (h : Encloses kind text inner) :
    trim inner = [] ↔ kind = .elseBranch ∨ kind = .blockEnd := by
  have hcheck := h.2
  revert hcheck
  cases hbody : trim inner with
  | nil => cases kind <;> simp [checkBody]
  | cons c cs => cases kind <;> simp [checkBody]

end Encloses

theorem encloses_of_scanComment {cs : List Char} {kind : DirectiveKind} {n : Nat}
    (h : scanComment cs = .ok (.directive kind, n)) :
    ∃ inner, Encloses kind ('/' :: '*' :: cs.take (n - 1)) inner := by
  obtain ⟨m, hm, rfl, -⟩ := scanComment_eq_ok h
  unfold scanComment at h
  rw [hm] at h
  obtain ⟨kind?, hkind, h⟩ := bind_eq_ok.mp h
  cases kind? with
  | none => cases h
  | some kind =>
    obtain ⟨u, hcheck, h⟩ := bind_eq_ok.mp h
    cases h
    obtain ⟨inner, hinner⟩ := opening_of_directiveKind? hkind
    have htext : '/' :: '*' :: cs.take (m + 3 - 1) = kind.opening ++ inner ++ ['*', '/'] := by
      rw [← hinner, ← drop_of_commentLength? hm, List.cons_append, List.cons_append,
        ← List.take_add]
      rfl
    refine ⟨inner, htext, ?_⟩
    rw [directiveBody_append _ _ rfl] at hcheck
    rwa [show (['/', '*'] ++ cs.take m : List Char) = kind.opening ++ inner from hinner,
      ← kind.length_opening.1, List.drop_left] at hcheck

theorem encloses_of_scan {c : Char} {cs : List Char} {kind : DirectiveKind} {n : Nat}
    (h : scan c cs = .ok (.directive kind, n)) :
    ∃ inner, Encloses kind (c :: cs.take n) inner := by
  generalize hk : TokenKind.directive kind = k at h
  cases scanRule_of_scan h with
  | @comment _ _ hc hcs hcomment =>
    subst hk hc
    obtain ⟨rest, rfl⟩ := List.head?_eq_some_iff.mp hcs
    obtain ⟨m, -, rfl, -⟩ := scanComment_eq_ok hcomment
    exact encloses_of_scanComment hcomment
  | @word length =>
    have hword := wordKind_isWord (c :: cs.take length) (cs.drop length)
    rw [← hk] at hword
    exact hword.elim
  | _ => cases hk

/-- Every directive of a template is written as its kind needs. -/
theorem encloses_of_mem_lex {source : String} {t : Token} {kind : DirectiveKind}
    (ht : t ∈ (lex source).tokens) (hkind : t.kind = .directive kind) :
    ∃ inner, Encloses kind t.text.toList inner := by
  refine forall_mem_lexFrom
    (p := fun t => t.kind = .directive kind → ∃ inner, Encloses kind t.text.toList inner)
    (fun _ => nofun) (fun c cs k n _ h hk => ?_) source.toList 0 t ht hkind
  obtain rfl : k = .directive kind := hk
  rw [String.toList_ofList]
  exact encloses_of_scan h

/-- Every directive of a template has a body, which is the text that it encloses, trimmed. -/
theorem body?_of_encloses {t : Token} {kind : DirectiveKind} (hkind : t.kind = .directive kind)
    {inner : List Char} (h : Encloses kind t.text.toList inner) :
    Token.body? t = some (String.ofList (trim inner)) := by
  unfold Token.body?
  rw [hkind]
  dsimp only
  rw [h.body]

/-- The expression of a loop is what its body ends with. -/
theorem suffix_of_loopParts? {body identifier expression : List Char}
    (h : loopParts? body = some (identifier, expression)) : expression <:+ trim body := by
  unfold loopParts? at h
  dsimp only at h
  split at h
  · rename_i c after hrest
    split at h
    · cases h
      have hafter : after <:+ trim body := by
        have hsuffix : 'i' :: 'n' :: c :: after <:+ trim body := by
          rw [← hrest]
          exact (List.dropWhile_suffix isBlank).trans (List.dropWhile_suffix _)
        exact (List.suffix_append ['i', 'n', c] after).trans hsuffix
      exact trim_suffix hafter
    · cases h
  · cases h

/-- A loop binds a name, and has something to go through. -/
theorem isIdentifier_of_loopParts? {body identifier expression : List Char}
    (h : loopParts? body = some (identifier, expression)) :
    isIdentifier identifier = true ∧ expression ≠ [] := by
  unfold loopParts? at h
  dsimp only at h
  split at h
  · split at h
    · rename_i hparts
      cases h
      simp only [Bool.and_eq_true, Bool.not_eq_true', List.isEmpty_eq_false_iff] at hparts
      obtain ⟨⟨-, hidentifier⟩, hexpression⟩ := hparts
      exact ⟨hidentifier, hexpression⟩
    · cases h
  · cases h

/-! ## Templates -/

theorem scanner_neverStops : scanner.NeverStops := fun _ _ _ _ _ _ h =>
  (scan_start (scanner_eq_token_iff.mp h)).1

/-- Reading a template loses nothing. A failure is located after the tokens before it, and every
directive has a body, which is the trimmed text between its opening and its end. -/
theorem lex_lossless (source : String) :
    (lex source).Lossless .stop source.toList ∧
      (∀ failure, (lex source).failure? = some failure →
        (Error.ofFailure source failure).location = ⟨source, byteLength (lex source).text⟩) ∧
      ∀ t ∈ (lex source).tokens, ∀ kind, t.kind = .directive kind → ∃ inner body,
        slice? kind.openingLength (byteLength t.text.toList - 2) t.text.toList = some inner ∧
          Token.body? t = some body ∧ body.toList = trim inner ∧ trim body.toList = body.toList ∧
          (body = "" ↔ kind = .elseBranch ∨ kind = .blockEnd) := by
  have hlossless : (lex source).Lossless .stop source.toList :=
    scanner_neverStops.lossless () source.toList
  refine ⟨hlossless, fun ⟨cause, offset⟩ hfailure => ?_, fun t ht kind hkind => ?_⟩
  · have hoffset := scanner.offset_failure hfailure
    exact congrArg (Location.mk source) hoffset
  · obtain ⟨inner, h⟩ := encloses_of_mem_lex ht hkind
    refine ⟨inner, _, h.slice, body?_of_encloses hkind h, String.toList_ofList, ?_, ?_⟩
    · rw [String.toList_ofList, trim_trim]
    · rw [← String.toList_inj, String.toList_ofList]
      exact h.body_eq_nil_iff

end TwoWaySql.Template
