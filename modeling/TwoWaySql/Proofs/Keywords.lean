import Mathlib.Data.List.TakeWhile
import TwoWaySql.Proofs.Concatenation

/-!
# Keywords

A word is the longest run of its characters, and a keyword is such a run as a whole, or two of them
with blanks between. So the text of a token tells whether it is a keyword, and which one, and
neither side of a keyword is joined to another word (`lex_keywords`).
-/

namespace TwoWaySql.Template

open Text

/-! ## Tables -/

/-- The keyword that a kind of token stands for. -/
def TokenKind.keyword? : TokenKind → Option String
  | .clause kind => some kind.keyword
  | .set op => some op.keyword
  | .connector op => some op.keyword
  | _ => none

/-- The keywords of one word. -/
def wordKeywords : List (String × TokenKind) :=
  [("select", .clause .select), ("from", .clause .source), ("where", .clause .filter),
    ("having", .clause .having), ("option", .clause .option), ("union", .set .union),
    ("except", .set .except), ("minus", .set .minus), ("intersect", .set .intersect),
    ("and", .connector .and), ("or", .connector .or)]

/-- The keywords of two words. -/
def pairKeywords : List (String × String × ClauseKind) :=
  [("group", "by", .groupBy), ("order", "by", .orderBy), ("for", "update", .forUpdate)]

def keywords : List (String × TokenKind) :=
  wordKeywords ++ pairKeywords.map fun q => (q.2.2.keyword, .clause q.2.2)

section

variable {k k' : TokenKind} {keyword : String} {p : String × TokenKind}
  {q : String × String × ClauseKind}

theorem keyword?_of_mem (h : p ∈ wordKeywords) : p.2.keyword? = some p.1 :=
  (by decide : ∀ p ∈ wordKeywords, p.2.keyword? = some p.1) p h

theorem keyword_of_mem (h : q ∈ pairKeywords) :
    q.2.2.keyword.toList = q.1.toList ++ ' ' :: q.2.1.toList :=
  (by decide : ∀ q ∈ pairKeywords, q.2.2.keyword.toList = q.1.toList ++ ' ' :: q.2.1.toList) q h

theorem isLower_of_mem (h : p ∈ wordKeywords) : ∀ c ∈ p.1.toList, c.isLower = true :=
  List.all_eq_true.mp
    ((by decide : ∀ p ∈ wordKeywords, p.1.toList.all Char.isLower = true) p h)

theorem isLower_of_mem_pair (h : q ∈ pairKeywords) : ∀ c ∈ q.1.toList, c.isLower = true :=
  List.all_eq_true.mp
    ((by decide : ∀ q ∈ pairKeywords, q.1.toList.all Char.isLower = true) q h)

theorem isSecondWord_of_mem (h : q ∈ pairKeywords) : IsSecondWord q.2.1 :=
  (by decide : ∀ q ∈ pairKeywords, q.2.1 = "by" ∨ q.2.1 = "update") q h

/-- No two keywords of two words start with the same one. -/
theorem eq_of_first_eq {q' : String × String × ClauseKind} (h : q ∈ pairKeywords)
    (h' : q' ∈ pairKeywords) (hsame : q'.1 = q.1) : q' = q :=
  (by decide : ∀ q ∈ pairKeywords, ∀ q' ∈ pairKeywords, q'.1 = q.1 → q' = q) q h q' h' hsame

/-- Every keyword is in one of the tables. -/
theorem mem_keywords (h : k.keyword? = some keyword) : (keyword, k) ∈ keywords := by
  cases k with
  | clause kind => cases h; cases kind <;> decide
  | set op => cases h; cases op <;> decide
  | connector op => cases h; cases op <;> decide
  | _ => cases h

theorem mem_of_keyword? (h : k.keyword? = some keyword) : (keyword, k) ∈ wordKeywords ∨
    ∃ q ∈ pairKeywords, q.2.2.keyword = keyword := by
  rcases List.mem_append.mp (mem_keywords h) with hmem | hmem
  · exact .inl hmem
  · obtain ⟨q, hq, heq⟩ := List.mem_map.mp hmem
    exact .inr ⟨q, hq, congrArg Prod.fst heq⟩

theorem exists_letter_of_keyword? (h : k.keyword? = some keyword) :
    ∃ c cs, keyword.toList = c :: cs ∧ c.isLower = true := by
  have hletters : ∀ p ∈ keywords, p.1.toList.head?.any Char.isLower = true := by decide
  have hhead : keyword.toList.head?.any Char.isLower = true :=
    hletters (keyword, k) (mem_keywords h)
  cases hlist : keyword.toList with
  | nil => simp [hlist] at hhead
  | cons c cs => exact ⟨c, cs, rfl, by simpa [hlist] using hhead⟩

/-- No two kinds of tokens stand for one keyword. -/
theorem keyword?_inj (h : k.keyword? = some keyword) (h' : k'.keyword? = some keyword) :
    k = k' :=
  (by decide : ∀ p ∈ keywords, ∀ p' ∈ keywords, p.1 = p'.1 → p.2 = p'.2)
    _ (mem_keywords h) _ (mem_keywords h') rfl

end

/-! ## Words -/

/-- What a word is, and how many characters of the text after it belong to its keyword. -/
inductive WordRule (word rest : List Char) : TokenKind → Nat → Prop where
  | keyword {p : String × TokenKind} : p ∈ wordKeywords → isKeyword p.1 word = true →
      WordRule word rest p.2 0
  | pair {q : String × String × ClauseKind} {n : Nat} : q ∈ pairKeywords →
      isKeyword q.1 word = true → secondWord? q.2.1 rest = some n →
      WordRule word rest (.clause q.2.2) n
  | word : (∀ p ∈ wordKeywords, isKeyword p.1 word = false) →
      (∀ q ∈ pairKeywords, isKeyword q.1 word = true → secondWord? q.2.1 rest = none) →
      WordRule word rest .word 0

theorem wordRule_wordKind (word rest : List Char) :
    WordRule word rest (wordKind word rest).1 (wordKind word rest).2 := by
  by_cases hkeyword : ∃ p ∈ wordKeywords, isKeyword p.1 word = true
  · obtain ⟨p, hp, h⟩ := hkeyword
    have hkind : wordKind word rest = (p.2, 0) := by
      rw [isKeyword, beq_iff_eq] at h
      unfold wordKind isKeyword
      rw [h]
      simp only [wordKeywords, List.mem_cons, List.not_mem_nil, or_false] at hp
      rcases hp with rfl | rfl | rfl | rfl | rfl | rfl | rfl | rfl | rfl | rfl | rfl <;> rfl
    rw [hkind]
    exact .keyword hp h
  have hword : ∀ p ∈ wordKeywords, isKeyword p.1 word = false := fun p hp =>
    Bool.eq_false_iff.mpr fun h => hkeyword ⟨p, hp, h⟩
  by_cases hpair : ∃ q ∈ pairKeywords, isKeyword q.1 word = true
  · obtain ⟨q, hq, h⟩ := hpair
    have hkind : wordKind word rest =
        ((secondWord? q.2.1 rest).map (TokenKind.clause q.2.2, ·)).getD (.word, 0) := by
      have hlower := beq_iff_eq.mp h
      unfold wordKind isKeyword
      rw [hlower]
      simp only [pairKeywords, List.mem_cons, List.not_mem_nil, or_false] at hq
      rcases hq with rfl | rfl | rfl
      · cases secondWord? "by" rest <;> rfl
      · cases secondWord? "by" rest <;> rfl
      · cases secondWord? "update" rest <;> rfl
    rw [hkind]
    cases hsecond : secondWord? q.2.1 rest with
    | some n => exact .pair hq h hsecond
    | none =>
      refine .word hword fun q' hq' h' => ?_
      have hsame : q'.1 = q.1 :=
        String.toList_inj.mp ((beq_iff_eq.mp h').symm.trans (beq_iff_eq.mp h))
      rwa [eq_of_first_eq hq hq' hsame]
  · have hfirst : ∀ q ∈ pairKeywords, isKeyword q.1 word = false := fun q hq =>
      Bool.eq_false_iff.mpr fun h => hpair ⟨q, hq, h⟩
    have hkind : wordKind word rest = (.word, 0) := by
      simp only [wordKeywords, pairKeywords, List.forall_mem_cons] at hword hfirst
      simp [wordKind, hword, hfirst]
    rw [hkind]
    refine .word hword fun q hq h => ?_
    rw [hfirst q hq] at h
    cases h

/-! ## Second words -/

/-- Blanks, and after them the keyword as a whole word. -/
structure Continuation (keyword : String) (blanks word after : List Char) : Prop where
  nonempty : blanks ≠ []
  blank : ∀ c ∈ blanks, isBlank c = true
  keyword : isKeyword keyword word = true
  whole : ∀ c ∈ after.head?, isWordPart c = false

/-- The text goes on with blanks and the keyword. -/
def Continues (keyword : String) (cs : List Char) : Prop :=
  ∃ blanks word after, cs = blanks ++ (word ++ after) ∧ Continuation keyword blanks word after

theorem continuation_of_secondWord? {keyword : String} {cs : List Char} {n : Nat}
    (h : secondWord? keyword cs = some n) :
    ∃ blanks word after, cs = blanks ++ (word ++ after) ∧ n = (blanks ++ word).length ∧
      Continuation keyword blanks word after := by
  simp only [secondWord?] at h
  split at h
  · rename_i hword
    obtain ⟨hblanks, hkeyword, hafter⟩ := hword
    cases h
    refine ⟨cs.takeWhile isBlank, (cs.drop (runLength isBlank cs)).take keyword.length,
      (cs.drop (runLength isBlank cs)).drop keyword.length, ?_, ?_, ?_, ?_, hkeyword, ?_⟩
    · rw [List.take_append_drop, drop_runLength, List.takeWhile_append_dropWhile]
    · rw [List.length_append, length_of_isKeyword hkeyword]
      rfl
    · exact fun hnil => hblanks (congrArg List.length hnil)
    · exact List.all_eq_true.mp List.all_takeWhile
    · intro c hc
      rw [Option.mem_def.mp hc] at hafter
      simpa using hafter
  · cases h

theorem secondWord?_of_continues {keyword : String} {cs : List Char} (hk : IsSecondWord keyword)
    (h : Continues keyword cs) : secondWord? keyword cs ≠ none := by
  obtain ⟨blanks, word, after, rfl, hblanks, hall, hkeyword, hafter⟩ := h
  have hlength := length_of_isKeyword hkeyword
  have hhead : ∀ c ∈ (word ++ after).head?, isBlank c = false := by
    cases word with
    | nil => rcases hk with rfl | rfl <;> cases hlength
    | cons c word =>
      rintro _ ⟨⟩
      exact isBlank_of_isAlpha (isAlpha_of_isKeyword hk.isLower hkeyword c List.mem_cons_self)
  have hrun : runLength isBlank (blanks ++ (word ++ after)) = blanks.length := by
    rw [runLength_append hhead, runLength, List.takeWhile_eq_self_iff.mpr hall]
  have hwhole : ¬ after.head?.any isWordPart = true := by
    intro h
    obtain ⟨c, hc, hpart⟩ := (Option.any_eq_true ..).mp h
    rw [hafter c hc] at hpart
    cases hpart
  simp only [secondWord?, hrun, List.drop_left, ← hlength, List.take_left]
  rw [if_pos ⟨mt List.length_eq_zero_iff.mp hblanks, hkeyword, hwhole⟩]
  exact Option.some_ne_none _

/-! ## Spelling -/

/-- No other character has a space for its lower case. -/
theorem eq_space_of_toLower {c : Char} (h : c.toLower = ' ') : c = ' ' := by
  unfold Char.toLower at h
  split at h
  · rename_i hupper
    have hlow : 0x41 ≤ c.toNat := hupper.1
    have hhigh : c.toNat ≤ 0x5a := hupper.2
    have hcode := congrArg (·.val.toNat) h
    simp at hcode
    omega
  · exact h

/-- The text with a space in the place of each run of blanks. -/
def singleSpaced : List Char → List Char
  | [] => []
  | c :: cs =>
    if isBlank c then
      if cs.head?.any isBlank then singleSpaced cs else ' ' :: singleSpaced cs
    else c :: singleSpaced cs

/-- How the text would be written as a keyword: in lower case, with single spaces. -/
def keywordForm (cs : List Char) : List Char := asciiLower (singleSpaced cs)

section

variable {a r : List Char} {c : Char}

theorem singleSpaced_append (h : ∀ c ∈ a, isBlank c = false) (r : List Char) :
    singleSpaced (a ++ r) = a ++ singleSpaced r := by
  induction a with
  | nil => rfl
  | cons c a ih =>
    obtain ⟨hc, ha⟩ := List.forall_mem_cons.mp h
    rw [List.cons_append, singleSpaced, hc, if_neg Bool.false_ne_true, ih ha, List.cons_append]

theorem singleSpaced_blanks (hne : a ≠ []) (h : ∀ c ∈ a, isBlank c = true)
    (hr : ∀ c ∈ r.head?, isBlank c = false) : singleSpaced (a ++ r) = ' ' :: singleSpaced r := by
  induction a with
  | nil => exact absurd rfl hne
  | cons c a ih =>
    obtain ⟨hc, ha⟩ := List.forall_mem_cons.mp h
    rw [List.cons_append, singleSpaced, if_pos hc]
    cases a with
    | nil =>
      have hnone : r.head?.any isBlank = false := by
        cases r with
        | nil => rfl
        | cons d r => exact hr d rfl
      rw [List.nil_append, hnone, if_neg Bool.false_ne_true]
    | cons d a =>
      have hsome : (d :: a ++ r).head?.any isBlank = true := ha d List.mem_cons_self
      rw [if_pos hsome, ih (List.cons_ne_nil d a) ha]

theorem exists_singleSpaced_of_isBlank (h : isBlank c = true) (cs : List Char) :
    ∃ ds, singleSpaced (c :: cs) = ' ' :: ds := by
  induction cs generalizing c with
  | nil => exact ⟨[], by simp [singleSpaced, h]⟩
  | cons d cs ih =>
    rw [singleSpaced, if_pos h]
    split
    · exact ih (by assumption)
    · exact ⟨_, rfl⟩

/-- Without blanks, only the case matters. -/
theorem keywordForm_of_not_blank (h : ∀ c ∈ a, isBlank c = false) :
    keywordForm a = asciiLower a := by
  have hsame := singleSpaced_append h []
  rw [List.append_nil] at hsame
  rw [keywordForm, hsame, singleSpaced, List.append_nil]

theorem space_mem_singleSpaced (hc : c ∈ a) (hblank : isBlank c = true) :
    ' ' ∈ singleSpaced a := by
  induction a generalizing c with
  | nil => cases hc
  | cons d a ih =>
    rw [singleSpaced]
    by_cases hd : isBlank d = true
    · rw [if_pos hd]
      split
      · rename_i hmore
        obtain ⟨e, he, hblank⟩ := (Option.any_eq_true ..).mp hmore
        exact ih (List.mem_of_mem_head? he) hblank
      · exact List.mem_cons_self
    · rw [if_neg hd]
      rcases List.mem_cons.mp hc with rfl | hc
      · exact absurd hblank hd
      · exact List.mem_cons_of_mem _ (ih hc hblank)

/-- A text that is written as letters has no blanks. -/
theorem keywordForm_eq_iff {keyword : String} (hkeyword : ∀ c ∈ keyword.toList, c.isLower = true) :
    keywordForm a = keyword.toList ↔ asciiLower a = keyword.toList := by
  have hsame (h : ∀ c ∈ a, isBlank c = false) : keywordForm a = asciiLower a :=
    keywordForm_of_not_blank h
  constructor
  · intro h
    refine (hsame fun c hc => Bool.eq_false_iff.mpr fun hblank => ?_).symm.trans h
    have hspace : ' ' ∈ keyword.toList := h ▸ List.mem_map_of_mem (space_mem_singleSpaced hc hblank)
    exact absurd (hkeyword _ hspace) (by decide)
  · intro h
    refine (hsame fun c hc => ?_).trans h
    exact isBlank_of_isAlpha (isAlpha_of_isKeyword hkeyword (beq_iff_eq.mpr h) c hc)

end

/-! ## Tokens -/

section

variable {c : Char} {cs text : List Char} {k : TokenKind} {n : Nat} {keyword : String}

/-- The text is written as a keyword if and only if the kind stands for it. -/
def Spelled (k : TokenKind) (text : List Char) : Prop :=
  ∀ k' keyword, k'.keyword? = some keyword → (k = k' ↔ keywordForm text = keyword.toList)

theorem spelled_of_keyword (hk : k.keyword? = some keyword)
    (h : keywordForm text = keyword.toList) : Spelled k text := by
  intro k' keyword' hk'
  constructor
  · rintro rfl
    rw [h, Option.some.inj (hk.symm.trans hk')]
  · intro h'
    obtain rfl : keyword = keyword' := String.toList_inj.mp (h.symm.trans h')
    exact keyword?_inj hk hk'

/-- Where no keyword is written, the kind must not be that of one. -/
theorem spelled_of_none (hk : k.keyword? = none)
    (h : ∀ (k' : TokenKind) (keyword : String), k'.keyword? = some keyword →
      keywordForm text ≠ keyword.toList) :
    Spelled k text := by
  refine fun k' keyword hk' => iff_of_false ?_ (h k' keyword hk')
  rintro rfl
  rw [hk] at hk'
  cases hk'

theorem spelled_of_not_isAlpha (hk : k.keyword? = none) (hc : c.isAlpha = false) :
    Spelled k (c :: cs) := by
  refine spelled_of_none hk fun k' keyword hk' h => ?_
  obtain ⟨d, ds, hkeyword, hd⟩ := exists_letter_of_keyword? hk'
  rw [hkeyword] at h
  by_cases hblank : isBlank c = true
  · obtain ⟨es, hes⟩ := exists_singleSpaced_of_isBlank hblank cs
    rw [keywordForm, hes] at h
    obtain ⟨rfl, -⟩ := List.cons.inj h
    cases hd
  · rw [keywordForm, singleSpaced, if_neg hblank] at h
    obtain ⟨rfl, -⟩ := List.cons.inj h
    rw [isAlpha_of_toLower hd] at hc
    cases hc

theorem spelled_wordKind {word rest : List Char} (hword : ∀ c ∈ word, isWordPart c = true)
    (h : WordRule word rest k n) : Spelled k (word ++ rest.take n) := by
  have hblank : ∀ c ∈ word, isBlank c = false := fun c hc => isBlank_of_isWordPart (hword c hc)
  cases h with
  | @keyword p hp hkeyword =>
    refine spelled_of_keyword (keyword?_of_mem hp) ?_
    rw [List.take_zero, List.append_nil, keywordForm_of_not_blank hblank]
    exact beq_iff_eq.mp hkeyword
  | @pair q n hq hkeyword hsecond =>
    obtain ⟨blanks, second, after, rfl, rfl, hnext⟩ := continuation_of_secondWord? hsecond
    refine spelled_of_keyword rfl ?_
    have hletters : ∀ c ∈ second, isBlank c = false := fun c hc => isBlank_of_isAlpha
      (isAlpha_of_isKeyword (isSecondWord_of_mem hq).isLower hnext.keyword c hc)
    have hhead : ∀ c ∈ second.head?, isBlank c = false := fun c hc =>
      hletters c (List.mem_of_mem_head? hc)
    have htake : (blanks ++ (second ++ after)).take (blanks ++ second).length =
        blanks ++ second := by
      rw [← List.append_assoc, List.take_left]
    calc keywordForm (word ++ (blanks ++ (second ++ after)).take (blanks ++ second).length)
      _ = keywordForm (word ++ (blanks ++ second)) := by rw [htake]
      _ = asciiLower (word ++ ' ' :: singleSpaced second) := by
        rw [keywordForm, singleSpaced_append hblank,
          singleSpaced_blanks hnext.nonempty hnext.blank hhead]
      _ = asciiLower word ++ ' ' :: keywordForm second := List.map_append
      _ = q.2.2.keyword.toList := by
        rw [keywordForm_of_not_blank hletters, beq_iff_eq.mp hkeyword,
          beq_iff_eq.mp hnext.keyword, keyword_of_mem hq]
  | word hkeywords hpairs =>
    refine spelled_of_none rfl fun k' keyword hk' h => ?_
    rw [List.take_zero, List.append_nil, keywordForm_of_not_blank hblank] at h
    rcases mem_of_keyword? hk' with hmem | ⟨q, hq, rfl⟩
    · have hne := hkeywords _ hmem
      rw [isKeyword, beq_eq_false_iff_ne] at hne
      exact hne h
    · rw [keyword_of_mem hq] at h
      -- a space would have to be a part of the word
      have hspace : ' ' ∈ asciiLower word := h ▸ List.mem_append_right _ List.mem_cons_self
      obtain ⟨d, hd, hlower⟩ := List.mem_map.mp hspace
      have hpart := hblank d hd
      rw [eq_space_of_toLower hlower] at hpart
      cases hpart

theorem spelled_scan (h : scan c cs = .ok (k, n)) : Spelled k (c :: cs.take n) := by
  have hplain (hk : k.keyword? = none) (hc : isWordPart c = false) : Spelled k (c :: cs.take n) :=
    spelled_of_not_isAlpha hk <| Bool.eq_false_iff.mpr fun halpha => by
      rw [isWordPart_of_isAlpha halpha] at hc
      cases hc
  cases scanRule_of_scan h with
  | blank hc => exact hplain rfl (isWordPart_of_isBlank hc)
  | openBracket hc | closeBracket hc | delimiter hc | quote hc | identifier hc | lineComment hc =>
    subst hc
    exact hplain rfl (by decide +kernel)
  | comment hc _ hcomment =>
    subst hc
    obtain ⟨-, -, -, rfl | ⟨d, rfl⟩⟩ := scanComment_eq_ok hcomment <;>
      exact hplain rfl (by decide +kernel)
  | signed hc => rcases hc with rfl | rfl <;> exact hplain rfl (by decide +kernel)
  | other hother => exact hplain rfl (Bool.eq_false_iff.mpr hother.notWord)
  | @word length _ hc hlength =>
    have hword : ∀ d ∈ c :: cs.take length, isWordPart d = true := by
      rw [hlength, take_runLength]
      exact List.forall_mem_cons.mpr ⟨hc, List.all_eq_true.mp List.all_takeWhile⟩
    have hspelled := spelled_wordKind hword (wordRule_wordKind _ (cs.drop length))
    rwa [List.cons_append, ← List.take_add] at hspelled

/-! ## Neighbours -/

theorem head?_drop_runLength {p : Char → Bool} :
    ∀ d ∈ (cs.drop (runLength p cs)).head?, p d = false := by
  intro d hd
  have hnot := List.head?_dropWhile_not p cs
  rw [← drop_runLength, Option.mem_def.mp hd] at hnot
  exact hnot

/-- What follows a word or a keyword is not a part of a word. -/
theorem not_isWordPart_of_wordRule {word : List Char} {rest : List Char}
    (hrest : ∀ d ∈ rest.head?, isWordPart d = false) (h : WordRule word rest k n) :
    ∀ d ∈ (rest.drop n).head?, isWordPart d = false := by
  cases h with
  | keyword | word => exact hrest
  | pair _ _ hsecond =>
    obtain ⟨blanks, second, after, rfl, rfl, hnext⟩ := continuation_of_secondWord? hsecond
    rw [← List.append_assoc, List.drop_left]
    exact hnext.whole

theorem getLast?_of_quotedLength? {quote : Char} (h : quotedLength? quote cs = some n) :
    (cs.take n).getLast? = some quote := by
  fun_induction quotedLength? quote cs generalizing n with
  | case1 | case3 => cases h
  | case2 => cases h; rfl
  | case4 c d cs hc ih =>
    obtain ⟨m, hm, rfl⟩ := Option.map_eq_some_iff.mp h
    rw [List.take_succ_cons, List.getLast?_cons, ih hm, Option.getD_some]
  | case5 c cs hc ih =>
    obtain ⟨m, hm, rfl⟩ := Option.map_eq_some_iff.mp h
    rw [List.take_succ_cons, List.take_succ_cons, List.getLast?_cons, List.getLast?_cons, ih hm,
      Option.getD_some, Option.getD_some]
  | case6 c d cs hc =>
    cases h
    rw [Decidable.not_not.mp hc]
    rfl

theorem getLast?_of_commentLength? (h : commentLength? cs = some n) :
    (cs.take (n + 2)).getLast? = some '/' := by
  fun_induction commentLength? cs generalizing n with
  | case1 => cases h
  | case2 => cases h; rfl
  | case3 c cs _ ih =>
    obtain ⟨m, hm, rfl⟩ := Option.map_eq_some_iff.mp h
    rw [List.take_succ_cons, List.getLast?_cons, ih hm, Option.getD_some]

/-- No word or keyword starts right after a part of a word that belongs to another token. -/
theorem scan_separates (h : scan c cs = .ok (k, n)) :
    ∀ d ∈ (c :: cs.take n).getLast?, isWordPart d = true →
      ∀ e ∈ (cs.drop n).head?, isWordPart e = false := by
  have hplain {e : Char} (he : isWordPart e = false) (hlast : (c :: cs.take n).getLast? = some e) :
      ∀ d ∈ (c :: cs.take n).getLast?, isWordPart d = true →
        ∀ e ∈ (cs.drop n).head?, isWordPart e = false := by
    intro d hd hpart
    obtain rfl : e = d := Option.some.inj (hlast.symm.trans hd)
    rw [he] at hpart
    cases hpart
  cases scanRule_of_scan h with
  | blank hc =>
    intro d hd hpart
    have hblank : isBlank d = true := by
      rw [take_runLength] at hd
      rcases List.mem_cons.mp (List.mem_of_getLast? hd) with rfl | hd
      · exact hc
      · exact List.all_eq_true.mp List.all_takeWhile d hd
    rw [isWordPart_of_isBlank hblank] at hpart
    cases hpart
  | openBracket hc | closeBracket hc | delimiter hc =>
    exact hplain (e := c) (by subst hc; decide +kernel) rfl
  | quote hc hlength | identifier hc hlength =>
    refine hplain (e := c) (by subst hc; decide +kernel) ?_
    rw [List.getLast?_cons, getLast?_of_quotedLength? hlength, Option.getD_some]
  | lineComment =>
    intro d _ _ e he
    have hbreak := head?_drop_runLength e he
    obtain rfl : e = '\n' := by simpa using hbreak
    decide +kernel
  | comment hc hcs hcomment =>
    obtain ⟨cs, rfl⟩ := List.head?_eq_some_iff.mp hcs
    obtain ⟨m, hm, rfl, -⟩ := scanComment_eq_ok hcomment
    refine hplain (e := '/') (by decide +kernel) ?_
    rw [List.take_succ_cons, List.getLast?_cons, List.getLast?_cons]
    rw [List.drop_succ_cons, List.drop_zero] at hm
    rw [getLast?_of_commentLength? hm, Option.getD_some, Option.getD_some]
  | signed => exact fun _ _ _ => head?_drop_runLength
  | @word length _ _ hlength =>
    subst hlength
    intro _ _ _
    rw [← List.drop_drop]
    exact not_isWordPart_of_wordRule head?_drop_runLength (wordRule_wordKind _ _)
  | other hother => exact hplain (Bool.eq_false_iff.mpr hother.notWord) rfl

/-- A keyword starts with a part of a word and is not followed by one. -/
theorem scan_keyword_bounds (h : scan c cs = .ok (k, n)) (hk : k.keyword?.isSome = true) :
    isWordPart c = true ∧ ∀ e ∈ (cs.drop n).head?, isWordPart e = false := by
  cases scanRule_of_scan h with
  | comment _ _ hcomment =>
    obtain ⟨-, -, -, rfl | ⟨d, rfl⟩⟩ := scanComment_eq_ok hcomment <;> cases hk
  | @word length _ hc hlength =>
    subst hlength
    rw [← List.drop_drop]
    exact ⟨hc, not_isWordPart_of_wordRule head?_drop_runLength (wordRule_wordKind _ _)⟩
  | _ => cases hk

theorem secondWord?_of_wordKind {word rest : List Char} (h : (wordKind word rest).1 = .word) :
    (wordKind word rest).2 = 0 ∧
      ∀ q ∈ pairKeywords, isKeyword q.1 word = true → secondWord? q.2.1 rest = none := by
  have hrule := wordRule_wordKind word rest
  revert h hrule
  generalize (wordKind word rest).1 = k
  generalize (wordKind word rest).2 = n
  intro h hrule
  cases hrule with
  | keyword hp =>
    have hkeyword := keyword?_of_mem hp
    rw [h] at hkeyword
    cases hkeyword
  | pair => cases h
  | word _ hpairs => exact ⟨rfl, hpairs⟩

/-- A word that could be the first one of a keyword is not followed by the second one. -/
theorem scan_word_incomplete (h : scan c cs = .ok (.word, n)) :
    ∀ q ∈ pairKeywords, isKeyword q.1 (c :: cs.take n) = true → ¬ Continues q.2.1 (cs.drop n) := by
  intro q hq hfirst hcontinues
  have halpha := isAlpha_of_isKeyword (isLower_of_mem_pair hq) hfirst c List.mem_cons_self
  generalize hk : TokenKind.word = k at h
  cases scanRule_of_scan h with
  | comment _ _ hcomment =>
    obtain ⟨-, -, -, rfl | ⟨d, rfl⟩⟩ := scanComment_eq_ok hcomment <;> cases hk
  | identifier hc =>
    subst hc
    cases halpha
  | signed hc => rcases hc with rfl | rfl <;> cases halpha
  | word _ _ hlength =>
    obtain ⟨hzero, hnone⟩ := secondWord?_of_wordKind hk.symm
    rw [hzero, Nat.add_zero] at hfirst hcontinues
    exact secondWord?_of_continues (isSecondWord_of_mem hq) hcontinues (hnone q hq hfirst)
  | _ => cases hk

end

/-! ## Templates -/

/-- What tells a token from words and keywords next to it, from the text before it and after it. -/
structure Delimited (before : List Char) (t : Token) (after : List Char) : Prop where
  /-- Neither side of a keyword is joined to another word. -/
  apart : t.kind.keyword?.isSome = true →
    (∀ c ∈ before.getLast?, isWordPart c = false) ∧ ∀ c ∈ after.head?, isWordPart c = false
  /-- A word is not the first one of a keyword of two words that follows. -/
  incomplete : t.kind = .word → ∀ q ∈ pairKeywords, isKeyword q.1 t.text.toList = true →
    ¬ Continues q.2.1 after

/-- Where reading is not within a word, every token is delimited. -/
theorem delimited_lexFrom (cs : List Char) : ∀ (before : List Char) (offset : Nat),
    (∀ c ∈ before.getLast?, isWordPart c = true → ∀ d ∈ cs.head?, isWordPart d = false) →
    ∀ t ∈ (scanner.lexFrom () offset cs).tokens, ∃ left right,
      cs = left ++ (t.text.toList ++ right) ∧ t.start = offset + byteLength left ∧
        Delimited (before ++ left) t right := by
  induction cs using lex_induction with
  | nil =>
    intro before offset _ t ht
    rw [lexFrom_nil] at ht
    obtain rfl := List.mem_singleton.mp ht
    exact ⟨[], [], rfl, rfl, nofun, nofun⟩
  | error c cs cause h =>
    intro before offset _ t ht
    rw [lexFrom_error h] at ht
    cases ht
  | token c cs k n h ih =>
    intro before offset hbefore t ht
    rw [lexFrom_token h] at ht
    rcases List.mem_cons.mp ht with rfl | ht
    · refine ⟨[], cs.drop n, ?_, rfl, fun hk => ?_, ?_⟩
      · rw [String.toList_ofList, List.nil_append, List.cons_append, List.take_append_drop]
      · obtain ⟨hc, hafter⟩ := scan_keyword_bounds h hk
        refine ⟨fun d hd => Bool.eq_false_iff.mpr fun hpart => ?_, hafter⟩
        rw [List.append_nil] at hd
        rw [hbefore d hd hpart c rfl] at hc
        cases hc
      · rintro rfl
        rw [String.toList_ofList]
        exact scan_word_incomplete h
    · have hsame : (before ++ c :: cs.take n).getLast? = (c :: cs.take n).getLast? := by
        rw [List.getLast?_append, List.getLast?_cons]
        rfl
      obtain ⟨left, right, hcs, hstart, hdelimited⟩ :=
        ih (before ++ c :: cs.take n) _ (hsame ▸ scan_separates h) t ht
      refine ⟨c :: cs.take n ++ left, right, ?_, ?_, ?_⟩
      · rw [List.append_assoc, ← hcs, List.cons_append, List.take_append_drop]
      · rw [hstart, Token.stop, String.toList_ofList, byteLength_append, Nat.add_assoc]
      · rwa [← List.append_assoc]

/-- The text of a token tells whether it is a keyword, and which one. -/
structure Recognized (source : List Char) (t : Token) : Prop where
  clause_iff : ∀ kind, t.kind = .clause kind ↔ keywordForm t.text.toList = kind.keyword.toList
  set_iff : ∀ op, t.kind = .set op ↔ asciiLower t.text.toList = op.keyword.toList
  connector_iff : ∀ op, t.kind = .connector op ↔ asciiLower t.text.toList = op.keyword.toList
  notKeyword : t.kind = .word → ∀ p ∈ wordKeywords, isKeyword p.1 t.text.toList = false
  delimited : ∃ before after, source = before ++ (t.text.toList ++ after) ∧
    t.start = byteLength before ∧ Delimited before t after

theorem Connector.isLower (op : Connector) : ∀ c ∈ op.keyword.toList, c.isLower = true := by
  cases op <;> exact List.all_eq_true.mp (by decide)

/-- A token of a template is a keyword if and only if it is written as one, in any case and with any
blanks between two words, and no part of a word stands on either side of it. No other word could be
read as a keyword, neither by itself nor together with what follows. -/
theorem lex_keywords (source : String) : ∀ t ∈ (lex source).tokens, Recognized source.toList t := by
  intro t ht
  have hspelled : Spelled t.kind t.text.toList := by
    refine forall_mem_lexFrom (p := fun t => Spelled t.kind t.text.toList) (fun _ => ?_)
      (fun c cs k n _ h => ?_) source.toList 0 t ht
    · refine spelled_of_none rfl fun k' keyword hk' hnil => ?_
      obtain ⟨c, cs, hkeyword, -⟩ := exists_letter_of_keyword? hk'
      rw [hkeyword] at hnil
      cases hnil
    · rw [String.toList_ofList]
      exact spelled_scan h
  refine ⟨fun kind => hspelled _ _ rfl, fun op => (hspelled _ _ rfl).trans
    (keywordForm_eq_iff op.isLower), fun op => (hspelled _ _ rfl).trans
    (keywordForm_eq_iff op.isLower), fun hword p hp => ?_, ?_⟩
  · rw [Bool.eq_false_iff]
    intro hkeyword
    have hform := (keywordForm_eq_iff (isLower_of_mem hp)).mpr (beq_iff_eq.mp hkeyword)
    have hkind := keyword?_of_mem hp
    rw [← (hspelled _ _ hkind).mpr hform, hword] at hkind
    cases hkind
  · obtain ⟨left, right, hsource, hstart, hdelimited⟩ :=
      delimited_lexFrom source.toList [] 0 nofun t ht
    exact ⟨left, right, hsource, hstart.trans (Nat.zero_add _), hdelimited⟩

/-- Two words with an ideographic space and a line break between them. -/
theorem lex_keywords_groupBy :
    (⟨.clause .groupBy, "GrouP\u3000\nbY", 7⟩ : Token) ∈
        (lex "from t GrouP\u3000\nbY x for updated").tokens ∧
      Recognized "from t GrouP\u3000\nbY x for updated".toList
        ⟨.clause .groupBy, "GrouP\u3000\nbY", 7⟩ := by
  have hmem : (⟨.clause .groupBy, "GrouP\u3000\nbY", 7⟩ : Token) ∈
      (lex "from t GrouP\u3000\nbY x for updated").tokens := by
    decide +kernel
  exact ⟨hmem, lex_keywords _ _ hmem⟩

end TwoWaySql.Template
