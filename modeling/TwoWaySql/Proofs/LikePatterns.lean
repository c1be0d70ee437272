import TwoWaySql.Expr.Builtin

/-!
# What LIKE patterns match

`Like` says which texts a pattern of SQL matches. In a pattern an escaped text stands for itself and
nothing else (`like_escapeLikeChars_append`). So the patterns that strings give for themselves match
the texts that are equal to them, start with them, contain them or end with them, just as the tests
of strings find them (`string_patterns_like_iff`).
-/

namespace TwoWaySql

namespace Text

/-- The pattern matches the text. A backslash makes the next character of the pattern stand for
itself; one at the end of a pattern matches nothing. -/
inductive Like : List Char → List Char → Prop where
  | nil : Like [] []
  | escaped {c : Char} {p t : List Char} : Like p t → Like ('\\' :: c :: p) (c :: t)
  /-- A percent sign matches any text, the empty one too. -/
  | any {s p t : List Char} : Like p t → Like ('%' :: p) (s ++ t)
  /-- An underscore matches any character. -/
  | one {c : Char} {p t : List Char} : Like p t → Like ('_' :: p) (c :: t)
  | self {c : Char} {p t : List Char} : c ≠ '\\' → c ≠ '%' → c ≠ '_' → Like p t →
      Like (c :: p) (c :: t)

variable {c : Char} {p t : List Char}

theorem like_nil_iff : Like [] t ↔ t = [] := by
  constructor
  · intro h
    cases h
    rfl
  · rintro rfl
    exact .nil

theorem like_escaped_iff : Like ('\\' :: c :: p) t ↔ ∃ r, t = c :: r ∧ Like p r := by
  constructor
  · intro h
    cases h with
    | escaped h => exact ⟨_, rfl, h⟩
    | self hne => exact absurd rfl hne
  · rintro ⟨r, rfl, h⟩
    exact .escaped h

theorem like_self_iff (hescape : c ≠ '\\') (hany : c ≠ '%') (hone : c ≠ '_') :
    Like (c :: p) t ↔ ∃ r, t = c :: r ∧ Like p r := by
  constructor
  · intro h
    cases h with
    | self _ _ _ h => exact ⟨_, rfl, h⟩
    | escaped => exact absurd rfl hescape
    | any => exact absurd rfl hany
    | one => exact absurd rfl hone
  · rintro ⟨r, rfl, h⟩
    exact .self hescape hany hone h

theorem like_any_iff : Like ('%' :: p) t ↔ ∃ s r, t = s ++ r ∧ Like p r := by
  constructor
  · intro h
    cases h with
    | any h => exact ⟨_, _, rfl, h⟩
    | self _ hne => exact absurd rfl hne
  · rintro ⟨s, r, rfl, h⟩
    exact .any h

/-- A percent sign at the end matches whatever is left. -/
theorem like_any_nil (t : List Char) : Like ['%'] t :=
  like_any_iff.mpr ⟨t, [], by simp, .nil⟩

/-- A character is matched by itself alone, whether it has to be escaped for that or not. -/
theorem like_escapeLikeChars_cons {s : List Char} :
    Like (escapeLikeChars (c :: s) ++ p) t ↔ ∃ r, t = c :: r ∧ Like (escapeLikeChars s ++ p) r := by
  rw [escapeLikeChars]
  by_cases hc : isLikeSpecial c = true
  · rw [if_pos hc]
    exact like_escaped_iff
  · rw [if_neg hc]
    simp only [isLikeSpecial, Bool.or_eq_true, beq_iff_eq, not_or] at hc
    exact like_self_iff hc.1.1 hc.1.2 hc.2

/-- Where an escaped text stands in a pattern, the text itself has to stand. -/
theorem like_escapeLikeChars_append (s : List Char) :
    Like (escapeLikeChars s ++ p) t ↔ ∃ r, t = s ++ r ∧ Like p r := by
  induction s generalizing t with
  | nil => simp [escapeLikeChars]
  | cons c s ih =>
    rw [like_escapeLikeChars_cons]
    constructor
    · rintro ⟨_, rfl, h⟩
      obtain ⟨r, rfl, hr⟩ := ih.mp h
      exact ⟨r, rfl, hr⟩
    · rintro ⟨r, rfl, h⟩
      exact ⟨s ++ r, rfl, ih.mpr ⟨r, rfl, h⟩⟩

theorem like_escapeLikeChars_iff {s : List Char} : Like (escapeLikeChars s) t ↔ t = s := by
  have h := like_escapeLikeChars_append (p := []) (t := t) s
  simpa only [List.append_nil, like_nil_iff, exists_eq_right] using h

theorem toList_escapeLike (s : String) : (escapeLike s).toList = escapeLikeChars s.toList :=
  String.toList_ofList

theorem like_escapeLike_iff (s t : String) : Like (escapeLike s).toList t.toList ↔ t = s := by
  rw [toList_escapeLike, like_escapeLikeChars_iff, String.toList_inj]

theorem like_prefixPattern_iff (s t : String) :
    Like (prefixPattern s).toList t.toList ↔ s.toList <+: t.toList := by
  rw [prefixPattern, String.toList_append, toList_escapeLike]
  constructor
  · intro h
    obtain ⟨r, hr, -⟩ := (like_escapeLikeChars_append _).mp h
    exact ⟨r, hr.symm⟩
  · rintro ⟨r, hr⟩
    exact (like_escapeLikeChars_append _).mpr ⟨r, hr.symm, like_any_nil r⟩

theorem like_infixPattern_iff (s t : String) :
    Like (infixPattern s).toList t.toList ↔ s.toList <:+: t.toList := by
  have hpattern : (infixPattern s).toList = '%' :: (escapeLikeChars s.toList ++ ['%']) := by
    simp [infixPattern, toList_escapeLike]
  rw [hpattern, like_any_iff]
  constructor
  · rintro ⟨a, _, ht, h⟩
    obtain ⟨b, rfl, -⟩ := (like_escapeLikeChars_append _).mp h
    exact ⟨a, b, by rw [ht, List.append_assoc]⟩
  · rintro ⟨a, b, ht⟩
    have hrest := (like_escapeLikeChars_append s.toList).mpr ⟨b, rfl, like_any_nil b⟩
    exact ⟨a, s.toList ++ b, by rw [← ht, List.append_assoc], hrest⟩

theorem like_suffixPattern_iff (s t : String) :
    Like (suffixPattern s).toList t.toList ↔ s.toList <:+ t.toList := by
  have hpattern : (suffixPattern s).toList = '%' :: escapeLikeChars s.toList := by
    simp [suffixPattern, toList_escapeLike]
  rw [hpattern, like_any_iff]
  simp only [like_escapeLikeChars_iff, exists_eq_right]
  exact exists_congr fun a => eq_comm

end Text

namespace Expr.Builtin

theorem occursIn_iff {needle cs : List Char} : occursIn needle cs = true ↔ needle <:+: cs := by
  induction cs with
  | nil => simp [occursIn]
  | cons c cs ih =>
    rw [occursIn, Bool.or_eq_true, List.isPrefixOf_iff_prefix, ih, List.infix_cons_iff]

/-- The built-in function of a name gives the result when it is called on a string. -/
def Gives (receiver : String) (name : String) (arguments : List BoundValue) (result : BoundValue) :
    Prop :=
  ∃ function, Registry.builtin.function? (.string receiver) name = some function ∧
    function (.string receiver) arguments = .ok result

/-- The patterns that a string gives match the texts that the tests of strings find. -/
theorem string_patterns_like_iff (s t : String) :
    (∃ p, Gives s "escape" [] (text p) ∧ (Text.Like p.toList t.toList ↔ t = s)) ∧
      (∃ p b, Gives s "asPrefix" [] (text p) ∧ Gives t "startsWith" [text s] (truth b) ∧
        (Text.Like p.toList t.toList ↔ b = true) ∧ (b = true ↔ s.toList <+: t.toList)) ∧
      (∃ p b, Gives s "asInfix" [] (text p) ∧ Gives t "contains" [text s] (truth b) ∧
        (Text.Like p.toList t.toList ↔ b = true) ∧ (b = true ↔ s.toList <:+: t.toList)) ∧
      ∃ p b, Gives s "asSuffix" [] (text p) ∧ Gives t "endsWith" [text s] (truth b) ∧
        (Text.Like p.toList t.toList ↔ b = true) ∧ (b = true ↔ s.toList <:+ t.toList) := by
  refine ⟨⟨_, ⟨_, rfl, rfl⟩, Text.like_escapeLike_iff s t⟩, ?_, ?_, ?_⟩
  · have hb : s.toList.isPrefixOf t.toList = true ↔ _ := List.isPrefixOf_iff_prefix
    exact ⟨_, _, ⟨_, rfl, rfl⟩, ⟨_, rfl, rfl⟩, (Text.like_prefixPattern_iff s t).trans hb.symm, hb⟩
  · have hb : occursIn s.toList t.toList = true ↔ _ := occursIn_iff
    exact ⟨_, _, ⟨_, rfl, rfl⟩, ⟨_, rfl, rfl⟩, (Text.like_infixPattern_iff s t).trans hb.symm, hb⟩
  · have hb : s.toList.isSuffixOf t.toList = true ↔ _ := List.isSuffixOf_iff_suffix
    exact ⟨_, _, ⟨_, rfl, rfl⟩, ⟨_, rfl, rfl⟩, (Text.like_suffixPattern_iff s t).trans hb.symm, hb⟩

end Expr.Builtin

end TwoWaySql
