import TwoWaySql.Text.Blank
import TwoWaySql.Text.Identifier

/-!
# Characters of ASCII

Most ranges of the property tables lie beyond ASCII. What is left of them are the letters and the
digits (`isAlphabetic_ascii`, `isNumeric_ascii`), so among these characters it is plain which ones
are parts of words (`identifier_ascii`).
-/

namespace TwoWaySql.Text

variable {c : Char}

/-- What holds of the blank characters one by one holds of any blank character. -/
theorem of_isBlank {p : Char → Bool}
    (hall : ∀ n ∈ blankRanges.flatMap fun r => List.range' r.1 (r.2 + 1 - r.1),
      p (Char.ofNat n) = true) (h : isBlank c = true) : p c = true := by
  obtain ⟨r, hr, hle⟩ := CodeRanges.contains_iff.mp h
  rw [← Char.ofNat_toNat c]
  exact hall _ (List.mem_flatMap.mpr ⟨r, hr, by rw [List.mem_range'_1]; omega⟩)

theorem isAlpha_iff :
    c.isAlpha = true ↔ 0x41 ≤ c.toNat ∧ c.toNat ≤ 0x5a ∨ 0x61 ≤ c.toNat ∧ c.toNat ≤ 0x7a := by
  refine Bool.or_eq_true_iff.trans (or_congr decide_eq_true_iff ?_)
  exact Bool.and_eq_true_iff.trans (and_congr decide_eq_true_iff decide_eq_true_iff)

theorem isDigit_iff : c.isDigit = true ↔ 0x30 ≤ c.toNat ∧ c.toNat ≤ 0x39 :=
  Bool.and_eq_true_iff.trans (and_congr decide_eq_true_iff decide_eq_true_iff)

/-- Ranges that start beyond ASCII hold no character of it. -/
theorem contains_ascii (ranges : CodeRanges) (h : c.toNat < 128) :
    ranges.contains c = CodeRanges.contains (ranges.filter (·.1 < 128)) c := by
  rw [Bool.eq_iff_iff, CodeRanges.contains_iff, CodeRanges.contains_iff]
  refine exists_congr fun r => ?_
  rw [List.mem_filter, and_assoc]
  refine and_congr_right fun _ => (and_iff_right_of_imp fun hr => ?_).symm
  exact decide_eq_true (Nat.lt_of_le_of_lt hr.1 h)

theorem isAlphabetic_ascii (h : c.toNat < 128) : isAlphabetic c = c.isAlpha := by
  have hranges : alphabeticRangesLow.filter (·.1 < 128) = [(0x41, 0x5a), (0x61, 0x7a)] := by
    decide +kernel
  rw [isAlphabetic, if_pos (by omega), contains_ascii _ h, hranges, Bool.eq_iff_iff,
    CodeRanges.contains_iff, isAlpha_iff]
  simp

theorem isNumeric_ascii (h : c.toNat < 128) : isNumeric c = c.isDigit := by
  have hranges : numericRanges.filter (·.1 < 128) = [(0x30, 0x39)] := by decide +kernel
  rw [isNumeric, contains_ascii _ h, hranges, Bool.eq_iff_iff, CodeRanges.contains_iff,
    isDigit_iff]
  simp

/-- Letters, digits, `_` and `$` are parts of words, and all of these but the digits start words. -/
theorem identifier_ascii (h : c.toNat < 128) :
    isIdentifierPart c = (c.isAlphanum || c == '_' || c == '$') ∧
      isIdentifierStart c = (c.isAlpha || c == '_' || c == '$') := by
  rw [isIdentifierPart, isIdentifierStart, isAlphanumeric, isAlphabetic_ascii h, isNumeric_ascii h]
  exact ⟨rfl, rfl⟩

/-- A digit is a part of a word, but not its first character. -/
theorem isIdentifierPart_of_isDigit (h : c.isDigit = true) :
    isIdentifierPart c = true ∧ isIdentifierStart c = false := by
  have hrange := isDigit_iff.mp h
  obtain ⟨hpart, hstart⟩ := identifier_ascii (c := c) (by omega)
  refine ⟨by simp [hpart, Char.isAlphanum, h], ?_⟩
  have halpha : c.isAlpha = false := Bool.eq_false_iff.mpr fun halpha => by
    have := isAlpha_iff.mp halpha
    omega
  have hne (d : Char) (hd : d.isDigit = false) : c ≠ d := by
    rintro rfl
    rw [h] at hd
    cases hd
  simp [hstart, halpha, hne '_' (by decide), hne '$' (by decide)]

theorem isDigit_of_isIdentifierPart (h : isIdentifierPart c = false) : c.isDigit = false :=
  Bool.eq_false_iff.mpr fun hdigit => by
    rw [(isIdentifierPart_of_isDigit hdigit).1] at h
    cases h

theorem isIdentifierPart_of_isBlank (h : isBlank c = true) : isIdentifierPart c = false := by
  simpa using of_isBlank (p := fun c => !isIdentifierPart c) (by decide +kernel) h

theorem isBlank_of_isIdentifierPart (h : isIdentifierPart c = true) : isBlank c = false :=
  Bool.eq_false_iff.mpr fun hblank => by
    rw [isIdentifierPart_of_isBlank hblank] at h
    cases h

end TwoWaySql.Text
