import Mathlib.Data.List.DropRight
import TwoWaySql.Proofs.Spans

/-!
# Lines and positions

A message gives the place of an error as a line and as the position of a character in it. Both are
read off the text before the place: the line counts its line ends, the position the characters after
the last of them. Going on in a text makes the line greater, or the position on the same line
(`precedes_of_lt`), and skipping as many line ends and then as many characters leads back to the
place (`offsetAt_append`). So a line and a position are no less than the place itself.
-/

namespace TwoWaySql

/-- The characters after the last line end. -/
def lastLine (cs : List Char) : List Char := cs.rtakeWhile (· ≠ '\n')

/-- The byte offset that is reached from the start of a text by skipping a number of line ends, with
what comes before them, and then a number of characters. -/
def offsetAt : Nat → Nat → List Char → Nat
  | 0, characters, cs => byteLength (cs.take characters)
  | _ + 1, _, [] => 0
  | lineEnds + 1, characters, c :: cs =>
    c.utf8Size + offsetAt (if c = '\n' then lineEnds else lineEnds + 1) characters cs

/-! ## The last line -/

variable {as bs : List Char}

theorem lastLine_concat (cs : List Char) (c : Char) :
    lastLine (cs ++ [c]) = if c = '\n' then [] else lastLine cs ++ [c] := by
  rw [lastLine, List.rtakeWhile_concat]
  by_cases hc : c = '\n' <;> simp [hc, lastLine]

/-- What comes before a line end does not matter. -/
theorem lastLine_append_of_mem (as : List Char) (h : '\n' ∈ bs) :
    lastLine (as ++ bs) = lastLine bs := by
  induction bs using List.reverseRecOn with
  | nil => cases h
  | append_singleton bs c ih =>
    rw [← List.append_assoc, lastLine_concat, lastLine_concat]
    split
    · rfl
    · rename_i hc
      have hbs : '\n' ∈ bs :=
        (List.mem_append.mp h).resolve_right fun hmem => hc (List.mem_singleton.mp hmem).symm
      rw [ih hbs]

/-- Text without a line end goes on with the last line. -/
theorem lastLine_append (as : List Char) (h : '\n' ∉ bs) :
    lastLine (as ++ bs) = lastLine as ++ bs := by
  induction bs using List.reverseRecOn with
  | nil => rw [List.append_nil, List.append_nil]
  | append_singleton bs c ih =>
    obtain ⟨hbs, hc⟩ := not_or.mp fun hmem => h (List.mem_append.mpr hmem)
    rw [← List.append_assoc, lastLine_concat, if_neg fun hc' => hc (by simp [hc']), ih hbs,
      List.append_assoc]

theorem lastLine_of_not_mem (h : '\n' ∉ as) : lastLine as = as := lastLine_append [] h

/-- The last line goes on without what comes before it, unless that is a part of it. -/
theorem lastLine_cons (c : Char) (cs : List Char) :
    lastLine (c :: cs) = if '\n' ∈ cs ∨ c = '\n' then lastLine cs else c :: cs := by
  by_cases hcs : '\n' ∈ cs
  · rw [if_pos (.inl hcs)]
    exact lastLine_append_of_mem [c] hcs
  · have happend : lastLine (c :: cs) = lastLine [c] ++ cs := lastLine_append [c] hcs
    have hsingle : lastLine [c] = if c = '\n' then [] else [c] := lastLine_concat [] c
    rw [happend, hsingle, lastLine_of_not_mem hcs]
    by_cases hc : c = '\n' <;> simp [hcs, hc]

/-! ## Back to the place -/

/-- The line ends before a place and the characters before it on its line lead to it. -/
theorem offsetAt_append (as bs : List Char) :
    offsetAt (as.count '\n') (lastLine as).length (as ++ bs) = byteLength as := by
  induction as with
  | nil =>
    rw [List.count_nil, offsetAt]
    rfl
  | cons c as ih =>
    rw [lastLine_cons, byteLength_cons]
    by_cases hc : c = '\n'
    · rw [if_pos (.inr hc), hc, List.count_cons_self, List.cons_append, offsetAt, if_pos rfl, ih]
    · rw [List.count_cons_of_ne hc]
      by_cases has : '\n' ∈ as
      · obtain ⟨n, hn⟩ : ∃ n, as.count '\n' = n + 1 :=
          Nat.exists_eq_succ_of_ne_zero (List.count_pos_iff.mpr has).ne'
        rw [if_pos (.inl has), hn, List.cons_append, offsetAt, if_neg hc, ← hn, ih]
      · have hcount : as.count '\n' = 0 := List.count_eq_zero.mpr has
        rw [if_neg (by simp [has, hc]), hcount, offsetAt, List.take_left, byteLength_cons]

/-! ## Locations -/

namespace Location

theorem position_eq (l : Location) : l.position = (lastLine l.before).length + 1 := by
  rw [position, lastLine, List.rtakeWhile, List.length_reverse]

/-- One place comes before another one by its line, or on the same line by its position. -/
def Precedes (l m : Location) : Prop :=
  l.line < m.line ∨ l.line = m.line ∧ l.position < m.position

/-- Going on from a place makes the line greater, or the position on the same line. -/
theorem precedes_of_before {l m : Location} {cs : List Char} (h : m.before = l.before ++ cs)
    (hne : cs ≠ []) : l.Precedes m := by
  rw [Precedes, position_eq, position_eq, line, line, h, List.count_append]
  by_cases hcs : '\n' ∈ cs
  · have hpos : 0 < cs.count '\n' := List.count_pos_iff.mpr hcs
    exact .inl (by omega)
  · have hzero : cs.count '\n' = 0 := List.count_eq_zero.mpr hcs
    have hlength : 0 < cs.length := List.length_pos_iff.mpr hne
    rw [lastLine_append _ hcs, List.length_append]
    exact .inr ⟨by omega, by omega⟩

theorem precedes_of_lt {source : String} {m n : Nat} (hm : IsPlace source.toList m)
    (hn : IsPlace source.toList n) (h : m < n) : Precedes ⟨source, m⟩ ⟨source, n⟩ := by
  obtain ⟨as, bs, hsource, rfl⟩ := isPlace_iff.mp hm
  obtain ⟨cs, ds, hsource', rfl⟩ := isPlace_iff.mp hn
  obtain ⟨more, rfl, -⟩ | ⟨more, rfl, -⟩ :=
    List.append_eq_append_iff.mp (hsource.symm.trans hsource')
  · have hbefore : before ⟨source, byteLength (as ++ more)⟩ =
        before ⟨source, byteLength as⟩ ++ more := by
      rw [before_byteLength hsource, before_byteLength hsource']
    refine precedes_of_before hbefore ?_
    rintro rfl
    rw [List.append_nil] at h
    exact Nat.lt_irrefl _ h
  · rw [byteLength_append] at h
    omega

/-- A line and a position identify a place: they come in the order of the byte offsets, and skipping
the line ends before the line and then the characters before the position leads to the offset. -/
theorem line_position_identify {source : String} {m n : Nat} (hm : IsPlace source.toList m)
    (hn : IsPlace source.toList n) :
    (m < n ↔ Precedes ⟨source, m⟩ ⟨source, n⟩) ∧
      offsetAt (line ⟨source, n⟩ - 1) (position ⟨source, n⟩ - 1) source.toList = n := by
  refine ⟨⟨precedes_of_lt hm hn, fun h => ?_⟩, ?_⟩
  · rcases Nat.lt_trichotomy m n with hlt | rfl | hlt
    · exact hlt
    · rcases h with h | ⟨-, h⟩ <;> exact absurd h (Nat.lt_irrefl _)
    · have hback := precedes_of_lt hn hm hlt
      unfold Precedes at h hback
      omega
  · obtain ⟨as, bs, hsource, rfl⟩ := isPlace_iff.mp hn
    rw [position_eq, line, before_byteLength hsource, Nat.add_sub_cancel, Nat.add_sub_cancel,
      hsource, offsetAt_append]

/-- A text with characters of one, two and three bytes, and an empty line. -/
def threeLines : String := "é\n\n日本"

theorem line_position_identify_threeLines :
    IsPlace threeLines.toList 3 ∧ IsPlace threeLines.toList 7 ∧
      Precedes ⟨threeLines, 3⟩ ⟨threeLines, 7⟩ ∧ line ⟨threeLines, 7⟩ = 3 ∧
      position ⟨threeLines, 7⟩ = 2 ∧ offsetAt 2 1 threeLines.toList = 7 := by
  have hm : IsPlace threeLines.toList 3 := isPlace_iff.mpr ⟨['é', '\n'], ['\n', '日', '本'], rfl, rfl⟩
  have hn : IsPlace threeLines.toList 7 := isPlace_iff.mpr ⟨['é', '\n', '\n', '日'], ['本'], rfl, rfl⟩
  have hline : line ⟨threeLines, 7⟩ = 3 := by decide
  have hposition : position ⟨threeLines, 7⟩ = 2 := by decide
  obtain ⟨hlt, hoffset⟩ := line_position_identify hm hn
  rw [hline, hposition] at hoffset
  exact ⟨hm, hn, hlt.mp (by decide), hline, hposition, hoffset⟩

end Location

end TwoWaySql
