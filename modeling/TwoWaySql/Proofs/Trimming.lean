import Mathlib.Data.List.DropRight
import TwoWaySql.Text.Blank

/-!
# Trimming

Trimming takes the blanks around a text off and nothing else: what is left has no blanks at its
sides (`isTrimmed_trim`), and any such text is what trimming leaves of it with blanks around it
(`trim_append`).
-/

namespace TwoWaySql.Text

/-! ## Runs of characters -/

section Runs

variable {p : Char → Bool} {a b c d : List Char}

/-- A run of characters that satisfy `p` goes up to the first that does not. -/
theorem span_append (ha : ∀ x ∈ a, p x = true) (hb : ∀ x ∈ b.head?, p x = false) :
    (a ++ b).takeWhile p = a ∧ (a ++ b).dropWhile p = b := by
  rw [List.takeWhile_append_of_pos ha, List.dropWhile_append_of_pos ha]
  cases b with
  | nil => simp
  | cons x b =>
    have hx : ¬p x = true := by simp [hb x rfl]
    rw [List.takeWhile_cons_of_neg hx, List.dropWhile_cons_of_neg hx, List.append_nil]
    exact ⟨rfl, rfl⟩

/-- A text is such a run and a rest in one way. -/
theorem span_inj (ha : ∀ x ∈ a, p x = true) (hb : ∀ x ∈ b.head?, p x = false)
    (hc : ∀ x ∈ c, p x = true) (hd : ∀ x ∈ d.head?, p x = false) (h : a ++ b = c ++ d) :
    a = c ∧ b = d := by
  obtain ⟨htake, hdrop⟩ := span_append ha hb
  obtain ⟨htake', hdrop'⟩ := span_append hc hd
  rw [h] at htake hdrop
  exact ⟨htake.symm.trans htake', hdrop.symm.trans hdrop'⟩

end Runs

/-! ## Blanks around a text -/

variable {a b cs body : List Char}

/-- A text without blanks at its sides. -/
structure IsTrimmed (cs : List Char) : Prop where
  first : ∀ c ∈ cs.head?, isBlank c = false
  last : ∀ c ∈ cs.getLast?, isBlank c = false

theorem head?_dropBlanks (cs : List Char) :
    ∀ c ∈ (cs.dropWhile isBlank).head?, isBlank c = false := by
  intro c hc
  have hfirst := List.head?_dropWhile_not isBlank cs
  rwa [Option.mem_def.mp hc] at hfirst

theorem trimEnd_eq_rdropWhile (cs : List Char) : trimEnd cs = cs.rdropWhile isBlank := rfl

/-- Trimming at the end keeps the character at the start, or leaves nothing. -/
theorem head?_trimEnd (h : ∀ c ∈ cs.head?, isBlank c = false) :
    ∀ c ∈ (trimEnd cs).head?, isBlank c = false := by
  obtain ⟨after, hcs⟩ := List.rdropWhile_prefix isBlank cs
  rw [← trimEnd_eq_rdropWhile] at hcs
  intro c hc
  refine h c ?_
  rw [← hcs, List.head?_append, Option.mem_def.mp hc]
  rfl

theorem isTrimmed_trim (cs : List Char) : IsTrimmed (trim cs) := by
  refine ⟨head?_trimEnd (head?_dropBlanks cs), fun c hc => ?_⟩
  rw [trim, trimEnd, List.getLast?_reverse] at hc
  exact head?_dropBlanks _ c hc

/-- Trimming takes the blanks around a text off. -/
theorem trim_append (ha : ∀ c ∈ a, isBlank c = true) (h : IsTrimmed cs)
    (hb : ∀ c ∈ b, isBlank c = true) : trim (a ++ (cs ++ b)) = cs := by
  cases cs with
  | nil =>
    have hall : ∀ c ∈ a ++ b, isBlank c = true := List.forall_mem_append.mpr ⟨ha, hb⟩
    rw [List.nil_append, trim, trimStart, List.dropWhile_eq_nil_iff.mpr hall]
    rfl
  | cons x cs =>
    have hfirst : ∀ c ∈ (x :: cs ++ b).head?, isBlank c = false := h.first
    have hend : ((x :: cs ++ b).reverse).dropWhile isBlank = (x :: cs).reverse := by
      rw [List.reverse_append]
      refine (span_append (fun c hc => hb c (List.mem_reverse.mp hc)) fun c hc => ?_).2
      rw [List.head?_reverse] at hc
      exact h.last c hc
    rw [trim, trimStart, (span_append ha hfirst).2, trimEnd, hend, List.reverse_reverse]

theorem IsTrimmed.trim_eq (h : IsTrimmed cs) : trim cs = cs := by
  have hcs : trim ([] ++ (cs ++ [])) = cs :=
    trim_append (List.forall_mem_nil _) h (List.forall_mem_nil _)
  rwa [List.nil_append, List.append_nil] at hcs

theorem trim_trim (cs : List Char) : trim (trim cs) = trim cs := (isTrimmed_trim cs).trim_eq

/-- What trimming takes off a text are blanks. -/
theorem exists_blanks (cs : List Char) : ∃ a b, (∀ c ∈ a, isBlank c = true) ∧
    (∀ c ∈ b, isBlank c = true) ∧ cs = a ++ (trim cs ++ b) := by
  refine ⟨cs.takeWhile isBlank, ((trimStart cs).reverse.takeWhile isBlank).reverse,
    fun c => List.mem_takeWhile_imp, fun c hc => ?_, ?_⟩
  · exact List.mem_takeWhile_imp (List.mem_reverse.mp hc)
  · rw [trim, trimEnd, ← List.reverse_append, List.takeWhile_append_dropWhile,
      List.reverse_reverse]
    exact (List.takeWhile_append_dropWhile ..).symm

/-- The end of a trimmed text has no blanks after it. -/
theorem trimEnd_of_suffix (h : cs <:+ trim body) : trimEnd cs = cs := by
  rw [trimEnd_eq_rdropWhile, List.rdropWhile_eq_self_iff]
  intro hcs hblank
  obtain ⟨before, hbody⟩ := h
  have hlast := (isTrimmed_trim body).last (cs.getLast hcs) (by
    rw [← hbody, List.getLast?_append_of_ne_nil _ hcs, List.getLast?_eq_some_getLast hcs]
    rfl)
  rw [hblank] at hlast
  cases hlast

theorem trim_suffix (h : cs <:+ trim body) : trim cs <:+ trim body := by
  have hstart : trimStart cs <:+ trim body := (List.dropWhile_suffix isBlank).trans h
  rwa [trim, trimEnd_of_suffix hstart]

end TwoWaySql.Text
