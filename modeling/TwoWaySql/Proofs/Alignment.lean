import TwoWaySql.Compiler
import TwoWaySql.Proofs.Outcome
import TwoWaySql.Proofs.Parts

/-!
# Alignment of text, log and values

Text and log of a statement agree but for the placeholders: between the same gaps of SQL the text
has a placeholder where the log has the literal of a value, and the values are those, in order. An
output of any part is built that way, and putting outputs together, writing a keyword before one or
throwing one away keeps it so.
-/

namespace TwoWaySql

/-- A text with gaps and marks by turns. -/
def weave (first : String) (marks gaps : List String) : String :=
  first ++ String.join (List.zipWith (· ++ ·) marks gaps)

theorem weave_cons (first mark gap : String) (marks gaps : List String) :
    weave first (mark :: marks) (gap :: gaps) = first ++ mark ++ weave gap marks gaps := by
  simp [weave, String.append_assoc]

namespace Output

/-- Gaps of SQL and placeholders by turns. -/
inductive Aligned (format : Formatter) : Output → Prop where
  | gap (s : String) : Aligned format (.sql s)
  | value (s : String) (v : BoundValue) {rest : Output} : Aligned format rest →
      Aligned format (.sql s ++ .placeholder format v ++ rest)

namespace Aligned

variable {format : Formatter} {a b : Output}

theorem empty : Aligned format .empty := .gap ""

theorem placeholder (v : BoundValue) : Aligned format (.placeholder format v) := by
  have h : Aligned format (.sql "" ++ .placeholder format v ++ .empty) := .value "" v empty
  rwa [show Output.sql "" = .empty from rfl, empty_append, append_empty] at h

/-- SQL goes into the first gap. -/
theorem sql_append (s : String) (h : Aligned format a) : Aligned format (.sql s ++ a) := by
  cases h with
  | gap t => exact .gap (s ++ t)
  | value t v h =>
    rw [← append_assoc, ← append_assoc]
    exact .value (s ++ t) v h

theorem append (ha : Aligned format a) (hb : Aligned format b) : Aligned format (a ++ b) := by
  induction ha with
  | gap s => exact hb.sql_append s
  | value s v _ ih =>
    rw [append_assoc]
    exact .value s v ih

theorem join {outputs : List Output} (h : ∀ o ∈ outputs, Aligned format o) :
    Aligned format (.join outputs) := by
  induction outputs with
  | nil => exact empty
  | cons o os ih =>
    exact (h o List.mem_cons_self).append (ih fun p hp => h p (List.mem_cons_of_mem o hp))

/-- The gaps, and what stands between them. -/
theorem exists_gaps (h : Aligned format a) :
    ∃ first gaps, gaps.length = a.values.length ∧
      a.text = weave first (a.values.map fun _ => "?") gaps ∧
      a.log = weave first (a.values.map format) gaps := by
  induction h with
  | gap s => exact ⟨s, [], rfl, by simp [weave, Output.sql], by simp [weave, Output.sql]⟩
  | @value s v rest _ ih =>
    obtain ⟨first, gaps, hlength, htext, hlog⟩ := ih
    refine ⟨s, first :: gaps, ?_, ?_, ?_⟩
    · simp [Output.sql, Output.placeholder, hlength]
    · simp [Output.sql, Output.placeholder, weave_cons, htext]
    · simp [Output.sql, Output.placeholder, weave_cons, hlog]

end Aligned

end Output

namespace Template

open Output (Aligned)

variable {format : Formatter}

/-! ## What parts write -/

theorem mem_intersperse {α : Type} {sep x : α} :
    {xs : List α} → x ∈ xs.intersperse sep → x = sep ∨ x ∈ xs
  | [], h => .inr h
  | [_], h => .inr h
  | y :: z :: xs, h => by
    rw [List.intersperse_cons_cons, List.mem_cons, List.mem_cons] at h
    rcases h with rfl | rfl | h
    · exact .inr List.mem_cons_self
    · exact .inl rfl
    · exact (mem_intersperse h).imp_right (List.mem_cons_of_mem y)

theorem aligned_tuple {outputs : List Output} (h : ∀ o ∈ outputs, Aligned format o) :
    Aligned format (tuple outputs) := by
  refine Aligned.append ?_ (.gap ")")
  refine Aligned.sql_append "(" (Aligned.join fun o ho => ?_)
  rcases mem_intersperse ho with rfl | ho
  · exact .gap ", "
  · exact h o ho

theorem aligned_itemOutput (v : Value) : Aligned format (itemOutput format v) := by
  unfold itemOutput
  split
  · exact aligned_tuple (by simp [Aligned.placeholder])
  · exact aligned_tuple (by simp [Aligned.placeholder])
  · exact .placeholder _

theorem aligned_bindOutput (v : BoundValue) : Aligned format (bindOutput format v) := by
  unfold bindOutput
  split
  · exact aligned_tuple (by simp [Aligned.gap])
  · exact aligned_tuple (by simp [aligned_itemOutput])
  · exact .placeholder v

theorem aligned_writeElidable {keyword : String} {available : Bool} {body : Bool × Output}
    (h : Aligned format body.2) :
    Aligned format (Part.writeElidable keyword available body).2 := by
  unfold Part.writeElidable
  split
  · exact h.sql_append keyword
  · split
    · exact h
    · exact .empty

mutual

theorem aligned_write :
    (p : Part) → (available : Bool) → Aligned format (p.write format available).2
  | .space text, _ => by rw [Part.write]; exact .gap text
  | .content text, _ => by rw [Part.write]; exact .gap text
  | .bind v, _ => by rw [Part.write]; exact aligned_bindOutput v
  | .literal v, _ => by rw [Part.write]; exact .gap (format v)
  | .logical keyword ps, available => by
    have h := aligned_writeAll ps available
    simp only [Part.write]
    split
    · exact h.sql_append keyword
    · exact h
  | .clause kind keyword ps, available => by
    simp only [Part.write]
    split
    · exact (aligned_writeAll ps available).sql_append keyword
    · exact aligned_writeElidable (aligned_writeAll ps false)
  | .group ps, _ => by
    simp only [Part.write]
    exact ((aligned_writeAll ps false).sql_append "(").append (.gap ")")
  | .operands left keyword right, _ => by
    simp only [Part.write]
    have hleft := (aligned_writeAll left false).append (.gap keyword)
    exact hleft.append (aligned_writeAll right false)

theorem aligned_writeAll :
    (ps : List Part) → (available : Bool) → Aligned format (Part.writeAll format ps available).2
  | [], _ => by rw [Part.writeAll]; exact .empty
  | p :: ps, available => by
    simp only [Part.writeAll]
    exact (aligned_write p available).append (aligned_writeAll ps _)

end

/-! ## Statements -/

/-- A statement has one placeholder for each value, in order, and its log is its text with each
placeholder replaced by the literal of its value. -/
theorem render_aligned (r : Renderer) (tree : Tree) (parameters : Scope) (s : Statement)
    (h : r.render tree parameters = .ok s) :
    ∃ first gaps, gaps.length = s.values.length ∧
      s.text = weave first (s.values.map fun _ => "?") gaps ∧
      s.log = weave first (s.values.map r.formatter) gaps := by
  obtain ⟨ps, scope, -, rfl⟩ := render_eq_ok_iff.mp h
  exact (aligned_writeAll ps false).exists_gaps

/-- A loop, a clause that is left out and a list of pairs. -/
theorem render_aligned_loop_pairs :
    ∃ tree s,
      parse 8 "a /*%for n in xs*/, /*n*/1/*%end*/ where /*%if x*/b/*%end*/ having a=/*ps*/2" =
        .ok tree ∧
      Compiler.standard.render tree (.ofList [("xs", .of (.list [.int 1, .string "?"])),
        ("x", .of (.bool false)), ("ps", .of (.list [.pair (.int 2) .null]))]) = .ok s ∧
      s.log = "a , 1, \x27?\x27 having a=((2, NULL))" ∧
      ∃ first gaps, gaps.length = s.values.length ∧
        s.text = weave first (s.values.map fun _ => "?") gaps ∧
        s.log = weave first (s.values.map Compiler.standard.formatter) gaps := by
  have hlog : (parse 8
      "a /*%for n in xs*/, /*n*/1/*%end*/ where /*%if x*/b/*%end*/ having a=/*ps*/2" >>= fun tree =>
      Compiler.standard.render tree (.ofList [("xs", .of (.list [.int 1, .string "?"])),
        ("x", .of (.bool false)), ("ps", .of (.list [.pair (.int 2) .null]))])).toOption.map
      (·.log) = some "a , 1, \x27?\x27 having a=((2, NULL))" := by
    decide +kernel
  obtain ⟨s, hs, hlog⟩ := exists_ok_of_map hlog
  obtain ⟨tree, htree, hs⟩ := bind_eq_ok.mp hs
  exact ⟨tree, s, htree, hs, hlog, render_aligned _ tree _ s hs⟩

end Template

end TwoWaySql
