import TwoWaySql.Compiler
import TwoWaySql.Proofs.Outcome
import TwoWaySql.Proofs.Parts

/-!
# Clauses that are left out

What a part adds to the knowledge whether there is content does not depend on what is before it
(`write_fst`): values never count, so a body made of nothing but blanks and values is left out with
its values. `build_elidesOnlyBlanks_iff` says for which statements no value is lost.
-/

namespace TwoWaySql.Template

namespace Part

/-! ## What is visited -/

mutual

/-- The part and all parts within it, in order. -/
def visited : Part → List Part
  | logical keyword ps => logical keyword ps :: visitedAll ps
  | clause kind keyword ps => clause kind keyword ps :: visitedAll ps
  | group ps => group ps :: visitedAll ps
  | operands left keyword right =>
    operands left keyword right :: (visitedAll left ++ visitedAll right)
  | p => [p]

def visitedAll : List Part → List Part
  | [] => []
  | p :: ps => visited p ++ visitedAll ps

end

/-- What the value of a directive is written as. -/
def valueOutput? (format : Formatter) : Part → Option Output
  | bind v => some (bindOutput format v)
  | literal v => some (.sql (format v))
  | _ => none

/-- What the values of all bind and literal directives are written as, in order. -/
def valueOutputs (format : Formatter) (ps : List Part) : List Output :=
  (visitedAll ps).filterMap (valueOutput? format)

/-! ## Content -/

variable {format : Formatter}

mutual

/-- Whether there is content after the part even if there is none before it. -/
def counts (format : Formatter) : Part → Bool
  | space _ | bind _ | literal _ => false
  | content _ | group _ | operands .. => true
  | logical _ ps => anyCounts format ps
  | clause kind _ ps =>
    if kind.isAlwaysWritten then anyCounts format ps
    else !anyCounts format ps && startsWithClause (output format ps).text

def anyCounts (format : Formatter) : List Part → Bool
  | [] => false
  | p :: ps => counts format p || anyCounts format ps

end

mutual

/-- Content before a part stays, and the part counts or not by itself. -/
theorem write_fst : (p : Part) → (available : Bool) →
    (write format p available).1 = (available || counts format p)
  | space _, _ => by simp [write, counts]
  | content _, _ => by simp [write, counts]
  | bind _, _ => by simp [write, counts]
  | literal _, _ => by simp [write, counts]
  | group _, _ => by simp [write, counts]
  | operands .., _ => by simp [write, counts]
  | logical _ ps, available => by simp only [write, counts, writeAll_fst ps available]
  | clause kind _ ps, available => by
    have h := writeAll_fst ps false
    simp only [write, counts]
    split
    · exact writeAll_fst ps available
    · simp only [writeElidable, h, Bool.false_or, output]
      cases anyCounts format ps with
      | true => simp
      | false => cases startsWithClause (writeAll format ps false).2.text <;> simp

theorem writeAll_fst : (ps : List Part) → (available : Bool) →
    (writeAll format ps available).1 = (available || anyCounts format ps)
  | [], _ => by simp [writeAll, anyCounts]
  | p :: ps, available => by
    simp only [writeAll, anyCounts, writeAll_fst ps, write_fst p, Bool.or_assoc]

end

/-- Whether a clause that may be left out is left out with this body. -/
def leftOut (format : Formatter) (body : List Part) : Bool :=
  !anyCounts format body && !startsWithClause (output format body).text

theorem writeElidable_of_leftOut {body : List Part} (h : leftOut format body = true)
    (keyword : String) (available : Bool) :
    writeElidable keyword available (writeAll format body false) = (available, .empty) := by
  simp only [leftOut, Bool.and_eq_true, Bool.not_eq_true', output] at h
  simp [writeElidable, writeAll_fst, h.1, h.2]

/-- Otherwise the body is written, after the keyword or without it. -/
theorem writeElidable_of_not_leftOut {body : List Part} (h : leftOut format body = false)
    (keyword : String) (available : Bool) :
    (writeElidable keyword available (writeAll format body false)).2 =
        .sql keyword ++ output format body ∨
      (writeElidable keyword available (writeAll format body false)) =
        (true, output format body) := by
  simp only [leftOut, Bool.and_eq_false_iff, Bool.not_eq_false', output] at h
  simp only [writeElidable, writeAll_fst, Bool.false_or, output]
  cases hcounts : anyCounts format body with
  | true => simp
  | false => simp [h.resolve_left (by simp [hcounts])]

/-! ## Blanks -/

mutual

/-- Whether nothing but blanks and comments is written for the part, given whether there is content
before it. -/
def writesBlank (format : Formatter) : Part → Bool → Bool
  | space _, _ => true
  | logical _ ps, available => !available && allBlank format ps available
  | clause kind _ ps, _ => !kind.isAlwaysWritten && leftOut format ps
  | _, _ => false

def allBlank (format : Formatter) : List Part → Bool → Bool
  | [], _ => true
  | p :: ps, available =>
    writesBlank format p available && allBlank format ps (write format p available).1

end

/-- A clause is left out only if its body is written as blanks and comments. -/
def ElidesOnlyBlanks (format : Formatter) (ps : List Part) : Prop :=
  ∀ kind keyword body, clause kind keyword body ∈ visitedAll ps → kind.isAlwaysWritten = false →
    leftOut format body = true → allBlank format body false = true

/-- Whether a part keeps to it. -/
def elidesBlank (format : Formatter) : Part → Bool
  | clause kind _ body =>
    kind.isAlwaysWritten || !leftOut format body || allBlank format body false
  | _ => true

theorem elidesOnlyBlanks_iff {ps : List Part} :
    ElidesOnlyBlanks format ps ↔ ∀ p ∈ visitedAll ps, elidesBlank format p = true := by
  constructor
  · intro h p hp
    cases p with
    | clause kind keyword body =>
      have hclause := h kind keyword body hp
      cases hkind : kind.isAlwaysWritten with
      | true => simp [elidesBlank, hkind]
      | false =>
        cases hleft : leftOut format body with
        | true => simp [elidesBlank, hclause hkind hleft]
        | false => simp [elidesBlank, hleft]
    | _ => rfl
  · intro h kind keyword body hmem hkind hleft
    simpa [elidesBlank, hkind, hleft] using h _ hmem

instance (ps : List Part) : Decidable (ElidesOnlyBlanks format ps) :=
  decidable_of_iff _ elidesOnlyBlanks_iff.symm

theorem ElidesOnlyBlanks.of_subset {ps qs : List Part} (h : ElidesOnlyBlanks format ps)
    (hsub : ∀ p ∈ visitedAll qs, p ∈ visitedAll ps) : ElidesOnlyBlanks format qs :=
  fun kind keyword body hmem => h kind keyword body (hsub _ hmem)

theorem ElidesOnlyBlanks.head {p : Part} {ps : List Part} (h : ElidesOnlyBlanks format (p :: ps)) :
    ElidesOnlyBlanks format [p] :=
  h.of_subset (by simp +contextual [visitedAll])

theorem ElidesOnlyBlanks.tail {p : Part} {ps : List Part} (h : ElidesOnlyBlanks format (p :: ps)) :
    ElidesOnlyBlanks format ps :=
  h.of_subset (by simp +contextual [visitedAll])

theorem valueOutputs_cons (p : Part) (ps : List Part) :
    valueOutputs format (p :: ps) = valueOutputs format [p] ++ valueOutputs format ps := by
  simp [valueOutputs, visitedAll]

/-- The values of a part that holds others are theirs. -/
theorem valueOutputs_of_visited {p : Part} {ps : List Part} (h : visited p = p :: visitedAll ps)
    (hp : valueOutput? format p = none) : valueOutputs format [p] = valueOutputs format ps := by
  simp [valueOutputs, visitedAll, h, hp]

theorem valueOutputs_operands (left right : List Part) (keyword : String) :
    valueOutputs format [operands left keyword right] =
      valueOutputs format left ++ valueOutputs format right := by
  simp [valueOutputs, visitedAll, visited, List.filterMap_cons, valueOutput?]

mutual

/-- Among blanks there are no values. -/
theorem valueOutputs_of_writesBlank : (p : Part) → (available : Bool) →
    ElidesOnlyBlanks format [p] → writesBlank format p available = true →
    valueOutputs format [p] = []
  | space _, _, _, _ => by simp [valueOutputs, visitedAll, visited, valueOutput?]
  | logical keyword ps, available, h, hblank => by
    simp only [writesBlank, Bool.and_eq_true] at hblank
    rw [valueOutputs_of_visited (by rw [visited]) rfl]
    exact valueOutputs_of_allBlank ps available
      (h.of_subset (by simp +contextual [visitedAll, visited])) hblank.2
  | clause kind keyword ps, available, h, hblank => by
    simp only [writesBlank, Bool.and_eq_true, Bool.not_eq_true'] at hblank
    have hbody := h kind keyword ps (by simp [visitedAll, visited]) hblank.1 hblank.2
    rw [valueOutputs_of_visited (by rw [visited]) rfl]
    exact valueOutputs_of_allBlank ps false
      (h.of_subset (by simp +contextual [visitedAll, visited])) hbody
  | content _, _, _, hblank | bind _, _, _, hblank | literal _, _, _, hblank
  | group _, _, _, hblank | operands .., _, _, hblank => by simp [writesBlank] at hblank

theorem valueOutputs_of_allBlank : (ps : List Part) → (available : Bool) →
    ElidesOnlyBlanks format ps → allBlank format ps available = true → valueOutputs format ps = []
  | [], _, _, _ => rfl
  | p :: ps, available, h, hblank => by
    simp only [allBlank, Bool.and_eq_true] at hblank
    rw [valueOutputs_cons, valueOutputs_of_writesBlank p available h.head hblank.1,
      valueOutputs_of_allBlank ps _ h.tail hblank.2, List.append_nil]

end

/-! ## Values that reach the statement -/

/-- The outputs one after the other with SQL before, between and after them. -/
inductive Woven : List Output → Output → Prop where
  | sql (s : String) : Woven [] (.sql s)
  | cons (s : String) (o : Output) {os : List Output} {rest : Output} : Woven os rest →
      Woven (o :: os) (.sql s ++ o ++ rest)

namespace Woven

variable {os os' : List Output} {o o' : Output}

theorem sql_append (s : String) (h : Woven os o) : Woven os (.sql s ++ o) := by
  cases h with
  | sql t => exact .sql (s ++ t)
  | cons t p h =>
    rw [← Output.append_assoc, ← Output.append_assoc]
    exact .cons (s ++ t) p h

theorem append (h : Woven os o) (h' : Woven os' o') : Woven (os ++ os') (o ++ o') := by
  induction h with
  | sql s => exact h'.sql_append s
  | cons s p _ ih =>
    rw [Output.append_assoc]
    exact .cons s p ih

theorem append_sql (h : Woven os o) (s : String) : Woven os (o ++ .sql s) := by
  have happend := h.append (.sql s)
  rwa [List.append_nil] at happend

theorem single (o : Output) : Woven [o] o := by
  have h : Woven [o] (.sql "" ++ o ++ .sql "") := .cons "" o (.sql "")
  rwa [show Output.sql "" = .empty from rfl, Output.empty_append, Output.append_empty] at h

/-- There are no other values than those of the outputs. -/
theorem values_eq (h : Woven os o) : o.values = os.flatMap (·.values) := by
  induction h with
  | sql s => rfl
  | cons s p _ ih => simp [Output.sql, ih]

end Woven

mutual

theorem woven_write : (p : Part) → (available : Bool) → ElidesOnlyBlanks format [p] →
    Woven (valueOutputs format [p]) (write format p available).2
  | space text, _, _ => by
    simp only [write]
    exact .sql text
  | content text, _, _ => by
    simp only [write]
    exact .sql text
  | bind v, _, _ => by
    simp only [write]
    exact .single (bindOutput format v)
  | literal v, _, _ => by
    simp only [write]
    exact .single (.sql (format v))
  | logical keyword ps, available, h => by
    have hps := woven_writeAll ps available
      (h.of_subset (by simp +contextual [visitedAll, visited]))
    rw [valueOutputs_of_visited (by rw [visited]) rfl, write]
    split
    · exact hps.sql_append keyword
    · exact hps
  | clause kind keyword ps, available, h => by
    have hbody : ElidesOnlyBlanks format ps :=
      h.of_subset (by simp +contextual [visitedAll, visited])
    rw [valueOutputs_of_visited (by rw [visited]) rfl, write]
    split
    · exact (woven_writeAll ps available hbody).sql_append keyword
    · rename_i hkind
      cases hleft : leftOut format ps with
      | true =>
        have hblank :=
          h kind keyword ps (by simp [visitedAll, visited]) (by simpa using hkind) hleft
        rw [writeElidable_of_leftOut hleft, valueOutputs_of_allBlank ps false hbody hblank]
        exact .sql ""
      | false =>
        have hps := woven_writeAll ps false hbody
        rcases writeElidable_of_not_leftOut hleft keyword available with hwrite | hwrite
        · rw [hwrite]
          exact hps.sql_append keyword
        · rw [hwrite]
          exact hps
  | group ps, _, h => by
    have hps := woven_writeAll ps false (h.of_subset (by simp +contextual [visitedAll, visited]))
    rw [valueOutputs_of_visited (by rw [visited]) rfl, write]
    exact (hps.sql_append "(").append_sql ")"
  | operands left keyword right, _, h => by
    have hleft := woven_writeAll left false
      (h.of_subset (by simp +contextual [visitedAll, visited]))
    have hright := woven_writeAll right false
      (h.of_subset (by simp +contextual [visitedAll, visited]))
    rw [valueOutputs_operands, write]
    exact (hleft.append_sql keyword).append hright

theorem woven_writeAll : (ps : List Part) → (available : Bool) → ElidesOnlyBlanks format ps →
    Woven (valueOutputs format ps) (writeAll format ps available).2
  | [], _, _ => by
    rw [writeAll]
    exact .sql ""
  | p :: ps, available, h => by
    rw [valueOutputs_cons, writeAll]
    exact (woven_write p available h.head).append (woven_writeAll ps _ h.tail)

end

end Part

end Template

open Template

/-- The parts of a template with its parameters. -/
def Compiler.parts (c : Compiler) (template : String) (parameters : Scope) :
    Except Error (List Part) := do
  let tree ← Template.parse c.limit template
  let (ps, _) ← c.resolve tree parameters
  return ps

theorem Compiler.build_result (c : Compiler) (cache? : Option Cache) (template : String)
    (parameters : Scope) :
    (c.build cache? template parameters).result =
      ((c.parse cache? template).result >>= fun tree => c.render tree parameters) := by
  simp only [build, bind, Except.bind]
  cases (c.parse cache? template).result with
  | error e => rfl
  | ok tree =>
    dsimp only
    cases c.render tree parameters <;> rfl

/-- Rendering does not use the cache. -/
theorem Compiler.build_cache? (c : Compiler) (cache? : Option Cache) (template : String)
    (parameters : Scope) :
    (c.build cache? template parameters).cache? = (c.parse cache? template).cache? := by
  simp only [build]
  cases (c.parse cache? template).result with
  | error e => rfl
  | ok tree =>
    dsimp only
    cases c.render tree parameters <;> rfl

theorem Compiler.build_eq_ok_iff {c : Compiler} {template : String} {parameters : Scope}
    {s : Statement} :
    (c.build none template parameters).result = .ok s ↔
      ∃ ps, c.parts template parameters = .ok ps ∧ s = .ofOutput (Part.output c.formatter ps) := by
  rw [build_result]
  constructor
  · intro h
    obtain ⟨tree, hparse, hrender⟩ := bind_eq_ok.mp h
    obtain ⟨ps, scope, hresolve, hs⟩ := render_eq_ok_iff.mp hrender
    exact ⟨ps, bind_eq_ok.mpr ⟨tree, hparse, bind_eq_ok.mpr ⟨(ps, scope), hresolve, rfl⟩⟩, hs⟩
  · rintro ⟨ps, hparts, hs⟩
    obtain ⟨tree, hparse, hparts⟩ := bind_eq_ok.mp hparts
    obtain ⟨⟨ps', scope⟩, hresolve, hps⟩ := bind_eq_ok.mp hparts
    obtain rfl : ps' = ps := Except.ok.inj hps
    exact bind_eq_ok.mpr ⟨tree, hparse, render_eq_ok_iff.mpr ⟨ps', scope, hresolve, hs⟩⟩

/-- A condition that is only a value is left out with the value. -/
theorem parts_bare_value :
    ∃ ps, Compiler.standard.parts "select * from t where /*x*/1" (.ofList [("x", .of (.int 5))]) =
        .ok ps ∧
      ¬Part.ElidesOnlyBlanks Compiler.standard.formatter ps ∧
      (Part.output Compiler.standard.formatter ps).text = "select * from t " ∧
      (Part.output Compiler.standard.formatter ps).values.length = 0 ∧
      (Part.valueOutputs Compiler.standard.formatter ps).map (·.text) = ["?"] := by
  have h : (Compiler.standard.parts "select * from t where /*x*/1"
      (.ofList [("x", .of (.int 5))])).toOption.map (fun ps =>
        (decide (Part.ElidesOnlyBlanks Compiler.standard.formatter ps),
          (Part.output Compiler.standard.formatter ps).text,
          (Part.output Compiler.standard.formatter ps).values.length,
          (Part.valueOutputs Compiler.standard.formatter ps).map (·.text))) =
      some (false, "select * from t ", 0, ["?"]) := by
    decide +kernel
  obtain ⟨ps, hps, hfacts⟩ := exists_ok_of_map h
  simp only [Prod.mk.injEq, decide_eq_false_iff_not] at hfacts
  exact ⟨ps, hps, hfacts⟩

/-- Not all that is left out is blanks and comments, and a placeholder and its value are lost. -/
theorem build_loses_bare_value :
    ∃ ps s, Compiler.standard.parts "select * from t where /*x*/1" (.ofList [("x", .of (.int 5))]) =
        .ok ps ∧
      (Compiler.standard.build none "select * from t where /*x*/1"
        (.ofList [("x", .of (.int 5))])).result = .ok s ∧
      ¬Part.ElidesOnlyBlanks Compiler.standard.formatter ps ∧ s.text = "select * from t " ∧
      s.values.length = 0 ∧
      (Part.valueOutputs Compiler.standard.formatter ps).map (·.text) = ["?"] := by
  obtain ⟨ps, hps, hfacts⟩ := parts_bare_value
  exact ⟨ps, _, hps, Compiler.build_eq_ok_iff.mpr ⟨ps, hps, rfl⟩, hfacts⟩

/-- A clause is left out only with blanks and comments, and the values of all bind and literal
directives reach the statement, if and only if each clause that may be left out has nothing but
blanks and comments in its body, or content that counts, or a body that starts with a clause. -/
theorem build_elidesOnlyBlanks_iff (c : Compiler) (template : String) (parameters : Scope)
    (ps : List Part) (s : Statement) (hps : c.parts template parameters = .ok ps)
    (hs : (c.build none template parameters).result = .ok s) :
    (Part.ElidesOnlyBlanks c.formatter ps ∧
      Part.Woven (Part.valueOutputs c.formatter ps) ⟨s.text, s.log, s.values⟩ ∧
      s.values = (Part.valueOutputs c.formatter ps).flatMap (·.values)) ↔
    ∀ kind keyword body, .clause kind keyword body ∈ Part.visitedAll ps →
      kind.isAlwaysWritten = false →
      Part.allBlank c.formatter body false = true ∨ Part.anyCounts c.formatter body = true ∨
        startsWithClause (Part.output c.formatter body).text = true := by
  obtain ⟨ps', hps', rfl⟩ := Compiler.build_eq_ok_iff.mp hs
  obtain rfl : ps = ps' := Except.ok.inj (hps.symm.trans hps')
  constructor
  · intro ⟨helides, _⟩ kind keyword body hmem hkind
    cases hleft : Part.leftOut c.formatter body with
    | true => exact .inl (helides kind keyword body hmem hkind hleft)
    | false =>
      simp only [Part.leftOut, Bool.and_eq_false_iff, Bool.not_eq_false'] at hleft
      exact .inr hleft
  · intro h
    have helides : Part.ElidesOnlyBlanks c.formatter ps := by
      intro kind keyword body hmem hkind hleft
      simp only [Part.leftOut, Bool.and_eq_true, Bool.not_eq_true'] at hleft
      rcases h kind keyword body hmem hkind with hblank | hcounts | hstarts
      · exact hblank
      · rw [hleft.1] at hcounts
        cases hcounts
      · rw [hleft.2] at hstarts
        cases hstarts
    have hwoven := Part.woven_writeAll ps false helides
    exact ⟨helides, hwoven, hwoven.values_eq⟩

theorem build_elidesOnlyBlanks_iff_bare_value :
    ∃ ps, Compiler.standard.parts "select * from t where /*x*/1" (.ofList [("x", .of (.int 5))]) =
        .ok ps ∧
      ¬∀ kind keyword body, .clause kind keyword body ∈ Part.visitedAll ps →
        kind.isAlwaysWritten = false →
        Part.allBlank Compiler.standard.formatter body false = true ∨
          Part.anyCounts Compiler.standard.formatter body = true ∨
          startsWithClause (Part.output Compiler.standard.formatter body).text = true := by
  obtain ⟨ps, hps, helides, -⟩ := parts_bare_value
  have hs := Compiler.build_eq_ok_iff.mpr ⟨ps, hps, rfl⟩
  exact ⟨ps, hps, fun h =>
    helides ((build_elidesOnlyBlanks_iff Compiler.standard _ _ ps _ hps hs).mpr h).1⟩

end TwoWaySql
