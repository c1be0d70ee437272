import TwoWaySql.Proofs.Elision

/-!
# Connectors that are left out

Each connector is visited with what was written before it in its scope: the body of a clause that
may be left out, brackets, or an operand of a set operation. It is left out if nothing there counts
as content (`written_of_mem_connectors`). Values do not count, so a connector after nothing but a
value is left out, which joins the value to the next predicate. `build_omitsOnlyLeading_iff` says
in which statements only leading connectors are left out.
-/

namespace TwoWaySql

namespace Template

namespace Part

/-! ## What is written into a scope -/

/-- Something written into a scope. -/
inductive Piece where
  /-- A blank or a comment. -/
  | space (text : String)
  /-- A word, another character, brackets, operands, columns or the text of an embedded value. -/
  | content (output : Output)
  /-- The value of a bind or literal directive. -/
  | value (output : Output)
  /-- The keyword of a connector, or of a clause that is always written. -/
  | keyword (text : String)
  /-- A clause that may be left out, with its keyword. -/
  | clause (output : Output)
  /-- The clauses within a clause, without its keyword. -/
  | inner (output : Output)

namespace Piece

def output : Piece → Output
  | space text | keyword text => .sql text
  | content o | value o | clause o | inner o => o

def isSpace : Piece → Bool
  | space _ => true
  | _ => false

/-- Whether a connector after the piece is written. -/
def counts : Piece → Bool
  | content _ | inner _ => true
  | _ => false

end Piece

mutual

/-- What a part writes into its scope, given whether there is content before it. -/
def pieces (format : Formatter) : Part → Bool → List Piece
  | space text, _ => [.space text]
  | bind v, _ => [.value (bindOutput format v)]
  | literal v, _ => [.value (.sql (format v))]
  | logical keyword ps, available =>
    (if available then [.keyword keyword] else []) ++ piecesAll format ps available
  | clause kind keyword ps, available =>
    if kind.isAlwaysWritten then .keyword keyword :: piecesAll format ps available
    else if anyCounts format ps then [.clause (.sql keyword ++ output format ps)]
    else if startsWithClause (output format ps).text then [.inner (output format ps)]
    else []
  | p, available => [.content (write format p available).2]

def piecesAll (format : Formatter) : List Part → Bool → List Piece
  | [], _ => []
  | p :: ps, available =>
    pieces format p available ++ piecesAll format ps (write format p available).1

end

/-- The outputs of pieces one after the other. -/
def joined (pieces : List Piece) : Output := .join (pieces.map (·.output))

variable {format : Formatter}

/-- A clause is written with its keyword, without it, or not at all. -/
theorem writeElidable_writeAll (keyword : String) (available : Bool) (ps : List Part) :
    writeElidable keyword available (writeAll format ps false) =
      if anyCounts format ps then (available, .sql keyword ++ output format ps)
      else if startsWithClause (output format ps).text then (true, output format ps)
      else (available, .empty) := by
  unfold writeElidable output
  rw [writeAll_fst ps false, Bool.false_or]

theorem joined_cons (piece : Piece) (pieces : List Piece) :
    joined (piece :: pieces) = piece.output ++ joined pieces := rfl

theorem joined_append (a b : List Piece) : joined (a ++ b) = joined a ++ joined b := by
  induction a with
  | nil => simp [joined, Output.join]
  | cons piece a ih => rw [List.cons_append, joined_cons, joined_cons, ih, Output.append_assoc]

theorem joined_singleton (piece : Piece) : joined [piece] = piece.output := by
  simp [joined, Output.join]

mutual

/-- The pieces are all that is written. -/
theorem joined_pieces : (p : Part) → (available : Bool) →
    joined (pieces format p available) = (write format p available).2
  | space _, _ | bind _, _ | literal _, _ => by simp [pieces, joined_singleton, write, Piece.output]
  | content _, _ | group _, _ | operands .., _ => by simp [pieces, joined_singleton, Piece.output]
  | logical keyword ps, available => by
    have hps := joined_piecesAll ps available
    rw [pieces, joined_append, hps, write]
    cases available with
    | true => simp [joined_singleton, Piece.output]
    | false => simp [joined, Output.join]
  | clause kind keyword ps, available => by
    rw [pieces, write]
    split
    · rw [joined_cons, joined_piecesAll ps available]
      rfl
    · rw [writeElidable_writeAll]
      by_cases hcounts : anyCounts format ps
      · rw [if_pos hcounts, if_pos hcounts, joined_singleton]
        rfl
      · by_cases hstarts : startsWithClause (output format ps).text
        · simp [hcounts, hstarts, joined_singleton, Piece.output]
        · simp [hcounts, hstarts, joined, Output.join]

theorem joined_piecesAll : (ps : List Part) → (available : Bool) →
    joined (piecesAll format ps available) = (writeAll format ps available).2
  | [], _ => by
    rw [piecesAll, writeAll]
    rfl
  | p :: ps, available => by
    rw [piecesAll, writeAll, joined_append, joined_pieces p, joined_piecesAll ps]

end

mutual

/-- A part counts if a piece of it does. -/
theorem any_counts_pieces : (p : Part) → (available : Bool) →
    (pieces format p available).any Piece.counts = counts format p
  | space _, _ | bind _, _ | literal _, _ => by simp [pieces, counts, Piece.counts]
  | content _, _ | group _, _ | operands .., _ => by simp [pieces, counts, Piece.counts]
  | logical keyword ps, available => by
    have hps := any_counts_piecesAll ps available
    rw [pieces, List.any_append, hps, counts]
    cases available <;> simp [Piece.counts]
  | clause kind keyword ps, available => by
    have hps := any_counts_piecesAll ps available
    rw [pieces, counts]
    split
    · rw [List.any_cons, hps]
      rfl
    · cases anyCounts format ps with
      | true => rfl
      | false => cases startsWithClause (output format ps).text <;> rfl

theorem any_counts_piecesAll : (ps : List Part) → (available : Bool) →
    (piecesAll format ps available).any Piece.counts = anyCounts format ps
  | [], _ => by
    rw [piecesAll, anyCounts]
    rfl
  | p :: ps, available => by
    rw [piecesAll, anyCounts, List.any_append, any_counts_pieces p, any_counts_piecesAll ps]

end

/-! ## Connectors -/

/-- A connector, with what was written before it in its scope. -/
structure VisitedConnector where
  before : List Piece
  keyword : String
  /-- Whether the keyword is written. -/
  written : Bool

mutual

/-- The connectors of a part in the order of their visits, from what was written before the part in
its scope. -/
def connectors (format : Formatter) (before : List Piece) : Part → Bool → List VisitedConnector
  | logical keyword ps, available =>
    ⟨before, keyword, available⟩ ::
      connectorsAll format (before ++ if available then [.keyword keyword] else []) ps available
  | clause kind keyword ps, available =>
    if kind.isAlwaysWritten then connectorsAll format (before ++ [.keyword keyword]) ps available
    else connectorsAll format [] ps false
  | group ps, _ => connectorsAll format [] ps false
  | operands left _ right, _ =>
    connectorsAll format [] left false ++ connectorsAll format [] right false
  | _, _ => []

def connectorsAll (format : Formatter) (before : List Piece) :
    List Part → Bool → List VisitedConnector
  | [], _ => []
  | p :: ps, available =>
    connectors format before p available ++
      connectorsAll format (before ++ pieces format p available) ps
        (write format p available).1

end

/-- The connectors of a statement. -/
def visitedConnectors (format : Formatter) (ps : List Part) : List VisitedConnector :=
  connectorsAll format [] ps false

def connectorKeyword? : Part → Option String
  | logical keyword _ => some keyword
  | _ => none

mutual

/-- No connector is passed over. -/
theorem keyword_connectors : (p : Part) → (before : List Piece) → (available : Bool) →
    (connectors format before p available).map (·.keyword) =
      (visited p).filterMap connectorKeyword?
  | space _, _, _ | content _, _, _ | bind _, _, _ | literal _, _, _ => by
    simp [connectors, visited, connectorKeyword?]
  | logical keyword ps, before, available => by
    simp [connectors, visited, connectorKeyword?, keyword_connectorsAll ps]
  | clause kind keyword ps, before, available => by
    rw [connectors, visited, List.filterMap_cons_none rfl]
    split
    · exact keyword_connectorsAll ps _ available
    · exact keyword_connectorsAll ps [] false
  | group ps, _, _ => by
    rw [connectors, visited, List.filterMap_cons_none rfl]
    exact keyword_connectorsAll ps [] false
  | operands left keyword right, _, _ => by
    rw [connectors, visited, List.filterMap_cons_none rfl, List.map_append, List.filterMap_append,
      keyword_connectorsAll left, keyword_connectorsAll right]

theorem keyword_connectorsAll : (ps : List Part) → (before : List Piece) → (available : Bool) →
    (connectorsAll format before ps available).map (·.keyword) =
      (visitedAll ps).filterMap connectorKeyword?
  | [], _, _ => by
    rw [connectorsAll, visitedAll]
    rfl
  | p :: ps, before, available => by
    rw [connectorsAll, visitedAll, List.map_append, List.filterMap_append, keyword_connectors p,
      keyword_connectorsAll ps]

end

mutual

/-- A connector is written if and only if something before it in its scope counts. -/
theorem written_of_mem_connectors : (p : Part) → (before : List Piece) →
    ∀ v ∈ connectors format before p (before.any Piece.counts),
      v.written = v.before.any Piece.counts
  | space _, _, v, hv | content _, _, v, hv | bind _, _, v, hv | literal _, _, v, hv => by
    simp [connectors] at hv
  | logical keyword ps, before, v, hv => by
    rw [connectors, List.mem_cons] at hv
    rcases hv with rfl | hv
    · rfl
    · -- the keyword itself makes no difference: it is written only if something before it counts
      refine written_of_mem_connectorsAll ps
        (before ++ if before.any Piece.counts then [.keyword keyword] else []) v ?_
      have hkeyword : (before ++ if before.any Piece.counts then [Piece.keyword keyword] else
          []).any Piece.counts = before.any Piece.counts := by
        split <;> simp [Piece.counts]
      rwa [hkeyword]
  | clause kind keyword ps, before, v, hv => by
    rw [connectors] at hv
    split at hv
    · refine written_of_mem_connectorsAll ps (before ++ [.keyword keyword]) v ?_
      simpa [Piece.counts] using hv
    · exact written_of_mem_connectorsAll ps [] v hv
  | group ps, _, v, hv => by
    rw [connectors] at hv
    exact written_of_mem_connectorsAll ps [] v hv
  | operands left keyword right, _, v, hv => by
    rw [connectors, List.mem_append] at hv
    rcases hv with hv | hv
    · exact written_of_mem_connectorsAll left [] v hv
    · exact written_of_mem_connectorsAll right [] v hv

theorem written_of_mem_connectorsAll : (ps : List Part) → (before : List Piece) →
    ∀ v ∈ connectorsAll format before ps (before.any Piece.counts),
      v.written = v.before.any Piece.counts
  | [], _, v, hv => by simp [connectorsAll] at hv
  | p :: ps, before, v, hv => by
    rw [connectorsAll, List.mem_append] at hv
    rcases hv with hv | hv
    · exact written_of_mem_connectors p before v hv
    · have hpieces : (before ++ pieces format p (before.any Piece.counts)).any Piece.counts =
          (write format p (before.any Piece.counts)).1 := by
        rw [List.any_append, any_counts_pieces, ← write_fst]
      rw [← hpieces] at hv
      exact written_of_mem_connectorsAll ps _ v hv

end

/-- A connector is left out only where nothing but blanks and comments is before it. -/
def OmitsOnlyLeading (format : Formatter) (ps : List Part) : Prop :=
  ∀ v ∈ visitedConnectors format ps, v.written = false → v.before.all Piece.isSpace = true

instance (ps : List Part) : Decidable (OmitsOnlyLeading format ps) :=
  inferInstanceAs (Decidable (∀ v ∈ visitedConnectors format ps, _))

theorem omitsOnlyLeading_iff {ps : List Part} :
    OmitsOnlyLeading format ps ↔ ∀ v ∈ visitedConnectors format ps,
      v.before.all Piece.isSpace = true ∨ v.before.any Piece.counts = true := by
  have hwritten : ∀ v ∈ visitedConnectors format ps, v.written = v.before.any Piece.counts :=
    written_of_mem_connectorsAll ps []
  constructor
  · intro h v hv
    cases hcounts : v.before.any Piece.counts with
    | true => exact .inr rfl
    | false => exact .inl (h v hv (by rw [hwritten v hv, hcounts]))
  · intro h v hv homitted
    rw [hwritten v hv] at homitted
    exact (h v hv).resolve_right (by simp [homitted])

end Part

end Template

open Template

/-- In a condition that starts with a value, the connector after it is lost. -/
theorem build_loses_connector_after_value :
    ∃ ps s, Compiler.standard.parts "select * from t where /*x*/1 and b = 2"
        (.ofList [("x", .of (.int 5))]) = .ok ps ∧
      (Compiler.standard.build none "select * from t where /*x*/1 and b = 2"
        (.ofList [("x", .of (.int 5))])).result = .ok s ∧
      ¬Part.OmitsOnlyLeading Compiler.standard.formatter ps ∧
      s.text = "select * from t where ?  b = 2" := by
  have h : (Compiler.standard.parts "select * from t where /*x*/1 and b = 2"
      (.ofList [("x", .of (.int 5))])).toOption.map (fun ps =>
        (decide (Part.OmitsOnlyLeading Compiler.standard.formatter ps),
          (Part.output Compiler.standard.formatter ps).text)) =
      some (false, "select * from t where ?  b = 2") := by
    decide +kernel
  obtain ⟨ps, hps, hfacts⟩ := exists_ok_of_map h
  simp only [Prod.mk.injEq, decide_eq_false_iff_not] at hfacts
  exact ⟨ps, _, hps, Compiler.build_eq_ok_iff.mpr ⟨ps, hps, rfl⟩, hfacts⟩

/-- A connector is written if and only if something before it in its scope counts, so only leading
connectors are left out if and only if each one has nothing but blanks and comments before it, or
something that counts. -/
theorem build_omitsOnlyLeading_iff (c : Compiler) (template : String) (parameters : Scope)
    (s : Statement) (hs : (c.build none template parameters).result = .ok s) :
    ∃ ps, c.parts template parameters = .ok ps ∧
      s = .ofOutput (Part.joined (Part.piecesAll c.formatter ps false)) ∧
      (Part.visitedConnectors c.formatter ps).map (·.keyword) =
        (Part.visitedAll ps).filterMap Part.connectorKeyword? ∧
      (∀ v ∈ Part.visitedConnectors c.formatter ps,
        v.written = v.before.any Part.Piece.counts) ∧
      (Part.OmitsOnlyLeading c.formatter ps ↔ ∀ v ∈ Part.visitedConnectors c.formatter ps,
        v.before.all Part.Piece.isSpace = true ∨ v.before.any Part.Piece.counts = true) := by
  obtain ⟨ps, hps, rfl⟩ := Compiler.build_eq_ok_iff.mp hs
  refine ⟨ps, hps, ?_, Part.keyword_connectorsAll ps [] false,
    Part.written_of_mem_connectorsAll ps [], Part.omitsOnlyLeading_iff⟩
  rw [Part.joined_piecesAll, Part.output]

/-- The first connector is left out, as nothing is before it, and the second one is not. -/
theorem build_omitsOnlyLeading_iff_option :
    ∃ ps s, Compiler.standard.parts "a where /*%if x*/b/*%end*/ and c or d = /*y*/1"
        (.ofList [("x", .of (.bool false))]) = .ok ps ∧
      (Compiler.standard.build none "a where /*%if x*/b/*%end*/ and c or d = /*y*/1"
        (.ofList [("x", .of (.bool false))])).result = .ok s ∧
      (Part.visitedConnectors Compiler.standard.formatter ps).map
        (fun v => (v.keyword, v.written)) = [("and", false), ("or", true)] ∧
      Part.OmitsOnlyLeading Compiler.standard.formatter ps ∧
      ∀ v ∈ Part.visitedConnectors Compiler.standard.formatter ps,
        v.before.all Part.Piece.isSpace = true ∨ v.before.any Part.Piece.counts = true := by
  have h : (Compiler.standard.parts "a where /*%if x*/b/*%end*/ and c or d = /*y*/1"
      (.ofList [("x", .of (.bool false))])).toOption.map (fun ps =>
        ((Part.visitedConnectors Compiler.standard.formatter ps).map fun v =>
          (v.keyword, v.written), decide (Part.OmitsOnlyLeading Compiler.standard.formatter ps))) =
      some ([("and", false), ("or", true)], true) := by
    decide +kernel
  obtain ⟨ps, hps, hfacts⟩ := exists_ok_of_map h
  simp only [Prod.mk.injEq, decide_eq_true_eq] at hfacts
  have hs := Compiler.build_eq_ok_iff.mpr ⟨ps, hps, rfl⟩
  obtain ⟨ps', hps', -, -, -, hiff⟩ := build_omitsOnlyLeading_iff Compiler.standard _ _ _ hs
  obtain rfl : ps = ps' := Except.ok.inj (hps.symm.trans hps')
  exact ⟨ps, _, hps, hs, hfacts.1, hfacts.2, hiff.mp hfacts.2⟩

end TwoWaySql
