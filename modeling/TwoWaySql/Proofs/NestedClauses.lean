import TwoWaySql.Proofs.Connectors

/-!
# Clauses within clauses

A clause without content of its own is to give way to the clauses within it: its keyword is left
out, and they are written in order. That is so of one clause within another. With a third one around
them, or where the clause within is always written and has words, what is within counts as content
of the clause around it, whose keyword comes back. `build_keepsNested_iff` says exactly in which
statements all clauses give way as they should.
-/

namespace TwoWaySql

namespace Template

namespace Part

variable {format : Formatter}

/-! ## Content of a clause itself -/

mutual

/-- Whether nothing but blanks and comments is written for the part outside of the clauses within
it, given whether there is content before it. -/
def ownBlank (format : Formatter) : Part → Bool → Bool
  | space _, _ | clause .., _ => true
  | logical _ ps, available => !available && allOwnBlank format ps available
  | _, _ => false

def allOwnBlank (format : Formatter) : List Part → Bool → Bool
  | [], _ => true
  | p :: ps, available =>
    ownBlank format p available && allOwnBlank format ps (write format p available).1

end

mutual

/-- The clauses within a part to any depth, in order. Those in brackets and operands belong to
statements of their own. -/
def clauses : Part → List Part
  | logical _ ps => clausesAll ps
  | clause kind keyword ps => clause kind keyword ps :: clausesAll ps
  | _ => []

def clausesAll : List Part → List Part
  | [] => []
  | p :: ps => clauses p ++ clausesAll ps

end

/-- Whether a clause is to be written with its keyword: always, or for content of its own. -/
def needsKeyword (format : Formatter) : Part → Bool
  | clause kind _ ps => kind.isAlwaysWritten || !allOwnBlank format ps false
  | _ => false

mutual

/-- The clauses of a part that are written with their keyword, in order. -/
def keyworded (format : Formatter) : Part → List Part
  | logical _ ps => keywordedAll format ps
  | clause kind keyword ps =>
    if kind.isAlwaysWritten || anyCounts format ps then
      clause kind keyword ps :: keywordedAll format ps
    else if startsWithClause (output format ps).text then keywordedAll format ps
    else []
  | _ => []

def keywordedAll (format : Formatter) : List Part → List Part
  | [] => []
  | p :: ps => keyworded format p ++ keywordedAll format ps

end

/-! ## Keywords in what is written -/

/-- The texts stand in the whole one after the other. -/
inductive InOrder : List String → String → Prop where
  | nil (s : String) : InOrder [] s
  | cons (before text : String) {texts : List String} {rest : String} : InOrder texts rest →
      InOrder (text :: texts) (before ++ text ++ rest)

namespace InOrder

variable {texts texts' : List String} {s s' : String}

theorem before (before : String) (h : InOrder texts s) : InOrder texts (before ++ s) := by
  cases h with
  | nil => exact .nil _
  | cons b text h =>
    rw [← String.append_assoc, ← String.append_assoc]
    exact .cons (before ++ b) text h

theorem append (h : InOrder texts s) (h' : InOrder texts' s') :
    InOrder (texts ++ texts') (s ++ s') := by
  induction h with
  | nil s => exact h'.before s
  | cons b text _ ih =>
    rw [String.append_assoc]
    exact .cons b text ih

theorem first (text : String) (h : InOrder texts s) : InOrder (text :: texts) (text ++ s) := by
  have hfirst : InOrder (text :: texts) ("" ++ text ++ s) := .cons "" text h
  rwa [String.empty_append] at hfirst

end InOrder

def clauseKeyword : Part → String
  | clause _ keyword _ => keyword
  | _ => ""

mutual

/-- The keywords of the clauses that are written with them stand in what is written, in order. -/
theorem inOrder_write : (p : Part) → (available : Bool) →
    InOrder ((keyworded format p).map clauseKeyword) (write format p available).2.text
  | space _, _ | content _, _ | bind _, _ | literal _, _ | group _, _ | operands .., _ => by
    rw [keyworded] <;> first | exact .nil _ | nofun
  | logical keyword ps, available => by
    have hps := inOrder_writeAll ps available
    rw [keyworded, write]
    cases available with
    | true => exact hps.before keyword
    | false => exact hps
  | clause kind keyword ps, available => by
    rw [keyworded, write]
    cases hkind : kind.isAlwaysWritten with
    | true => exact (inOrder_writeAll ps available).first keyword
    | false =>
      have hps := inOrder_writeAll ps false
      simp only [Bool.false_or, Bool.false_eq_true, ↓reduceIte, writeElidable_writeAll]
      by_cases hcounts : anyCounts format ps
      · rw [if_pos hcounts, if_pos hcounts]
        exact hps.first keyword
      · by_cases hstarts : startsWithClause (output format ps).text
        · rw [if_neg hcounts, if_neg hcounts, if_pos hstarts, if_pos hstarts]
          exact hps
        · rw [if_neg hcounts, if_neg hstarts]
          exact .nil _

theorem inOrder_writeAll : (ps : List Part) → (available : Bool) →
    InOrder ((keywordedAll format ps).map clauseKeyword) (writeAll format ps available).2.text
  | [], _ => by
    rw [keywordedAll]
    exact .nil _
  | p :: ps, available => by
    rw [keywordedAll, writeAll, List.map_append]
    exact (inOrder_write p available).append (inOrder_writeAll ps _)

end

/-! ## What is visited -/

theorem visited_subset_of_within {p : Part} {qs : List Part} (h : visited p = p :: qs)
    (hqs : ∀ q ∈ qs, visited q ⊆ qs) : ∀ q ∈ visited p, visited q ⊆ visited p := by
  intro q hq
  rw [h, List.mem_cons] at hq
  rcases hq with rfl | hq
  · exact List.Subset.refl _
  · rw [h]
    exact List.subset_cons_of_subset _ (hqs q hq)

theorem visited_subset_append {qs rs : List Part} (hqs : ∀ q ∈ qs, visited q ⊆ qs)
    (hrs : ∀ q ∈ rs, visited q ⊆ rs) : ∀ q ∈ qs ++ rs, visited q ⊆ qs ++ rs := by
  intro q hq
  rcases List.mem_append.mp hq with hq | hq
  · exact List.subset_append_of_subset_left _ (hqs q hq)
  · exact List.subset_append_of_subset_right _ (hrs q hq)

mutual

/-- What is visited within a part that is visited is visited. -/
theorem visited_subset : (p : Part) → ∀ q ∈ visited p, visited q ⊆ visited p
  | space _ | content _ | bind _ | literal _ => by simp [visited]
  | logical _ ps => visited_subset_of_within (by rw [visited]) (visitedAll_subset ps)
  | clause _ _ ps => visited_subset_of_within (by rw [visited]) (visitedAll_subset ps)
  | group ps => visited_subset_of_within (by rw [visited]) (visitedAll_subset ps)
  | operands left _ right =>
    visited_subset_of_within (by rw [visited])
      (visited_subset_append (visitedAll_subset left) (visitedAll_subset right))

theorem visitedAll_subset : (ps : List Part) → ∀ q ∈ visitedAll ps, visited q ⊆ visitedAll ps
  | [] => by
    rw [visitedAll]
    exact nofun
  | p :: ps => by
    rw [visitedAll]
    exact visited_subset_append (visited_subset p) (visitedAll_subset ps)

end

mutual

theorem clauses_subset_visited : (p : Part) → clauses p ⊆ visited p
  | space _ | content _ | bind _ | literal _ | group _ | operands .. => by
    rw [clauses] <;> first | exact List.nil_subset _ | nofun
  | logical _ ps => by
    rw [clauses, visited]
    exact List.subset_cons_of_subset _ (clausesAll_subset_visitedAll ps)
  | clause _ _ ps => by
    rw [clauses, visited]
    exact List.cons_subset_cons _ (clausesAll_subset_visitedAll ps)

theorem clausesAll_subset_visitedAll : (ps : List Part) → clausesAll ps ⊆ visitedAll ps
  | [] => by
    rw [clausesAll]
    exact List.nil_subset _
  | p :: ps => by
    rw [clausesAll, visitedAll]
    exact List.append_subset.mpr
      ⟨List.subset_append_of_subset_left _ (clauses_subset_visited p),
        List.subset_append_of_subset_right _ (clausesAll_subset_visitedAll ps)⟩

end

/-! ## What reaches the statement -/

/-- Whether the part is a clause that is left out, with all that is in it. -/
def isLeftOut (format : Formatter) : Part → Bool
  | clause kind _ body => !kind.isAlwaysWritten && leftOut format body
  | _ => false

/-- Neither the part nor any of the others around it is left out. -/
def Reaches (format : Formatter) (others : List Part) (p : Part) : Prop :=
  ∀ around ∈ others, p ∈ visited around → isLeftOut format around = false

theorem Reaches.of_subset {ps qs : List Part} {p : Part} (h : Reaches format ps p)
    (hsub : qs ⊆ ps) : Reaches format qs p :=
  fun around hmem => h around (hsub hmem)

/-- What is written for the part stands in the output. -/
def WrittenIn (format : Formatter) (p : Part) (o : Output) : Prop :=
  ∃ (before after : Output) (available : Bool),
    o = before ++ (write format p available).2 ++ after

namespace WrittenIn

variable {p : Part} {o : Output}

theorem self (p : Part) (available : Bool) : WrittenIn format p (write format p available).2 :=
  ⟨.empty, .empty, available, by rw [Output.empty_append, Output.append_empty]⟩

theorem before (h : WrittenIn format p o) (before : Output) : WrittenIn format p (before ++ o) := by
  obtain ⟨b, a, available, rfl⟩ := h
  exact ⟨before ++ b, a, available, by simp only [Output.append_assoc]⟩

theorem after (h : WrittenIn format p o) (after : Output) : WrittenIn format p (o ++ after) := by
  obtain ⟨b, a, available, rfl⟩ := h
  exact ⟨b, a ++ after, available, by simp only [Output.append_assoc]⟩

end WrittenIn

/-- The body of a clause that is not left out is written. -/
theorem writtenIn_clause {kind : ClauseKind} {keyword : String} {ps : List Part} {q : Part}
    (hps : ∀ available, WrittenIn format q (writeAll format ps available).2)
    (h : isLeftOut format (clause kind keyword ps) = false) (available : Bool) :
    WrittenIn format q (write format (clause kind keyword ps) available).2 := by
  rw [write]
  by_cases hkind : kind.isAlwaysWritten = true
  · rw [if_pos hkind]
    exact (hps available).before (.sql keyword)
  · rw [if_neg hkind]
    have hleft : leftOut format ps = false := by simpa [isLeftOut, hkind] using h
    rcases writeElidable_of_not_leftOut hleft keyword available with hwrite | hwrite
    · rw [hwrite]
      exact (hps false).before (.sql keyword)
    · rw [hwrite]
      exact hps false

mutual

theorem writtenIn_write {q : Part} : (p : Part) → (available : Bool) → q ∈ visited p →
    Reaches format (visited p) q → WrittenIn format q (write format p available).2
  | space _, available, hq, _ | content _, available, hq, _ | bind _, available, hq, _
  | literal _, available, hq, _ => by
    rw [visited, List.mem_singleton] at hq <;> first | exact hq ▸ .self q available | nofun
  | logical keyword ps, available, hq, h => by
    rw [visited] at hq h
    rcases List.mem_cons.mp hq with rfl | hq
    · exact .self _ available
    · have hps := writtenIn_writeAll ps available hq (h.of_subset (List.subset_cons_self _ _))
      rw [write]
      split
      · exact hps.before (.sql keyword)
      · exact hps
  | clause kind keyword ps, available, hq, h => by
    have hself := h (clause kind keyword ps) (by simp [visited]) hq
    rw [visited] at hq h
    rcases List.mem_cons.mp hq with rfl | hq
    · exact .self _ available
    · have hps := fun available =>
        writtenIn_writeAll ps available hq (h.of_subset (List.subset_cons_self _ _))
      exact writtenIn_clause hps hself available
  | group ps, available, hq, h => by
    rw [visited] at hq h
    rcases List.mem_cons.mp hq with rfl | hq
    · exact .self _ available
    · have hps := writtenIn_writeAll ps false hq (h.of_subset (List.subset_cons_self _ _))
      rw [write]
      exact (hps.before (.sql "(")).after (.sql ")")
  | operands left keyword right, available, hq, h => by
    rw [visited] at hq h
    have h := h.of_subset (List.subset_cons_self _ _)
    rcases List.mem_cons.mp hq with rfl | hq
    · exact .self _ available
    · rw [write]
      rcases List.mem_append.mp hq with hq | hq
      · have hleft := writtenIn_writeAll left false hq (h.of_subset (List.subset_append_left _ _))
        exact (hleft.after (.sql keyword)).after (writeAll format right false).2
      · have hright :=
          writtenIn_writeAll right false hq (h.of_subset (List.subset_append_right _ _))
        exact hright.before ((writeAll format left false).2 ++ .sql keyword)

theorem writtenIn_writeAll {q : Part} : (ps : List Part) → (available : Bool) →
    q ∈ visitedAll ps → Reaches format (visitedAll ps) q →
    WrittenIn format q (writeAll format ps available).2
  | [], _, hq, _ => by simp [visitedAll] at hq
  | p :: ps, available, hq, h => by
    rw [visitedAll] at hq h
    rw [writeAll]
    rcases List.mem_append.mp hq with hq | hq
    · have hp := writtenIn_write p available hq (h.of_subset (List.subset_append_left _ _))
      exact hp.after _
    · have hps := writtenIn_writeAll ps (write format p available).1 hq
        (h.of_subset (List.subset_append_right _ _))
      exact hps.before _

end

/-! ## Clauses that give way -/

/-- A clause without content of its own that can be left out is written as the clauses within it
that need their keywords, in order and without its own keyword. If there are any, they reach the
statement. -/
def KeepsNested (format : Formatter) (ps : List Part) : Prop :=
  ∀ kind keyword body, clause kind keyword body ∈ visitedAll ps → kind.isAlwaysWritten = false →
    allOwnBlank format body false = true →
    keyworded format (clause kind keyword body) = (clausesAll body).filter (needsKeyword format) ∧
      ((∃ p ∈ clausesAll body, needsKeyword format p = true) →
        (∀ available, (write format (clause kind keyword body) available).2 = output format body) ∧
          Reaches format (visitedAll ps) (clause kind keyword body))

/-- The clauses among the parts that have content of their own have some that counts. -/
def OwnCounts (format : Formatter) (ps : List Part) : Prop :=
  ∀ kind keyword body, clause kind keyword body ∈ ps → kind.isAlwaysWritten = false →
    allOwnBlank format body false = false → anyCounts format body = true

theorem OwnCounts.of_subset {ps qs : List Part} (h : OwnCounts format ps) (hsub : qs ⊆ ps) :
    OwnCounts format qs :=
  fun kind keyword body hmem => h kind keyword body (hsub hmem)

/-- What the body of such a clause has to be for that. -/
structure GivesWay (format : Formatter) (body : List Part) : Prop where
  /-- No clause within counts as content: neither one that is always written with content in it, nor
  one that gives way itself. -/
  anyCounts_eq : anyCounts format body = false
  /-- A clause within that has content of its own has some that counts. -/
  counts : OwnCounts format (clausesAll body)
  /-- The keyword that comes first in what is written is read as a clause keyword. -/
  starts : (∃ p ∈ clausesAll body, needsKeyword format p = true) →
    startsWithClause (output format body).text = true

/-- The clauses among the parts that have no content of their own give way. -/
def BlankGiveWay (format : Formatter) (ps : List Part) : Prop :=
  ∀ kind keyword body, clause kind keyword body ∈ ps → kind.isAlwaysWritten = false →
    allOwnBlank format body false = true → GivesWay format body

theorem BlankGiveWay.of_subset {ps qs : List Part} (h : BlankGiveWay format ps) (hsub : qs ⊆ ps) :
    BlankGiveWay format qs :=
  fun kind keyword body hmem => h kind keyword body (hsub hmem)

/-- Whether something holds of the part if it is a clause. -/
def ifClause (P : ClauseKind → List Part → Prop) [∀ kind body, Decidable (P kind body)] :
    Part → Bool
  | clause kind _ body => decide (P kind body)
  | _ => true

/-- What holds of the clauses among parts is found out part by part. -/
def decidableForallClause (P : ClauseKind → List Part → Prop)
    [∀ kind body, Decidable (P kind body)] (ps : List Part) :
    Decidable (∀ kind keyword body, clause kind keyword body ∈ ps → P kind body) :=
  decidable_of_iff (∀ p ∈ ps, ifClause P p = true)
    ⟨fun h _ _ _ hmem => of_decide_eq_true (h _ hmem), fun h p hp => by
      cases p with
      | clause kind keyword body => exact decide_eq_true (h kind keyword body hp)
      | _ => rfl⟩

instance (ps : List Part) : Decidable (OwnCounts format ps) :=
  decidableForallClause (fun kind body => kind.isAlwaysWritten = false →
    allOwnBlank format body false = false → anyCounts format body = true) ps

instance (body : List Part) : Decidable (GivesWay format body) :=
  decidable_of_iff (anyCounts format body = false ∧ OwnCounts format (clausesAll body) ∧
      ((∃ p ∈ clausesAll body, needsKeyword format p = true) →
        startsWithClause (output format body).text = true))
    ⟨fun ⟨hnot, hown, hstarts⟩ => ⟨hnot, hown, hstarts⟩,
      fun h => ⟨h.anyCounts_eq, h.counts, h.starts⟩⟩

instance (ps : List Part) : Decidable (BlankGiveWay format ps) :=
  decidableForallClause (fun kind body => kind.isAlwaysWritten = false →
    allOwnBlank format body false = true → GivesWay format body) ps

mutual

/-- A clause that is written with its keyword is always written, or has content that counts. -/
theorem counts_of_mem_keyworded {kind : ClauseKind} {keyword : String} {ps : List Part} :
    (p : Part) → clause kind keyword ps ∈ keyworded format p → kind.isAlwaysWritten = false →
      anyCounts format ps = true
  | space _, h, _ | content _, h, _ | bind _, h, _ | literal _, h, _ | group _, h, _
  | operands .., h, _ => by simp [keyworded] at h
  | logical _ qs, h, hkind => by
    rw [keyworded] at h
    exact counts_of_mem_keywordedAll qs h hkind
  | clause kind' keyword' qs, h, hkind => by
    rw [keyworded] at h
    split at h
    · rename_i hwritten
      rcases List.mem_cons.mp h with heq | h
      · cases heq
        simpa [hkind] using hwritten
      · exact counts_of_mem_keywordedAll qs h hkind
    · split at h
      · exact counts_of_mem_keywordedAll qs h hkind
      · cases h

theorem counts_of_mem_keywordedAll {kind : ClauseKind} {keyword : String} {ps : List Part} :
    (qs : List Part) → clause kind keyword ps ∈ keywordedAll format qs →
      kind.isAlwaysWritten = false → anyCounts format ps = true
  | [], h, _ => by simp [keywordedAll] at h
  | q :: qs, h, hkind => by
    rw [keywordedAll, List.mem_append] at h
    rcases h with h | h
    · exact counts_of_mem_keyworded q h hkind
    · exact counts_of_mem_keywordedAll qs h hkind

end

/-- A clause that needs its keyword is one that is always written or has content of its own. -/
theorem needsKeyword_of_not_ownBlank {kind : ClauseKind} {keyword : String} {ps : List Part}
    (h : allOwnBlank format ps false = false) :
    needsKeyword format (clause kind keyword ps) = true := by
  rw [needsKeyword, h, Bool.not_false, Bool.or_true]

theorem not_needsKeyword_iff {kind : ClauseKind} {keyword : String} {ps : List Part} :
    ¬needsKeyword format (clause kind keyword ps) = true ↔
      kind.isAlwaysWritten = false ∧ allOwnBlank format ps false = true := by
  simp [needsKeyword]

/-- A clause that gives way is written as the clauses within it that need their keyword, if its body
is. -/
theorem keyworded_of_givesWay {kind : ClauseKind} {keyword : String} {body : List Part}
    (hkind : kind.isAlwaysWritten = false) (hgives : GivesWay format body)
    (hbody : keywordedAll format body = (clausesAll body).filter (needsKeyword format)) :
    keyworded format (clause kind keyword body) =
      (clausesAll body).filter (needsKeyword format) := by
  rw [keyworded, if_neg (by simp [hkind, hgives.anyCounts_eq])]
  by_cases hstarts : startsWithClause (output format body).text = true
  · rw [if_pos hstarts]
    exact hbody
  · -- nothing within needs its keyword, or the body would start with it
    have hnone : (clausesAll body).filter (needsKeyword format) = [] :=
      List.filter_eq_nil_iff.mpr fun p hp hneeds => hstarts (hgives.starts ⟨p, hp, hneeds⟩)
    rw [if_neg hstarts, hnone]

mutual

/-- So exactly the clauses that need their keyword are written with it. -/
theorem keyworded_eq_filter : (p : Part) → OwnCounts format (clauses p) →
    BlankGiveWay format (clauses p) →
    keyworded format p = (clauses p).filter (needsKeyword format)
  | space _, _, _ | content _, _, _ | bind _, _, _ | literal _, _, _ | group _, _, _
  | operands .., _, _ => by simp [keyworded, clauses]
  | logical _ ps, hown, hblank => by
    rw [clauses] at hown hblank ⊢
    rw [keyworded]
    exact keywordedAll_eq_filter ps hown hblank
  | clause kind keyword ps, hown, hblank => by
    rw [clauses] at hown hblank ⊢
    have hps := keywordedAll_eq_filter ps (hown.of_subset (List.subset_cons_self _ _))
      (hblank.of_subset (List.subset_cons_self _ _))
    by_cases hneeds : needsKeyword format (clause kind keyword ps) = true
    · have hwritten : (kind.isAlwaysWritten || anyCounts format ps) = true := by
        cases hkind : kind.isAlwaysWritten with
        | true => rfl
        | false =>
          have hps : allOwnBlank format ps false = false := by
            simpa [needsKeyword, hkind] using hneeds
          exact hown kind keyword ps List.mem_cons_self hkind hps
      rw [keyworded, if_pos hwritten, List.filter_cons_of_pos hneeds, hps]
    · obtain ⟨hkind, hps'⟩ := not_needsKeyword_iff.mp hneeds
      have hgives := hblank kind keyword ps List.mem_cons_self hkind hps'
      rw [List.filter_cons_of_neg hneeds]
      exact keyworded_of_givesWay hkind hgives hps

theorem keywordedAll_eq_filter : (ps : List Part) → OwnCounts format (clausesAll ps) →
    BlankGiveWay format (clausesAll ps) →
    keywordedAll format ps = (clausesAll ps).filter (needsKeyword format)
  | [], _, _ => by simp [keywordedAll, clausesAll]
  | p :: ps, hown, hblank => by
    rw [clausesAll] at hown hblank ⊢
    rw [keywordedAll, List.filter_append,
      keyworded_eq_filter p (hown.of_subset (List.subset_append_left _ _))
        (hblank.of_subset (List.subset_append_left _ _)),
      keywordedAll_eq_filter ps (hown.of_subset (List.subset_append_right _ _))
        (hblank.of_subset (List.subset_append_right _ _))]

end

/-- A clause that is written as the clauses within it has a body that gives way. -/
theorem givesWay_of_keyworded {kind : ClauseKind} {keyword : String} {body : List Part}
    (hkind : kind.isAlwaysWritten = false) (hown : allOwnBlank format body false = true)
    (h : keyworded format (clause kind keyword body) =
      (clausesAll body).filter (needsKeyword format)) : GivesWay format body := by
  have hcounts : anyCounts format body = false := by
    -- otherwise the clause is among those written with their keyword, which it does not need
    refine Bool.eq_false_iff.mpr fun hcounts => ?_
    have hmem : clause kind keyword body ∈ keyworded format (clause kind keyword body) := by
      rw [keyworded, if_pos (by simp [hcounts])]
      exact List.mem_cons_self
    rw [h, List.mem_filter] at hmem
    exact not_needsKeyword_iff.mpr ⟨hkind, hown⟩ hmem.2
  refine ⟨hcounts, ?_, ?_⟩
  · intro kind' keyword' ps hmem hkind' hown'
    have hneeds := List.mem_filter.mpr ⟨hmem, needsKeyword_of_not_ownBlank hown'⟩
    rw [← h] at hneeds
    exact counts_of_mem_keyworded _ hneeds hkind'
  · rintro ⟨p, hp, hneeds⟩
    have hmem := List.mem_filter.mpr ⟨hp, hneeds⟩
    rw [← h, keyworded, if_neg (by simp [hkind, hcounts])] at hmem
    split at hmem
    · assumption
    · cases hmem

/-! ## Clauses around clauses that give way -/

mutual

/-- Where a clause has one within that needs its keyword, each part around it counts, or has such a
clause within as well. -/
theorem counts_or_needsKeyword {kind : ClauseKind} {keyword : String} {body : List Part}
    (hneeds : ∃ p ∈ clausesAll body, needsKeyword format p = true) : (p : Part) →
    BlankGiveWay format (visited p) → clause kind keyword body ∈ visited p →
    counts format p = true ∨ ∃ q ∈ clauses p, needsKeyword format q = true
  | space _, _, hmem | content _, _, hmem | bind _, _, hmem | literal _, _, hmem => by
    simp [visited] at hmem
  | logical _ ps, h, hmem => by
    rw [visited] at h hmem
    rw [counts, clauses]
    exact counts_or_needsKeywordAll hneeds ps (h.of_subset (List.subset_cons_self _ _))
      ((List.mem_cons.mp hmem).resolve_left nofun)
  | clause kind' keyword' ps, h, hmem => by
    have hself := h kind' keyword' ps (by simp [visited])
    rw [visited] at h hmem
    rw [clauses]
    rcases List.mem_cons.mp hmem with heq | hmem
    · cases heq
      obtain ⟨p, hp, hneeds⟩ := hneeds
      exact .inr ⟨p, List.mem_cons_of_mem _ hp, hneeds⟩
    · by_cases hneeds' : needsKeyword format (clause kind' keyword' ps) = true
      · exact .inr ⟨_, List.mem_cons_self, hneeds'⟩
      · obtain ⟨hkind, hown⟩ := not_needsKeyword_iff.mp hneeds'
        have hwithin := counts_or_needsKeywordAll hneeds ps
          (h.of_subset (List.subset_cons_self _ _)) hmem
        have hnot := (hself hkind hown).anyCounts_eq
        obtain ⟨q, hq, hneeds⟩ := hwithin.resolve_left (by simp [hnot])
        exact .inr ⟨q, List.mem_cons_of_mem _ hq, hneeds⟩
  | group _, _, _ | operands .., _, _ => by simp [counts]

theorem counts_or_needsKeywordAll {kind : ClauseKind} {keyword : String} {body : List Part}
    (hneeds : ∃ p ∈ clausesAll body, needsKeyword format p = true) : (ps : List Part) →
    BlankGiveWay format (visitedAll ps) → clause kind keyword body ∈ visitedAll ps →
    anyCounts format ps = true ∨ ∃ q ∈ clausesAll ps, needsKeyword format q = true
  | [], _, hmem => by simp [visitedAll] at hmem
  | p :: ps, h, hmem => by
    rw [visitedAll] at h hmem
    simp only [anyCounts, Bool.or_eq_true, clausesAll, List.mem_append]
    rcases List.mem_append.mp hmem with hmem | hmem
    · rcases counts_or_needsKeyword hneeds p (h.of_subset (List.subset_append_left _ _)) hmem with
        hcounts | ⟨q, hq, hneeds⟩
      · exact .inl (.inl hcounts)
      · exact .inr ⟨q, .inl hq, hneeds⟩
    · rcases counts_or_needsKeywordAll hneeds ps (h.of_subset (List.subset_append_right _ _))
        hmem with hcounts | ⟨q, hq, hneeds⟩
      · exact .inl (.inr hcounts)
      · exact .inr ⟨q, .inr hq, hneeds⟩

end

/-- A clause with one within that needs its keyword reaches the statement if no clause around it
with content of its own is left out. -/
theorem reaches_of_blankGiveWay {kind : ClauseKind} {keyword : String} {body ps : List Part}
    (hneeds : ∃ p ∈ clausesAll body, needsKeyword format p = true)
    (h : BlankGiveWay format (visitedAll ps))
    (hreaches : Reaches format ((visitedAll ps).filter (needsKeyword format))
      (clause kind keyword body)) :
    Reaches format (visitedAll ps) (clause kind keyword body) := by
  intro around haround hmem
  by_cases hneeds' : needsKeyword format around = true
  · exact hreaches around (List.mem_filter.mpr ⟨haround, hneeds'⟩) hmem
  · cases around with
    | clause kind' keyword' body' =>
      obtain ⟨hkind, hown⟩ := not_needsKeyword_iff.mp hneeds'
      have hgives := h kind' keyword' body' haround hkind hown
      have hwithin : ∃ q ∈ clausesAll body', needsKeyword format q = true := by
        have hvisited := visitedAll_subset ps _ haround
        rw [visited] at hmem hvisited
        rcases List.mem_cons.mp hmem with heq | hmem
        · cases heq
          exact hneeds
        · have hblank := h.of_subset (List.Subset.trans (List.subset_cons_self _ _) hvisited)
          have hor := counts_or_needsKeywordAll hneeds body' hblank hmem
          exact hor.resolve_left (by simp [hgives.anyCounts_eq])
      simp [isLeftOut, leftOut, hgives.starts hwithin]
    | _ => rfl

theorem keepsNested_iff {ps : List Part} :
    KeepsNested format ps ↔ BlankGiveWay format (visitedAll ps) ∧
      ∀ kind keyword body, clause kind keyword body ∈ visitedAll ps →
        kind.isAlwaysWritten = false → allOwnBlank format body false = true →
        (∃ p ∈ clausesAll body, needsKeyword format p = true) →
        Reaches format ((visitedAll ps).filter (needsKeyword format))
          (clause kind keyword body) := by
  constructor
  · intro h
    constructor
    · intro kind keyword body hmem hkind hown
      exact givesWay_of_keyworded hkind hown (h kind keyword body hmem hkind hown).1
    · intro kind keyword body hmem hkind hown hneeds
      have hreaches := ((h kind keyword body hmem hkind hown).2 hneeds).2
      exact hreaches.of_subset List.filter_sublist.subset
  · intro ⟨hblank, hreach⟩ kind keyword body hmem hkind hown
    have hgives := hblank kind keyword body hmem hkind hown
    have hwithin : clausesAll body ⊆ visitedAll ps := by
      have hclauses := clauses_subset_visited (clause kind keyword body)
      rw [clauses] at hclauses
      have hvisited := List.Subset.trans hclauses (visitedAll_subset ps _ hmem)
      exact List.Subset.trans (List.subset_cons_self _ _) hvisited
    constructor
    · exact keyworded_of_givesWay hkind hgives
        (keywordedAll_eq_filter body hgives.counts (hblank.of_subset hwithin))
    · intro hneeds
      have hreaches := hreach kind keyword body hmem hkind hown hneeds
      refine ⟨fun available => ?_, reaches_of_blankGiveWay hneeds hblank hreaches⟩
      rw [write, if_neg (by simp [hkind]), writeElidable_writeAll, if_neg
        (by simp [hgives.anyCounts_eq]), if_pos (hgives.starts hneeds)]

end Part

end Template

open Template

/-- A clause within one without content of its own, which is within another. -/
def nestedThreeDeep : String :=
  "select * from t where /*%if true*/group by /*%if true*/order by x/*%end*//*%end*/"

/-- The keyword of the outermost clause comes back. -/
theorem build_keeps_outer_keyword :
    ∃ ps s, Compiler.standard.parts nestedThreeDeep .empty = .ok ps ∧
      (Compiler.standard.build none nestedThreeDeep .empty).result = .ok s ∧
      ¬Part.KeepsNested Compiler.standard.formatter ps ∧
      s.text = "select * from t where  order by x" := by
  have h : (Compiler.standard.parts nestedThreeDeep .empty).toOption.map (fun ps =>
      (decide (Part.BlankGiveWay Compiler.standard.formatter (Part.visitedAll ps)),
        (Part.output Compiler.standard.formatter ps).text)) =
      some (false, "select * from t where  order by x") := by
    decide +kernel
  obtain ⟨ps, hps, hfacts⟩ := exists_ok_of_map h
  simp only [Prod.mk.injEq, decide_eq_false_iff_not] at hfacts
  refine ⟨ps, _, hps, Compiler.build_eq_ok_iff.mpr ⟨ps, hps, rfl⟩, ?_, hfacts.2⟩
  exact fun hkeeps => hfacts.1 (Part.keepsNested_iff.mp hkeeps).1

/-- The keywords of the clauses that are written with them stand in order in what is written for a
part, and a part that reaches the statement is written in it. Clauses without content of their own
are written as the clauses within them, which reach the statement, if and only if their bodies give
way and no clause with content of its own is left out around them. -/
theorem build_keepsNested_iff (c : Compiler) (template : String) (parameters : Scope)
    (s : Statement) (hs : (c.build none template parameters).result = .ok s) :
    ∃ ps, c.parts template parameters = .ok ps ∧
      s = .ofOutput (Part.output c.formatter ps) ∧
      (∀ p ∈ Part.visitedAll ps, ∀ available,
        Part.InOrder ((Part.keyworded c.formatter p).map Part.clauseKeyword)
          (Part.write c.formatter p available).2.text) ∧
      (∀ p ∈ Part.visitedAll ps, Part.Reaches c.formatter (Part.visitedAll ps) p →
        Part.WrittenIn c.formatter p (Part.output c.formatter ps)) ∧
      (Part.KeepsNested c.formatter ps ↔
        Part.BlankGiveWay c.formatter (Part.visitedAll ps) ∧
          ∀ kind keyword body, .clause kind keyword body ∈ Part.visitedAll ps →
            kind.isAlwaysWritten = false → Part.allOwnBlank c.formatter body false = true →
            (∃ p ∈ Part.clausesAll body, Part.needsKeyword c.formatter p = true) →
            Part.Reaches c.formatter
              ((Part.visitedAll ps).filter (Part.needsKeyword c.formatter))
              (.clause kind keyword body)) := by
  obtain ⟨ps, hps, rfl⟩ := Compiler.build_eq_ok_iff.mp hs
  refine ⟨ps, hps, rfl, ?_, ?_, Part.keepsNested_iff⟩
  · intro p _ available
    exact Part.inOrder_write p available
  · intro p hp hreaches
    exact Part.writtenIn_writeAll ps false hp hreaches

/-- A clause within one that is left with blanks. -/
def nestedInEmpty : String :=
  "select * from emp where /*%if false*/a = 1/*%end*/ /*%if true*/order by a/*%end*/"

/-- The inner clause takes the place of the outer one. -/
theorem build_keepsNested_iff_order_by :
    ∃ ps s, Compiler.standard.parts nestedInEmpty .empty = .ok ps ∧
      (Compiler.standard.build none nestedInEmpty .empty).result = .ok s ∧
      s.text = "select * from emp   order by a" ∧
      Part.KeepsNested Compiler.standard.formatter ps := by
  have h : (Compiler.standard.parts nestedInEmpty .empty).toOption.map (fun ps =>
      ((Part.output Compiler.standard.formatter ps).text,
        decide (Part.BlankGiveWay Compiler.standard.formatter (Part.visitedAll ps)),
        (Part.visitedAll ps).any (Part.isLeftOut Compiler.standard.formatter))) =
      some ("select * from emp   order by a", true, false) := by
    decide +kernel
  obtain ⟨ps, hps, hfacts⟩ := exists_ok_of_map h
  simp only [Prod.mk.injEq, decide_eq_true_eq, List.any_eq_false, Bool.not_eq_true] at hfacts
  obtain ⟨htext, hblank, hwritten⟩ := hfacts
  have hs := Compiler.build_eq_ok_iff.mpr ⟨ps, hps, rfl⟩
  obtain ⟨ps', hps', -, -, -, hiff⟩ := build_keepsNested_iff Compiler.standard _ _ _ hs
  obtain rfl : ps = ps' := Except.ok.inj (hps.symm.trans hps')
  refine ⟨ps, _, hps, hs, htext, hiff.mpr ⟨hblank, ?_⟩⟩
  intro kind keyword body _ _ _ _ around haround _
  exact hwritten around (List.mem_filter.mp haround).1

end TwoWaySql
