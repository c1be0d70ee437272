import TwoWaySql.Proofs.TreeText

/-!
# Trees within trees

What is complete is never taken apart again: a tree that is in a state of the parser is in every
state after it (`holds_run`), and in the tree of the template (`within_of_finishes`).
-/

namespace TwoWaySql.Template

namespace Tree

/-- The trees that a tree is made of. -/
def children : Tree → List Tree
  | statement ts | clause _ _ ts | logical _ _ ts | forBlock _ _ _ ts => ts
  | setOperation left _ _ right => [left, right]
  | word _ | blank _ | other _ | comment _ | embedded _ => []
  | brackets inner => [inner]
  | bind _ sample? | literal _ sample? | expand _ sample? => sample?.toList
  | ifBlock _ ts elseifs else? => ts ++ elseifs.flatMap (·.2) ++ else?.getD []

/-- A tree is within another one at any depth. -/
inductive Within (t : Tree) : Tree → Prop where
  | refl : Within t t
  | child {c u : Tree} : c ∈ u.children → Within t c → Within t u

/-- A tree is within one of some trees. -/
def Holds (t : Tree) (us : List Tree) : Prop := ∃ u ∈ us, t.Within u

variable {t : Tree} {us vs : List Tree}

theorem Holds.mono (h : Holds t us) (hsub : ∀ u ∈ us, u ∈ vs) : Holds t vs := by
  obtain ⟨u, hu, hwithin⟩ := h
  exact ⟨u, hsub u hu, hwithin⟩

theorem holds_append : Holds t (us ++ vs) ↔ Holds t us ∨ Holds t vs := by
  simp [Holds, List.mem_append, or_and_right, exists_or]

theorem holds_singleton {u : Tree} : Holds t [u] ↔ t.Within u := by
  simp [Holds]

theorem Holds.within {u : Tree} (h : Holds t us) (hsub : ∀ c ∈ us, c ∈ u.children) :
    t.Within u := by
  obtain ⟨c, hc, hwithin⟩ := h
  exact .child (hsub c hc) hwithin

end Tree

open Template.Tree (Within Holds holds_append holds_singleton)

namespace Frame

/-- The complete trees in an open construct. -/
def children : Frame → List Tree
  | clause _ _ ts | logical _ _ ts | ifBlock _ ts | forBlock _ _ _ ts => ts
  | elseifBlock _ body bs _ ts | elseBlock _ body bs ts => body ++ bs.flatMap (·.2) ++ ts

theorem mem_children_add {f : Frame} {t u : Tree} :
    u ∈ (f.add t).children ↔ u = t ∨ u ∈ f.children := by
  cases f <;> simp [add, children, or_left_comm]

/-- Completing a construct keeps what is in it. -/
theorem mem_children_tree {f : Frame} {u : Tree} : u ∈ f.tree.children ↔ u ∈ f.children := by
  cases f <;> simp [tree, Tree.children, children]

/-- The next branch of a block keeps what is in those before it. -/
theorem mem_children_nextBranch? {kind : DirectiveKind} {d : Directive} {f f' : Frame} {u : Tree}
    (hf : f.nextBranch? kind d = some f') : u ∈ f'.children ↔ u ∈ f.children := by
  cases f with
  | ifBlock test ts =>
    cases hf
    unfold branch
    split <;> simp [children]
  | elseifBlock test body bs e ts =>
    cases hf
    unfold branch
    split <;> simp [children, or_comm]
  | _ => cases hf

end Frame

/-- What holds of the open constructs and of the tree that was completed last still holds when that
tree is added to the innermost construct, and when the innermost construct is completed, holds after
constructs are completed. -/
theorem completeWhile_induction {p : Frame → Bool} {motive : Option Tree → List Frame → Prop}
    (add : ∀ t f fs, motive (some t) (f :: fs) → motive none (f.add t :: fs))
    (complete : ∀ f fs, motive none (f :: fs) → motive (some f.tree) fs)
    {t? : Option Tree} {fs : List Frame} (h : motive t? fs) :
    motive (completeWhile p t? fs).1 (completeWhile p t? fs).2 := by
  induction fs generalizing t? with
  | nil => exact h
  | cons f fs ih =>
    have hnext : motive none (t?.elim f f.add :: fs) := by
      cases t? with
      | none => exact h
      | some t => exact add t f fs h
    simp only [completeWhile]
    split
    · exact ih (complete _ fs hnext)
    · exact hnext

/-- What holds of each construct and of the trees that constructs become. -/
theorem forall_completeWhile {p : Frame → Bool} {F : Frame → Prop} {T : List Tree → Prop}
    (hnil : T []) (hadd : ∀ f t, F f → T [t] → F (f.add t)) (htree : ∀ f, F f → T [f.tree])
    {fs : List Frame} (hfs : ∀ f ∈ fs, F f) :
    T (completeWhile p none fs).1.toList ∧ ∀ f ∈ (completeWhile p none fs).2, F f := by
  refine completeWhile_induction (motive := fun t? fs => T t?.toList ∧ ∀ f ∈ fs, F f) ?_ ?_
    ⟨hnil, hfs⟩
  · intro t f fs h
    obtain ⟨hf, hrest⟩ := List.forall_mem_cons.mp h.2
    exact ⟨hnil, List.forall_mem_cons.mpr ⟨hadd f t hf h.1, hrest⟩⟩
  · intro f fs h
    obtain ⟨hf, hrest⟩ := List.forall_mem_cons.mp h.2
    exact ⟨htree f hf, hrest⟩

/-- Completing constructs keeps what they hold. -/
theorem holds_completeWhile {p : Frame → Bool} {t : Tree} (t? : Option Tree) {fs : List Frame}
    (h : Holds t (t?.toList ++ fs.flatMap Frame.children)) :
    Holds t ((completeWhile p t? fs).1.toList ++
      (completeWhile p t? fs).2.flatMap Frame.children) := by
  refine completeWhile_induction
    (motive := fun t? fs => Holds t (t?.toList ++ fs.flatMap Frame.children)) ?_ ?_ h
  · intro u f fs h
    exact h.mono fun v hv => by simpa [Frame.mem_children_add, or_assoc] using hv
  · intro f fs h
    have hnow : Holds t (f.children ++ fs.flatMap Frame.children) := h
    obtain hf | hfs := holds_append.mp hnow
    · exact holds_append.mpr
        (.inl (holds_singleton.mpr (hf.within fun c hc => Frame.mem_children_tree.mpr hc)))
    · exact holds_append.mpr (.inr hfs)

namespace Level

/-- The complete trees in a level. -/
def roots (l : Level) : List Tree :=
  l.left?.toList.map (·.tree) ++ l.children ++ l.frames.flatMap Frame.children

variable {t : Tree} {l : Level}

theorem holds_add (h : Holds t l.roots) (u : Tree) : Holds t (l.add u).roots := by
  refine h.mono fun v hv => ?_
  unfold add
  split <;> rename_i hframes
  · simp only [roots, hframes, List.mem_append, List.mem_cons] at hv ⊢
    grind
  · simp only [roots, hframes, List.flatMap_cons, List.mem_append, Frame.mem_children_add] at hv ⊢
    grind

theorem holds_of_add {u : Tree} (h : t.Within u) (l : Level) : Holds t (l.add u).roots := by
  refine ⟨u, ?_, h⟩
  unfold add
  split
  · simp [roots]
  · simp [roots, Frame.mem_children_add]

theorem holds_openFrame (h : Holds t l.roots) (f : Frame) : Holds t (l.openFrame f).roots := by
  refine h.mono fun v hv => ?_
  simp only [roots, openFrame, List.flatMap_cons, List.mem_append] at hv ⊢
  grind

theorem holds_complete (h : Holds t l.roots) (p : Frame → Bool) :
    Holds t (l.complete p).roots := by
  simp only [roots, holds_append] at h
  simp only [roots, complete, holds_append]
  have hcomplete (hframes : Holds t (l.frames.flatMap Frame.children)) :=
    holds_append.mp (holds_completeWhile (p := p) none hframes)
  grind

/-- A construct that is completed is there. -/
theorem holds_complete_head {p : Frame → Bool} {f : Frame} {fs : List Frame}
    (hframes : l.frames = f :: fs) (hp : p f = true) (ht : t.Within f.tree) :
    Holds t (l.complete p).roots := by
  have hcomplete : Holds t ((completeWhile p none l.frames).1.toList ++
      (completeWhile p none l.frames).2.flatMap Frame.children) := by
    rw [hframes, completeWhile]
    simp only [Option.elim_none, hp, ↓reduceIte]
    exact holds_completeWhile _ (holds_append.mpr (.inl (holds_singleton.mpr ht)))
  refine hcomplete.mono fun u hu => ?_
  simp only [List.mem_append] at hu
  simp only [roots, complete, List.mem_append]
  grind

theorem within_tree (h : Holds t l.roots) (hframes : l.frames = []) : t.Within l.tree := by
  unfold tree
  simp only [roots, hframes, List.flatMap_nil, List.append_nil, holds_append] at h
  cases hleft : l.left? with
  | none =>
    rw [hleft] at h
    rcases h with ⟨u, hu, -⟩ | h
    · cases hu
    · exact h.within (by simp [Tree.children])
  | some left =>
    rw [hleft] at h
    rcases h with h | h
    · exact h.within (by simp [Tree.children])
    · have hright : t.Within (.statement l.children.reverse) :=
        h.within (by simp [Tree.children])
      exact .child (by simp [Tree.children]) hright

theorem within_of_finish {tree : Tree} (h : Holds t l.roots ∨ Holds t l.settled.roots)
    (hfinish : l.finish = .ok tree) : t.Within tree := by
  obtain ⟨hframes, rfl⟩ := finish_eq_ok hfinish
  exact within_tree (h.elim (holds_complete · _) id) hframes

end Level

/-- Whether all open clauses and connectors of the level are complete before the token. -/
def Token.endsClause (t : Token) : Bool :=
  match t.kind with
  | .clause _ | .set _ | .closeBracket => true
  | .directive .elseifBranch | .directive .elseBranch | .directive .blockEnd => true
  | _ => false

namespace ParserState

def roots (s : ParserState) : List Tree := s.outer.flatMap (·.level.roots) ++ s.level.roots

variable {limit : Nat} {source : String} {s s' : ParserState} {t : Token} {u : Tree}

theorem within_tree_waiting (w : Waiting) {sample : Tree} (h : u.Within sample) :
    u.Within (w.tree (some sample)) := by
  obtain ⟨kind, d⟩ := w
  cases kind <;> exact .child (by simp [Waiting.tree, Tree.children]) h

theorem within_tree_suspended (o : Suspended) {inner : Tree} (h : u.Within inner) :
    u.Within (o.tree inner) := by
  have hbrackets : u.Within (.brackets inner) := .child (by simp [Tree.children]) h
  unfold Suspended.tree
  split
  · exact hbrackets
  · exact within_tree_waiting _ hbrackets

theorem holds_settle (h : Holds u s.roots) : Holds u s.settle.roots := by
  unfold settle
  split
  · exact h
  · exact (holds_append.mp h).elim (fun h => holds_append.mpr (.inl h))
      fun h => holds_append.mpr (.inr (Level.holds_add h _))

/-- A token before which clauses are completed keeps what is completed then. -/
theorem holds_reads_of_ends (ht : Token.endsClause t = true)
    (h : Holds u (s.outer.flatMap (·.level.roots) ++ s.level.settled.roots))
    (hreads : Reads limit source s t s') : Holds u s'.roots := by
  have hlevel {l : Level} (hl : Holds u s.level.settled.roots → Holds u l.roots) :
      Holds u (s.outer.flatMap (·.level.roots) ++ l.roots) :=
    holds_append.mpr ((holds_append.mp h).imp_right hl)
  cases hreads with
  | @closeBracket o outer inner _ houter hinner =>
    simp only [roots, houter, List.flatMap_cons, holds_append] at h ⊢
    rcases h with (ho | h) | h
    · exact .inr (Level.holds_add ho _)
    · exact .inl h
    · have hwithin := within_tree_suspended o (Level.within_of_finish (.inr h) hinner)
      exact .inr (Level.holds_of_add hwithin o.level)
  | clause => exact hlevel fun h => Level.holds_openFrame h _
  | set _ hleft =>
    refine hlevel fun h => holds_append.mpr (.inl (holds_append.mpr (.inl ?_)))
    exact holds_singleton.mpr (Level.within_of_finish (.inr h) hleft)
  | @branch kind f f' fs _ _ hframes hf =>
    refine hlevel fun h => h.mono fun v hv => ?_
    simp only [Level.roots, hframes, List.flatMap_cons, List.mem_append] at hv ⊢
    have hsame := Frame.mem_children_nextBranch? (u := v) hf
    grind
  | @endBlock f fs _ hframes =>
    refine hlevel fun h => ?_
    simp only [Level.roots, hframes, List.flatMap_cons, holds_append] at h
    have hrest : Holds u (Level.roots { s.level.settled with frames := fs }) ∨
        Holds u f.children := by
      simp only [Level.roots, holds_append]
      grind
    rcases hrest with hrest | hf
    · exact Level.holds_add hrest _
    · exact Level.holds_of_add (hf.within fun c hc => Frame.mem_children_tree.mpr hc) _
  | leaf htree =>
    unfold Token.endsClause at ht
    unfold Token.leaf? at htree
    split at ht <;> simp_all
  | @wait d kind hkind hsample =>
    rw [Token.endsClause, hkind] at ht
    cases d with
    | bind | literal | expand => cases ht
    | _ => cases hsample
  | openBracket hkind | connector hkind | ifBlock hkind | forBlock hkind =>
    rw [Token.endsClause, hkind] at ht
    cases ht

theorem holds_reads (h : Holds u s.roots) (hreads : Reads limit source s t s') :
    Holds u s'.roots := by
  have hlevel {l : Level} (hl : Holds u s.level.roots → Holds u l.roots) :
      Holds u (s.outer.flatMap (·.level.roots) ++ l.roots) :=
    holds_append.mpr ((holds_append.mp h).imp_right hl)
  cases hends : Token.endsClause t with
  | true =>
    have hsettled := hlevel fun h => Level.holds_complete h Frame.isClauseOrLogical
    exact holds_reads_of_ends hends hsettled hreads
  | false =>
    cases hreads with
    | leaf htree => exact hlevel fun h => Level.holds_add h _
    | wait => exact h
    | openBracket =>
      refine h.mono fun v hv => ?_
      simp only [roots, List.mem_append] at hv
      simp only [roots, List.flatMap_cons, List.mem_append]
      grind
    | connector => exact hlevel fun h => Level.holds_openFrame (Level.holds_complete h _) _
    | ifBlock | forBlock => exact hlevel fun h => Level.holds_openFrame h _
    | branch hkind hbranch =>
      rcases hbranch with rfl | rfl <;> simp [Token.endsClause, hkind] at hends
    | closeBracket hkind | clause hkind | set hkind | endBlock hkind =>
      simp [Token.endsClause, hkind] at hends

theorem holds_step (hend : Token.isEnd t = false) (h : Holds u s.roots)
    (hstep : s.step limit source t = .ok s') : Holds u s'.roots := by
  cases (step_eq_ok hend).mp hstep with
  | sample =>
    exact holds_append.mpr ((holds_append.mp h).imp_right fun h => Level.holds_add h _)
  | brackets =>
    refine h.mono fun v hv => ?_
    simp only [roots, List.mem_append] at hv
    simp only [roots, List.flatMap_cons, List.mem_append]
    grind
  | token _ _ hreads => exact holds_reads (holds_settle h) hreads

/-- A complete tree stays. -/
theorem holds_run {ts : List Token} (hend : ∀ t ∈ ts, Token.isEnd t = false)
    (h : Holds u s.roots) (hrun : s.run limit source ts = .ok s') : Holds u s'.roots :=
  run_induction (motive := fun _ v => Holds u v.roots) hrun h
    fun _ _ t _ ht hstep hv => holds_step (hend t ht) hv hstep

theorem within_of_finishes {tree : Tree} (h : Holds u s.roots) (hfinishes : s.Finishes limit tree) :
    u.Within tree := by
  refine Level.within_of_finish (.inl ?_) hfinishes.finish_eq
  have hsettle := holds_settle h
  rw [roots, settle_outer, hfinishes.outer_eq] at hsettle
  exact hsettle

end ParserState

end TwoWaySql.Template
