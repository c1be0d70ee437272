import Mathlib.Data.List.Chain
import TwoWaySql.Proofs.Directives
import TwoWaySql.Proofs.WrittenInFull

/-!
# The shape of templates

What the parser builds has a shape that rendering relies on (`Tree.Shaped`): statements stand by
themselves, clauses end where the next clause starts, connectors where the next connector or clause
does, and a directive without a sample is not followed by what would be one.

The constructs that are open have that shape already, and each may be put into the one around it
(`Stacked`), so completing them keeps it. A directive that waits is put after the last tree only
when the next token turns out to be no sample of it; from then on until that token is read it is the
last tree, and only what fits after it may follow (`Level.Fits`).
-/

namespace TwoWaySql.Template

open Text (isIdentifier)

namespace Tree

/-! ## Shapes -/

def isStatement : Tree → Bool
  | statement _ => true
  | _ => false

/-- Whether the tree stands by itself: a statement, or a set operation on statements. -/
def isQuery : Tree → Bool
  | statement _ | setOperation .. => true
  | _ => false

def isClause : Tree → Bool
  | clause .. => true
  | _ => false

/-- What may stand among others in a statement or a branch. -/
def isItem (t : Tree) : Bool := !t.isQuery

/-- What may stand in a clause. -/
def isClauseItem (t : Tree) : Bool := t.isItem && !t.isClause

/-- What may stand after a connector. -/
def isPredicateItem (t : Tree) : Bool := t.isClauseItem && !t.isConnector

def isWordOrBrackets : Tree → Bool
  | word _ | brackets _ => true
  | _ => false

def isAsterisk : Tree → Bool
  | other text => text == "*"
  | _ => false

/-- Whether the first tree is a directive without a sample, and the second one would be its sample
if it came next. -/
def misses : Tree → Tree → Bool
  | bind _ none, t | literal _ none, t => t.isWordOrBrackets
  | expand _ none, t => t.isAsterisk
  | _, _ => false

/-- Trees one after the other, all admitted, none of which misses its sample. -/
structure Row (admits : Tree → Bool) (ts : List Tree) : Prop where
  admitted : ∀ t ∈ ts, admits t = true
  samples : ts.IsChain fun t u => t.misses u = false

/-- The shape of a tree itself, apart from the shapes of the trees in it. -/
def Shaped : Tree → Prop
  | statement ts => Row isItem ts
  | setOperation left _ _ right => left.isQuery = true ∧ right.isStatement = true
  | clause _ _ ts => Row isClauseItem ts
  | logical _ _ ts => Row isPredicateItem ts
  | brackets inner => inner.isQuery = true
  | bind _ sample? | literal _ sample? => ∀ t ∈ sample?, t.isWordOrBrackets = true
  | expand _ sample? => ∀ t ∈ sample?, t.isAsterisk = true
  | ifBlock _ ts elseifs else? =>
    Row isItem ts ∧ (∀ b ∈ elseifs, Row isItem b.2) ∧ ∀ us ∈ else?, Row isItem us
  | forBlock _ identifier expression ts =>
    Row isItem ts ∧ isIdentifier identifier.toList = true ∧ expression ≠ ""
  | word _ | blank _ | other _ | comment _ | embedded _ => True

variable {admits : Tree → Bool} {t u : Tree} {ts : List Tree}

theorem row_nil : Row admits [] := ⟨nofun, .nil⟩

/-- A row whose last tree comes first goes on. -/
theorem Row.push (h : Row admits ts.reverse) (ht : admits t = true)
    (hlast : ∀ u ∈ ts.head?, u.misses t = false) : Row admits (t :: ts).reverse := by
  rw [List.reverse_cons]
  constructor
  · exact List.forall_mem_append.mpr ⟨h.admitted, List.forall_mem_singleton.mpr ht⟩
  · refine List.isChain_append.mpr ⟨h.samples, .singleton t, fun u hu v hv => ?_⟩
    rw [List.getLast?_reverse] at hu
    cases hv
    exact hlast u hu

theorem isItem_of_isClauseItem (h : t.isClauseItem = true) : t.isItem = true :=
  (Bool.and_eq_true_iff.mp h).1

theorem isClauseItem_of_isPredicateItem (h : t.isPredicateItem = true) : t.isClauseItem = true :=
  (Bool.and_eq_true_iff.mp h).1

/-- What is no sample may follow any tree. -/
theorem misses_eq_false (hword : t.isWordOrBrackets = false) (hasterisk : t.isAsterisk = false)
    (u : Tree) : u.misses t = false := by
  unfold misses
  split
  · exact hword
  · exact hword
  · exact hasterisk
  · rfl

end Tree

open Template.Tree (Everywhere Row everywhere_cons everywhere_leaf everywhere_nil
  everywhere_singleton holds_singleton misses_eq_false row_nil)

/-! ## Open constructs -/

namespace Frame

variable {f f' : Frame} {t : Tree} {d : Directive} {kind : DirectiveKind}

/-- What may stand in the construct. -/
def admits : Frame → Tree → Bool
  | clause .. => Tree.isClauseItem
  | logical .. => Tree.isPredicateItem
  | _ => Tree.isItem

/-- The trees of the part that is open, the last one first. -/
def current : Frame → List Tree
  | clause _ _ ts | logical _ _ ts | ifBlock _ ts | elseifBlock _ _ _ _ ts | elseBlock _ _ _ ts
  | forBlock _ _ _ ts => ts

/-- The construct has the right shape already, and so has all that is in it. -/
def Shaped (f : Frame) : Prop := Everywhere Tree.Shaped [f.tree]

theorem admits_of_isPredicateItem (h : t.isPredicateItem = true) (f : Frame) :
    f.admits t = true := by
  have hclause := Tree.isClauseItem_of_isPredicateItem h
  cases f with
  | clause => exact hclause
  | logical => exact h
  | _ => exact Tree.isItem_of_isClauseItem hclause

/-- Whether a construct may stand in another one does not depend on what is in it. -/
theorem admits_tree_add (f g : Frame) (t : Tree) :
    g.admits (f.add t).tree = g.admits f.tree := by
  cases f <;> cases g <;> rfl

theorem isItem_tree (f : Frame) : f.tree.isItem = true := by
  cases f <;> rfl

theorem isPredicateItem_tree (h : f.isClauseOrLogical = false) :
    f.tree.isPredicateItem = true := by
  cases f <;> first | rfl | cases h

/-- A construct is no sample. -/
theorem misses_tree (f : Frame) (u : Tree) : u.misses f.tree = false := by
  cases f <;> exact misses_eq_false rfl rfl u

theorem isClauseOrLogical_nextBranch? (hf : f.nextBranch? kind d = some f') :
    f'.isClauseOrLogical = false := by
  cases f with
  | ifBlock | elseifBlock =>
    cases hf
    unfold branch
    split <;> rfl
  | _ => cases hf

/-- The branch that comes next has nothing in it yet. -/
theorem current_nextBranch? (hf : f.nextBranch? kind d = some f') : f'.current = [] := by
  cases f with
  | ifBlock | elseifBlock =>
    cases hf
    unfold branch
    split <;> rfl
  | _ => cases hf

theorem shaped_tree_add (h : f.tree.Shaped) (ht : f.admits t = true)
    (hlast : ∀ u ∈ f.current.head?, u.misses t = false) : (f.add t).tree.Shaped := by
  cases f with
  | clause | logical => exact Row.push h ht hlast
  | ifBlock | forBlock => exact ⟨h.1.push ht hlast, h.2⟩
  | elseifBlock test body bs d ts =>
    obtain ⟨hbody, hbranches, helse⟩ := h
    refine ⟨hbody, fun b hb => ?_, helse⟩
    obtain rfl | hb := List.mem_cons.mp (List.mem_reverse.mp hb)
    · exact (hbranches (d, ts.reverse) (by simp)).push ht hlast
    · exact hbranches b (by simp [hb])
  | elseBlock test body bs ts =>
    obtain ⟨hbody, hbranches, helse⟩ := h
    refine ⟨hbody, hbranches, fun us hus => ?_⟩
    cases hus
    exact (helse _ rfl).push ht hlast

theorem Shaped.add (h : f.Shaped) (hshaped : Everywhere Tree.Shaped [t]) (ht : f.admits t = true)
    (hlast : ∀ u ∈ f.current.head?, u.misses t = false) : (f.add t).Shaped := by
  obtain ⟨hf, hchildren⟩ := everywhere_singleton.mp h
  refine everywhere_singleton.mpr ⟨shaped_tree_add hf ht hlast, ?_⟩
  refine (everywhere_cons.mpr ⟨hshaped, hchildren⟩).mono fun u hu => ?_
  rw [mem_children_tree, mem_children_add] at hu
  rwa [List.mem_cons, mem_children_tree]

theorem Shaped.nextBranch (h : f.Shaped) (hf : f.nextBranch? kind d = some f') : f'.Shaped := by
  obtain ⟨hshape, hchildren⟩ := everywhere_singleton.mp h
  refine everywhere_singleton.mpr ⟨?_, hchildren.mono fun u hu => ?_⟩
  · cases f with
    | ifBlock test ts =>
      cases hf
      unfold branch
      split
      · exact ⟨hshape.1, nofun, fun us hus => by cases hus; exact row_nil⟩
      · refine ⟨hshape.1, fun b hb => ?_, nofun⟩
        obtain rfl := List.mem_singleton.mp hb
        exact row_nil
    | elseifBlock test body bs e ts =>
      cases hf
      obtain ⟨hbody, hbranches, -⟩ := hshape
      unfold branch
      split
      · exact ⟨hbody, hbranches, fun us hus => by cases hus; exact row_nil⟩
      · refine ⟨hbody, fun b hb => ?_, nofun⟩
        obtain rfl | hb := List.mem_cons.mp (List.mem_reverse.mp hb)
        · exact row_nil
        · exact hbranches b (List.mem_reverse.mpr hb)
    | _ => cases hf
  · rw [mem_children_tree, mem_children_nextBranch? hf] at hu
    exact mem_children_tree.mpr hu

end Frame

/-- The constructs have the right shape, and each may be put into the one around it, as may the tree
that was completed last. -/
structure Stacked (t? : Option Tree) (fs : List Frame) : Prop where
  frames : ∀ f ∈ fs, f.Shaped
  nested : fs.IsChain fun inner outer => outer.admits inner.tree = true
  completed : ∀ t ∈ t?, Everywhere Tree.Shaped [t] ∧ t.isItem = true ∧
    (∀ u : Tree, u.misses t = false) ∧ ∀ f ∈ fs.head?, f.admits t = true

namespace Stacked

variable {t? : Option Tree} {t : Tree} {f : Frame} {fs : List Frame}

theorem nil : Stacked none [] := ⟨nofun, .nil, nofun⟩

theorem cons (hf : f.Shaped) (h : Stacked none fs)
    (hadmits : ∀ g ∈ fs.head?, g.admits f.tree = true) : Stacked none (f :: fs) :=
  ⟨List.forall_mem_cons.mpr ⟨hf, h.frames⟩, List.isChain_cons.mpr ⟨hadmits, h.nested⟩, nofun⟩

theorem head (h : Stacked none (f :: fs)) :
    f.Shaped ∧ (∀ g ∈ fs.head?, g.admits f.tree = true) ∧ Stacked none fs := by
  obtain ⟨hf, hfs⟩ := List.forall_mem_cons.mp h.frames
  obtain ⟨hadmits, hnested⟩ := List.isChain_cons.mp h.nested
  exact ⟨hf, hadmits, hfs, hnested, nofun⟩

theorem frames_only (h : Stacked t? fs) : Stacked none fs := ⟨h.frames, h.nested, nofun⟩

/-- A tree is put into the innermost construct. -/
theorem add (h : Stacked none (f :: fs)) (ht : Everywhere Tree.Shaped [t])
    (hadmits : f.admits t = true) (hlast : ∀ u ∈ f.current.head?, u.misses t = false) :
    Stacked none (f.add t :: fs) := by
  obtain ⟨hf, houter, hfs⟩ := h.head
  refine .cons (hf.add ht hadmits hlast) hfs fun g hg => ?_
  rw [Frame.admits_tree_add]
  exact houter g hg

theorem completeWhile (p : Frame → Bool) (h : Stacked t? fs) :
    Stacked (completeWhile p t? fs).1 (completeWhile p t? fs).2 := by
  refine completeWhile_induction ?_ ?_ h
  · intro t f fs h
    obtain ⟨ht, -, hmisses, hadmits⟩ := h.completed t rfl
    exact h.frames_only.add ht (hadmits f rfl) fun u _ => hmisses u
  · intro f fs h
    obtain ⟨hf, hadmits, hfs⟩ := h.head
    refine ⟨hfs.frames, hfs.nested, fun t ht => ?_⟩
    cases ht
    exact ⟨hf, f.isItem_tree, f.misses_tree, hadmits⟩

end Stacked

/-! ## Levels -/

namespace Level

variable {l : Level} {t : Tree} {f : Frame}

/-- The last tree of what is open. -/
def last? (l : Level) : Option Tree :=
  match l.frames with
  | [] => l.children.head?
  | f :: _ => f.current.head?

/-- The tree may come next: it is no sample that the last tree misses. -/
def Fits (l : Level) (t : Tree) : Prop := ∀ u ∈ l.last?, u.misses t = false

/-- What has been read of a statement has the right shape. -/
structure Shaped (l : Level) : Prop where
  left : ∀ left ∈ l.left?, left.tree.isQuery = true ∧ Everywhere Tree.Shaped [left.tree]
  row : Everywhere Tree.Shaped [.statement l.children.reverse]
  stacked : Stacked none l.frames

theorem shaped_statement_push {ts : List Tree} (h : Everywhere Tree.Shaped [.statement ts.reverse])
    (ht : Everywhere Tree.Shaped [t]) (hitem : t.isItem = true)
    (hlast : ∀ u ∈ ts.head?, u.misses t = false) :
    Everywhere Tree.Shaped [.statement (t :: ts).reverse] := by
  obtain ⟨hrow, hchildren⟩ := everywhere_singleton.mp h
  refine everywhere_singleton.mpr ⟨Row.push hrow hitem hlast, ?_⟩
  refine (everywhere_cons.mpr ⟨ht, hchildren⟩).mono fun u hu => ?_
  simpa [Tree.children, or_comm] using hu

theorem shaped_start : Level.start.Shaped :=
  ⟨nofun, everywhere_singleton.mpr ⟨row_nil, everywhere_nil⟩, .nil⟩

theorem last?_add (l : Level) (t : Tree) : (l.add t).last? = some t := by
  unfold add
  split
  · rename_i hframes
    simp [last?, hframes]
  · rename_i f fs _
    cases f <;> rfl

theorem last?_openFrame (h : f.current = []) (l : Level) : (l.openFrame f).last? = none := by
  simp [last?, openFrame, h]

/-- Anything may follow a tree that misses no sample. -/
theorem fits_add (l : Level) (h : ∀ u : Tree, t.misses u = false) (u : Tree) :
    (l.add t).Fits u := by
  intro v hv
  rw [last?_add] at hv
  cases hv
  exact h u

theorem fits_of_last? (h : l.last? = none) (t : Tree) : l.Fits t := by
  intro u hu
  rw [h] at hu
  cases hu

theorem Shaped.add (h : l.Shaped) (ht : Everywhere Tree.Shaped [t])
    (hitem : t.isPredicateItem = true) (hfits : l.Fits t) : (l.add t).Shaped := by
  unfold Level.add
  unfold Fits last? at hfits
  split <;> rename_i hframes
  · rw [hframes] at hfits
    have hstatement := Tree.isItem_of_isClauseItem (Tree.isClauseItem_of_isPredicateItem hitem)
    exact ⟨h.left, shaped_statement_push h.row ht hstatement hfits, h.stacked⟩
  · rename_i f fs
    rw [hframes] at hfits
    have hstacked := h.stacked
    rw [hframes] at hstacked
    exact ⟨h.left, h.row, hstacked.add ht (f.admits_of_isPredicateItem hitem) hfits⟩

theorem Shaped.openFrame (h : l.Shaped) (hf : f.Shaped)
    (hadmits : ∀ g ∈ l.frames.head?, g.admits f.tree = true) : (l.openFrame f).Shaped :=
  ⟨h.left, h.row, .cons hf h.stacked hadmits⟩

theorem Shaped.complete (h : l.Shaped) (p : Frame → Bool) : (l.complete p).Shaped := by
  have hstacked := h.stacked.completeWhile p
  refine ⟨h.left, ?_, hstacked.frames_only⟩
  show Everywhere Tree.Shaped
    [.statement ((completeWhile p none l.frames).1.toList ++ l.children).reverse]
  cases hcompleted : (completeWhile p none l.frames).1 with
  | none => exact h.row
  | some t =>
    obtain ⟨ht, hitem, hmisses, -⟩ := hstacked.completed t hcompleted
    exact shaped_statement_push h.row ht hitem fun u _ => hmisses u

theorem Shaped.settled (h : l.Shaped) : l.settled.Shaped := h.complete _

/-- What is open in a settled level is a block. -/
theorem isClauseOrLogical_settled (hf : f ∈ l.settled.frames.head?) :
    f.isClauseOrLogical = false :=
  completeWhile_head hf

theorem Shaped.of_finish (h : l.Shaped) (hfinish : l.finish = .ok t) :
    t.isQuery = true ∧ Everywhere Tree.Shaped [t] := by
  obtain ⟨-, rfl⟩ := finish_eq_ok hfinish
  have hrow := h.settled.row
  unfold Level.tree
  split
  · exact ⟨rfl, hrow⟩
  · rename_i left hleft
    obtain ⟨hquery, hshaped⟩ := h.settled.left left hleft
    exact ⟨rfl, everywhere_singleton.mpr ⟨⟨hquery, rfl⟩, everywhere_cons.mpr ⟨hshaped, hrow⟩⟩⟩

end Level

/-! ## Directives that wait -/

namespace Waiting

variable {w : Waiting} {t : Token} {tree : Tree} {source : String}

/-- A token is a sample if the directive would miss its tree. -/
theorem sample?_eq (w : Waiting) (source : String) (t : Token) :
    w.sample? t = (Token.leaf? source t).filter (w.tree none).misses := by
  obtain ⟨waits, d⟩ := w
  obtain ⟨kind, text, start⟩ := t
  cases kind with
  | directive kind => cases waits <;> cases kind <;> rfl
  | other =>
    cases waits with
    | expand =>
      show (if text = "*" then some (Tree.other text) else none) =
        if (text == "*") = true then some (Tree.other text) else none
      simp only [beq_iff_eq]
    | _ => rfl
  | _ => cases waits <;> rfl

theorem takesBrackets_eq (w : Waiting) (inner : Tree) :
    w.takesBrackets = (w.tree none).misses (.brackets inner) := by
  obtain ⟨kind, d⟩ := w
  cases kind <;> rfl

theorem isPredicateItem_tree (w : Waiting) (sample? : Option Tree) :
    (w.tree sample?).isPredicateItem = true := by
  obtain ⟨kind, d⟩ := w
  cases kind <;> rfl

/-- A directive is no sample. -/
theorem misses_tree (w : Waiting) (sample? : Option Tree) (u : Tree) :
    u.misses (w.tree sample?) = false := by
  obtain ⟨kind, d⟩ := w
  cases kind <;> exact misses_eq_false rfl rfl u

/-- A directive with a sample misses none. -/
theorem tree_some_misses (w : Waiting) (sample u : Tree) :
    (w.tree (some sample)).misses u = false := by
  obtain ⟨kind, d⟩ := w
  cases kind <;> rfl

theorem shaped_tree_none (w : Waiting) : Everywhere Tree.Shaped [w.tree none] := by
  obtain ⟨kind, d⟩ := w
  cases kind <;> exact (everywhere_leaf rfl).mpr nofun

/-- What a directive misses it may have as its sample. -/
theorem shaped_tree_some (hmisses : (w.tree none).misses tree = true)
    (htree : Everywhere Tree.Shaped [tree]) : Everywhere Tree.Shaped [w.tree (some tree)] := by
  obtain ⟨kind, d⟩ := w
  cases kind <;>
    exact everywhere_singleton.mpr ⟨fun u hu => Option.some.inj hu ▸ hmisses, htree⟩

end Waiting

/-! ## States of the parser -/

theorem shaped_leaf {source : String} {t : Token} {tree : Tree}
    (h : Token.leaf? source t = some tree) :
    tree.isPredicateItem = true ∧ (∀ u : Tree, tree.misses u = false) ∧
      Everywhere Tree.Shaped [tree] := by
  have leaf {u : Tree} (hchildren : u.children = []) (hshaped : u.Shaped) :
      Everywhere Tree.Shaped [u] := (everywhere_leaf hchildren).mpr hshaped
  unfold Token.leaf? at h
  split at h
  · cases h; exact ⟨rfl, fun _ => rfl, leaf rfl trivial⟩
  · cases h; exact ⟨rfl, fun _ => rfl, leaf rfl trivial⟩
  · cases h; exact ⟨rfl, fun _ => rfl, leaf rfl trivial⟩
  · cases h; exact ⟨rfl, fun _ => rfl, leaf rfl trivial⟩
  · cases h; exact ⟨rfl, fun _ => rfl, leaf rfl trivial⟩
  · cases h; exact ⟨rfl, fun _ => rfl, leaf rfl trivial⟩
  · cases h

/-- A level that waits for the end of brackets: they are the sample of a directive that takes them,
or they may come next. -/
structure Suspended.Shaped (o : Suspended) : Prop where
  level : o.level.Shaped
  sample : ∀ w ∈ o.sampleOf?, w.takesBrackets = true
  fits : o.sampleOf? = none → ∀ inner, o.level.Fits (.brackets inner)

namespace Suspended

variable {o : Suspended} {inner : Tree}

theorem isPredicateItem_tree (o : Suspended) (inner : Tree) :
    (o.tree inner).isPredicateItem = true := by
  unfold Suspended.tree
  split
  · rfl
  · exact Waiting.isPredicateItem_tree _ _

theorem tree_misses (o : Suspended) (inner u : Tree) : (o.tree inner).misses u = false := by
  unfold Suspended.tree
  split
  · rfl
  · exact Waiting.tree_some_misses _ _ u

theorem Shaped.fits_tree (h : o.Shaped) (inner : Tree) : o.level.Fits (o.tree inner) := by
  unfold Suspended.tree
  split
  · exact h.fits ‹_› inner
  · exact fun u _ => Waiting.misses_tree _ _ u

theorem Shaped.tree (h : o.Shaped) (hquery : inner.isQuery = true)
    (hinner : Everywhere Tree.Shaped [inner]) : Everywhere Tree.Shaped [o.tree inner] := by
  have hbrackets : Everywhere Tree.Shaped [.brackets inner] :=
    everywhere_singleton.mpr ⟨hquery, hinner⟩
  unfold Suspended.tree
  split
  · exact hbrackets
  · rename_i w hw
    have htakes := h.sample w hw
    rw [w.takesBrackets_eq inner] at htakes
    exact Waiting.shaped_tree_some htakes hbrackets

end Suspended

namespace ParserState

/-- All that has been read has the right shape. If no directive waits, anything may come next. -/
structure Shaped (s : ParserState) : Prop where
  level : s.level.Shaped
  outer : ∀ o ∈ s.outer, o.Shaped
  settled : s.waiting? = none → ∀ t, s.level.Fits t

variable {limit : Nat} {source : String} {s s' : ParserState} {t : Token}

theorem shaped_start : start.Shaped :=
  ⟨Level.shaped_start, nofun, fun _ => Level.fits_of_last? rfl⟩

theorem Shaped.settle (hs : s.Shaped) : s.settle.level.Shaped := by
  unfold ParserState.settle
  split
  · exact hs.level
  · rename_i w _
    exact hs.level.add w.shaped_tree_none (w.isPredicateItem_tree none) fun u _ =>
      w.misses_tree none u

/-- After a directive without a sample comes what it does not miss. -/
theorem Shaped.fits_settle (hs : s.Shaped) {tree : Tree}
    (h : ∀ w, s.waiting? = some w → (w.tree none).misses tree = false) :
    s.settle.level.Fits tree := by
  unfold ParserState.settle
  split
  · exact hs.settled ‹_› tree
  · rename_i w hw
    intro u hu
    rw [show (s.add (w.tree none)).level.last? = _ from Level.last?_add _ _] at hu
    cases hu
    exact h w hw

theorem shaped_reads (hlevel : s.level.Shaped) (houter : ∀ o ∈ s.outer, o.Shaped)
    (hleaf : ∀ tree, Token.leaf? source t = some tree → s.level.Fits tree)
    (hbracket : t.kind = .openBracket → ∀ inner, s.level.Fits (.brackets inner))
    (h : Reads limit source s t s') : s'.Shaped := by
  -- A construct that is opened is empty, so anything may come next.
  have opened {l : Level} {f : Frame} (hl : l.Shaped) (hf : f.tree.Shaped)
      (hchildren : f.tree.children = []) (hcurrent : f.current = [])
      (hadmits : ∀ g ∈ l.frames.head?, g.admits f.tree = true) :
      ParserState.Shaped { s with level := l.openFrame f } :=
    ⟨hl.openFrame ((everywhere_leaf hchildren).mpr hf) hadmits, houter,
      fun _ => Level.fits_of_last? (Level.last?_openFrame hcurrent l)⟩
  cases h with
  | leaf htree =>
    obtain ⟨hitem, hmisses, hshaped⟩ := shaped_leaf htree
    exact ⟨hlevel.add hshaped hitem (hleaf _ htree), houter, fun _ => Level.fits_add _ hmisses⟩
  | wait => exact ⟨hlevel, houter, nofun⟩
  | openBracket hkind =>
    exact ⟨Level.shaped_start,
      List.forall_mem_cons.mpr ⟨⟨hlevel, nofun, fun _ => hbracket hkind⟩, houter⟩,
      fun _ => Level.fits_of_last? rfl⟩
  | @closeBracket o outer inner _ hsuspended hinner =>
    rw [hsuspended] at houter
    obtain ⟨ho, houter⟩ := List.forall_mem_cons.mp houter
    obtain ⟨hquery, hshaped⟩ := hlevel.of_finish hinner
    exact ⟨ho.level.add (ho.tree hquery hshaped) (o.isPredicateItem_tree inner)
      (ho.fits_tree inner), houter, fun _ => Level.fits_add _ (o.tree_misses inner)⟩
  | clause =>
    refine opened hlevel.settled row_nil rfl rfl fun g hg => ?_
    have hblock := Level.isClauseOrLogical_settled hg
    cases g <;> first | rfl | cases hblock
  | connector =>
    refine opened (hlevel.complete _) row_nil rfl rfl fun g hg => ?_
    have hnot : g.isLogical = false := completeWhile_head hg
    cases g <;> first | rfl | cases hnot
  | set _ hleft =>
    refine ⟨⟨fun operand hoperand => ?_, Level.shaped_start.row, .nil⟩, houter,
      fun _ => Level.fits_of_last? rfl⟩
    cases hoperand
    exact hlevel.of_finish hleft
  | ifBlock =>
    exact opened hlevel ⟨row_nil, nofun, nofun⟩ rfl rfl
      fun g _ => g.admits_of_isPredicateItem rfl
  | @forBlock identifier expression _ hparts =>
    obtain ⟨hidentifier, hexpression⟩ := isIdentifier_of_loopParts? hparts
    refine opened hlevel ⟨row_nil, ?_, ?_⟩ rfl rfl fun g _ => g.admits_of_isPredicateItem rfl
    · rwa [String.toList_ofList]
    · exact fun h => hexpression (by simpa using congrArg String.toList h)
  | @branch kind f f' fs _ _ hframes hf =>
    have hstacked := hlevel.settled.stacked
    rw [hframes] at hstacked
    obtain ⟨hshaped, -, hfs⟩ := hstacked.head
    have hitem := Frame.isPredicateItem_tree (Frame.isClauseOrLogical_nextBranch? hf)
    have hcurrent : f'.current = [] := Frame.current_nextBranch? hf
    refine ⟨⟨hlevel.settled.left, hlevel.settled.row, ?_⟩, houter, fun _ => ?_⟩
    · exact .cons (hshaped.nextBranch hf) hfs fun g _ => g.admits_of_isPredicateItem hitem
    · exact Level.fits_of_last? (by simp [Level.last?, hcurrent])
  | @endBlock f fs _ hframes =>
    have hstacked := hlevel.settled.stacked
    rw [hframes] at hstacked
    obtain ⟨hshaped, -, hfs⟩ := hstacked.head
    have hblock : f.isClauseOrLogical = false :=
      Level.isClauseOrLogical_settled (l := s.level) (by rw [hframes]; rfl)
    have hrest : Level.Shaped { s.level.settled with frames := fs } :=
      ⟨hlevel.settled.left, hlevel.settled.row, hfs⟩
    have hitem := Frame.isPredicateItem_tree hblock
    refine ⟨hrest.add hshaped hitem fun u _ => f.misses_tree u, houter,
      fun _ => Level.fits_add _ fun u => ?_⟩
    cases f <;> rfl

theorem shaped_step (hs : s.Shaped) (hend : Token.isEnd t = false)
    (h : s.step limit source t = .ok s') : s'.Shaped := by
  cases (step_eq_ok hend).mp h with
  | @sample w sample hwaiting hsample =>
    rw [w.sample?_eq source, Option.filter_eq_some_iff] at hsample
    obtain ⟨hleaf, hmisses⟩ := hsample
    have hshaped := Waiting.shaped_tree_some hmisses (shaped_leaf hleaf).2.2
    exact ⟨hs.level.add hshaped (w.isPredicateItem_tree _) fun u _ => w.misses_tree _ u, hs.outer,
      fun _ => Level.fits_add _ (w.tree_some_misses sample)⟩
  | @brackets w hwaiting _ htakes =>
    refine ⟨Level.shaped_start, List.forall_mem_cons.mpr ⟨⟨hs.level, ?_, nofun⟩, hs.outer⟩,
      fun _ => Level.fits_of_last? rfl⟩
    rintro _ ⟨⟩
    exact htakes
  | token hnot _ hreads =>
    refine shaped_reads hs.settle (by rw [settle_outer]; exact hs.outer) (fun tree htree => ?_)
      (fun hkind inner => ?_) hreads
    · refine hs.fits_settle fun w hw => ?_
      have hnone := (hnot w hw).1
      rw [w.sample?_eq source, htree] at hnone
      simpa using hnone
    · refine hs.fits_settle fun w hw => ?_
      have htakes := fun h => (hnot w hw).2 ⟨hkind, h⟩
      rw [← w.takesBrackets_eq inner]
      simpa using htakes

theorem shaped_run {ts : List Token} (hend : ∀ t ∈ ts, Token.isEnd t = false) (hs : s.Shaped)
    (h : s.run limit source ts = .ok s') : s'.Shaped :=
  run_induction (motive := fun _ u => u.Shaped) h hs
    fun _ _ t _ ht hstep hu => shaped_step hu (hend t ht) hstep

end ParserState

/-! ## Templates -/

/-- A template is parsed to a statement, or a set operation on statements, in which every tree has
the right shape. -/
theorem shaped_of_parse {limit : Nat} {source : String} {tree : Tree}
    (h : parse limit source = .ok tree) :
    tree.isQuery = true ∧ ∀ u : Tree, u.Within tree → u.Shaped := by
  obtain ⟨-, s, hrun, hfinishes⟩ := parse_eq_ok_iff.mp h
  have hs := ParserState.shaped_run (fun _ => isEnd_of_mem_statementTokens)
    ParserState.shaped_start hrun
  obtain ⟨hquery, hshaped⟩ := hs.settle.of_finish hfinishes.finish_eq
  exact ⟨hquery, fun u hu => hshaped u (holds_singleton.mpr hu)⟩

/-- Clauses, connectors and blocks within each other, brackets that hold a set operation, and
directives with a sample and without. -/
theorem shaped_of_parse_nested :
    let template :=
      "select /*%expand e*/* where /*%for x in y*/a=/*x*/'1' or /*%end*/b=/*z*/ and (c union d)"
    ∃ tree, parse 9 template = .ok tree ∧ tree.children.length = 2 ∧ tree.isQuery = true ∧
      ∀ u : Tree, u.Within tree → u.Shaped := by
  intro template
  have hcomputed :
      (parse 9 template).toOption.map (fun tree => tree.children.length) = some 2 := by
    decide +kernel
  obtain ⟨tree, htree, hlength⟩ := exists_ok_of_map hcomputed
  exact ⟨tree, htree, hlength, shaped_of_parse htree⟩

end TwoWaySql.Template
