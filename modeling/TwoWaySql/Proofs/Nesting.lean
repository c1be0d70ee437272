import Mathlib.Order.Bounds.Defs
import TwoWaySql.Proofs.Acceptance
import TwoWaySql.Proofs.NestingLimit
import TwoWaySql.Proofs.Subtrees

/-!
# The nesting of a template

The nesting of a tree is the greatest number of constructs on a path down from its root. What a
parser state has taken in and still has open has a nesting too: a step only adds what is open after
it (`nesting_step`), and the end adds nothing. So the limit admits a template if and only if it is
at least the nesting of its tree (`parse_eq_ok_iff_nesting`).
-/

namespace TwoWaySql.Template

namespace Tree

/-- Whether a tree is a level of nesting by itself. -/
def isConstruct : Tree → Bool
  | statement _ | setOperation .. | clause .. | logical .. | brackets _ | ifBlock .. | forBlock ..
    => true
  | word _ | blank _ | other _ | comment _ | bind .. | literal .. | embedded _ | expand .. => false

/-- What a tree adds to the paths that end in it or go on into its inner trees. -/
def own (t : Tree) : Nat := if t.isConstruct then 1 else 0

/-- The trees within which the tree itself counts. The left operand of a set operation is complete
before its operator comes. -/
def inner : Tree → List Tree
  | setOperation _ _ _ right => [right]
  | t => t.children

/-- A path from the root down to a node meets `n` constructs; a set operation does not count on the
paths into its left operand. -/
inductive HasPath : Tree → Nat → Prop where
  | root (t : Tree) : HasPath t t.own
  | operand {left right : Tree} {op : SetOperator} {keyword : String} {n : Nat} :
      HasPath left n → HasPath (.setOperation left op keyword right) n
  | inner {t c : Tree} {n : Nat} : c ∈ t.inner → HasPath c n → HasPath t (t.own + n)

mutual

/-- The greatest number of constructs on a path. -/
def nesting : Tree → Nat
  | statement ts | clause _ _ ts | logical _ _ ts | forBlock _ _ _ ts => nestings ts + 1
  | setOperation left _ _ right => max left.nesting (right.nesting + 1)
  | word _ | blank _ | other _ | comment _ | embedded _ => 0
  | brackets t => t.nesting + 1
  | bind _ s | literal _ s | expand _ s => sampleNesting s
  | ifBlock _ ts bs e => max (nestings ts) (max (branchNestings bs) (elseNesting e)) + 1

/-- The greatest nesting of some trees. -/
def nestings : List Tree → Nat
  | [] => 0
  | t :: ts => max t.nesting (nestings ts)

def sampleNesting : Option Tree → Nat
  | none => 0
  | some t => t.nesting

def branchNestings : List (Directive × List Tree) → Nat
  | [] => 0
  | (_, ts) :: bs => max (nestings ts) (branchNestings bs)

def elseNesting : Option (List Tree) → Nat
  | none => 0
  | some ts => nestings ts

end

theorem nestings_le_iff {ts : List Tree} {n : Nat} :
    nestings ts ≤ n ↔ ∀ t ∈ ts, t.nesting ≤ n := by
  induction ts with
  | nil => simp [nestings]
  | cons t ts ih => rw [nestings, Nat.max_le, ih, List.forall_mem_cons]

theorem nesting_le_nestings {t : Tree} {ts : List Tree} (h : t ∈ ts) :
    t.nesting ≤ nestings ts := nestings_le_iff.mp (Nat.le_refl _) t h

/-- The order of trees makes no difference. -/
theorem nestings_congr {ts us : List Tree} (h : ∀ t, t ∈ ts ↔ t ∈ us) :
    nestings ts = nestings us :=
  Nat.le_antisymm (nestings_le_iff.mpr fun t ht => nesting_le_nestings ((h t).mp ht))
    (nestings_le_iff.mpr fun t ht => nesting_le_nestings ((h t).mpr ht))

@[simp] theorem nestings_append (ts us : List Tree) :
    nestings (ts ++ us) = max (nestings ts) (nestings us) := by
  induction ts with
  | nil => simp [nestings]
  | cons t ts ih => simp [nestings, ih, Nat.max_assoc]

@[simp] theorem nestings_reverse (ts : List Tree) : nestings ts.reverse = nestings ts :=
  nestings_congr fun _ => List.mem_reverse

@[simp] theorem branchNestings_eq (bs : List (Directive × List Tree)) :
    branchNestings bs = nestings (bs.flatMap (·.2)) := by
  induction bs with
  | nil => rfl
  | cons b bs ih => simp [branchNestings, ih]

@[simp] theorem elseNesting_eq (e : Option (List Tree)) :
    elseNesting e = nestings (e.getD []) := by
  cases e <;> rfl

@[simp] theorem sampleNesting_eq (s : Option Tree) : sampleNesting s = nestings s.toList := by
  cases s <;> simp [sampleNesting, nestings]

/-- The paths of a tree but for those into a left operand. -/
theorem nesting_eq (t : Tree) :
    t.nesting = match t with
      | setOperation left _ _ _ => max left.nesting (t.own + nestings t.inner)
      | t => t.own + nestings t.inner := by
  cases t <;>
    simp [nesting, own, isConstruct, inner, children, nestings, Nat.add_comm]

theorem own_add_le_nesting (t : Tree) : t.own + nestings t.inner ≤ t.nesting := by
  rw [nesting_eq t]
  split
  · exact Nat.le_max_right _ _
  · exact Nat.le_refl _

/-! ## Paths -/

theorem HasPath.le_nesting {t : Tree} {n : Nat} (h : t.HasPath n) : n ≤ t.nesting := by
  induction h with
  | root t => exact Nat.le_trans (Nat.le_add_right _ _) t.own_add_le_nesting
  | operand _ ih =>
    rw [nesting]
    exact Nat.le_trans ih (Nat.le_max_left _ _)
  | @inner t c n hc _ ih =>
    exact Nat.le_trans (Nat.add_le_add_left (Nat.le_trans ih (nesting_le_nestings hc)) _)
      t.own_add_le_nesting

/-- A path into the inner trees that is as long as any, if each of these has one. -/
theorem hasPath_own_add {t : Tree} (h : ∀ c ∈ t.inner, c.HasPath c.nesting) :
    t.HasPath (t.own + nestings t.inner) := by
  have hgreatest (ts : List Tree) : nestings ts = 0 ∨ ∃ c ∈ ts, nestings ts = c.nesting := by
    induction ts with
    | nil => exact .inl rfl
    | cons u us ih =>
      rw [nestings]
      rcases Nat.le_total (nestings us) u.nesting with hle | hle
      · exact .inr ⟨u, List.mem_cons_self, Nat.max_eq_left hle⟩
      · rw [Nat.max_eq_right hle]
        exact ih.imp_right fun ⟨c, hc, heq⟩ => ⟨c, List.mem_cons_of_mem u hc, heq⟩
  rcases hgreatest t.inner with hzero | ⟨c, hc, heq⟩
  · rw [hzero]
    exact .root t
  · rw [heq]
    exact .inner hc (h c hc)

theorem sizeOf_lt_of_mem_children {c t : Tree} (h : c ∈ t.children) : sizeOf c < sizeOf t := by
  cases t with
  | word | blank | other | comment | embedded => cases h
  | statement ts | clause _ _ ts | logical _ _ ts | forBlock _ _ _ ts =>
    have hlt : sizeOf c < sizeOf ts := List.sizeOf_lt_of_mem h
    simp only [statement.sizeOf_spec, clause.sizeOf_spec, logical.sizeOf_spec,
      forBlock.sizeOf_spec]
    omega
  | setOperation left op keyword right =>
    simp only [children, List.mem_cons, List.not_mem_nil, or_false] at h
    rw [setOperation.sizeOf_spec]
    rcases h with rfl | rfl <;> omega
  | brackets inner =>
    obtain rfl := List.mem_singleton.mp h
    rw [brackets.sizeOf_spec]
    omega
  | bind _ sample? | literal _ sample? | expand _ sample? =>
    obtain rfl := Option.mem_toList.mp h
    simp only [bind.sizeOf_spec, literal.sizeOf_spec, expand.sizeOf_spec, Option.some.sizeOf_spec]
    omega
  | ifBlock test ts bs else? =>
    rw [ifBlock.sizeOf_spec]
    simp only [children, List.mem_append, List.mem_flatMap] at h
    rcases h with (h | ⟨b, hb, h⟩) | h
    · have hlt := List.sizeOf_lt_of_mem h
      omega
    · have hbranch := List.sizeOf_lt_of_mem hb
      have hlt := List.sizeOf_lt_of_mem h
      obtain ⟨d, us⟩ := b
      rw [Prod.mk.sizeOf_spec] at hbranch
      dsimp only at hlt
      omega
    · cases else? with
      | none => cases h
      | some us =>
        have hlt : sizeOf c < sizeOf us := List.sizeOf_lt_of_mem h
        rw [Option.some.sizeOf_spec]
        omega

/-- What holds of a tree if it does of its children, holds of all trees. -/
theorem children_induction {motive : Tree → Prop}
    (h : ∀ t, (∀ c ∈ t.children, motive c) → motive t) (t : Tree) : motive t :=
  h t fun c hc =>
    have := sizeOf_lt_of_mem_children hc
    children_induction h c
termination_by sizeOf t

theorem mem_children_of_mem_inner {c t : Tree} (h : c ∈ t.inner) : c ∈ t.children := by
  cases t with
  | setOperation left op keyword right => exact List.mem_cons_of_mem left h
  | _ => exact h

theorem hasPath_nesting (t : Tree) : t.HasPath t.nesting := by
  induction t using children_induction with
  | h t ih =>
    have hinner := hasPath_own_add fun c hc => ih c (mem_children_of_mem_inner hc)
    rw [nesting_eq]
    split
    · rename_i left _ _ _
      rcases Nat.le_total (own _ + nestings (inner _)) left.nesting with hle | hle
      · rw [Nat.max_eq_left hle]
        exact .operand (ih left List.mem_cons_self)
      · rw [Nat.max_eq_right hle]
        exact hinner
    · exact hinner

/-- The nesting is the length of the longest path. -/
theorem isGreatest_nesting (t : Tree) : IsGreatest {n | t.HasPath n} t.nesting :=
  ⟨t.hasPath_nesting, fun _ h => h.le_nesting⟩

end Tree

open Template.Tree (nestings nestings_append nestings_reverse nesting_le_nestings)

/-! ## What is open -/

/-- The nesting of open constructs around something that is `inner` deep. -/
def framesNesting : List Frame → Nat → Nat
  | [], inner => inner
  | f :: fs, inner => framesNesting fs (max inner (nestings f.children) + 1)

/-- What is within all of the frames is deeper by each of these. -/
theorem framesNesting_eq (fs : List Frame) (inner : Nat) :
    framesNesting fs inner = max (framesNesting fs 0) (inner + fs.length) := by
  induction fs generalizing inner with
  | nil => simp [framesNesting]
  | cons f fs ih =>
    rw [framesNesting, framesNesting, ih, ih (max 0 (nestings f.children) + 1), List.length_cons]
    omega

namespace Frame

theorem nestings_children_add (t : Tree) (f : Frame) :
    nestings (f.add t).children = max t.nesting (nestings f.children) :=
  (Tree.nestings_congr fun u => by rw [mem_children_add, List.mem_cons] :
    nestings (f.add t).children = nestings (t :: f.children))

theorem nesting_tree (f : Frame) : f.tree.nesting = nestings f.children + 1 := by
  have hbranches (bs : List (Directive × List Tree)) :
      nestings (bs.reverse.flatMap (·.2)) = nestings (bs.flatMap (·.2)) :=
    Tree.nestings_congr fun u => by simp
  cases f <;>
    simp [tree, children, Tree.nesting, nestings, List.flatMap_append, hbranches]

theorem nestings_nextBranch? {kind : DirectiveKind} {d : Directive} {f f' : Frame}
    (h : f.nextBranch? kind d = some f') : nestings f'.children = nestings f.children :=
  Tree.nestings_congr fun _ => mem_children_nextBranch? h

end Frame

/-- Completing constructs moves the innermost tree out of them. -/
theorem framesNesting_completeWhile (p : Frame → Bool) (t? : Option Tree) (fs : List Frame) :
    max (framesNesting (completeWhile p t? fs).2 0) (nestings (completeWhile p t? fs).1.toList) =
      framesNesting fs (nestings t?.toList) := by
  induction fs generalizing t? with
  | nil => simp [completeWhile, framesNesting]
  | cons f fs ih =>
    have hadd : nestings (t?.elim f f.add).children =
        max (nestings t?.toList) (nestings f.children) := by
      cases t? with
      | none => simp [nestings]
      | some t => simp [nestings, Frame.nestings_children_add]
    simp only [completeWhile, framesNesting]
    split
    · rw [ih, ← hadd]
      simp [nestings, Frame.nesting_tree]
    · simp [nestings, framesNesting, hadd]

namespace Level

/-- The nesting of a level around something that is `inner` deep. -/
def nesting (l : Level) (inner : Nat) : Nat :=
  let right := max (framesNesting l.frames inner) (nestings l.children) + 1
  match l.left? with
  | none => right
  | some left => max left.tree.nesting (right + 1)

theorem nesting_eq (l : Level) (inner : Nat) :
    l.nesting inner = max (l.nesting 0) (inner + l.size) := by
  unfold nesting size
  rw [framesNesting_eq]
  cases l.left? with
  | none =>
    simp only [Option.isSome_none, Bool.false_eq_true, ↓reduceIte]
    omega
  | some left =>
    simp only [Option.isSome_some, ↓reduceIte]
    omega

theorem size_le_nesting (l : Level) : l.size ≤ l.nesting 0 := by
  rw [nesting_eq, Nat.zero_add]
  exact Nat.le_max_right _ _

theorem nesting_add (t : Tree) (l : Level) (inner : Nat) :
    (l.add t).nesting inner = l.nesting (max t.nesting inner) := by
  obtain ⟨left?, children, frames⟩ := l
  cases frames with
  | nil => simp [add, nesting, framesNesting, nestings, Nat.max_comm]
  | cons f fs =>
    simp [add, nesting, framesNesting, Frame.nestings_children_add, Nat.max_comm]

theorem nesting_openFrame (f : Frame) (l : Level) :
    (l.openFrame f).nesting 0 = l.nesting (nestings f.children + 1) := by
  simp [openFrame, nesting, framesNesting]

theorem nesting_withFrames {l : Level} {fs : List Frame} {inner : Nat}
    (h : framesNesting fs inner = framesNesting l.frames 0) :
    ({ l with frames := fs } : Level).nesting inner = l.nesting 0 := by
  simp only [nesting, h]

theorem nesting_complete (p : Frame → Bool) (l : Level) :
    (l.complete p).nesting 0 = l.nesting 0 := by
  have hframes := framesNesting_completeWhile p none l.frames
  unfold nesting
  simp only [complete, nestings_append]
  rw [← Nat.max_assoc, hframes]
  rfl

theorem nesting_settled (l : Level) : l.settled.nesting 0 = l.nesting 0 := l.nesting_complete _

theorem nesting_of_finish {l : Level} {tree : Tree} (h : l.finish = .ok tree) :
    tree.nesting = l.nesting 0 := by
  obtain ⟨hframes, rfl⟩ := finish_eq_ok h
  rw [← nesting_settled, nesting, hframes]
  unfold tree
  cases l.settled.left? <;> simp [Tree.nesting, framesNesting]

end Level

/-- The nesting of suspended levels around something that is `inner` deep. -/
def outerNesting : List Suspended → Nat → Nat
  | [], inner => inner
  | o :: outer, inner => outerNesting outer (o.level.nesting (inner + 1))

theorem outerNesting_eq (outer : List Suspended) (inner : Nat) :
    outerNesting outer inner =
      max (outerNesting outer 0) (inner + (outer.map fun o => o.level.size + 1).sum) := by
  induction outer generalizing inner with
  | nil => simp [outerNesting]
  | cons o outer ih =>
    rw [outerNesting, outerNesting, ih, ih (o.level.nesting (0 + 1)), o.level.nesting_eq,
      o.level.nesting_eq (0 + 1), List.map_cons, List.sum_cons]
    omega

namespace ParserState

/-- The nesting of all that a state has, complete or open. -/
def nesting (s : ParserState) : Nat := outerNesting s.outer (s.level.nesting 0)

variable {limit limit' : Nat} {source : String} {s s' : ParserState} {t : Token}

theorem depth_le_nesting (s : ParserState) : s.depth ≤ s.nesting := by
  have hsize := s.level.size_le_nesting
  rw [nesting, outerNesting_eq, depth_eq]
  omega

/-- Another level in place of the innermost, which has all that was there. -/
theorem nesting_level {l : Level} {w? : Option Waiting}
    (h : l.nesting 0 = max (s.level.nesting 0) l.size) :
    nesting ⟨l, s.outer, w?⟩ = max s.nesting (depth ⟨l, s.outer, w?⟩) := by
  unfold nesting
  rw [outerNesting_eq, outerNesting_eq s.outer (s.level.nesting 0), depth_eq, h]
  dsimp only
  omega

/-- Another level in place of the innermost, as deep as that. -/
theorem nesting_sameLevel {l : Level} {w? : Option Waiting} (h : l.nesting 0 = s.level.nesting 0) :
    nesting ⟨l, s.outer, w?⟩ = max s.nesting (depth ⟨l, s.outer, w?⟩) :=
  nesting_level (by rw [← h, Nat.max_eq_left l.size_le_nesting])

/-- A tree in the innermost level that is no construct and has none within it. -/
theorem nesting_addLeaf {tree : Tree} {w? : Option Waiting} (h : tree.nesting = 0) :
    nesting ⟨s.level.add tree, s.outer, w?⟩ =
      max s.nesting (depth ⟨s.level.add tree, s.outer, w?⟩) :=
  nesting_sameLevel (by rw [Level.nesting_add, h, Nat.max_self])

theorem nesting_settle (s : ParserState) : s.settle.nesting = s.nesting := by
  unfold settle
  split
  · rfl
  · rename_i w _
    have hleaf : (w.tree none).nesting = 0 := by
      unfold Waiting.tree
      split <;> rfl
    rw [add, nesting_addLeaf hleaf]
    have hdepth : depth ⟨s.level.add (w.tree none), s.outer, none⟩ = s.depth := depth_add _ s
    rw [hdepth]
    exact Nat.max_eq_left s.depth_le_nesting

theorem nesting_openFrame {l : Level} {f : Frame} {w? : Option Waiting}
    (hl : l.nesting 0 = s.level.nesting 0) (hf : f.children = []) :
    nesting ⟨l.openFrame f, s.outer, w?⟩ =
      max s.nesting (depth ⟨l.openFrame f, s.outer, w?⟩) := by
  refine nesting_level ?_
  rw [Level.nesting_openFrame, hf, Level.nesting_eq, hl, Level.size_openFrame]
  simp [nestings, Nat.add_comm]

theorem nesting_openBracket {location : Location} {sampleOf? : Option Waiting} :
    nesting ⟨.start, ⟨s.level, location, sampleOf?⟩ :: s.outer, none⟩ =
      max s.nesting (depth ⟨.start, ⟨s.level, location, sampleOf?⟩ :: s.outer, none⟩) := by
  have hstart : Level.start.nesting 0 = 1 := rfl
  have hsize : Level.start.size = 1 := rfl
  simp only [nesting, outerNesting, hstart, depth_eq, hsize, List.map_cons, List.sum_cons]
  rw [outerNesting_eq, outerNesting_eq s.outer (s.level.nesting 0), Level.nesting_eq]
  omega

theorem nesting_closeBracket {o : Suspended} {outer : List Suspended} {inner : Tree}
    (houter : s.outer = o :: outer) (hinner : s.level.finish = .ok inner) :
    nesting ⟨o.level.add (o.tree inner), outer, none⟩ =
      max s.nesting (depth ⟨o.level.add (o.tree inner), outer, none⟩) := by
  have htree : (o.tree inner).nesting = inner.nesting + 1 := by
    unfold Suspended.tree Waiting.tree
    split
    · rfl
    · split <;> simp [Tree.nesting, nestings]
  have heq : nesting ⟨o.level.add (o.tree inner), outer, none⟩ = s.nesting := by
    simp only [nesting, houter, outerNesting, Level.nesting_add, htree,
      Level.nesting_of_finish hinner]
    rfl
  have hle := depth_le_nesting ⟨o.level.add (o.tree inner), outer, none⟩
  rw [heq] at hle ⊢
  exact (Nat.max_eq_left hle).symm

theorem nesting_reads (h : Reads limit source s t s') : s'.nesting = max s.nesting s'.depth := by
  have hsize := s.level.size_settled
  have hsettled := s.level.nesting_settled
  cases h with
  | @leaf tree htree =>
    refine nesting_addLeaf ?_
    unfold Token.leaf? at htree
    split at htree <;> cases htree <;> rfl
  | wait => exact (Nat.max_eq_left s.depth_le_nesting).symm
  | openBracket => exact nesting_openBracket
  | closeBracket _ houter hinner => exact nesting_closeBracket houter hinner
  | clause => exact nesting_openFrame hsettled rfl
  | connector => exact nesting_openFrame (s.level.nesting_complete _) rfl
  | @set op left _ hleft =>
    refine nesting_level ?_
    rw [← Level.nesting_of_finish hleft]
    rfl
  | ifBlock | forBlock => exact nesting_openFrame rfl rfl
  | branch _ _ hframes hf =>
    refine nesting_sameLevel ((Level.nesting_withFrames ?_).trans hsettled)
    rw [hframes, framesNesting, framesNesting, Frame.nestings_nextBranch? hf]
  | endBlock _ hframes =>
    refine nesting_sameLevel ?_
    rw [Level.nesting_add, ← hsettled]
    refine Level.nesting_withFrames ?_
    rw [hframes, framesNesting, Frame.nesting_tree]
    simp

/-- A step adds what is open after it. -/
theorem nesting_step (h : Steps limit source s t s') :
    s'.nesting = max s.nesting s'.depth := by
  cases h with
  | @sample w sample _ hsample =>
    refine nesting_addLeaf ?_
    have hleaf : sample.nesting = 0 := by
      unfold Waiting.sample? at hsample
      split at hsample
      iterate 4 cases hsample; rfl
      · split at hsample <;> cases hsample
        rfl
      · cases hsample
    unfold Waiting.tree
    split <;> simp [Tree.nesting, nestings, hleaf]
  | brackets => exact nesting_openBracket
  | token _ _ hreads =>
    rw [nesting_reads hreads, nesting_settle]

/-! ## Runs -/

/-- Before a step no more is open than the limit allows, unless the step takes a sample. -/
theorem depth_le_of_steps (h : Steps limit source s t s') :
    s.depth ≤ limit ∨ s'.depth = s.depth := by
  cases h with
  | sample => exact .inr (depth_add _ s)
  | brackets _ _ _ hdepth => exact .inl (by omega)
  | token _ hdepth => exact .inl (depth_settle s ▸ hdepth)

theorem nesting_le_of_run {ts : List Token} (hend : ∀ t ∈ ts, Token.isEnd t = false)
    (hrun : s.run limit source ts = .ok s') : s.nesting ≤ s'.nesting := by
  refine run_induction (motive := fun _ u => s.nesting ≤ u.nesting) hrun (Nat.le_refl _)
    fun _ u t u' ht hstep hle => ?_
  rw [nesting_step ((step_eq_ok (hend t ht)).mp hstep)]
  exact Nat.le_trans hle (Nat.le_max_left _ _)

/-- All that was open before the last token was within the limit. -/
theorem nesting_le_max_of_run {ts : List Token} (hend : ∀ t ∈ ts, Token.isEnd t = false)
    (hrun : start.run limit source ts = .ok s) : s.nesting ≤ max limit s.depth := by
  refine run_induction (motive := fun _ u => u.nesting ≤ max limit u.depth) hrun
    (Nat.le_max_right _ _) fun _ u t u' ht hstep hle => ?_
  have hsteps := (step_eq_ok (hend t ht)).mp hstep
  have hnesting := nesting_step hsteps
  have hdepth := depth_le_of_steps hsteps
  omega

theorem depth_openBracket {location : Location} {sampleOf? : Option Waiting} :
    depth ⟨.start, ⟨s.level, location, sampleOf?⟩ :: s.outer, none⟩ = s.depth + 2 := by
  have hsize : Level.start.size = 1 := rfl
  simp only [depth_eq, hsize, List.map_cons, List.sum_cons]
  omega

theorem Reads.of_depth_le (h : Reads limit' source s t s') (hdepth : s'.depth ≤ limit) :
    Reads limit source s t s' := by
  cases h with
  | openBracket hkind =>
    rw [depth_openBracket] at hdepth
    exact .openBracket hkind (by omega)
  | leaf htree => exact .leaf htree
  | wait hkind hsample => exact .wait hkind hsample
  | closeBracket hkind houter hinner => exact .closeBracket hkind houter hinner
  | clause hkind => exact .clause hkind
  | connector hkind => exact .connector hkind
  | set hkind hleft => exact .set hkind hleft
  | ifBlock hkind => exact .ifBlock hkind
  | forBlock hkind hparts => exact .forBlock hkind hparts
  | branch hkind hbranch hframes hf => exact .branch hkind hbranch hframes hf
  | endBlock hkind hframes => exact .endBlock hkind hframes

/-- A step needs no higher limit than the nesting of what it gives. -/
theorem Steps.of_nesting_le (h : Steps limit' source s t s') (hle : s'.nesting ≤ limit) :
    Steps limit source s t s' := by
  have hnesting := nesting_step h
  have hdepth := s.depth_le_nesting
  cases h with
  | sample hwaiting hsample => exact .sample hwaiting hsample
  | brackets hwaiting hkind htakes _ =>
    rw [depth_openBracket] at hnesting
    exact .brackets hwaiting hkind htakes (by omega)
  | token hnot _ hreads =>
    exact .token hnot (by rw [depth_settle]; omega) (hreads.of_depth_le (by omega))

theorem run_of_nesting_le {ts : List Token} (hend : ∀ t ∈ ts, Token.isEnd t = false)
    (hrun : s.run limit' source ts = .ok s') (hle : s'.nesting ≤ limit) :
    s.run limit source ts = .ok s' := by
  induction ts generalizing s with
  | nil => exact hrun
  | cons t ts ih =>
    obtain ⟨ht, hts⟩ := List.forall_mem_cons.mp hend
    rw [run_cons] at hrun ⊢
    obtain ⟨u, hstep, hrun⟩ := bind_eq_ok.mp hrun
    have hu : u.nesting ≤ s'.nesting := nesting_le_of_run hts hrun
    have hsteps := ((step_eq_ok ht).mp hstep).of_nesting_le (Nat.le_trans hu hle)
    exact bind_eq_ok.mpr ⟨u, (step_eq_ok ht).mpr hsteps, ih hts hrun⟩

theorem Finishes.nesting_eq {tree : Tree} (h : s.Finishes limit tree) :
    tree.nesting = s.nesting := by
  rw [← nesting_settle, nesting, settle_outer, h.outer_eq]
  exact Level.nesting_of_finish h.finish_eq

end ParserState

open ParserState

/-- A template is parsed within a limit if and only if it can be parsed and no path down its tree
has more constructs than the limit. -/
theorem parse_eq_ok_iff_nesting (limit : Nat) (source : String) (tree : Tree) :
    IsGreatest {n | tree.HasPath n} tree.nesting ∧
      (parse limit source = .ok tree ↔
        tree.nesting ≤ limit ∧ ∃ limit', parse limit' source = .ok tree) := by
  refine ⟨tree.isGreatest_nesting, fun h => ⟨?_, limit, h⟩, fun ⟨hle, limit', h⟩ => ?_⟩
  · obtain ⟨-, s, hrun, hfinishes⟩ := parse_eq_ok_iff.mp h
    have hmax := nesting_le_max_of_run (fun _ => isEnd_of_mem_statementTokens) hrun
    have hdepth := hfinishes.depth_le
    rw [depth_settle] at hdepth
    rw [hfinishes.nesting_eq]
    omega
  · obtain ⟨hends, s, hrun, hfinishes⟩ := parse_eq_ok_iff.mp h
    rw [hfinishes.nesting_eq] at hle
    have hrun' := run_of_nesting_le (fun _ => isEnd_of_mem_statementTokens) hrun hle
    have hdepth : s.settle.depth ≤ limit := by
      rw [depth_settle]
      exact Nat.le_trans s.depth_le_nesting hle
    exact parse_eq_ok_iff.mpr ⟨hends, s, hrun', { hfinishes with depth_le := hdepth }⟩

end TwoWaySql.Template
