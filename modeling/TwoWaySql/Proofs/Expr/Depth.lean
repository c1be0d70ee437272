import TwoWaySql.Proofs.Expr.Outermost

/-!
# Depth of expressions

The parser keeps the height of a tree beside it, so that it never has to walk one. What it keeps is
the height (`run_measured`), also of a comma list that grows item by item, and no tree is higher
than the limit. The groups that are open are the open brackets (`run_length_outer`). So a parsed
expression is within the limit, and a larger limit makes no difference to it (`parse_keepsLimit`).
-/

namespace TwoWaySql.Expr

/-! ## Heights -/

theorem itemHeight_append (ts us : List Tree) :
    Tree.itemHeight (ts ++ us) = max (Tree.itemHeight ts) (Tree.itemHeight us) := by
  induction ts with
  | nil => simp [Tree.itemHeight]
  | cons t ts ih => rw [List.cons_append, Tree.itemHeight, Tree.itemHeight, ih, Nat.max_assoc]

/-- A list that grows by an item is as high as that needs. -/
theorem height_joined (left right : Tree) (location : Location) :
    (left.joined right location).height =
      match left with
      | .list _ _ => max left.height (right.height + 1)
      | _ => max left.height right.height + 1 := by
  cases left with
  | list items _ =>
    simp only [Tree.joined, Tree.height, itemHeight_append, Tree.itemHeight]
    omega
  | _ => simp [Tree.joined, Tree.height, Tree.itemHeight]

/-- The height kept beside the tree is its height, and within the limit. A leaf is parsed whatever
the limit. -/
structure Operand.Measured (limit : Nat) (x : Operand) : Prop where
  height_eq : x.height = x.tree.height
  height_le : x.height ≤ max limit 1

variable {limit limit' : Nat} {source : String} {x left right : Operand} {xs ys : List Operand}
  {t : Token} {ts : List Token}

theorem Operand.Measured.leaf {tree : Tree} (h : tree.height = 1) : (leaf tree).Measured limit :=
  ⟨h.symm, Nat.le_max_right limit 1⟩

/-- What is within the limit is measured if its height is right. -/
theorem Operand.measured_of_le (heq : x.height = x.tree.height) (hle : x.height ≤ limit) :
    x.Measured limit :=
  ⟨heq, Nat.le_trans hle (Nat.le_max_left limit 1)⟩

/-- What has one operand is one higher than it. -/
theorem Operand.Measured.above {tree : Tree} (hx : x.Measured limit)
    (htree : tree.height = x.tree.height + 1) (hle : x.height < limit) :
    Measured limit ⟨tree, x.height + 1⟩ :=
  measured_of_le (by rw [htree, hx.height_eq]) hle

theorem height_combine {p : Pending} (hp : p.op.leads = false)
    (hleft : left.height = left.tree.height) (hright : right.height = right.tree.height) :
    (p.combine left right).height = (p.combine left right).tree.height := by
  obtain ⟨op, location⟩ := p
  cases op with
  | not => cases hp
  | comma =>
    show (joinItems left right location).height = (joinItems left right location).tree.height
    rw [joinItems_tree, height_joined]
    unfold joinItems
    rw [← hleft, ← hright]
    cases left.tree <;> rfl
  | binary op =>
    show max left.height right.height + 1 = max left.tree.height right.tree.height + 1
    rw [hleft, hright]

theorem height_leaf? {tree : Tree} (h : Token.leaf? source t = some tree) : tree.height = 1 := by
  unfold Token.leaf? at h
  split at h
  · cases h
    rfl
  · split at h
    · obtain ⟨value, -, rfl⟩ := Option.map_eq_some_iff.mp h
      rfl
    · cases h

/-! ## Measured operands -/

/-- All operands are measured. -/
def AllMeasured (limit : Nat) (xs : List Operand) : Prop := ∀ x ∈ xs, x.Measured limit

theorem allMeasured_cons : AllMeasured limit (x :: xs) ↔ x.Measured limit ∧ AllMeasured limit xs :=
  List.forall_mem_cons

theorem allMeasured_append :
    AllMeasured limit (xs ++ ys) ↔ AllMeasured limit xs ∧ AllMeasured limit ys :=
  List.forall_mem_append

theorem AllMeasured.applyOperator {p : Pending} (hxs : AllMeasured limit xs)
    (h : applyOperator limit p xs = .ok ys) : AllMeasured limit ys := by
  obtain ⟨x, rest, hop, rfl, hheight, rfl⟩ | ⟨left, right, rest, hleads, rfl, hheight, rfl⟩ :=
    applyOperator_eq_ok.mp h
  · obtain ⟨hx, hrest⟩ := allMeasured_cons.mp hxs
    exact allMeasured_cons.mpr ⟨hx.above rfl hheight, hrest⟩
  · obtain ⟨hright, hxs⟩ := allMeasured_cons.mp hxs
    obtain ⟨hleft, hrest⟩ := allMeasured_cons.mp hxs
    have heq := height_combine hleads hleft.height_eq hright.height_eq
    exact allMeasured_cons.mpr ⟨Operand.measured_of_le heq hheight, hrest⟩

theorem AllMeasured.applyWhile {applies : Operator → Bool} {ops ops' : List Pending}
    (hxs : AllMeasured limit xs) (h : applyWhile limit applies ops xs = .ok (ops', ys)) :
    AllMeasured limit ys := by
  induction ops generalizing xs with
  | nil =>
    cases h
    exact hxs
  | cons p ops ih =>
    unfold Expr.applyWhile at h
    split at h
    · obtain ⟨zs, hzs, h⟩ := bind_eq_ok.mp h
      exact ih (hxs.applyOperator hzs) h
    · cases h
      exact hxs

theorem Group.measured_finish {g : Group} {start : Location} (hg : AllMeasured limit g.operands)
    (h : g.finish limit start = .ok x) : x.Measured limit := by
  obtain ⟨ops, xs, happlied, ⟨-, rfl⟩ | rfl⟩ := Group.finish_eq_ok.mp h
  · exact .leaf rfl
  · exact (allMeasured_cons.mp (hg.applyWhile happlied)).1

/-! ## Measured states -/

def Suspended.operands (o : Suspended) : List Operand :=
  o.group.operands ++ o.call?.toList.map (·.receiver)

/-- All operands that the parser holds: those of the open groups, and the receivers of the calls
whose arguments are open. -/
def ParserState.operands (s : ParserState) : List Operand :=
  s.group.operands ++ s.call?.toList.map (·.receiver) ++ s.outer.flatMap Suspended.operands

namespace ParserState

variable {s s' : ParserState}

theorem allMeasured_operands : AllMeasured limit s.operands ↔
    (AllMeasured limit s.group.operands ∧ ∀ call ∈ s.call?, call.receiver.Measured limit) ∧
      AllMeasured limit (s.outer.flatMap Suspended.operands) := by
  rw [operands, allMeasured_append, allMeasured_append]
  cases s.call? <;> simp [AllMeasured]

/-- What the arguments of a call are put into. -/
theorem measured_call {call : Call} (hreceiver : call.receiver.Measured limit)
    (hx : x.Measured limit) (hheight : max call.receiver.height x.height + 1 ≤ limit) :
    Operand.Measured limit ⟨.call call.receiver.tree call.name x.tree call.location,
      max call.receiver.height x.height + 1⟩ := by
  refine Operand.measured_of_le ?_ hheight
  show _ = max call.receiver.tree.height x.tree.height + 1
  rw [hreceiver.height_eq, hx.height_eq]

theorem Steps.measured (h : Steps limit source s t s') (hs : AllMeasured limit s.operands) :
    AllMeasured limit s'.operands := by
  obtain ⟨⟨hgroup, hcall⟩, houter⟩ := allMeasured_operands.mp hs
  cases h with
  | skip => exact hs
  | arguments hcall' | openBracket hcall' =>
    refine allMeasured_operands.mpr ⟨⟨nofun, nofun⟩, ?_⟩
    rw [operands, hcall'] at hs
    exact hs
  | closeGroup _ _ houter' hinner =>
    rw [houter', List.flatMap_cons, allMeasured_append, Suspended.operands, allMeasured_append]
      at houter
    obtain ⟨⟨hoperands, -⟩, hrest⟩ := houter
    have hinner := Group.measured_finish hgroup hinner
    exact allMeasured_operands.mpr ⟨⟨allMeasured_cons.mpr ⟨hinner, hoperands⟩, nofun⟩, hrest⟩
  | closeCall _ _ houter' hinner hheight =>
    rw [houter', List.flatMap_cons, allMeasured_append, Suspended.operands, allMeasured_append]
      at houter
    obtain ⟨⟨hoperands, hreceiver⟩, hrest⟩ := houter
    have hinner := Group.measured_finish hgroup hinner
    have hcall := measured_call (allMeasured_cons.mp hreceiver).1 hinner hheight
    exact allMeasured_operands.mpr ⟨⟨allMeasured_cons.mpr ⟨hcall, hoperands⟩, nofun⟩, hrest⟩
  | @leaf tree _ htree =>
    have hleaf : (Operand.leaf tree).Measured limit := .leaf (height_leaf? htree)
    exact allMeasured_operands.mpr ⟨⟨allMeasured_cons.mpr ⟨hleaf, hgroup⟩, hcall⟩, houter⟩
  | @property x xs _ _ hxs hheight =>
    rw [hxs, allMeasured_cons] at hgroup
    obtain ⟨hx, hrest⟩ := hgroup
    exact allMeasured_operands.mpr
      ⟨⟨allMeasured_cons.mpr ⟨hx.above rfl hheight, hrest⟩, hcall⟩, houter⟩
  | @function x xs _ _ hxs =>
    rw [hxs, allMeasured_cons] at hgroup
    refine allMeasured_operands.mpr ⟨⟨hgroup.2, fun call hcall' => ?_⟩, houter⟩
    cases hcall'
    exact hgroup.1
  | operator _ _ hg =>
    obtain ⟨-, ops, ys, happlied, -, rfl⟩ := Group.addOperator_eq_ok.mp hg
    exact allMeasured_operands.mpr ⟨⟨hgroup.applyWhile happlied, hcall⟩, houter⟩

theorem run_measured (h : s.run limit source ts = .ok s') (hs : AllMeasured limit s.operands) :
    AllMeasured limit s'.operands :=
  run_induction (motive := fun _ u => AllMeasured limit u.operands) h hs
    fun _ _ _ _ hsteps hu => hsteps.measured hu

theorem measured_finish (h : s.finish limit source = .ok x) (hs : AllMeasured limit s.operands) :
    x.Measured limit := by
  obtain ⟨⟨hgroup, -⟩, -⟩ := allMeasured_operands.mp hs
  unfold finish at h
  split at h
  · cases h
  · cases h
  · exact Group.measured_finish hgroup h

/-! ## Open brackets -/

/-- The suspended groups are the brackets that are open. -/
theorem Steps.length_outer (h : Steps limit source s t s') :
    s'.outer.length = depthAfter s.outer.length [t] := by
  cases h with
  | arguments _ ht | openBracket _ ht => exact (depthAfter_open ht).symm
  | closeGroup _ ht houter | closeCall _ ht houter =>
    rw [houter]
    exact (depthAfter_close ht).symm
  | leaf _ htree => exact ((derives_leaf htree).depthAfter _).symm
  | skip _ ht =>
    exact (depthAfter_other (by rcases ht with ht | ht <;> simp [ht])
      (by rcases ht with ht | ht <;> simp [ht])).symm
  | property _ ht | function _ ht | operator _ ht =>
    exact (depthAfter_other (by simp [ht]) (by simp [ht])).symm

theorem Steps.length_outer_le (h : Steps limit source s t s') (hs : s.outer.length ≤ limit) :
    s'.outer.length ≤ limit := by
  cases h with
  | arguments _ _ hlimit | openBracket _ _ _ hlimit => exact hlimit
  | closeGroup _ _ houter | closeCall _ _ houter =>
    rw [houter] at hs
    exact Nat.le_of_succ_le hs
  | _ => exact hs

theorem run_length_outer (h : s.run limit source ts = .ok s') (hs : s.outer.length ≤ limit) :
    s'.outer.length = depthAfter s.outer.length ts ∧ s'.outer.length ≤ limit := by
  refine run_induction (motive := fun us u =>
    u.outer.length = depthAfter s.outer.length us ∧ u.outer.length ≤ limit) h ⟨rfl, hs⟩ ?_
  intro us u t u' hsteps hu
  refine ⟨?_, hsteps.length_outer_le hu.2⟩
  rw [depthAfter_append, ← hu.1]
  exact hsteps.length_outer

end ParserState

/-! ## Larger limits -/

theorem applyOperator_of_limit_le (hle : limit ≤ limit') {p : Pending}
    (h : applyOperator limit p xs = .ok ys) : applyOperator limit' p xs = .ok ys := by
  obtain ⟨x, rest, hop, hxs, hheight, hys⟩ | ⟨left, right, rest, hleads, hxs, hheight, hys⟩ :=
    applyOperator_eq_ok.mp h
  · exact applyOperator_eq_ok.mpr
      (.inl ⟨x, rest, hop, hxs, Nat.lt_of_lt_of_le hheight hle, hys⟩)
  · exact applyOperator_eq_ok.mpr
      (.inr ⟨left, right, rest, hleads, hxs, Nat.le_trans hheight hle, hys⟩)

theorem applyWhile_of_limit_le (hle : limit ≤ limit') {applies : Operator → Bool}
    {ops : List Pending} {applied : List Pending × List Operand}
    (h : applyWhile limit applies ops xs = .ok applied) :
    applyWhile limit' applies ops xs = .ok applied := by
  induction ops generalizing xs with
  | nil => exact h
  | cons p ops ih =>
    unfold applyWhile at h ⊢
    split at h <;> rename_i happlies
    · rw [if_pos happlies]
      obtain ⟨zs, hzs, h⟩ := bind_eq_ok.mp h
      exact bind_eq_ok.mpr ⟨zs, applyOperator_of_limit_le hle hzs, ih h⟩
    · rw [if_neg happlies]
      exact h

theorem Group.finish_of_limit_le (hle : limit ≤ limit') {g : Group} {start : Location}
    (h : g.finish limit start = .ok x) : g.finish limit' start = .ok x := by
  obtain ⟨ops, xs, happlied, hx⟩ := Group.finish_eq_ok.mp h
  exact Group.finish_eq_ok.mpr ⟨ops, xs, applyWhile_of_limit_le hle happlied, hx⟩

namespace ParserState

variable {s s' : ParserState}

theorem Steps.of_limit_le (hle : limit ≤ limit') (h : Steps limit source s t s') :
    Steps limit' source s t s' := by
  cases h with
  | arguments hcall ht hlimit => exact .arguments hcall ht (Nat.lt_of_lt_of_le hlimit hle)
  | skip hcall ht => exact .skip hcall ht
  | openBracket hcall ht hexpects hlimit =>
    exact .openBracket hcall ht hexpects (Nat.lt_of_lt_of_le hlimit hle)
  | closeGroup hcall ht houter hinner =>
    exact .closeGroup hcall ht houter (Group.finish_of_limit_le hle hinner)
  | closeCall hcall ht houter hinner hheight =>
    exact .closeCall hcall ht houter (Group.finish_of_limit_le hle hinner)
      (Nat.le_trans hheight hle)
  | leaf hcall htree hexpects => exact .leaf hcall htree hexpects
  | property hcall ht hxs hheight =>
    exact .property hcall ht hxs (Nat.lt_of_lt_of_le hheight hle)
  | function hcall ht hxs => exact .function hcall ht hxs
  | operator hcall ht hg =>
    obtain ⟨hexpects, ops, xs, happlied, hlength, hg⟩ := Group.addOperator_eq_ok.mp hg
    exact .operator hcall ht (Group.addOperator_eq_ok.mpr
      ⟨hexpects, ops, xs, applyWhile_of_limit_le hle happlied, Nat.lt_of_lt_of_le hlength hle, hg⟩)

theorem run_of_limit_le (hle : limit ≤ limit') (h : s.run limit source ts = .ok s') :
    s.run limit' source ts = .ok s' := by
  induction ts generalizing s with
  | nil => exact h
  | cons t ts ih =>
    rw [run_cons] at h ⊢
    obtain ⟨u, hstep, h⟩ := bind_eq_ok.mp h
    exact bind_eq_ok.mpr ⟨u, step_eq_ok.mpr ((step_eq_ok.mp hstep).of_limit_le hle), ih h⟩

theorem finish_of_limit_le (hle : limit ≤ limit') (h : s.finish limit source = .ok x) :
    s.finish limit' source = .ok x := by
  unfold finish at h ⊢
  split at h
  · cases h
  · cases h
  · exact Group.finish_of_limit_le hle h

end ParserState

/-! ## Expressions -/

theorem parseOperand_of_limit_le (hle : limit ≤ limit') (h : parseOperand limit source = .ok x) :
    parseOperand limit' source = .ok x := by
  obtain ⟨hlex, s, hrun, hfinish⟩ := parseOperand_eq_ok.mp h
  exact parseOperand_eq_ok.mpr ⟨hlex, s, ParserState.run_of_limit_le hle hrun,
    ParserState.finish_of_limit_le hle hfinish⟩

theorem measured_parseOperand (h : parseOperand limit source = .ok x) : x.Measured limit := by
  obtain ⟨-, s, hrun, hfinish⟩ := parseOperand_eq_ok.mp h
  exact ParserState.measured_finish hfinish (ParserState.run_measured hrun nofun)

/-- What the limit promises of an expression that is parsed within it. -/
structure KeepsLimit (limit : Nat) (source : String) (tree : Tree) : Prop where
  height_le : tree.height ≤ max limit 1
  /-- Wherever the text is cut, not more brackets are open than the limit allows. -/
  brackets_le : ∀ ts, ts <+: (lex source).tokens → depthAfter 0 ts ≤ limit
  parse_larger : ∀ limit', limit ≤ limit' → parse limit' source = .ok tree
  /-- Whatever has been read, every operand that is held has its own height beside it. -/
  operands_height : ∀ ts, ts <+: (lex source).tokens →
    ∃ s, ParserState.start.run limit source ts = .ok s ∧ ∀ x ∈ s.operands, x.height = x.tree.height
  parseOperand_eq : parseOperand limit source = .ok ⟨tree, tree.height⟩

/-- A parsed expression keeps to the limit, and a larger limit changes nothing. -/
theorem parse_keepsLimit {tree : Tree} (h : parse limit source = .ok tree) :
    KeepsLimit limit source tree := by
  obtain ⟨x, hx, rfl⟩ := map_eq_ok.mp h
  have hmeasured := measured_parseOperand hx
  obtain ⟨-, s, hrun, -⟩ := parseOperand_eq_ok.mp hx
  have hprefix {ts : List Token} (hts : ts <+: (lex source).tokens) :
      ∃ s, ParserState.start.run limit source ts = .ok s := by
    obtain ⟨us, hus⟩ := hts
    rw [← hus, ParserState.run_append] at hrun
    obtain ⟨s, hs, -⟩ := bind_eq_ok.mp hrun
    exact ⟨s, hs⟩
  exact
    { height_le := hmeasured.height_eq ▸ hmeasured.height_le
      brackets_le := fun ts hts => by
        obtain ⟨s, hs⟩ := hprefix hts
        obtain ⟨hlength, hle⟩ := ParserState.run_length_outer hs (Nat.zero_le limit)
        exact hlength ▸ hle
      parse_larger := fun limit' hle => map_eq_ok.mpr ⟨x, parseOperand_of_limit_le hle hx, rfl⟩
      operands_height := fun ts hts => by
        obtain ⟨s, hs⟩ := hprefix hts
        exact ⟨s, hs, fun y hy => (ParserState.run_measured hs nofun y hy).height_eq⟩
      parseOperand_eq := by rw [hx, ← hmeasured.height_eq] }

/-- A list in brackets goes on with a call whose arguments hold another list, and the tree is as
high as the limit allows. -/
theorem parse_keepsLimit_nested : ∃ tree, parse 6 "(a, b), !x.f(y, (z, w))" = .ok tree ∧
    tree.height = 6 ∧ KeepsLimit 6 "(a, b), !x.f(y, (z, w))" tree := by
  have hcomputed :
      (parse 6 "(a, b), !x.f(y, (z, w))").toOption.map Tree.height = some 6 := by
    decide +kernel
  obtain ⟨tree, htree, hheight⟩ := exists_ok_of_map hcomputed
  exact ⟨tree, htree, hheight, parse_keepsLimit htree⟩

end TwoWaySql.Expr
