import TwoWaySql.Proofs.Expr.Concatenation

/-!
# The places of tokens

What a token does depends on its kind and text and not on where it stands: from states that are the
same but for locations, tokens that are the same but for locations lead to such states again
(`Steps.elsewhere`), and the limit sees no difference. So a text that has the tokens of another one,
but for those that do not count, is parsed to the same tree up to locations (`parse_elsewhere`).
-/

namespace TwoWaySql.Expr

variable {limit : Nat} {source source' : String}

/-! ## Operands -/

def Operand.unlocated (x : Operand) : Operand := ⟨x.tree.unlocated, x.height⟩

def Pending.unlocated (p : Pending) : Pending := ⟨p.op, nowhere⟩

section

variable {x y : Operand} {xs xs' ys : List Operand} {p p' : Pending}
  {ops ops' waiting : List Pending}

theorem Operand.unlocated_eq (htree : y.tree.unlocated = x.tree.unlocated)
    (hheight : y.height = x.height) : y.unlocated = x.unlocated := by
  rw [unlocated, unlocated, htree, hheight]

theorem Operand.eq_of_unlocated (h : y.unlocated = x.unlocated) :
    y.tree.unlocated = x.tree.unlocated ∧ y.height = x.height :=
  ⟨congrArg (·.tree) h, congrArg (·.height) h⟩

theorem Pending.op_eq (h : p'.unlocated = p.unlocated) : p'.op = p.op := congrArg (·.op) h

theorem unlocated_joinItems (left right : Operand) (location : Location) :
    (joinItems left right location).unlocated =
      joinItems left.unlocated right.unlocated nowhere := by
  obtain ⟨tree, height⟩ := left
  cases tree <;> simp [joinItems, Operand.unlocated, Tree.unlocated, Tree.unlocatedItems_eq]

theorem unlocated_combine (p : Pending) (left right : Operand) :
    (p.combine left right).unlocated = p.unlocated.combine left.unlocated right.unlocated := by
  obtain ⟨op, location⟩ := p
  cases op with
  | comma => exact unlocated_joinItems left right location
  | not | binary => simp [Pending.combine, Pending.unlocated, Operand.unlocated, Tree.unlocated]

theorem applyOperator_elsewhere (hp : p'.unlocated = p.unlocated)
    (hxs : xs'.map Operand.unlocated = xs.map Operand.unlocated)
    (h : applyOperator limit p xs = .ok ys) :
    ∃ ys', applyOperator limit p' xs' = .ok ys' ∧
      ys'.map Operand.unlocated = ys.map Operand.unlocated := by
  have hop := Pending.op_eq hp
  obtain ⟨x, rest, hnot, rfl, hheight, rfl⟩ | ⟨left, right, rest, hleads, rfl, hheight, rfl⟩ :=
    applyOperator_eq_ok.mp h
  · obtain ⟨y, rest', rfl, hy, hrest⟩ := List.map_eq_cons_iff.mp hxs
    obtain ⟨htree, hsame⟩ := Operand.eq_of_unlocated hy
    refine ⟨_, applyOperator_eq_ok.mpr
      (.inl ⟨y, rest', hop.trans hnot, rfl, hsame ▸ hheight, rfl⟩), ?_⟩
    simp [Operand.unlocated, Tree.unlocated, htree, hsame, hrest]
  · obtain ⟨right', rest', rfl, hright, hrest⟩ := List.map_eq_cons_iff.mp hxs
    obtain ⟨left', rest', rfl, hleft, hrest⟩ := List.map_eq_cons_iff.mp hrest
    have hboth : (p'.combine left' right').unlocated = (p.combine left right).unlocated := by
      rw [unlocated_combine, unlocated_combine, hp, hleft, hright]
    have hsame := (Operand.eq_of_unlocated hboth).2
    refine ⟨_, applyOperator_eq_ok.mpr
      (.inr ⟨left', right', rest', hop ▸ hleads, rfl, hsame ▸ hheight, rfl⟩), ?_⟩
    rw [List.map_cons, List.map_cons, hboth, hrest]

theorem applyWhile_elsewhere {applies : Operator → Bool}
    (hops : ops'.map Pending.unlocated = ops.map Pending.unlocated)
    (hxs : xs'.map Operand.unlocated = xs.map Operand.unlocated)
    (h : applyWhile limit applies ops xs = .ok (waiting, ys)) :
    ∃ waiting' ys', applyWhile limit applies ops' xs' = .ok (waiting', ys') ∧
      waiting'.map Pending.unlocated = waiting.map Pending.unlocated ∧
      ys'.map Operand.unlocated = ys.map Operand.unlocated := by
  induction ops generalizing ops' xs xs' with
  | nil =>
    cases h
    obtain rfl := List.map_eq_nil_iff.mp hops
    exact ⟨[], xs', rfl, rfl, hxs⟩
  | cons p ops ih =>
    obtain ⟨p', ops', rfl, hp, hrest⟩ := List.map_eq_cons_iff.mp hops
    unfold applyWhile at h ⊢
    rw [Pending.op_eq hp]
    split at h <;> rename_i happlies
    · obtain ⟨zs, hzs, h⟩ := bind_eq_ok.mp h
      obtain ⟨zs', hzs', hsame⟩ := applyOperator_elsewhere hp hxs hzs
      obtain ⟨waiting', ys', hrun, hwaiting, hys⟩ := ih hrest hsame h
      rw [if_pos happlies]
      exact ⟨waiting', ys', bind_eq_ok.mpr ⟨zs', hzs', hrun⟩, hwaiting, hys⟩
    · cases h
      rw [if_neg happlies]
      exact ⟨_, _, rfl, hops, hxs⟩

end

/-! ## Groups -/

def Group.unlocated (g : Group) : Group :=
  ⟨g.operands.map Operand.unlocated, g.operators.map Pending.unlocated, g.expectsOperand⟩

namespace Group

variable {g g' u : Group} {x y : Operand}

theorem eq_of_unlocated (h : u.unlocated = g.unlocated) :
    u.operands.map Operand.unlocated = g.operands.map Operand.unlocated ∧
      u.operators.map Pending.unlocated = g.operators.map Pending.unlocated ∧
      u.expectsOperand = g.expectsOperand :=
  ⟨congrArg (·.operands) h, congrArg (·.operators) h, congrArg (·.expectsOperand) h⟩

theorem unlocated_withOperands {xs ys : List Operand} (h : u.unlocated = g.unlocated)
    (hxs : ys.map Operand.unlocated = xs.map Operand.unlocated) :
    Group.unlocated { u with operands := ys } = Group.unlocated { g with operands := xs } := by
  obtain ⟨-, hoperators, hexpects⟩ := eq_of_unlocated h
  rw [unlocated, unlocated, hxs, hoperators, hexpects]

theorem unlocated_push (h : u.unlocated = g.unlocated) (hx : y.unlocated = x.unlocated) :
    ({ u with operands := y :: u.operands } : Group).unlocated =
      ({ g with operands := x :: g.operands } : Group).unlocated :=
  unlocated_withOperands h (by rw [List.map_cons, List.map_cons, hx, (eq_of_unlocated h).1])

theorem unlocated_addOperand (h : u.unlocated = g.unlocated) (hx : y.unlocated = x.unlocated) :
    (u.addOperand y).unlocated = (g.addOperand x).unlocated := by
  obtain ⟨hoperands, hoperators, -⟩ := eq_of_unlocated h
  simp only [addOperand, unlocated, List.map_cons, hx, hoperands, hoperators]

theorem addOperator_elsewhere {op : Operator} {text : String} {l : Location} (l' : Location)
    (hg : u.unlocated = g.unlocated) (h : g.addOperator limit op text l = .ok g') :
    ∃ u', u.addOperator limit op text l' = .ok u' ∧ u'.unlocated = g'.unlocated := by
  obtain ⟨hoperands, hoperators, hexpects⟩ := eq_of_unlocated hg
  obtain ⟨hleads, ops, xs, happlied, hlength, rfl⟩ := addOperator_eq_ok.mp h
  obtain ⟨ops', xs', happlied', hops, hxs⟩ := applyWhile_elsewhere hoperators hoperands happlied
  have hsame : ops'.length = ops.length := by
    rw [← List.length_map Pending.unlocated, hops, List.length_map]
  refine ⟨_, addOperator_eq_ok.mpr
    ⟨hexpects.trans hleads, ops', xs', happlied', hsame ▸ hlength, rfl⟩, ?_⟩
  simp only [unlocated, List.map_cons, hops, hxs, Pending.unlocated]

theorem finish_elsewhere {start start' : Location} (hg : u.unlocated = g.unlocated)
    (h : g.finish limit start = .ok x) :
    ∃ y, u.finish limit start' = .ok y ∧ y.unlocated = x.unlocated := by
  obtain ⟨hoperands, hoperators, -⟩ := eq_of_unlocated hg
  obtain ⟨ops, xs, happlied, hx⟩ := finish_eq_ok.mp h
  obtain ⟨ops', xs', happlied', -, hxs⟩ := applyWhile_elsewhere hoperators hoperands happlied
  rcases hx with ⟨rfl, rfl⟩ | rfl
  · obtain rfl := List.map_eq_nil_iff.mp hxs
    exact ⟨_, finish_eq_ok.mpr ⟨ops', [], happlied', .inl ⟨rfl, rfl⟩⟩, rfl⟩
  · obtain ⟨y, rfl, hy⟩ := List.map_eq_singleton_iff.mp hxs
    exact ⟨y, finish_eq_ok.mpr ⟨ops', [y], happlied', .inr rfl⟩, hy⟩

end Group

/-! ## States -/

def Call.unlocated (c : Call) : Call := ⟨c.receiver.unlocated, c.name, nowhere⟩

def Suspended.unlocated (o : Suspended) : Suspended :=
  ⟨o.group.unlocated, nowhere, o.call?.map Call.unlocated⟩

theorem leaf?_elsewhere (source' : String) {t t' : Token} {tree : Tree}
    (ht : Token.bare t' = Token.bare t) (h : Token.leaf? source t = some tree) :
    ∃ tree', Token.leaf? source' t' = some tree' ∧ tree'.unlocated = tree.unlocated := by
  obtain ⟨hkind, htext⟩ := bare_eq_bare_iff.mp ht
  unfold Token.leaf? at h ⊢
  rw [hkind, htext]
  split at h
  · cases h
    rw [if_pos ‹_›]
    exact ⟨_, rfl, rfl⟩
  · rw [if_neg ‹_›]
    split at h
    · obtain ⟨value, hvalue, rfl⟩ := Option.map_eq_some_iff.mp h
      rw [if_pos ‹_›, hvalue]
      exact ⟨_, rfl, rfl⟩
    · cases h

namespace ParserState

def unlocated (s : ParserState) : ParserState :=
  ⟨s.group.unlocated, s.outer.map Suspended.unlocated, s.call?.map Call.unlocated⟩

variable {s s' u : ParserState} {t t' : Token}

theorem eq_of_unlocated (h : u.unlocated = s.unlocated) :
    u.group.unlocated = s.group.unlocated ∧
      u.outer.map Suspended.unlocated = s.outer.map Suspended.unlocated ∧
      u.call?.map Call.unlocated = s.call?.map Call.unlocated :=
  ⟨congrArg (·.group) h, congrArg (·.outer) h, congrArg (·.call?) h⟩

/-- A step does not look at locations. -/
theorem Steps.elsewhere (source' : String) (h : Steps limit source s t s')
    (hs : u.unlocated = s.unlocated) (ht : Token.bare t' = Token.bare t) :
    ∃ u', Steps limit source' u t' u' ∧ u'.unlocated = s'.unlocated := by
  obtain ⟨hkind, htext⟩ := bare_eq_bare_iff.mp ht
  obtain ⟨hgroup, houter, hcalls⟩ := eq_of_unlocated hs
  obtain ⟨hoperands, hoperators, hexpects⟩ := Group.eq_of_unlocated hgroup
  have hlength : u.outer.length = s.outer.length := by
    rw [← List.length_map Suspended.unlocated, houter, List.length_map]
  have hnone (hcall : s.call? = none) : u.call? = none := by
    rw [hcall] at hcalls
    exact Option.map_eq_none_iff.mp hcalls
  cases h with
  | @arguments call hcall hopen hlimit =>
    rw [hcall] at hcalls
    obtain ⟨call', hcall', hsame⟩ := Option.map_eq_some_iff.mp hcalls
    refine ⟨_, .arguments hcall' (hkind.trans hopen) (hlength ▸ hlimit), ?_⟩
    simp only [unlocated, List.map_cons, Suspended.unlocated, Option.map_some, hgroup, houter,
      hsame]
  | skip hcall hskip => exact ⟨u, .skip (hnone hcall) (hkind ▸ hskip), hs⟩
  | openBracket hcall hopen hexpected hlimit =>
    refine ⟨_, .openBracket (hnone hcall) (hkind.trans hopen) (hexpects.trans hexpected)
      (hlength ▸ hlimit), ?_⟩
    simp only [unlocated, List.map_cons, Suspended.unlocated, Option.map_none, hgroup, houter]
  | closeGroup hcall hclose hs' hinner =>
    rw [hs'] at houter
    obtain ⟨⟨group, opening, call?⟩, outer, hu, ho, hrest⟩ := List.map_eq_cons_iff.mp houter
    obtain ⟨hg, -, hc⟩ := Suspended.mk.inj ho
    obtain rfl : call? = none := Option.map_eq_none_iff.mp hc
    obtain ⟨y, hy, hsame⟩ := Group.finish_elsewhere hgroup hinner
    refine ⟨_, .closeGroup (hnone hcall) (hkind.trans hclose) hu hy, ?_⟩
    simp only [unlocated, Group.unlocated_addOperand hg hsame, hrest]
  | @closeCall _ _ call _ inner hcall hclose hs' hinner hheight =>
    rw [hs'] at houter
    obtain ⟨⟨group, opening, call?⟩, outer, hu, ho, hrest⟩ := List.map_eq_cons_iff.mp houter
    obtain ⟨hg, -, hc⟩ := Suspended.mk.inj ho
    obtain ⟨call', rfl, hcall'⟩ := Option.map_eq_some_iff.mp hc
    obtain ⟨hreceiver, hname, -⟩ := Call.mk.inj hcall'
    obtain ⟨y, hy, hsame⟩ := Group.finish_elsewhere hgroup hinner
    obtain ⟨hrtree, hrheight⟩ := Operand.eq_of_unlocated hreceiver
    obtain ⟨htree, hyheight⟩ := Operand.eq_of_unlocated hsame
    rw [← hrheight, ← hyheight] at hheight
    refine ⟨_, .closeCall (hnone hcall) (hkind.trans hclose) hu hy hheight, ?_⟩
    have hresult := Operand.unlocated_eq
      (y := ⟨.call call'.receiver.tree call'.name y.tree call'.location,
        max call'.receiver.height y.height + 1⟩)
      (x := ⟨.call call.receiver.tree call.name inner.tree call.location,
        max call.receiver.height inner.height + 1⟩)
      (by simp only [Tree.unlocated, hrtree, hname, htree]) (by rw [hrheight, hyheight])
    simp only [unlocated, Group.unlocated_push hg hresult, hrest]
  | leaf hcall htree hexpected =>
    obtain ⟨tree', htree', hsame⟩ := leaf?_elsewhere source' ht htree
    refine ⟨_, .leaf (hnone hcall) htree' (hexpects.trans hexpected), ?_⟩
    have hleaf := Operand.unlocated_eq (y := .leaf tree') (x := .leaf _) hsame rfl
    simp only [unlocated, Group.unlocated_addOperand hgroup hleaf, houter, hcalls]
  | property hcall hproperty hxs hheight =>
    rw [hxs] at hoperands
    obtain ⟨y, ys, hu, hy, hys⟩ := List.map_eq_cons_iff.mp hoperands
    obtain ⟨htree, hsame⟩ := Operand.eq_of_unlocated hy
    refine ⟨_, .property (hnone hcall) (hkind.trans hproperty) hu (hsame ▸ hheight), ?_⟩
    simp only [unlocated, houter, hcalls]
    rw [Group.unlocated_withOperands hgroup]
    simp only [List.map_cons, Operand.unlocated, Tree.unlocated, Token.member, htext, htree, hsame,
      hys]
  | function hcall hfunction hxs =>
    rw [hxs] at hoperands
    obtain ⟨y, ys, hu, hy, hys⟩ := List.map_eq_cons_iff.mp hoperands
    refine ⟨_, .function (hnone hcall) (hkind.trans hfunction) hu, ?_⟩
    simp only [unlocated, Group.unlocated_withOperands hgroup hys, houter, Option.map_some,
      Call.unlocated, Token.member, htext, hy]
  | operator hcall hop hg =>
    rw [← htext] at hg
    obtain ⟨g', hg', hsame⟩ := Group.addOperator_elsewhere ⟨source', t'.start⟩ hgroup hg
    refine ⟨_, .operator (hnone hcall) (hkind.trans hop) hg', ?_⟩
    simp only [unlocated, hsame, houter, hcalls]

theorem run_elsewhere (source' : String) {ts us : List Token}
    (h : s.run limit source ts = .ok s') (hs : u.unlocated = s.unlocated)
    (htokens : us.map Token.bare = ts.map Token.bare) :
    ∃ u', u.run limit source' us = .ok u' ∧ u'.unlocated = s'.unlocated := by
  induction ts generalizing s u us with
  | nil =>
    obtain rfl := List.map_eq_nil_iff.mp htokens
    cases h
    exact ⟨u, rfl, hs⟩
  | cons t ts ih =>
    obtain ⟨t', us, rfl, ht, hus⟩ := List.map_eq_cons_iff.mp htokens
    rw [run_cons] at h
    obtain ⟨v, hstep, h⟩ := bind_eq_ok.mp h
    obtain ⟨v', hstep', hv⟩ := (step_eq_ok.mp hstep).elsewhere source' hs ht
    obtain ⟨u', hrun, hu⟩ := ih h hv hus
    exact ⟨u', by rw [run_cons_of_steps hstep', hrun], hu⟩

theorem finish_elsewhere (source' : String) {x : Operand} (h : s.finish limit source = .ok x)
    (hs : u.unlocated = s.unlocated) :
    ∃ y, u.finish limit source' = .ok y ∧ y.unlocated = x.unlocated := by
  obtain ⟨hgroup, houter, hcalls⟩ := eq_of_unlocated hs
  unfold finish at h ⊢
  split at h
  · cases h
  · cases h
  · rename_i hcall hnil
    rw [hcall] at hcalls
    rw [hnil] at houter
    rw [Option.map_eq_none_iff.mp hcalls, List.map_eq_nil_iff.mp houter]
    exact Group.finish_elsewhere hgroup h

end ParserState

/-! ## Expressions -/

/-- A text that has the tokens of another one, apart from those that do not count, is parsed to the
same tree but for locations. -/
theorem parse_elsewhere {tree : Tree} (h : parse limit source = .ok tree)
    (hlex : (lex source').failure? = none)
    (htokens : (significant (lex source').tokens).map Token.bare =
      (significant (lex source).tokens).map Token.bare) :
    ∃ tree', parse limit source' = .ok tree' ∧ tree'.unlocated = tree.unlocated := by
  obtain ⟨x, hx, rfl⟩ := map_eq_ok.mp h
  obtain ⟨-, s, hrun, hfinish⟩ := parseOperand_eq_ok.mp hx
  have hsignificant (text : String) :
      ParserState.start.run limit text (significant (lex text).tokens) =
        ParserState.start.run limit text (lex text).tokens :=
    run_significant (arranged_lexFrom false 0 text.toList) (absurd rfl)
  rw [← hsignificant] at hrun
  obtain ⟨u, hrun', hu⟩ := ParserState.run_elsewhere source' hrun rfl htokens
  rw [hsignificant] at hrun'
  obtain ⟨y, hy, hsame⟩ := ParserState.finish_elsewhere source' hfinish hu
  exact ⟨y.tree, map_eq_ok.mpr ⟨y, parseOperand_eq_ok.mpr ⟨hlex, u, hrun', hy⟩, rfl⟩,
    (Operand.eq_of_unlocated hsame).1⟩

end TwoWaySql.Expr
