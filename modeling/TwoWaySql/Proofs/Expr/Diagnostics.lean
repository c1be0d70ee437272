import TwoWaySql.Expr.Eval
import TwoWaySql.Expr.Parser
import TwoWaySql.Proofs.Outcome
import TwoWaySql.Proofs.Spans

/-!
# Where expressions fail

Every place that the parser writes into a tree or an error is the start of a token, the start or the
end of the expression, and evaluation fails only at places of the tree. So an expression fails
within itself, whether it is read (`parse_isIn`) or evaluated (`eval_isIn`).
-/

namespace TwoWaySql

/-- A place in a text, which is the source of the location. -/
structure Location.IsIn (text : String) (l : Location) : Prop where
  source : l.source = text
  place : IsPlace text.toList l.offset

namespace Expr

/-! ## Places of a tree -/

namespace Tree

mutual

/-- All places of the tree satisfy `p`. -/
def At (p : Location → Prop) : Tree → Prop
  | literal _ l | name _ l | empty l => p l
  | property receiver _ l => At p receiver ∧ p l
  | call receiver _ arguments l => At p receiver ∧ At p arguments ∧ p l
  | list items l => ItemsAt p items ∧ p l
  | not operand l => At p operand ∧ p l
  | binary _ left right l => At p left ∧ At p right ∧ p l

def ItemsAt (p : Location → Prop) : List Tree → Prop
  | [] => True
  | t :: ts => At p t ∧ ItemsAt p ts

end

variable {p : Location → Prop}

theorem itemsAt_append {ts us : List Tree} :
    ItemsAt p (ts ++ us) ↔ ItemsAt p ts ∧ ItemsAt p us := by
  induction ts with
  | nil => simp [ItemsAt]
  | cons t ts ih => simp [ItemsAt, ih, and_assoc]

theorem At.location {t : Tree} (h : t.At p) : p t.location := by
  cases t with
  | literal | name | empty => exact h
  | property | list | not => exact h.2
  | call | binary => exact h.2.2

end Tree

variable {p : Location → Prop}

/-- If the run fails, it is at a place that satisfies `p`. -/
abbrev FailsAt {α : Type} (p : Location → Prop) (x : Except Error α) : Prop :=
  Outcome (fun _ => True) (fun e => p e.location) x

/-! ## Evaluation -/

theorem truthOf_at (op : Operator) {l : Location} (hl : p l) (v : BoundValue) :
    FailsAt p (truthOf op l v) := by
  unfold truthOf
  split
  · exact trivial
  · exact hl

mutual

theorem eval_at (registry : Registry) (scope : Scope) :
    (t : Tree) → t.At p → FailsAt p (eval registry scope t)
  | .literal _ _, _ | .empty _, _ => by
    rw [eval]
    exact trivial
  | .name name l, h => by
    rw [eval]
    split
    · exact trivial
    · exact h
  | .property receiver name l, h => by
    rw [eval]
    apply (eval_at registry scope receiver h.1).bind
    intro v _
    dsimp only
    split
    · exact h.2
    · split
      · exact trivial
      · exact h.2
  | .call receiver name arguments l, ⟨hreceiver, harguments, hl⟩ => by
    rw [eval]
    apply (eval_at registry scope receiver hreceiver).bind
    intro v _
    dsimp only
    split
    · exact hl
    · split
      · exact hl
      · have hcall (f : Function) (values : List BoundValue) :
            FailsAt p (match f v.value values with
              | .ok value => pure value
              | .error failure => throw (evaluationError (.failedCall name failure) l)) := by
          split
          · exact trivial
          · exact hl
        cases arguments with
        | empty _ => exact hcall _ []
        | list items _ =>
          exact (evalItems_at registry scope items harguments.1).bind fun _ _ => hcall _ _
        | _ =>
          have hsingle := eval_at registry scope _ harguments
          exact (hsingle.map (r := fun _ => True) fun _ _ => trivial).bind fun _ _ => hcall _ _
  | .list items _, h => by
    rw [eval]
    exact (evalItems_at registry scope items h.1).bind fun _ _ => trivial
  | .not operand l, h => by
    rw [eval]
    apply (eval_at registry scope operand h.1).bind
    intro v _
    exact (truthOf_at .not h.2 v).bind fun _ _ => trivial
  | .binary op left right l, ⟨hleft, hright, hl⟩ => by
    rw [eval]
    apply (eval_at registry scope left hleft).bind
    intro v _
    have hvalue := eval_at registry scope right hright
    split
    · apply (truthOf_at (.binary op) hl v).bind
      intro b _
      split
      · exact trivial
      · apply hvalue.bind
        intro w _
        exact (truthOf_at (.binary op) hl w).bind fun _ _ => trivial
    · apply hvalue.bind
      intro w _
      split
      · exact trivial
      · exact hl

theorem evalItems_at (registry : Registry) (scope : Scope) :
    (ts : List Tree) → Tree.ItemsAt p ts → FailsAt p (evalItems registry scope ts)
  | [], _ => by
    rw [evalItems]
    exact trivial
  | t :: ts, h => by
    rw [evalItems]
    apply (eval_at registry scope t h.1).bind
    intro v _
    exact (evalItems_at registry scope ts h.2).bind fun _ _ => trivial

end

theorem evalCondition_at (registry : Registry) (scope : Scope) {t : Tree} (h : t.At p) :
    FailsAt p (evalCondition registry scope t) := by
  apply (eval_at registry scope t h).bind
  intro v _
  split
  · exact trivial
  · exact h.location

/-! ## Operators -/

section Operators

variable {limit : Nat} {l : Location} {op : Operator} {x left right : Operand} {xs : List Operand}

/-- The places of all operands satisfy `p`. -/
def OperandsAt (p : Location → Prop) (xs : List Operand) : Prop := ∀ x ∈ xs, x.tree.At p

theorem operandsAt_cons : OperandsAt p (x :: xs) ↔ x.tree.At p ∧ OperandsAt p xs :=
  List.forall_mem_cons

theorem checked_at (hl : p l) (hx : x.tree.At p) :
    Outcome (fun y : Operand => y.tree.At p) (fun e => p e.location) (x.checked limit l) := by
  unfold Operand.checked
  split
  · exact hl
  · exact hx

theorem joinItems_at (hl : p l) (hleft : left.tree.At p) (hright : right.tree.At p) :
    (joinItems left right l).tree.At p := by
  unfold joinItems
  split
  · rename_i items _ hitems
    rw [hitems] at hleft
    exact ⟨Tree.itemsAt_append.mpr ⟨hleft.1, hright, trivial⟩, hl⟩
  · exact ⟨⟨hleft, hright, trivial⟩, hl⟩

/-- An operator makes its operands one that stands at its own place. -/
theorem applyOperator_at (hl : p l) (hxs : OperandsAt p xs) :
    Outcome (OperandsAt p) (fun e => p e.location) (applyOperator limit ⟨op, l⟩ xs) := by
  have push {result : Operand} {rest : List Operand} (hresult : result.tree.At p)
      (hrest : OperandsAt p rest) :
      Outcome (OperandsAt p) (fun e => p e.location)
        (result.checked limit l >>= fun y => pure (y :: rest)) :=
    (checked_at hl hresult).bind fun _ hy => operandsAt_cons.mpr ⟨hy, hrest⟩
  unfold applyOperator
  dsimp only
  split
  · obtain ⟨hx, hrest⟩ := operandsAt_cons.mp hxs
    exact push ⟨hx, hl⟩ hrest
  · obtain ⟨hright, hxs⟩ := operandsAt_cons.mp hxs
    obtain ⟨hleft, hrest⟩ := operandsAt_cons.mp hxs
    exact push (joinItems_at hl hleft hright) hrest
  · obtain ⟨hright, hxs⟩ := operandsAt_cons.mp hxs
    obtain ⟨hleft, hrest⟩ := operandsAt_cons.mp hxs
    exact push ⟨hleft, hright, hl⟩ hrest
  · exact hl

theorem applyWhile_at {applies : Operator → Bool} {ops : List Pending}
    (hops : ∀ o ∈ ops, p o.location) (hxs : OperandsAt p xs) :
    Outcome (fun r => (∀ o ∈ r.1, p o.location) ∧ OperandsAt p r.2) (fun e => p e.location)
      (applyWhile limit applies ops xs) := by
  induction ops generalizing xs with
  | nil => exact ⟨nofun, hxs⟩
  | cons o ops ih =>
    obtain ⟨ho, hrest⟩ := List.forall_mem_cons.mp hops
    unfold applyWhile
    split
    · exact (applyOperator_at ho hxs).bind fun ys hys => ih hrest hys
    · exact ⟨hops, hxs⟩

end Operators

/-! ## States of the parser -/

/-- The places of the operands and operators of a group satisfy `p`. -/
structure Group.At (p : Location → Prop) (g : Group) : Prop where
  operands : OperandsAt p g.operands
  operators : ∀ o ∈ g.operators, p o.location

structure Call.At (p : Location → Prop) (c : Call) : Prop where
  receiver : c.receiver.tree.At p
  location : p c.location

structure Suspended.At (p : Location → Prop) (s : Suspended) : Prop where
  group : s.group.At p
  opening : p s.opening
  call : ∀ c ∈ s.call?, c.At p

structure ParserState.At (p : Location → Prop) (s : ParserState) : Prop where
  group : s.group.At p
  outer : ∀ o ∈ s.outer, o.At p
  call : ∀ c ∈ s.call?, c.At p

namespace Group

variable {limit : Nat} {l : Location} {g : Group} {x : Operand}

theorem at_start : Group.start.At p := ⟨nofun, nofun⟩

theorem At.push (hg : g.At p) (hx : x.tree.At p) (expectsOperand : Bool) :
    Group.At p ⟨x :: g.operands, g.operators, expectsOperand⟩ :=
  ⟨operandsAt_cons.mpr ⟨hx, hg.operands⟩, hg.operators⟩

theorem At.addOperand (hg : g.At p) (hx : x.tree.At p) : (g.addOperand x).At p :=
  hg.push hx false

theorem checkPosition_at (hl : p l) (text : String) : FailsAt p (g.checkPosition text l) := by
  unfold checkPosition
  split
  · exact trivial
  · exact hl

theorem At.addOperator (hg : g.At p) (hl : p l) (op : Operator) (text : String) :
    Outcome (Group.At p) (fun e => p e.location) (g.addOperator limit op text l) := by
  have happly : Outcome (Group.At p) (fun e => p e.location)
      (applyWhile limit (·.appliesBefore op) g.operators g.operands >>= fun r =>
        if limit ≤ r.1.length then throw (syntaxError (.tooDeep limit) l)
        else pure ⟨r.2, ⟨op, l⟩ :: r.1, true⟩) := by
    apply (applyWhile_at hg.operators hg.operands).bind
    rintro ⟨ops, xs⟩ ⟨hops, hxs⟩
    dsimp only
    split
    · exact hl
    · exact ⟨hxs, List.forall_mem_cons.mpr ⟨hl, hops⟩⟩
  unfold Group.addOperator
  split
  · exact (checkPosition_at hl text).bind fun _ _ => happly
  · split
    · exact hl
    · exact happly

theorem At.finish (hg : g.At p) (hl : p l) :
    Outcome (fun x : Operand => x.tree.At p) (fun e => p e.location) (g.finish limit l) := by
  apply (applyWhile_at hg.operators hg.operands).bind
  rintro ⟨ops, xs⟩ ⟨-, hxs⟩
  dsimp only
  have hreverse : OperandsAt p xs.reverse := fun x hx => hxs x (List.mem_reverse.mp hx)
  split
  · exact hl
  · rename_i x heq
    rw [heq] at hreverse
    exact (operandsAt_cons.mp hreverse).1
  · rename_i x y rest heq
    rw [heq] at hreverse
    exact (operandsAt_cons.mp (operandsAt_cons.mp hreverse).2).1.location

end Group

namespace ParserState

variable {limit : Nat} {source : String} {s : ParserState} {l : Location} {t : Token}

theorem at_start : start.At p := ⟨Group.at_start, nofun, nofun⟩

theorem At.openBracket (hs : s.At p) (hl : p l) :
    Outcome (ParserState.At p) (fun e => p e.location) (s.openBracket limit l) := by
  unfold ParserState.openBracket
  split
  · exact hl
  · exact ⟨Group.at_start, List.forall_mem_cons.mpr ⟨⟨hs.group, hl, hs.call⟩, hs.outer⟩, nofun⟩

theorem At.closeBracket (hs : s.At p) (hl : p l) :
    Outcome (ParserState.At p) (fun e => p e.location) (s.closeBracket limit l) := by
  unfold ParserState.closeBracket
  split
  · exact hl
  · rename_i group opening call? outer houter
    have hsuspended := hs.outer
    rw [houter] at hsuspended
    obtain ⟨⟨hgroup, hopening, hcall⟩, hrest⟩ := List.forall_mem_cons.mp hsuspended
    apply (hs.group.finish hopening).bind
    intro inner hinner
    cases call? with
    | none => exact ⟨hgroup.addOperand hinner, hrest, nofun⟩
    | some call =>
      obtain ⟨hreceiver, hlocation⟩ := hcall call rfl
      refine Outcome.bind (checked_at hlocation ?_) fun result hresult => ?_
      · exact ⟨hreceiver, hinner, hlocation⟩
      · exact ⟨hgroup.push hresult group.expectsOperand, hrest, nofun⟩

theorem At.takeReceiver (hs : s.At p) (hl : p l) (text : String) :
    Outcome (fun r : Operand × ParserState => r.1.tree.At p ∧ r.2.At p) (fun e => p e.location)
      (s.takeReceiver text l) := by
  unfold ParserState.takeReceiver
  split
  · exact hl
  · rename_i x xs hxs
    have hoperands := hs.group.operands
    rw [hxs] at hoperands
    obtain ⟨hx, hrest⟩ := operandsAt_cons.mp hoperands
    exact ⟨hx, ⟨hrest, hs.group.operators⟩, hs.outer, hs.call⟩

theorem At.step (hs : s.At p) (hl : p ⟨source, t.start⟩) :
    Outcome (ParserState.At p) (fun e => p e.location) (s.step limit source t) := by
  have operand {tree : Tree} (htree : tree.At p) :
      ({ s with group := s.group.addOperand (.leaf tree) } : ParserState).At p :=
    ⟨hs.group.addOperand htree, hs.outer, hs.call⟩
  unfold ParserState.step
  dsimp only
  split
  · split
    · exact hs.openBracket hl
    · exact hl
  · split
    · exact hs
    · exact hs
    · exact hs.closeBracket hl
    · exact (Group.checkPosition_at hl _).bind fun _ _ => hs.openBracket hl
    · exact (Group.checkPosition_at hl _).bind fun _ _ => operand hl
    · apply (hs.takeReceiver hl _).bind
      rintro ⟨receiver, u⟩ ⟨hreceiver, hu⟩
      refine Outcome.bind (checked_at hl ?_) fun result hresult => ?_
      · exact ⟨hreceiver, hl⟩
      · exact ⟨hu.group.push hresult u.group.expectsOperand, hu.outer, hu.call⟩
    · apply (hs.takeReceiver hl _).bind
      rintro ⟨receiver, u⟩ ⟨hreceiver, hu⟩
      refine ⟨hu.group, hu.outer, fun call hcall => ?_⟩
      cases hcall
      exact ⟨hreceiver, hl⟩
    · exact hl
    · exact (hs.group.addOperator hl _ _).bind fun g hg => ⟨hg, hs.outer, hs.call⟩
    · apply (Group.checkPosition_at hl _).bind
      intro _ _
      split
      · exact hl
      · exact operand hl

theorem At.finish (hs : s.At p) (hstart : p ⟨source, 0⟩)
    (hstop : p ⟨source, byteLength source.toList⟩) :
    Outcome (fun x : Operand => x.tree.At p) (fun e => p e.location) (s.finish limit source) := by
  unfold ParserState.finish
  split
  · exact hstop
  · rename_i o outer _ houter
    exact (hs.outer o (by rw [houter]; exact List.mem_cons_self)).opening
  · exact hs.group.finish hstart

end ParserState

/-! ## Expressions -/

/-- Reading an expression gives a tree of its places, or fails at one of them. -/
theorem parse_isIn (limit : Nat) (source : String) :
    Outcome (Tree.At (Location.IsIn source)) (fun e => e.location.IsIn source)
      (parse limit source) := by
  have place {offset : Nat} (h : IsPlace source.toList offset) :
      Location.IsIn source ⟨source, offset⟩ := ⟨rfl, h⟩
  have hrun : Outcome (ParserState.At (Location.IsIn source)) (fun e => e.location.IsIn source)
      ((lex source).tokens.foldlM (ParserState.step limit source) .start) :=
    .foldlM ParserState.at_start fun s hs t ht =>
      hs.step (place (scanner.slices_lexFrom false source.toList t ht).1)
  refine Outcome.map (hrun.bind fun s hs => ?_) fun _ h => h
  split
  · rename_i failure hfailure
    exact place (scanner.isPlace_failure hfailure)
  · refine hs.finish (place ?_) (place ?_)
    · exact isPlace_iff.mpr ⟨[], source.toList, rfl, rfl⟩
    · exact isPlace_iff.mpr ⟨source.toList, [], (List.append_nil _).symm, rfl⟩

end Expr

end TwoWaySql
