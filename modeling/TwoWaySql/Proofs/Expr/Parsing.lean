import TwoWaySql.Proofs.Expr.Grammar
import TwoWaySql.Proofs.Outcome

/-!
# Steps of the expression parser

What each operation of the parser does if it succeeds: an operator makes one operand of those that
it takes, and a token does one of a few things to the state (`step_eq_ok`).
-/

namespace TwoWaySql.Expr

/-! ## Operators -/

theorem Operand.checked_eq_ok {limit : Nat} {location : Location} {x y : Operand} :
    x.checked limit location = .ok y ↔ x.height ≤ limit ∧ y = x := by
  unfold checked
  split
  · exact ⟨nofun, fun h => by omega⟩
  · exact ⟨fun h => ⟨by omega, (Except.ok.inj h).symm⟩, fun h => by rw [h.2]⟩

/-- What an operator between operands makes of them. -/
def Pending.combine (p : Pending) (left right : Operand) : Operand :=
  match p.op with
  | .comma => joinItems left right p.location
  | .not => ⟨.not right.tree p.location, right.height + 1⟩
  | .binary op => ⟨.binary op left.tree right.tree p.location, max left.height right.height + 1⟩

theorem applyOperator_combine {limit : Nat} {p : Pending} {left right : Operand}
    {xs : List Operand} (h : p.op.leads = false) :
    applyOperator limit p (right :: left :: xs) =
      ((p.combine left right).checked limit p.location).map (· :: xs) := by
  obtain ⟨op, location⟩ := p
  cases op with
  | not => cases h
  | comma =>
    show ((joinItems left right location).checked limit location >>= _) = _
    unfold Pending.combine
    cases (joinItems left right location).checked limit location <;> rfl
  | binary op =>
    show (Operand.checked limit location _ >>= _) = _
    unfold Pending.combine
    cases Operand.checked limit location _ <;> rfl

theorem applyOperator_not {limit : Nat} {location : Location} {x : Operand} {xs : List Operand} :
    applyOperator limit ⟨.not, location⟩ (x :: xs) =
      (Operand.checked limit location ⟨.not x.tree location, x.height + 1⟩).map (· :: xs) := by
  show (Operand.checked limit location _ >>= _) = _
  cases Operand.checked limit location _ <;> rfl

/-- Takes the last operand, or the last two. -/
theorem applyOperator_eq_ok {limit : Nat} {p : Pending} {xs ys : List Operand} :
    applyOperator limit p xs = .ok ys ↔
      (∃ x rest, p.op = .not ∧ xs = x :: rest ∧ x.height < limit ∧
        ys = ⟨.not x.tree p.location, x.height + 1⟩ :: rest) ∨
      ∃ left right rest, p.op.leads = false ∧ xs = right :: left :: rest ∧
        (p.combine left right).height ≤ limit ∧ ys = p.combine left right :: rest := by
  obtain ⟨op, location⟩ := p
  constructor
  · intro h
    cases hleads : op.leads with
    | true =>
      obtain rfl : op = .not := by cases op <;> first | rfl | cases hleads
      cases xs with
      | nil => cases h
      | cons x rest =>
        rw [applyOperator_not] at h
        obtain ⟨y, hy, rfl⟩ := map_eq_ok.mp h
        obtain ⟨hheight, rfl⟩ := Operand.checked_eq_ok.mp hy
        exact .inl ⟨x, rest, rfl, rfl, hheight, rfl⟩
    | false =>
      match xs with
      | right :: left :: rest =>
        rw [applyOperator_combine hleads] at h
        obtain ⟨y, hy, rfl⟩ := map_eq_ok.mp h
        obtain ⟨hheight, rfl⟩ := Operand.checked_eq_ok.mp hy
        exact .inr ⟨left, right, rest, rfl, rfl, hheight, rfl⟩
      | [_] | [] =>
        cases op with
        | not => cases hleads
        | comma | binary => nomatch h
  · rintro (⟨x, rest, hop, rfl, hheight, rfl⟩ | ⟨left, right, rest, hleads, rfl, hheight, rfl⟩)
    · cases hop
      rw [applyOperator_not]
      exact map_eq_ok.mpr ⟨_, Operand.checked_eq_ok.mpr ⟨hheight, rfl⟩, rfl⟩
    · rw [applyOperator_combine hleads]
      exact map_eq_ok.mpr ⟨_, Operand.checked_eq_ok.mpr ⟨hheight, rfl⟩, rfl⟩

theorem joinItems_tree (left right : Operand) (location : Location) :
    (joinItems left right location).tree = left.tree.joined right.tree location := by
  obtain ⟨tree, height⟩ := left
  cases tree <;> rfl

theorem combine_height_le (p : Pending) (left right : Operand) :
    (p.combine left right).height ≤ max left.height right.height + 1 := by
  obtain ⟨op, location⟩ := p
  cases op with
  | comma =>
    show (joinItems left right location).height ≤ _
    unfold joinItems
    split <;> dsimp only <;> omega
  | not =>
    show right.height + 1 ≤ _
    omega
  | binary op => exact Nat.le_refl _

theorem derives_combine {source : String} {t : Token} {op : Operator} {left right : Operand}
    {ts us : List Token} (ht : t.kind = .operator op) (hop : op.leads = false)
    (hleft : Derives source op.phrase ts left.tree)
    (hright : Derives source op.right us right.tree) :
    Derives source op.phrase (ts ++ t :: us)
      (Pending.combine ⟨op, ⟨source, t.start⟩⟩ left right).tree := by
  cases op with
  | not => cases hop
  | comma =>
    unfold Pending.combine
    rw [joinItems_tree]
    exact .comma hleft ht hright
  | binary op => exact .binary hleft ht hright

theorem applyWhile_all (limit : Nat) (ops : List Pending) (xs : List Operand) :
    applyWhile limit (fun _ => true) ops xs = applyWhile limit (·.appliesBefore .comma) ops xs := by
  have happlies : (fun _ => true) = fun op : Operator => op.appliesBefore .comma := by
    funext op
    simp [Operator.appliesBefore, Operator.leads, Operator.priority]
  rw [happlies]

/-- Nothing is applied if the last operator is not. -/
theorem applyWhile_stop {limit : Nat} {applies : Operator → Bool} {ops : List Pending}
    {xs : List Operand} (h : ∀ p ∈ ops.head?, applies p.op = false) :
    applyWhile limit applies ops xs = .ok (ops, xs) := by
  cases ops with
  | nil => rfl
  | cons p ops =>
    unfold applyWhile
    rw [h p rfl]
    rfl

/-! ## Groups -/

theorem Group.checkPosition_eq_ok {g : Group} {text : String} {location : Location} {u : Unit} :
    g.checkPosition text location = .ok u ↔ g.expectsOperand = true := by
  unfold checkPosition
  split
  · simp [*]
  · simp [*]

/-- What is left after applying operators is limited. -/
theorem push_eq_ok {limit : Nat} {p : Pending} {e : Error} {g : Group}
    {applied : Except Error (List Pending × List Operand)} :
    (do
      let (operators, operands) ← applied
      if limit ≤ operators.length then throw e
      return (⟨operands, p :: operators, true⟩ : Group)) = .ok g ↔
      ∃ ops xs, applied = .ok (ops, xs) ∧ ops.length < limit ∧ g = ⟨xs, p :: ops, true⟩ := by
  cases applied with
  | error => exact ⟨nofun, nofun⟩
  | ok result =>
    obtain ⟨ops, xs⟩ := result
    show (if limit ≤ ops.length then _ else _) = _ ↔ _
    split
    · refine ⟨nofun, ?_⟩
      rintro ⟨_, _, h, hlimit, -⟩
      cases h
      omega
    · refine ⟨fun h => ⟨ops, xs, rfl, by omega, (Except.ok.inj h).symm⟩, ?_⟩
      rintro ⟨_, _, h, -, rfl⟩
      cases h
      rfl

/-- An operator finds the group as it needs it, and what binds at least as tightly is applied. -/
theorem Group.addOperator_eq_ok {limit : Nat} {g g' : Group} {op : Operator} {text : String}
    {location : Location} :
    g.addOperator limit op text location = .ok g' ↔ g.expectsOperand = op.leads ∧
      ∃ ops xs, applyWhile limit (·.appliesBefore op) g.operators g.operands = .ok (ops, xs) ∧
        ops.length < limit ∧ g' = ⟨xs, ⟨op, location⟩ :: ops, true⟩ := by
  rw [← push_eq_ok (e := syntaxError (.tooDeep limit) location)]
  unfold addOperator checkPosition
  cases op.leads <;> cases g.expectsOperand
  · exact ⟨fun h => ⟨rfl, h⟩, And.right⟩
  · exact ⟨nofun, nofun⟩
  · exact ⟨nofun, nofun⟩
  · exact ⟨fun h => ⟨rfl, h⟩, And.right⟩

/-- A finished group leaves one operand, or none. -/
theorem Group.finish_eq_ok {limit : Nat} {g : Group} {start : Location} {x : Operand} :
    g.finish limit start = .ok x ↔ ∃ ops xs,
      applyWhile limit (fun _ => true) g.operators g.operands = .ok (ops, xs) ∧
        (xs = [] ∧ x = .leaf (.empty start) ∨ xs = [x]) := by
  unfold finish
  rw [bind_eq_ok, Prod.exists]
  refine exists_congr fun ops => exists_congr fun xs => and_congr_right fun _ => ?_
  dsimp only
  split <;> rename_i hxs
  · obtain rfl := List.reverse_eq_nil_iff.mp hxs
    exact ⟨fun h => .inl ⟨rfl, (Except.ok.inj h).symm⟩,
      fun h => h.elim (fun h => h.2 ▸ rfl) nofun⟩
  · obtain rfl : xs = [_] := List.reverse_eq_iff.mp hxs
    exact ⟨fun h => .inr (by rw [Except.ok.inj h]), fun h => h.elim nofun fun h => by cases h; rfl⟩
  · refine ⟨nofun, fun h => ?_⟩
    rcases h with ⟨rfl, -⟩ | rfl <;> cases hxs

/-! ## Steps -/

/-- The tree of a token that is an operand by itself. -/
def Token.leaf? (source : String) (t : Token) : Option Tree :=
  if t.kind = .name then some (.name t.text ⟨source, t.start⟩)
  else if t.kind.isLiteral then
    (literalValue? t.kind t.text.toList).map fun value => .literal (.of value) ⟨source, t.start⟩
  else none

theorem leaf?_literal {source : String} {t : Token} (h : t.kind.isLiteral = true) :
    Token.leaf? source t = (literalValue? t.kind t.text.toList).map fun value =>
      .literal (.of value) ⟨source, t.start⟩ := by
  have hname : t.kind ≠ .name := by
    intro hkind
    rw [hkind] at h
    cases h
  rw [Token.leaf?, if_neg hname, if_pos h]

theorem derives_leaf {source : String} {t : Token} {tree : Tree}
    (h : Token.leaf? source t = some tree) : Derives source .primary [t] tree := by
  unfold Token.leaf? at h
  split at h
  · cases h
    exact .name ‹_›
  · split at h
    · obtain ⟨value, hvalue, rfl⟩ := Option.map_eq_some_iff.mp h
      have hliteral : Derives source .primary [t] (Token.literal source t) := .literal ‹_›
      rwa [Token.literal, hvalue] at hliteral
    · cases h

namespace ParserState

variable {limit : Nat} {source : String} {s s' : ParserState} {t : Token}

/-- What a token does to the state. -/
inductive Steps (limit : Nat) (source : String) (s : ParserState) (t : Token) :
    ParserState → Prop where
  | arguments {call : Call} : s.call? = some call → t.kind = .openBracket →
      s.outer.length < limit →
      Steps limit source s t ⟨.start, ⟨s.group, ⟨source, t.start⟩, some call⟩ :: s.outer, none⟩
  | skip : s.call? = none → t.kind = .blank ∨ t.kind = .stop → Steps limit source s t s
  | openBracket : s.call? = none → t.kind = .openBracket → s.group.expectsOperand = true →
      s.outer.length < limit →
      Steps limit source s t ⟨.start, ⟨s.group, ⟨source, t.start⟩, none⟩ :: s.outer, none⟩
  | closeGroup {group : Group} {opening : Location} {outer : List Suspended} {inner : Operand} :
      s.call? = none → t.kind = .closeBracket → s.outer = ⟨group, opening, none⟩ :: outer →
      s.group.finish limit opening = .ok inner →
      Steps limit source s t ⟨group.addOperand inner, outer, none⟩
  | closeCall {group : Group} {opening : Location} {call : Call} {outer : List Suspended}
      {inner : Operand} :
      s.call? = none → t.kind = .closeBracket → s.outer = ⟨group, opening, some call⟩ :: outer →
      s.group.finish limit opening = .ok inner →
      max call.receiver.height inner.height + 1 ≤ limit →
      Steps limit source s t ⟨{ group with
        operands := ⟨.call call.receiver.tree call.name inner.tree call.location,
          max call.receiver.height inner.height + 1⟩ :: group.operands }, outer, none⟩
  | leaf {tree : Tree} : s.call? = none → Token.leaf? source t = some tree →
      s.group.expectsOperand = true →
      Steps limit source s t { s with group := s.group.addOperand (.leaf tree) }
  | property {x : Operand} {xs : List Operand} : s.call? = none → t.kind = .property →
      s.group.operands = x :: xs → x.height < limit →
      Steps limit source s t { s with group := { s.group with
        operands := ⟨.property x.tree (Token.member t) ⟨source, t.start⟩, x.height + 1⟩ :: xs } }
  | function {x : Operand} {xs : List Operand} : s.call? = none → t.kind = .function →
      s.group.operands = x :: xs →
      Steps limit source s t { s with
        group := { s.group with operands := xs }
        call? := some ⟨x, Token.member t, ⟨source, t.start⟩⟩ }
  | operator {op : Operator} {g : Group} : s.call? = none → t.kind = .operator op →
      s.group.addOperator limit op t.text ⟨source, t.start⟩ = .ok g →
      Steps limit source s t { s with group := g }

theorem openBracket_eq_ok {location : Location} :
    s.openBracket limit location = .ok s' ↔
      s.outer.length < limit ∧ s' = ⟨.start, ⟨s.group, location, s.call?⟩ :: s.outer, none⟩ := by
  unfold openBracket depth
  split
  · exact ⟨nofun, fun h => by omega⟩
  · exact ⟨fun h => ⟨by omega, (Except.ok.inj h).symm⟩, fun h => by rw [h.2]⟩

theorem steps_closeBracket (hcall : s.call? = none) (ht : t.kind = .closeBracket)
    (h : s.closeBracket limit ⟨source, t.start⟩ = .ok s') : Steps limit source s t s' := by
  unfold closeBracket at h
  split at h
  · cases h
  · rename_i group opening call? outer houter
    obtain ⟨inner, hinner, h⟩ := bind_eq_ok.mp h
    cases call? with
    | none =>
      cases h
      exact .closeGroup hcall ht houter hinner
    | some call =>
      obtain ⟨result, hresult, h⟩ := bind_eq_ok.mp h
      obtain ⟨hheight, rfl⟩ := Operand.checked_eq_ok.mp hresult
      cases h
      exact .closeCall hcall ht houter hinner hheight

/-- A literal is read where an operand is expected. -/
theorem literal_eq_ok (hliteral : t.kind.isLiteral = true) :
    (do
      s.group.checkPosition t.text ⟨source, t.start⟩
      match literalValue? t.kind t.text.toList with
      | none => .error (syntaxError (.numberOutOfRange t.text) ⟨source, t.start⟩)
      | some value =>
        return { s with
          group := s.group.addOperand (.leaf (.literal (.of value) ⟨source, t.start⟩)) }) = .ok s' ↔
      s.group.expectsOperand = true ∧ ∃ tree, Token.leaf? source t = some tree ∧
        s' = { s with group := s.group.addOperand (.leaf tree) } := by
  rw [leaf?_literal hliteral, bind_eq_ok]
  cases literalValue? t.kind t.text.toList with
  | none => exact ⟨nofun, nofun⟩
  | some value =>
    constructor
    · rintro ⟨u, hu, h⟩
      cases h
      exact ⟨Group.checkPosition_eq_ok.mp hu, _, rfl, rfl⟩
    · rintro ⟨hexpects, _, h, rfl⟩
      cases h
      exact ⟨(), Group.checkPosition_eq_ok.mpr hexpects, rfl⟩

theorem takeReceiver_eq_ok {text : String} {location : Location} {x : Operand} :
    s.takeReceiver text location = .ok (x, s') ↔
      ∃ xs, s.group.operands = x :: xs ∧
        s' = { s with group := { s.group with operands := xs } } := by
  unfold takeReceiver
  cases s.group.operands with
  | nil => exact ⟨nofun, nofun⟩
  | cons y ys =>
    constructor
    · intro h
      cases h
      exact ⟨ys, rfl, rfl⟩
    · rintro ⟨xs, h, rfl⟩
      cases h
      rfl

theorem steps_of_step (h : s.step limit source t = .ok s') : Steps limit source s t s' := by
  unfold step at h
  dsimp only at h
  split at h <;> rename_i hcall
  · obtain ⟨call, hcall⟩ := Option.isSome_iff_exists.mp hcall
    split at h
    · obtain ⟨hlimit, rfl⟩ := openBracket_eq_ok.mp h
      rw [hcall]
      exact .arguments hcall ‹_› hlimit
    · cases h
  · have hcall : s.call? = none := by simpa using hcall
    cases hkind : t.kind with
    | blank =>
      rw [hkind] at h
      cases h
      exact .skip hcall (.inl hkind)
    | stop =>
      rw [hkind] at h
      cases h
      exact .skip hcall (.inr hkind)
    | closeBracket =>
      rw [hkind] at h
      exact steps_closeBracket hcall hkind h
    | openBracket =>
      rw [hkind] at h
      obtain ⟨u, hu, h⟩ := bind_eq_ok.mp h
      obtain ⟨hlimit, rfl⟩ := openBracket_eq_ok.mp h
      rw [hcall]
      exact .openBracket hcall hkind (Group.checkPosition_eq_ok.mp hu) hlimit
    | name =>
      rw [hkind] at h
      obtain ⟨u, hu, h⟩ := bind_eq_ok.mp h
      cases h
      exact .leaf hcall (if_pos hkind) (Group.checkPosition_eq_ok.mp hu)
    | property =>
      rw [hkind] at h
      obtain ⟨⟨x, u⟩, hx, h⟩ := bind_eq_ok.mp h
      obtain ⟨xs, hxs, rfl⟩ := takeReceiver_eq_ok.mp hx
      obtain ⟨y, hy, h⟩ := bind_eq_ok.mp h
      obtain ⟨hheight, rfl⟩ := Operand.checked_eq_ok.mp hy
      cases h
      exact .property hcall hkind hxs hheight
    | function =>
      rw [hkind] at h
      obtain ⟨⟨x, u⟩, hx, h⟩ := bind_eq_ok.mp h
      obtain ⟨xs, hxs, rfl⟩ := takeReceiver_eq_ok.mp hx
      cases h
      exact .function hcall hkind hxs
    | other =>
      rw [hkind] at h
      cases h
    | operator op =>
      rw [hkind] at h
      obtain ⟨g, hg, h⟩ := bind_eq_ok.mp h
      cases h
      exact .operator hcall hkind hg
    | _ =>
      have hliteral : t.kind.isLiteral = true := by rw [hkind]; rfl
      obtain ⟨kind, text, start⟩ := t
      subst hkind
      obtain ⟨hexpects, tree, htree, rfl⟩ := (literal_eq_ok hliteral).mp h
      exact .leaf hcall htree hexpects

theorem step_of_steps (h : Steps limit source s t s') : s.step limit source t = .ok s' := by
  unfold step
  dsimp only
  cases h with
  | arguments hcall hkind hlimit =>
    rw [if_pos (by rw [hcall]; rfl), if_pos hkind]
    exact openBracket_eq_ok.mpr ⟨hlimit, by rw [hcall]⟩
  | skip hcall hkind =>
    rw [if_neg (by rw [hcall]; nofun)]
    rcases hkind with hkind | hkind <;> rw [hkind] <;> rfl
  | openBracket hcall hkind hexpects hlimit =>
    rw [if_neg (by rw [hcall]; nofun), hkind]
    exact bind_eq_ok.mpr ⟨(), Group.checkPosition_eq_ok.mpr hexpects,
      openBracket_eq_ok.mpr ⟨hlimit, by rw [hcall]⟩⟩
  | closeGroup hcall hkind houter hinner =>
    rw [if_neg (by rw [hcall]; nofun), hkind]
    unfold closeBracket
    rw [houter]
    exact bind_eq_ok.mpr ⟨_, hinner, rfl⟩
  | closeCall hcall hkind houter hinner hheight =>
    rw [if_neg (by rw [hcall]; nofun), hkind]
    unfold closeBracket
    rw [houter]
    exact bind_eq_ok.mpr ⟨_, hinner,
      bind_eq_ok.mpr ⟨_, Operand.checked_eq_ok.mpr ⟨hheight, rfl⟩, rfl⟩⟩
  | leaf hcall htree hexpects =>
    rw [if_neg (by rw [hcall]; nofun)]
    obtain ⟨kind, text, start⟩ := t
    cases kind with
    | name =>
      cases htree
      exact bind_eq_ok.mpr ⟨(), Group.checkPosition_eq_ok.mpr hexpects, rfl⟩
    | int | long | float | double | decimal | char | string | true | false | null =>
      exact (literal_eq_ok rfl).mpr ⟨hexpects, _, htree, rfl⟩
    | _ => cases htree
  | property hcall hkind hxs hheight =>
    rw [if_neg (by rw [hcall]; nofun), hkind]
    exact bind_eq_ok.mpr ⟨_, takeReceiver_eq_ok.mpr ⟨_, hxs, rfl⟩,
      bind_eq_ok.mpr ⟨_, Operand.checked_eq_ok.mpr ⟨hheight, rfl⟩, rfl⟩⟩
  | function hcall hkind hxs =>
    rw [if_neg (by rw [hcall]; nofun), hkind]
    exact bind_eq_ok.mpr ⟨_, takeReceiver_eq_ok.mpr ⟨_, hxs, rfl⟩, rfl⟩
  | operator hcall hkind hg =>
    rw [if_neg (by rw [hcall]; nofun), hkind]
    exact bind_eq_ok.mpr ⟨_, hg, rfl⟩

/-- What a step can do. -/
theorem step_eq_ok : s.step limit source t = .ok s' ↔ Steps limit source s t s' :=
  ⟨steps_of_step, step_of_steps⟩

/-! ## Runs -/

/-- Reads one token after the other. -/
def run (limit : Nat) (source : String) (s : ParserState) (ts : List Token) :
    Except Error ParserState :=
  ts.foldlM (step limit source) s

theorem run_cons {ts : List Token} :
    s.run limit source (t :: ts) = s.step limit source t >>= (run limit source · ts) :=
  List.foldlM_cons ..

theorem run_append {ts us : List Token} :
    s.run limit source (ts ++ us) = s.run limit source ts >>= (run limit source · us) :=
  List.foldlM_append ..

theorem run_cons_of_steps {ts : List Token} (h : Steps limit source s t s') :
    s.run limit source (t :: ts) = s'.run limit source ts := by
  rw [run_cons, step_of_steps h]
  rfl

theorem run_append_of_run {ts us : List Token} (h : s.run limit source ts = .ok s') :
    s.run limit source (ts ++ us) = s'.run limit source us := by
  rw [run_append, h]
  rfl

/-- What holds at the start and is kept by each step, given the tokens read, holds after a run. -/
theorem run_induction {motive : List Token → ParserState → Prop} {ts : List Token}
    (h : s.run limit source ts = .ok s') (start : motive [] s)
    (step : ∀ us u t u', Steps limit source u t u' → motive us u → motive (us ++ [t]) u') :
    motive ts s' := by
  suffices ∀ vs us u, u.run limit source vs = .ok s' → motive us u → motive (us ++ vs) s' from
    this ts [] s h start
  intro vs
  induction vs with
  | nil =>
    intro us u hrun hu
    cases hrun
    rwa [List.append_nil]
  | cons t vs ih =>
    intro us u hrun hu
    rw [run_cons] at hrun
    obtain ⟨u', hstep, hrun⟩ := bind_eq_ok.mp hrun
    rw [List.append_cons]
    exact ih (us ++ [t]) u' hrun (step us u t u' (step_eq_ok.mp hstep) hu)

end ParserState

/-- An expression is parsed if the tokens are those of the whole text. -/
theorem parseOperand_eq_ok {limit : Nat} {source : String} {x : Operand} :
    parseOperand limit source = .ok x ↔ (lex source).failure? = none ∧
      ∃ s, ParserState.start.run limit source (lex source).tokens = .ok s ∧
        s.finish limit source = .ok x := by
  unfold parseOperand
  dsimp only
  rw [bind_eq_ok]
  cases (lex source).failure? with
  | none => exact ⟨fun h => ⟨rfl, h⟩, And.right⟩
  | some failure =>
    constructor
    · rintro ⟨_, -, h⟩
      cases h
    · rintro ⟨h, -⟩
      cases h

end TwoWaySql.Expr
