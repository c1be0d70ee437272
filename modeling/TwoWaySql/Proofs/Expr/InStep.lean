import TwoWaySql.Proofs.Expr.Soundness
import TwoWaySql.Proofs.Expr.TokenOrder

/-!
# The parser in step with the scanner

The scanner keeps a flag that tells whether operators between operands and members are read, and
the parser keeps for each open group whether it expects an operand. Neither looks at the other, and
a group within brackets starts afresh. Still, in every state that both come to by the same tokens,
one is the negation of the other (`inStep_of_reaches`). So three of the errors that the parser could
tell never occur: a member without its receiver, a function without its open bracket, and more than
one operand at the end of a group. And of the operators between operands, only a comma can come
where an operand is expected (`parser_inStep`).
-/

namespace TwoWaySql

/-- A text that is read without a failure is read to its end. -/
theorem Scanner.Reaches.complete {σ κ ε : Type} {s : Scanner σ κ ε} {first state : σ}
    {source rest : List Char} {ts : List (Token κ)} {offset : Nat}
    (h : s.Reaches first source ts state offset rest)
    (hcomplete : (s.lexFrom state offset rest).failure? = none) :
    ∃ state' offset', s.Reaches first source (ts ++ (s.lexFrom state offset rest).tokens)
      state' offset' [] := by
  fun_induction lexFrom s state offset rest generalizing ts with
  | case1 state offset => exact ⟨_, _, h.stop⟩
  | case2 => cases hcomplete
  | case3 state offset c cs kind length next hscan token more =>
    rename_i ih
    have hstop : token.stop = offset + byteLength (c :: cs.take length) := by
      rw [Token.stop, String.toList_ofList]
    rw [List.append_cons]
    refine ih ?_ hcomplete
    rw [hstop]
    exact h.token hscan

namespace Expr

open ParserState (Steps)

variable {limit offset : Nat} {source : String} {flag : Bool} {rest : List Char}
  {s s' : ParserState} {t : Token} {ts us : List Token}

/-! ## In step -/

/-- At the next token of a group the parser expects an operand exactly if the scanner reads no
operators between operands and no members there. The open bracket after a function's name is no
token of the group: it is taken up with the name, and it is what the text goes on with. -/
structure InStep (flag : Bool) (rest : List Char) (s : ParserState) : Prop where
  expects : s.call? = none → s.group.expectsOperand = !flag
  arguments : s.call?.isSome = true → flag = false ∧ rest.head? = some '('

theorem inStep_of_call? (hcall : s.call? = none) (hexpects : s.group.expectsOperand = !flag) :
    InStep flag rest s :=
  ⟨fun _ => hexpects, fun hsome => by rw [hcall] at hsome; cases hsome⟩

/-- A member or an operator between operands is read only where no operand is expected. -/
theorem InStep.not_expects (h : InStep flag rest s) (hflag : flag = true) :
    s.group.expectsOperand = false := by
  cases hcall : s.call? with
  | none =>
    rw [h.expects hcall, hflag]
    rfl
  | some call =>
    have hfalse := (h.arguments (by rw [hcall]; rfl)).1
    rw [hflag] at hfalse
    cases hfalse

/-- A token that is an operand leaves the flag set. -/
theorem leaves_of_leaf {tree : Tree} (h : Token.leaf? source t = some tree) :
    t.kind.leaves flag = true := by
  unfold Token.leaf? at h
  split at h
  · rw [‹t.kind = .name›]
    rfl
  · split at h
    · rename_i hliteral
      cases hkind : t.kind with
      | int | long | float | double | decimal | char | string | true | false | null => rfl
      | _ =>
        rw [hkind] at hliteral
        cases hliteral
    · cases h

/-- Both take up the same token. The group that a call goes on with is not told that it has got an
operand, but it is one that the call was taken from. -/
theorem InStep.token {c : Char} {cs : List Char} {length : Nat} {next : Bool}
    (h : InStep flag (c :: cs) s) (hreads : Reads source s us)
    (hscan : scan flag c cs = .token t.kind length next) (hsteps : Steps limit source s t s') :
    InStep next (cs.drop length) s' := by
  have hpromises := promises_of_scan hscan
  rw [hpromises.leaves]
  cases hsteps with
  | skip hcall hkind =>
    have hflag : t.kind.leaves flag = flag := if_pos hkind
    rw [hflag]
    exact inStep_of_call? hcall (h.expects hcall)
  | arguments _ hkind | openBracket _ hkind | closeGroup _ hkind =>
    rw [hkind]
    exact inStep_of_call? rfl rfl
  | closeCall _ hkind houter =>
    rw [hkind]
    have hexpects := hreads.expectsOperand_of_call houter
    exact inStep_of_call? rfl hexpects
  | leaf hcall htree =>
    rw [leaves_of_leaf htree]
    exact inStep_of_call? hcall rfl
  | property hcall hkind =>
    rw [hkind]
    exact inStep_of_call? hcall (h.not_expects (hpromises.afterValue (by rw [hkind]; rfl)))
  | function _ hkind =>
    rw [hkind]
    exact ⟨nofun, fun _ => ⟨rfl, hpromises.arguments hkind⟩⟩
  | operator hcall hkind hg =>
    obtain ⟨-, ops, xs, -, -, rfl⟩ := Group.addOperator_eq_ok.mp hg
    rw [hkind]
    exact inStep_of_call? hcall rfl

/-- A failure leaves both as they were. It does not come in place of an open bracket. -/
theorem InStep.failure {c : Char} {cs : List Char} {cause : LexicalCause} {next : Bool}
    (h : InStep flag (c :: cs) s) (hscan : scan flag c cs = .failure cause next) :
    InStep flag rest s := by
  refine ⟨h.expects, fun hsome => ?_⟩
  obtain ⟨-, hbracket⟩ := h.arguments hsome
  cases hbracket
  rw [scan_openBracket] at hscan
  cases hscan

theorem run_concat : s.run limit source (ts ++ [t]) = .ok s' ↔
    ∃ u, s.run limit source ts = .ok u ∧ Steps limit source u t s' := by
  rw [ParserState.run_append, bind_eq_ok]
  refine exists_congr fun u => and_congr_right fun _ => ?_
  rw [← ParserState.step_eq_ok, ParserState.run_cons, bind_eq_ok]
  exact ⟨fun ⟨_, hstep, hnil⟩ => by cases hnil; exact hstep, fun hstep => ⟨s', hstep, rfl⟩⟩

/-- The parser is in step with the scanner after any tokens, and what it holds is derived from
them. -/
theorem inStep_of_reaches (h : scanner.Reaches false source.toList ts flag offset rest)
    (hrun : ParserState.start.run limit source ts = .ok s) :
    InStep flag rest s ∧ ∃ us, Reads source s us := by
  induction h generalizing s with
  | start =>
    cases hrun
    exact ⟨inStep_of_call? rfl rfl, [], .group .nil (.expecting .nil)⟩
  | @token ts flag next offset length c cs kind _ hscan ih =>
    obtain ⟨u, hu, hsteps⟩ := run_concat.mp hrun
    obtain ⟨hin, us, hreads⟩ := ih hu
    have hmember (hkind : kind = .property ∨ kind = .function) :
        u.group.expectsOperand = false := by
      refine hin.not_expects ((promises_of_scan hscan).afterValue ?_)
      rcases hkind with rfl | rfl <;> rfl
    exact ⟨hin.token (t := ⟨kind, _, offset⟩) hreads hscan hsteps, _,
      hreads.step hmember (ParserState.step_eq_ok.mpr hsteps)⟩
  | failure _ _ hscan ih =>
    obtain ⟨hin, hreads⟩ := ih hrun
    refine ⟨?_, hreads⟩
    rw [flag_of_failure hscan]
    exact hin.failure hscan
  | stop _ ih =>
    obtain ⟨u, hu, hsteps⟩ := run_concat.mp hrun
    cases hsteps with
    | skip => exact ih hu
    | arguments _ hkind | openBracket _ hkind | closeGroup _ hkind | closeCall _ hkind
    | property _ hkind | function _ hkind | operator _ hkind => cases hkind
    | leaf _ htree => cases htree

/-! ## Why an operation fails -/

/-- If the run fails, it is for a cause that satisfies `p`. -/
abbrev FailsFor {α : Type} (p : SyntaxCause → Prop) (x : Except Error α) : Prop :=
  Outcome (fun _ => True) (fun e => ∃ cause, e.cause = .parse cause ∧ p cause) x

theorem FailsFor.mono {α : Type} {p q : SyntaxCause → Prop} {x : Except Error α}
    (h : FailsFor p x) (hpq : ∀ cause, p cause → q cause) : FailsFor q x := by
  cases x with
  | ok a => exact trivial
  | error e =>
    obtain ⟨cause, hcause, hp⟩ := h
    exact ⟨cause, hcause, hpq cause hp⟩

theorem checked_fails (location : Location) (x : Operand) :
    FailsFor (· = .tooDeep limit) (x.checked limit location) := by
  unfold Operand.checked
  split
  · exact ⟨_, rfl, rfl⟩
  · exact trivial

theorem checkPosition_fails (g : Group) (text : String) (location : Location) :
    FailsFor (· = .misplacedOperand text) (g.checkPosition text location) := by
  unfold Group.checkPosition
  split
  · exact trivial
  · exact ⟨_, rfl, rfl⟩

theorem openBracket_fails (location : Location) :
    FailsFor (· = .tooDeep limit) (s.openBracket limit location) := by
  unfold ParserState.openBracket
  split
  · exact ⟨_, rfl, rfl⟩
  · exact trivial

/-- The number of operators that take two operands. -/
def binaries (ops : List Pending) : Nat := (ops.filter fun p => !p.op.leads).length

/-- An operator that finds its operands is refused for the height of the result only. -/
theorem applyOperator_fails (limit : Nat) (p : Pending) (xs : List Operand) :
    FailsFor
      (fun cause => cause = .tooDeep limit ∨
        cause = .missingOperand p.op ∧ xs.length ≤ binaries [p])
      (applyOperator limit p xs) := by
  have hchecked (x : Operand) (rest : List Operand) :
      FailsFor (· = .tooDeep limit) ((x.checked limit p.location).map (· :: rest)) :=
    (checked_fails p.location x).map fun _ _ => trivial
  obtain ⟨op, location⟩ := p
  cases hleads : op.leads with
  | true =>
    obtain rfl : op = .not := by cases op <;> first | rfl | cases hleads
    cases xs with
    | nil => exact ⟨_, rfl, .inr ⟨rfl, Nat.le_refl 0⟩⟩
    | cons x rest =>
      rw [applyOperator_not]
      exact (hchecked _ rest).mono fun _ => .inl
  | false =>
    have hbinaries : binaries [⟨op, location⟩] = 1 := by simp [binaries, hleads]
    match xs with
    | right :: left :: rest =>
      rw [applyOperator_combine hleads]
      exact (hchecked _ rest).mono fun _ => .inl
    | [_] | [] =>
      cases op with
      | not => cases hleads
      | comma | binary => exact ⟨_, rfl, .inr ⟨rfl, by simp [hbinaries]⟩⟩

/-- Operators that find their operands are refused for the height of the result only. -/
theorem applyWhile_fails (limit : Nat) (applies : Operator → Bool) (ops : List Pending)
    (xs : List Operand) :
    FailsFor
      (fun cause => cause = .tooDeep limit ∨
        (∃ op, cause = .missingOperand op) ∧ xs.length ≤ binaries ops)
      (applyWhile limit applies ops xs) := by
  induction ops generalizing xs with
  | nil => exact trivial
  | cons p ops ih =>
    have hsplit : binaries (p :: ops) = binaries [p] + binaries ops := by
      rw [binaries, ← List.singleton_append, List.filter_append, List.length_append]
      rfl
    unfold applyWhile
    split
    · have hfirst := applyOperator_fails limit p xs
      cases happlied : applyOperator limit p xs with
      | error e =>
        rw [happlied] at hfirst
        obtain ⟨cause, hcause, hdeep | ⟨hmissing, hlength⟩⟩ := hfirst
        · exact ⟨cause, hcause, .inl hdeep⟩
        · exact ⟨cause, hcause, .inr ⟨⟨_, hmissing⟩, by omega⟩⟩
      | ok ys =>
        have hlength : xs.length = ys.length + binaries [p] := by
          rw [(length_applyOperator happlied).2]
          cases hleads : p.op.leads <;> simp [binaries, hleads]
        refine FailsFor.mono (ih ys) fun cause hcause => hcause.imp_right fun hmissing => ?_
        exact ⟨hmissing.1, by omega⟩
    · exact trivial

/-- There is one more operand than operators between operands, unless one is expected. -/
theorem Gathers.length_eq {g : Group} (h : Gathers source g ts) :
    g.operands.length = binaries g.operators + if g.expectsOperand then 0 else 1 := by
  cases h with
  | expecting hwaits => exact hwaits.length_eq
  | after hwaits _ =>
    rw [List.length_cons, hwaits.length_eq]
    rfl

/-- A group that ends has one operand at most. -/
theorem Gathers.finish_fails {g : Group} (h : Gathers source g ts) (start : Location) :
    FailsFor (fun cause => cause = .tooDeep limit ∨ ∃ op, cause = .missingOperand op)
      (g.finish limit start) := by
  have happlied : Outcome (fun r => r.2.length ≤ 1)
      (fun e => ∃ cause, e.cause = .parse cause ∧
        (cause = .tooDeep limit ∨ ∃ op, cause = .missingOperand op))
      (applyWhile limit (fun _ => true) g.operators g.operands) := by
    have hfails := applyWhile_fails limit (fun _ => true) g.operators g.operands
    cases happlied : applyWhile limit (fun _ => true) g.operators g.operands with
    | error e =>
      rw [happlied] at hfails
      obtain ⟨cause, hcause, hcauses⟩ := hfails
      exact ⟨cause, hcause, hcauses.imp_right And.left⟩
    | ok result =>
      have hoperands := h.length_eq
      have happly := (length_applyWhile happlied).2
      rw [← binaries] at happly
      show result.2.length ≤ 1
      split at hoperands <;> omega
  refine happlied.bind ?_
  rintro ⟨ops, xs⟩ hlength
  dsimp only at hlength ⊢
  split
  · exact trivial
  · exact trivial
  · rename_i hreverse
    have htwo := congrArg List.length hreverse
    simp only [List.length_reverse, List.length_cons] at htwo
    omega

/-- An operator is refused for its place or for the height of what it is pushed onto. Where an
operand is expected only a comma is out of place, as no other operator between operands is read. -/
theorem Gathers.addOperator_fails {g : Group} {op : Operator} (h : Gathers source g ts)
    (limit : Nat) (hbinary : (TokenKind.operator op).needsValue = true → g.expectsOperand = false)
    (text : String) (location : Location) :
    FailsFor
      (fun cause => op = .comma ∧ cause = .missingOperand .comma ∨
        cause = .misplacedOperand text ∨ cause = .tooDeep limit)
      (g.addOperator limit op text location) := by
  have happlied (hplace : g.expectsOperand = op.leads) : FailsFor (· = .tooDeep limit)
      (applyWhile limit (·.appliesBefore op) g.operators g.operands) := by
    cases hleads : op.leads with
    | true =>
      have hwait : applyWhile limit (·.appliesBefore op) g.operators g.operands =
          .ok (g.operators, g.operands) :=
        applyWhile_stop fun _ _ => Operator.not_appliesBefore hleads
      rw [hwait]
      exact trivial
    | false =>
      have hlength : g.operands.length = binaries g.operators + 1 := by
        rw [h.length_eq, hplace, hleads]
        rfl
      refine (applyWhile_fails limit _ _ _).mono fun cause hcause => hcause.resolve_right ?_
      rintro ⟨-, hle⟩
      omega
  have hpushed (hplace : g.expectsOperand = op.leads) :
      FailsFor
        (fun cause => op = .comma ∧ cause = .missingOperand .comma ∨
          cause = .misplacedOperand text ∨ cause = .tooDeep limit)
        (applyWhile limit (·.appliesBefore op) g.operators g.operands >>= fun r =>
          if limit ≤ r.1.length then throw (syntaxError (.tooDeep limit) location)
          else pure (⟨r.2, ⟨op, location⟩ :: r.1, true⟩ : Group)) := by
    refine ((happlied hplace).mono fun _ hdeep => .inr (.inr hdeep)).bind fun r _ => ?_
    split
    · exact ⟨_, rfl, .inr (.inr rfl)⟩
    · exact trivial
  unfold Group.addOperator Group.checkPosition
  cases hleads : op.leads with
  | true =>
    cases hexpects : g.expectsOperand with
    | true => exact hpushed (by rw [hexpects, hleads])
    | false => exact ⟨_, rfl, .inr (.inl rfl)⟩
  | false =>
    cases hexpects : g.expectsOperand with
    | true =>
      cases op with
      | comma => exact ⟨_, rfl, .inl ⟨rfl, rfl⟩⟩
      | not => cases hleads
      | binary op =>
        rw [hbinary rfl] at hexpects
        cases hexpects
    | false => exact hpushed (by rw [hexpects, hleads])

/-! ## Steps -/

/-- The causes of which each shows that the parser is out of step with the scanner. -/
def Cause.IsOutOfStep : Cause → Prop
  | .parse (.missingReceiver _) | .parse .missingArguments | .parse .trailingOperand => True
  | _ => False

/-- If the run fails, its error does not show that the parser is out of step with the scanner. -/
abbrev KeepsStep {α : Type} (x : Except Error α) : Prop :=
  Outcome (fun _ => True) (fun e => ¬ e.cause.IsOutOfStep) x

theorem FailsFor.keepsStep {α : Type} {p : SyntaxCause → Prop} {x : Except Error α}
    (h : FailsFor p x) (hp : ∀ cause, p cause → ¬ (Cause.parse cause).IsOutOfStep) :
    KeepsStep x := by
  cases x with
  | ok => exact trivial
  | error e =>
    obtain ⟨cause, hcause, hcauses⟩ := h
    show ¬ e.cause.IsOutOfStep
    rw [hcause]
    exact hp cause hcauses

theorem keepsStep_of_cause {α : Type} {cause : SyntaxCause} {x : Except Error α}
    (h : FailsFor (· = cause) x) (hcause : ¬ (Cause.parse cause).IsOutOfStep) : KeepsStep x :=
  h.keepsStep fun _ heq => heq ▸ hcause

theorem checked_keepsStep (location : Location) (x : Operand) :
    KeepsStep (x.checked limit location) :=
  keepsStep_of_cause (checked_fails location x) id

/-- Between tokens, and not after a function's name, the innermost group has read some of them. -/
theorem Reads.gathers (h : Reads source s us) (hcall : s.call? = none) :
    ∃ ts, Gathers source s.group ts := by
  cases h with
  | function => cases hcall
  | group _ hgathers => exact ⟨_, hgathers⟩

theorem Reads.closeBracket_keepsStep (h : Reads source s us) (hcall : s.call? = none)
    (location : Location) : KeepsStep (s.closeBracket limit location) := by
  obtain ⟨ts, hgathers⟩ := h.gathers hcall
  unfold ParserState.closeBracket
  split
  · exact id
  · rename_i group opening call? outer _
    have hinner : KeepsStep (s.group.finish limit opening) :=
      (hgathers.finish_fails opening).keepsStep fun cause hcause => by
        rcases hcause with rfl | ⟨op, rfl⟩ <;> exact id
    refine hinner.bind fun inner _ => ?_
    cases call? with
    | none => exact trivial
    | some call => exact Outcome.bind (checked_keepsStep _ _) fun _ _ => trivial

/-- A member finds the operand that it is applied to. -/
theorem Reads.takeReceiver (h : Reads source s us) (hcall : s.call? = none)
    (hexpects : s.group.expectsOperand = false) (text : String) (location : Location) :
    ∃ x u, s.takeReceiver text location = .ok (x, u) := by
  obtain ⟨ts, hgathers⟩ := h.gathers hcall
  obtain ⟨x, xs, hoperands⟩ : ∃ x xs, s.group.operands = x :: xs := by
    refine List.exists_cons_of_length_pos ?_
    rw [hgathers.length_eq, hexpects]
    exact Nat.succ_pos _
  exact ⟨x, _, ParserState.takeReceiver_eq_ok.mpr ⟨xs, hoperands, rfl⟩⟩

theorem step_operator {op : Operator} (hcall : s.call? = none) (hkind : t.kind = .operator op) :
    s.step limit source t = (s.group.addOperator limit op t.text ⟨source, t.start⟩).map
      fun group => { s with group } := by
  unfold ParserState.step
  rw [hcall, hkind]
  show (s.group.addOperator limit op t.text ⟨source, t.start⟩ >>= _) = _
  cases s.group.addOperator limit op t.text ⟨source, t.start⟩ <;> rfl

/-- A token that comes in step is not refused for being out of step. -/
theorem Reads.step_keepsStep (h : Reads source s us) (limit : Nat)
    (hvalue : t.kind.needsValue = true → s.group.expectsOperand = false)
    (hcall : s.call?.isSome = true → t.kind = .openBracket) :
    KeepsStep (s.step limit source t) := by
  have hopen : KeepsStep (s.openBracket limit ⟨source, t.start⟩) :=
    keepsStep_of_cause (openBracket_fails _) id
  have hposition : KeepsStep (s.group.checkPosition t.text ⟨source, t.start⟩) :=
    keepsStep_of_cause (checkPosition_fails _ _ _) id
  unfold ParserState.step
  dsimp only
  split
  · rw [if_pos (hcall ‹_›)]
    exact hopen
  · have hnone : s.call? = none := by simpa using ‹¬ s.call?.isSome = true›
    split
    · exact trivial
    · exact trivial
    · exact h.closeBracket_keepsStep hnone _
    · exact hposition.bind fun _ _ => hopen
    · exact hposition.bind fun _ _ => trivial
    · rename_i hkind
      obtain ⟨x, u, hreceiver⟩ := h.takeReceiver hnone (hvalue (by rw [hkind]; rfl)) _ _
      rw [hreceiver]
      exact Outcome.bind (checked_keepsStep _ _) fun _ _ => trivial
    · rename_i hkind
      obtain ⟨x, u, hreceiver⟩ := h.takeReceiver hnone (hvalue (by rw [hkind]; rfl)) _ _
      rw [hreceiver]
      exact trivial
    · exact id
    · rename_i op hkind
      obtain ⟨ts, hgathers⟩ := h.gathers hnone
      have hfails := hgathers.addOperator_fails limit (fun hop => hvalue (hkind ▸ hop)) t.text
        ⟨source, t.start⟩
      have hadd : KeepsStep (s.group.addOperator limit op t.text ⟨source, t.start⟩) :=
        hfails.keepsStep fun cause hcause => by
          obtain ⟨-, rfl⟩ | rfl | rfl := hcause <;> exact id
      exact hadd.bind fun _ _ => trivial
    · refine hposition.bind fun _ _ => ?_
      split
      · exact id
      · exact trivial

/-- The first token that is refused, and the state before it. -/
theorem run_eq_error {e : Error} (h : s.run limit source ts = .error e) :
    ∃ before t after u, ts = before ++ t :: after ∧ s.run limit source before = .ok u ∧
      u.step limit source t = .error e := by
  induction ts generalizing s with
  | nil => cases h
  | cons t ts ih =>
    rw [ParserState.run_cons] at h
    cases hstep : s.step limit source t with
    | error e' =>
      rw [hstep] at h
      cases h
      exact ⟨[], t, ts, s, rfl, rfl, hstep⟩
    | ok u =>
      rw [hstep] at h
      obtain ⟨before, t', after, v, rfl, hrun, hrefused⟩ := ih h
      refine ⟨t :: before, t', after, v, rfl, ?_, hrefused⟩
      rw [ParserState.run_cons, hstep]
      exact hrun

/-! ## Expressions -/

/-- Where the parser reads a token: what it has read stands for the tokens before, and the token is
one that comes in step. -/
theorem reads_before {before after : List Token}
    (htokens : (lex source).tokens = before ++ t :: after)
    (hrun : ParserState.start.run limit source before = .ok s) :
    (∃ us, Reads source s us) ∧ (t.kind.needsValue = true → s.group.expectsOperand = false) ∧
      (s.call?.isSome = true → t.kind = .openBracket) := by
  have hstart : scanner.Reaches false source.toList [] false 0 source.toList := .start
  obtain ⟨flag, offset, rest, hreaches, hnext⟩ := hstart.before htokens
  obtain ⟨hin, hreads⟩ := inStep_of_reaches hreaches hrun
  refine ⟨hreads, fun hneeds => ?_, fun hsome => ?_⟩
  · obtain ⟨hflag, -⟩ := flag_of_needsValue hnext hneeds
    exact hin.not_expects hflag
  obtain ⟨u, vs, hu, hbracket⟩ := tokens_of_openBracket flag offset (hin.arguments hsome).2
  rw [hnext] at hu
  cases hu
  exact hbracket

/-- An operator that is refused for want of an operand is a comma. -/
theorem missing_comma {before after : List Token} {op missing : Operator} {e : Error}
    (htokens : (lex source).tokens = before ++ t :: after)
    (hrun : ParserState.start.run limit source before = .ok s) (hkind : t.kind = .operator op)
    (hstep : s.step limit source t = .error e)
    (hmissing : e.cause = .parse (.missingOperand missing)) : op = .comma ∧ missing = .comma := by
  obtain ⟨⟨us, hreads⟩, hvalue, hcall⟩ := reads_before htokens hrun
  have hnone : s.call? = none := by
    cases hsome : s.call? with
    | none => rfl
    | some call => cases hkind.symm.trans (hcall (by rw [hsome]; rfl))
  obtain ⟨ts, hgathers⟩ := hreads.gathers hnone
  have hfails := hgathers.addOperator_fails limit (fun hop => hvalue (hkind ▸ hop)) t.text
    ⟨source, t.start⟩
  have hadded : s.group.addOperator limit op t.text ⟨source, t.start⟩ = .error e := by
    rw [step_operator hnone hkind] at hstep
    cases hadded : s.group.addOperator limit op t.text ⟨source, t.start⟩ with
    | ok g =>
      rw [hadded] at hstep
      cases hstep
    | error e' =>
      rw [hadded] at hstep
      cases hstep
      rfl
  rw [hadded] at hfails
  obtain ⟨cause, hcause, hcauses⟩ := hfails
  cases hmissing.symm.trans hcause
  obtain ⟨hop, hcomma⟩ | hcause | hcause := hcauses
  · cases hcomma
    exact ⟨hop, rfl⟩
  · cases hcause
  · cases hcause

theorem parse_keepsStep (limit : Nat) (source : String) : KeepsStep (parse limit source) := by
  have hfinish : (lex source).failure? = none → ∀ s,
      ParserState.start.run limit source (lex source).tokens = .ok s →
      KeepsStep (s.finish limit source) := by
    intro hcomplete s hrun
    have hstart : scanner.Reaches false source.toList [] false 0 source.toList := .start
    obtain ⟨flag, offset, hreaches⟩ := hstart.complete hcomplete
    obtain ⟨hin, us, hreads⟩ := inStep_of_reaches hreaches hrun
    have hcall : s.call? = none := by
      cases hcall : s.call? with
      | none => rfl
      | some call => cases (hin.arguments (by rw [hcall]; rfl)).2
    obtain ⟨ts, hgathers⟩ := hreads.gathers hcall
    unfold ParserState.finish
    rw [hcall]
    split
    · cases ‹none = some _›
    · exact id
    · refine (hgathers.finish_fails _).keepsStep fun cause hcause => ?_
      rcases hcause with rfl | ⟨op, rfl⟩ <;> exact id
  have htokens : Outcome
      (fun s => ParserState.start.run limit source (lex source).tokens = .ok s)
      (fun e => ¬ e.cause.IsOutOfStep)
      (ParserState.start.run limit source (lex source).tokens) := by
    cases hrun : ParserState.start.run limit source (lex source).tokens with
    | ok s => exact rfl
    | error e =>
      obtain ⟨before, t, after, u, htokens, hbefore, hstep⟩ := run_eq_error hrun
      obtain ⟨⟨us, hreads⟩, hvalue, hcall⟩ := reads_before htokens hbefore
      have hkeeps := hreads.step_keepsStep limit hvalue hcall
      rwa [hstep] at hkeeps
  have hparse : KeepsStep (parseOperand limit source) := by
    refine htokens.bind fun s hrun => ?_
    cases hfailure : (lex source).failure? with
    | some failure => exact id
    | none => exact hfinish hfailure s hrun
  exact hparse.map fun _ _ => trivial

/-- Wherever reading a text can be, the parser that has taken up the tokens expects an operand
exactly if the flag is not set; after a function's name, where no operand is asked for, the open
bracket of the arguments comes next. Every token is read in such a place. An operator that is
refused for want of an operand is a comma. And no text is refused for a cause that would show the
parser out of step: a member without a receiver, a function without its open bracket, or an operand
too many. -/
theorem parser_inStep (limit : Nat) (source : String) :
    (∀ ts flag offset rest s, scanner.Reaches false source.toList ts flag offset rest →
      ParserState.start.run limit source ts = .ok s → InStep flag rest s) ∧
    (∀ before t after s, (lex source).tokens = before ++ t :: after →
      ParserState.start.run limit source before = .ok s →
      (∃ flag offset rest, scanner.Reaches false source.toList before flag offset rest ∧
        (scanner.lexFrom flag offset rest).tokens = t :: after) ∧
      ∀ op e missing, t.kind = .operator op → s.step limit source t = .error e →
        e.cause = .parse (.missingOperand missing) → op = .comma ∧ missing = .comma) ∧
    ∀ e, parse limit source = .error e → ¬ e.cause.IsOutOfStep := by
  refine ⟨fun ts flag offset rest s h hrun => (inStep_of_reaches h hrun).1,
    fun before t after s htokens hrun => ⟨?_, fun op e missing => missing_comma htokens hrun⟩,
    fun e herror => ?_⟩
  · have hstart : scanner.Reaches false source.toList [] false 0 source.toList := .start
    exact hstart.before htokens
  · have hkeeps := parse_keepsStep limit source
    rwa [herror] at hkeeps

/-- A list of which the second item is missing. -/
def missingItem : String := "a.f(1), ,"

theorem parser_inStep_missingItem : ∃ s e missing flag offset rest,
    ParserState.start.run 9 missingItem ((lex missingItem).tokens.take 7) = .ok s ∧
      scanner.Reaches false missingItem.toList ((lex missingItem).tokens.take 7) flag offset rest ∧
      InStep flag rest s ∧ s.step 9 missingItem ⟨.operator .comma, ",", 8⟩ = .error e ∧
      e.cause = .parse (.missingOperand missing) ∧ missing = .comma ∧
      parse 9 missingItem = .error e ∧ ¬ e.cause.IsOutOfStep := by
  have htokens : (lex missingItem).tokens =
      (lex missingItem).tokens.take 7 ++ ⟨.operator .comma, ",", 8⟩ :: [⟨.stop, "", 9⟩] := by
    decide +kernel
  have hrun : (ParserState.start.run 9 missingItem ((lex missingItem).tokens.take 7)).toOption.map
      (fun s => error? (s.step 9 missingItem ⟨.operator .comma, ",", 8⟩)) =
        some (error? (parse 9 missingItem)) := by
    decide +kernel
  have herror : (error? (parse 9 missingItem)).map (·.cause) =
      some (.parse (.missingOperand .comma)) := by
    decide +kernel
  obtain ⟨e, he, hcause⟩ := Option.map_eq_some_iff.mp herror
  obtain ⟨s, hs, hstep⟩ := exists_ok_of_map hrun
  rw [he, error?_eq_some] at hstep
  rw [error?_eq_some] at he
  obtain ⟨hplaces, htoken, hparse⟩ := parser_inStep 9 missingItem
  obtain ⟨⟨flag, offset, rest, hreaches, -⟩, hoperator⟩ := htoken _ _ _ s htokens hs
  have hmissing := hoperator .comma e .comma rfl hstep hcause
  exact ⟨s, e, .comma, flag, offset, rest, hs, hreaches, hplaces _ _ _ _ s hreaches hs, hstep,
    hcause, hmissing.2, he, hparse e he⟩

end Expr

end TwoWaySql
