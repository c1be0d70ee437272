import TwoWaySql.Proofs.Expr.Soundness

/-!
# Derived expressions are parsed

Reading the tokens of a phrase leaves its tree as the last operand: at once for what holds together
most tightly (`Yields`), after applying what still waits for the looser phrases (`Settles`), and at
the end for a group (`Finishes`). With the converse, the parser accepts what is derived and nothing
else, and gives the derived tree (`parse_eq_ok_iff_derives`).
-/

namespace TwoWaySql.Expr

/-- What an operator leaves of a group when it has applied those that bind at least as tightly. -/
def Group.before (limit : Nat) (op : Operator) (g : Group) :
    Except Error (List Pending × List Operand) :=
  applyWhile limit (·.appliesBefore op) g.operators g.operands

/-- The limit leaves room for a number of tokens. -/
structure Room (limit : Nat) (g : Group) (outer : List Suspended) (n : Nat) : Prop where
  outer : outer.length + n ≤ limit
  operators : g.operators.length + n ≤ limit

/-- Reading the tokens adds an operand. -/
def Yields (limit : Nat) (source : String) (ts : List Token) (tree : Tree) : Prop :=
  ∀ (g : Group) (outer : List Suspended), g.expectsOperand = true →
    outer.length + ts.length ≤ limit → ∃ height ≤ ts.length,
      (⟨g, outer, none⟩ : ParserState).run limit source ts =
        .ok ⟨g.addOperand ⟨tree, height⟩, outer, none⟩

/-- For an operator that binds no more tightly than the phrase, reading the tokens adds an
operand. -/
def Settles (limit : Nat) (source : String) (phrase : Phrase) (ts : List Token) (tree : Tree) :
    Prop :=
  ∀ (g : Group) (outer : List Suspended), g.expectsOperand = true →
    Room limit g outer ts.length → (∀ p ∈ g.operators.head?, p.op.right.rank ≤ phrase.rank) →
    ∃ height ≤ ts.length, ∃ g' : Group,
      (⟨g, outer, none⟩ : ParserState).run limit source ts = .ok ⟨g', outer, none⟩ ∧
      g'.expectsOperand = false ∧
      ∀ op : Operator, op.leads = false → op.phrase.rank ≤ phrase.rank →
        g'.before limit op = (g.addOperand ⟨tree, height⟩).before limit op

/-- Reading the tokens from the start of a group leaves one operand at its end. -/
def Finishes (limit : Nat) (source : String) (start : Location) (ts : List Token) (tree : Tree) :
    Prop :=
  ∀ outer : List Suspended, outer.length + ts.length ≤ limit →
    ∃ height ≤ max 1 ts.length, ∃ g : Group,
      (⟨.start, outer, none⟩ : ParserState).run limit source ts = .ok ⟨g, outer, none⟩ ∧
      g.finish limit start = .ok ⟨tree, height⟩

/-- What reading the tokens of a phrase does. -/
def Parses (limit : Nat) (source : String) : Phrase → List Token → Tree → Prop
  | .group start => Finishes limit source start
  | .chain level => Settles limit source (.chain level)
  | .unary => Settles limit source .unary
  | .access | .primary => Yields limit source

variable {limit : Nat} {source : String} {ts us : List Token} {tree left right : Tree} {t : Token}

/-! ## Operators -/

/-- What holds together tightly settles for looser operators too. -/
theorem Settles.loosen {φ ψ : Phrase} (hrank : φ.rank ≤ ψ.rank)
    (h : Settles limit source ψ ts tree) : Settles limit source φ ts tree := by
  intro g outer hexpects hroom hfits
  obtain ⟨height, hheight, g', hrun, hafter, hbefore⟩ :=
    h g outer hexpects hroom fun p hp => Nat.le_trans (hfits p hp) hrank
  exact ⟨height, hheight, g', hrun, hafter,
    fun op hop hle => hbefore op hop (Nat.le_trans hle hrank)⟩

theorem Yields.settles (h : Yields limit source ts tree) :
    Settles limit source .unary ts tree := by
  intro g outer hexpects hroom _
  obtain ⟨height, hheight, hrun⟩ := h g outer hexpects hroom.outer
  exact ⟨height, hheight, _, hrun, rfl, fun _ _ _ => rfl⟩

/-- An operator that is not applied waits. -/
theorem steps_operator {op : Operator} {g : Group} {outer : List Suspended}
    {ops : List Pending} {xs : List Operand} (ht : t.kind = .operator op)
    (hexpects : g.expectsOperand = op.leads) (hbefore : g.before limit op = .ok (ops, xs))
    (hlimit : ops.length < limit) :
    ParserState.Steps limit source ⟨g, outer, none⟩ t
      ⟨⟨xs, ⟨op, ⟨source, t.start⟩⟩ :: ops, true⟩, outer, none⟩ :=
  .operator rfl ht (Group.addOperator_eq_ok.mpr ⟨hexpects, ops, xs, hbefore, hlimit, rfl⟩)

theorem Settles.not (ht : t.kind = .operator .not) (h : Settles limit source .unary ts tree) :
    Settles limit source .unary (t :: ts) (.not tree ⟨source, t.start⟩) := by
  intro g outer hexpects hroom _
  obtain ⟨houter, hoperators⟩ := hroom
  rw [List.length_cons] at houter hoperators
  have hwait : g.before limit .not = .ok (g.operators, g.operands) :=
    applyWhile_stop fun p _ => Operator.not_appliesBefore rfl
  let waiting : Group := ⟨g.operands, ⟨.not, ⟨source, t.start⟩⟩ :: g.operators, true⟩
  have hstep : ParserState.Steps limit source ⟨g, outer, none⟩ t ⟨waiting, outer, none⟩ :=
    steps_operator ht hexpects hwait (by omega)
  obtain ⟨height, hheight, g', hrun, hafter, hbefore⟩ :=
    h waiting outer rfl ⟨by omega, by rw [List.length_cons]; omega⟩ fun p _ => p.op.rank_right_le
  refine ⟨height + 1, by simpa using hheight, g', ?_, hafter, fun op hop hle => ?_⟩
  · rw [ParserState.run_cons_of_steps hstep, hrun]
  · have happlies : Operator.not.appliesBefore op = true :=
      (Operator.appliesBefore_iff hop).mpr op.rank_phrase_le
    let negated : Operand := ⟨.not tree ⟨source, t.start⟩, height + 1⟩
    have hheight : negated.height ≤ limit := show height + 1 ≤ limit by omega
    have hchecked : negated.checked limit ⟨source, t.start⟩ = .ok negated :=
      Operand.checked_eq_ok.mpr ⟨hheight, rfl⟩
    rw [hbefore op hop hle, Group.before]
    dsimp only [Group.addOperand]
    rw [applyWhile, if_pos happlies, applyOperator_not, hchecked]
    rfl

/-- An operator between operands. The operand on its left is complete when it comes, since what
waits there binds less tightly. -/
theorem Settles.operator {op : Operator} (ht : t.kind = .operator op) (hop : op.leads = false)
    (htree : ∀ h h', (Pending.combine ⟨op, ⟨source, t.start⟩⟩ ⟨left, h⟩ ⟨right, h'⟩).tree = tree)
    (hleft : Settles limit source op.phrase ts left)
    (hright : Settles limit source op.right us right) :
    Settles limit source op.phrase (ts ++ t :: us) tree := by
  intro g outer hexpects hroom hfits
  obtain ⟨houter, hoperators⟩ := hroom
  rw [List.length_append, List.length_cons] at houter hoperators
  obtain ⟨h, hh, g₁, hrun₁, hafter₁, hbefore₁⟩ :=
    hleft g outer hexpects ⟨by omega, by omega⟩ hfits
  have hwait : g₁.before limit op = .ok (g.operators, ⟨left, h⟩ :: g.operands) := by
    rw [hbefore₁ op hop (Nat.le_refl _)]
    refine applyWhile_stop fun p hp => Bool.eq_false_iff.mpr fun happlies => ?_
    have hlt := Operator.rank_phrase_lt hop (hfits p hp)
    exact Nat.not_le.mpr hlt ((Operator.appliesBefore_iff hop).mp happlies)
  let waiting : Group :=
    ⟨⟨left, h⟩ :: g.operands, ⟨op, ⟨source, t.start⟩⟩ :: g.operators, true⟩
  have hstep : ParserState.Steps limit source ⟨g₁, outer, none⟩ t ⟨waiting, outer, none⟩ :=
    steps_operator ht (hafter₁.trans hop.symm) hwait (by omega)
  obtain ⟨h', hh', g₂, hrun₂, hafter₂, hbefore₂⟩ :=
    hright waiting outer rfl ⟨by omega, by rw [List.length_cons]; omega⟩
      fun p hp => Option.some.inj hp ▸ Nat.le_refl _
  let both := Pending.combine ⟨op, ⟨source, t.start⟩⟩ ⟨left, h⟩ ⟨right, h'⟩
  have hheight : both.height ≤ max h h' + 1 := combine_height_le ..
  have hboth : both = ⟨tree, both.height⟩ := by rw [← htree h h']
  refine ⟨both.height, ?_, g₂, ?_, hafter₂, fun op' hop' hle => ?_⟩
  · rw [List.length_append, List.length_cons]
    omega
  · rw [ParserState.run_append_of_run hrun₁, ParserState.run_cons_of_steps hstep, hrun₂]
  · have happlies : op.appliesBefore op' = true := (Operator.appliesBefore_iff hop').mpr hle
    have hchecked : both.checked limit ⟨source, t.start⟩ = .ok both :=
      Operand.checked_eq_ok.mpr ⟨by omega, rfl⟩
    rw [hbefore₂ op' hop' (Nat.le_trans hle op.rank_phrase_le_right), Group.before]
    dsimp only [Group.addOperand]
    rw [applyWhile, if_pos happlies, applyOperator_combine hop, hchecked, hboth]
    rfl

/-! ## Operands -/

theorem Yields.leaf (h : Token.leaf? source t = some tree) : Yields limit source [t] tree := by
  intro g outer hexpects _
  refine ⟨1, Nat.le_refl 1, ?_⟩
  rw [ParserState.run_cons_of_steps (.leaf rfl h hexpects)]
  rfl

theorem Yields.property (h : Yields limit source ts tree) (ht : t.kind = .property) :
    Yields limit source (ts ++ [t]) (.property tree (Token.member t) ⟨source, t.start⟩) := by
  intro g outer hexpects hroom
  rw [List.length_append, List.length_singleton] at hroom ⊢
  obtain ⟨height, hheight, hrun⟩ := h g outer hexpects (by omega)
  refine ⟨height + 1, by omega, ?_⟩
  have hlimit : height < limit := by omega
  rw [ParserState.run_append_of_run hrun,
    ParserState.run_cons_of_steps (.property rfl ht rfl hlimit)]
  rfl

theorem Yields.brackets {u : Token} (ht : t.kind = .openBracket)
    (h : Finishes limit source ⟨source, t.start⟩ ts tree) (hu : u.kind = .closeBracket) :
    Yields limit source (t :: (ts ++ [u])) tree := by
  intro g outer hexpects hroom
  rw [List.length_cons, List.length_append, List.length_singleton] at hroom ⊢
  have houter : outer.length < limit := by omega
  obtain ⟨height, hheight, g', hrun, hfinish⟩ :=
    h (⟨g, ⟨source, t.start⟩, none⟩ :: outer) (by rw [List.length_cons]; omega)
  refine ⟨height, by omega, ?_⟩
  rw [ParserState.run_cons_of_steps (.openBracket rfl ht hexpects houter),
    ParserState.run_append_of_run hrun,
    ParserState.run_cons_of_steps (.closeGroup rfl hu rfl hfinish)]
  rfl

theorem Yields.call {u v : Token} {receiver arguments : Tree}
    (hreceiver : Yields limit source ts receiver) (ht : t.kind = .function)
    (hu : u.kind = .openBracket) (h : Finishes limit source ⟨source, u.start⟩ us arguments)
    (hv : v.kind = .closeBracket) :
    Yields limit source (ts ++ t :: u :: (us ++ [v]))
      (.call receiver (Token.member t) arguments ⟨source, t.start⟩) := by
  intro g outer hexpects hroom
  have hlength : (ts ++ t :: u :: (us ++ [v])).length = ts.length + us.length + 3 := by
    simp
    omega
  rw [hlength] at hroom ⊢
  have houter : outer.length < limit := by omega
  obtain ⟨height, hheight, hrun⟩ := hreceiver g outer hexpects (by omega)
  let call : Call := ⟨⟨receiver, height⟩, Token.member t, ⟨source, t.start⟩⟩
  let group : Group := ⟨g.operands, g.operators, false⟩
  let inner : List Suspended := ⟨group, ⟨source, u.start⟩, some call⟩ :: outer
  obtain ⟨height', hheight', g', hrun', hfinish⟩ :=
    h inner (by rw [List.length_cons]; omega)
  have hlimit : max height height' + 1 ≤ limit := by omega
  have hfunction : ParserState.Steps limit source ⟨g.addOperand ⟨receiver, height⟩, outer, none⟩ t
      ⟨group, outer, some call⟩ := .function rfl ht rfl
  have hopen : ParserState.Steps limit source ⟨group, outer, some call⟩ u
      ⟨.start, inner, none⟩ := .arguments rfl hu houter
  have hinner : inner = ⟨group, ⟨source, u.start⟩, some call⟩ :: outer := rfl
  have hclose : ParserState.Steps limit source ⟨g', inner, none⟩ v _ :=
    .closeCall rfl hv hinner hfinish hlimit
  refine ⟨max height height' + 1, by omega, ?_⟩
  rw [ParserState.run_append_of_run hrun, ParserState.run_cons_of_steps hfunction,
    ParserState.run_cons_of_steps hopen, ParserState.run_append_of_run hrun',
    ParserState.run_cons_of_steps hclose]
  rfl

/-! ## Groups -/

theorem finishes_empty {start : Location} :
    Finishes limit source start [] (.empty start) :=
  fun _ _ => ⟨1, Nat.le_refl 1, .start, rfl, rfl⟩

theorem Settles.finishes {start : Location}
    (h : Settles limit source (.chain .list) ts tree) : Finishes limit source start ts tree := by
  intro outer hroom
  have hstart : Group.start.operators.length = 0 := rfl
  obtain ⟨height, hheight, g, hrun, -, hbefore⟩ :=
    h .start outer rfl ⟨hroom, by omega⟩ nofun
  have happlied : g.before limit .comma = .ok ([], [⟨tree, height⟩]) :=
    hbefore .comma rfl (Nat.le_refl _)
  refine ⟨height, by omega, g, hrun, ?_⟩
  unfold Group.finish
  rw [applyWhile_all, ← Group.before, happlied]
  rfl

/-- What is derived is read. -/
theorem Derives.parses {phrase : Phrase} (h : Derives source phrase ts tree)
    (hreadable : ∀ t ∈ ts, Token.Readable t) : Parses limit source phrase ts tree := by
  induction h with
  | empty => exact finishes_empty
  | group _ ih => exact (ih hreadable).finishes
  | @single level _ _ _ ih =>
    cases level <;> exact (ih hreadable).loosen (by decide)
  | @comma t ts us left right _ ht _ ihleft ihright =>
    obtain ⟨hts, -, hus⟩ := List.forall_mem_append.mp hreadable |>.imp_right
      List.forall_mem_cons.mp
    exact Settles.operator ht rfl (fun h h' => joinItems_tree ..) (ihleft hts) (ihright hus)
  | @binary t op ts us left right _ ht _ ihleft ihright =>
    obtain ⟨hts, -, hus⟩ := List.forall_mem_append.mp hreadable |>.imp_right
      List.forall_mem_cons.mp
    refine Settles.operator ht rfl (fun h h' => rfl) (ihleft hts) ?_
    cases op <;> exact ihright hus
  | operand _ ih => exact (ih hreadable).settles
  | not ht _ ih => exact .not ht (ih (List.forall_mem_cons.mp hreadable).2)
  | primary _ ih => exact ih hreadable
  | property _ ht ih => exact (ih (List.forall_mem_append.mp hreadable).1).property ht
  | call _ ht hu _ hv ih ihgroup =>
    obtain ⟨hts, -, -, hus, -⟩ := by
      simpa only [List.forall_mem_append, List.forall_mem_cons] using hreadable
    exact .call (ih hts) ht hu (ihgroup hus) hv
  | @literal t hliteral =>
    obtain ⟨value, hvalue⟩ := Option.isSome_iff_exists.mp
      (hreadable t (List.mem_singleton_self t) hliteral)
    refine .leaf ?_
    rw [leaf?_literal hliteral, Token.literal, hvalue]
    rfl
  | name ht => exact .leaf (if_pos ht)
  | brackets ht _ hu ih =>
    obtain ⟨-, hts, -⟩ := by
      simpa only [List.forall_mem_append, List.forall_mem_cons] using hreadable
    exact .brackets ht (ih hts) hu

/-! ## Expressions -/

/-- Only a function waits for the next token. -/
theorem call?_of_steps {s s' : ParserState} (h : ParserState.Steps limit source s t s')
    (ht : t.kind ≠ .function) : s'.call? = none := by
  cases h with
  | arguments | closeGroup | closeCall => rfl
  | openBracket => rfl
  | skip hcall | leaf hcall | property hcall | operator hcall => exact hcall
  | function _ hkind => exact absurd hkind ht

/-- Tokens that do not count may be left out. -/
theorem run_significant {s : ParserState} {afterValue : Bool} (harranged : Arranged afterValue ts)
    (hcall : s.call? ≠ none → ∃ u us, ts = u :: us ∧ u.kind = .openBracket) :
    s.run limit source (significant ts) = s.run limit source ts := by
  induction ts generalizing s afterValue with
  | nil => rfl
  | cons t ts ih =>
    obtain ⟨-, hfunction, harranged⟩ := harranged
    by_cases hblank : t.kind = .blank ∨ t.kind = .stop
    · have hskip : significant (t :: ts) = significant ts :=
        List.filter_cons_of_neg (by rcases hblank with h | h <;> simp [h])
      have hnone : s.call? = none := Decidable.byContradiction fun hs => by
        obtain ⟨u, us, hu, hkind⟩ := hcall hs
        cases hu
        rw [hkind] at hblank
        rcases hblank with h | h <;> cases h
      rw [hskip, ParserState.run_cons_of_steps (.skip hnone hblank)]
      exact ih harranged fun hs => absurd hnone hs
    · have hkeep : significant (t :: ts) = t :: significant ts :=
        List.filter_cons_of_pos (by simpa using not_or.mp hblank)
      rw [hkeep, ParserState.run_cons, ParserState.run_cons]
      cases hstep : s.step limit source t with
      | error => rfl
      | ok s' =>
        refine ih harranged fun hs' => hfunction (Decidable.byContradiction fun hkind => ?_)
        exact hs' (call?_of_steps (ParserState.step_eq_ok.mp hstep) hkind)

/-- What is derived from the tokens is parsed, if the limit is at least their number. -/
theorem parse_of_derives (hlex : (lex source).failure? = none)
    (hlimit : (significant (lex source).tokens).length ≤ limit)
    (hreadable : ∀ t ∈ (lex source).tokens, Token.Readable t)
    (h : Derives source (.group ⟨source, 0⟩) (significant (lex source).tokens) tree) :
    parse limit source = .ok tree := by
  have hparses : Finishes limit source ⟨source, 0⟩ (significant (lex source).tokens) tree :=
    h.parses fun t ht => hreadable t (List.mem_filter.mp ht).1
  obtain ⟨height, -, g, hrun, hfinish⟩ := hparses [] (by simpa using hlimit)
  have harranged : Arranged false (lex source).tokens := arranged_lexFrom false 0 source.toList
  rw [run_significant harranged (absurd rfl)] at hrun
  refine map_eq_ok.mpr ⟨⟨tree, height⟩, bind_eq_ok.mpr ⟨_, hrun, ?_⟩, rfl⟩
  rw [hlex]
  exact hfinish

/-- The parser accepts what is derived and nothing else, and gives the derived tree. -/
theorem parse_eq_ok_iff_derives (hlex : (lex source).failure? = none)
    (hlimit : (significant (lex source).tokens).length ≤ limit) :
    parse limit source = .ok tree ↔
      (∀ t ∈ (lex source).tokens, Token.Readable t) ∧
        Derives source (.group ⟨source, 0⟩) (significant (lex source).tokens) tree :=
  ⟨derives_of_parse, fun h => parse_of_derives hlex hlimit h.1 h.2⟩

end TwoWaySql.Expr
