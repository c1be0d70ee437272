import TwoWaySql.Proofs.Expr.Parsing
import TwoWaySql.Proofs.Expr.Tokens

/-!
# Parsed expressions are derived

Whatever the parser has read stands for the tokens read so far: an operator that waits has its left
operand derived, each holding together more tightly than the one below it (`Waits`), and a suspended
group waits for what its brackets hold (`Encloses`). Applying operators keeps this, and so does
every token (`Reads.step`), so what is left at the end is derived from all tokens.
-/

namespace TwoWaySql.Expr

/-! ## Applying operators -/

/-- An operator takes as many operands as it has, and gives one. -/
theorem length_applyOperator {limit : Nat} {p : Pending} {xs ys : List Operand}
    (h : applyOperator limit p xs = .ok ys) :
    ys ≠ [] ∧ xs.length = ys.length + if p.op.leads then 0 else 1 := by
  obtain ⟨x, rest, hop, rfl, -, rfl⟩ | ⟨left, right, rest, hleads, rfl, -, rfl⟩ :=
    applyOperator_eq_ok.mp h
  · rw [hop]
    exact ⟨nofun, rfl⟩
  · rw [hleads]
    exact ⟨nofun, rfl⟩

/-! ## What waits -/

/-- The operators that wait for their right operands, and the left operands, stand for the
tokens. -/
inductive Waits (source : String) : List Pending → List Operand → List Token → Prop where
  | nil : Waits source [] [] []
  | not {t : Token} {ops : List Pending} {xs : List Operand} {ts : List Token} :
      t.kind = .operator .not → Waits source ops xs ts →
      Waits source (⟨.not, ⟨source, t.start⟩⟩ :: ops) xs (ts ++ [t])
  | left {t : Token} {op : Operator} {ops : List Pending} {x : Operand} {xs : List Operand}
      {ts us : List Token} : t.kind = .operator op → op.leads = false → Waits source ops xs ts →
      (∀ p ∈ ops.head?, p.op.phrase.rank < op.phrase.rank) → Derives source op.phrase us x.tree →
      Waits source (⟨op, ⟨source, t.start⟩⟩ :: ops) (x :: xs) (ts ++ us ++ [t])

variable {source : String} {limit : Nat} {ops ops' : List Pending} {x : Operand}
  {xs ys : List Operand} {ts us : List Token}

/-- Applying operators, down to those that `op` is the right operand of. -/
theorem Waits.applyWhile {op : Operator} {phrase : Phrase} (hop : op.leads = false)
    (hwaits : Waits source ops xs ts) (hx : Derives source phrase us x.tree)
    (hfits : ∀ p ∈ ops.head?, p.op.right.rank ≤ phrase.rank)
    (hrank : op.phrase.rank ≤ phrase.rank)
    (h : applyWhile limit (·.appliesBefore op) ops (x :: xs) = .ok (ops', ys)) :
    ∃ y ys' ts' us', ys = y :: ys' ∧ Waits source ops' ys' ts' ∧
      Derives source op.phrase us' y.tree ∧ ts' ++ us' = ts ++ us ∧
      ∀ p ∈ ops'.head?, p.op.phrase.rank < op.phrase.rank := by
  induction hwaits generalizing x us phrase with
  | nil =>
    cases h
    exact ⟨x, [], [], us, rfl, .nil, hx.loosen op.rank_phrase_pos hrank, rfl, nofun⟩
  | @not t ops xs ts ht hwaits ih =>
    have hright : Phrase.unary.rank ≤ phrase.rank := hfits _ rfl
    have happlies : Operator.not.appliesBefore op = true :=
      (Operator.appliesBefore_iff hop).mpr op.rank_phrase_le
    unfold Expr.applyWhile at h
    rw [if_pos happlies] at h
    obtain ⟨zs, hzs, h⟩ := bind_eq_ok.mp h
    rw [applyOperator_not] at hzs
    obtain ⟨y, hy, rfl⟩ := map_eq_ok.mp hzs
    obtain ⟨-, rfl⟩ := Operand.checked_eq_ok.mp hy
    have hderives := Derives.not ht (hx.loosen (by decide) hright)
    rw [List.append_assoc]
    exact ih hderives (fun p _ => p.op.rank_right_le) op.rank_phrase_le h
  | @left t op' ops left xs ts vs ht hop' hwaits hhead hleft ih =>
    have hright : op'.right.rank ≤ phrase.rank := hfits _ rfl
    unfold Expr.applyWhile at h
    split at h <;> rename_i happlies
    · obtain ⟨zs, hzs, h⟩ := bind_eq_ok.mp h
      rw [applyOperator_combine hop'] at hzs
      obtain ⟨y, hy, rfl⟩ := map_eq_ok.mp hzs
      obtain ⟨-, rfl⟩ := Operand.checked_eq_ok.mp hy
      have hderives := derives_combine ht hop' hleft (hx.loosen op'.rank_right_pos hright)
      rw [show ts ++ vs ++ [t] ++ us = ts ++ (vs ++ t :: us) by simp]
      exact ih hderives (fun p hp => Operator.rank_right_le_phrase (hhead p hp))
        ((Operator.appliesBefore_iff hop).mp happlies) h
    · cases h
      rw [Operator.appliesBefore_iff hop, Nat.not_le] at happlies
      exact ⟨x, left :: xs, _, us, rfl, .left ht hop' hwaits hhead hleft,
        hx.loosen op.rank_phrase_pos hrank, rfl, fun p hp => Option.some.inj hp ▸ happlies⟩

/-- There are as many operands as operators between operands. -/
theorem Waits.length_eq (h : Waits source ops xs ts) :
    xs.length = (ops.filter fun p => !p.op.leads).length := by
  induction h with
  | nil => rfl
  | not _ _ ih => simpa [Operator.leads] using ih
  | left _ hop _ _ _ ih => simp [hop, ih]

/-- Applying all operators leaves an operand if there was an operator. -/
theorem length_applyWhile (h : applyWhile limit (fun _ => true) ops xs = .ok (ops', ys)) :
    (ops ≠ [] → ys ≠ []) ∧ xs.length = ys.length + (ops.filter fun p => !p.op.leads).length := by
  induction ops generalizing xs with
  | nil =>
    cases h
    exact ⟨fun h => absurd rfl h, rfl⟩
  | cons p ops ih =>
    obtain ⟨zs, hzs, h⟩ := bind_eq_ok.mp h
    obtain ⟨hne, hlength⟩ := length_applyOperator hzs
    obtain ⟨hys, hrest⟩ := ih h
    refine ⟨fun _ => ?_, ?_⟩
    · cases ops with
      | nil =>
        cases h
        exact hne
      | cons q ops => exact hys nofun
    · rw [hlength, hrest, List.filter_cons]
      cases p.op.leads with
      | true => simp
      | false =>
        simp
        omega

/-! ## Groups -/

/-- What a group has read. -/
inductive Gathers (source : String) : Group → List Token → Prop where
  | expecting {ops : List Pending} {xs : List Operand} {ts : List Token} :
      Waits source ops xs ts → Gathers source ⟨xs, ops, true⟩ ts
  | after {ops : List Pending} {x : Operand} {xs : List Operand} {ts us : List Token} :
      Waits source ops xs ts → Derives source .access us x.tree →
      Gathers source ⟨x :: xs, ops, false⟩ (ts ++ us)

/-- What is left of a group at its end is derived from its tokens. -/
theorem Gathers.finish {g : Group} {start : Location} (h : Gathers source g ts)
    (hfinish : g.finish limit start = .ok x) : Derives source (.group start) ts x.tree := by
  obtain ⟨⟨ops', ys⟩, happlied, hresult⟩ := bind_eq_ok.mp hfinish
  cases h with
  | @expecting ops xs ts hwaits =>
    obtain ⟨hne, hlength⟩ := length_applyWhile happlied
    dsimp only at hlength
    rw [hwaits.length_eq] at hlength
    have hys : ys = [] := List.eq_nil_of_length_eq_zero (by omega)
    have hops : ops = [] := Decidable.byContradiction fun hops => hne hops hys
    subst hys hops
    cases hwaits
    cases hresult
    exact .empty
  | @after ops x' xs ts us hwaits hx' =>
    rw [applyWhile_all] at happlied
    have hfits (p : Pending) (_ : p ∈ ops.head?) : p.op.right.rank ≤ Phrase.access.rank :=
      Nat.le_trans p.op.rank_right_le (by decide)
    obtain ⟨y, ys', ts', us', rfl, hwaits', hy, htokens, hhead⟩ :=
      hwaits.applyWhile rfl hx' hfits (by decide) happlied
    cases hwaits' with
    | nil =>
      cases hresult
      rw [← htokens]
      exact .group hy
    | _ => exact absurd (hhead _ rfl) (Nat.not_lt.mpr (Operator.rank_phrase_pos _))

/-! ## The state -/

/-- The groups that brackets suspend have read the tokens up to the innermost bracket. -/
inductive Encloses (source : String) : List Suspended → List Token → Prop where
  | nil : Encloses source [] []
  | bracket {t : Token} {outer : List Suspended} {ops : List Pending} {xs : List Operand}
      {ts us : List Token} : Encloses source outer ts → Waits source ops xs us →
      t.kind = .openBracket →
      Encloses source (⟨⟨xs, ops, true⟩, ⟨source, t.start⟩, none⟩ :: outer) (ts ++ us ++ [t])
  | call {t u : Token} {outer : List Suspended} {ops : List Pending} {x : Operand}
      {xs : List Operand} {ts us vs : List Token} : Encloses source outer ts →
      Waits source ops xs us → Derives source .access vs x.tree → t.kind = .function →
      u.kind = .openBracket →
      Encloses source (⟨⟨xs, ops, false⟩, ⟨source, u.start⟩,
        some ⟨x, Token.member t, ⟨source, t.start⟩⟩⟩ :: outer) (ts ++ us ++ vs ++ [t, u])

/-- The state has read the tokens. -/
inductive Reads (source : String) : ParserState → List Token → Prop where
  | group {outer : List Suspended} {g : Group} {ts us : List Token} : Encloses source outer ts →
      Gathers source g us → Reads source ⟨g, outer, none⟩ (ts ++ us)
  | function {t : Token} {outer : List Suspended} {ops : List Pending} {x : Operand}
      {xs : List Operand} {ts us vs : List Token} : Encloses source outer ts →
      Waits source ops xs us → Derives source .access vs x.tree → t.kind = .function →
      Reads source ⟨⟨xs, ops, false⟩, outer, some ⟨x, Token.member t, ⟨source, t.start⟩⟩⟩
        (ts ++ us ++ vs ++ [t])

/-- A group goes on with an operator. -/
theorem Gathers.addOperator {g g' : Group} {t : Token} {op : Operator} (h : Gathers source g ts)
    (ht : t.kind = .operator op)
    (hadd : g.addOperator limit op t.text ⟨source, t.start⟩ = .ok g') :
    Gathers source g' (ts ++ [t]) := by
  obtain ⟨hexpects, ops', ys, happlied, -, rfl⟩ := Group.addOperator_eq_ok.mp hadd
  cases h with
  | @expecting ops xs ts hwaits =>
    have hwait : applyWhile limit (·.appliesBefore op) ops xs = .ok (ops, xs) :=
      applyWhile_stop fun p _ => Operator.not_appliesBefore hexpects.symm
    cases hwait.symm.trans happlied
    obtain rfl : op = .not := by
      cases op with
      | not => rfl
      | _ => cases hexpects
    exact .expecting (.not ht hwaits)
  | @after ops x xs ts us hwaits hx =>
    have hfits (p : Pending) (_ : p ∈ ops.head?) : p.op.right.rank ≤ Phrase.access.rank :=
      Nat.le_trans p.op.rank_right_le (by decide)
    have hrank : op.phrase.rank ≤ Phrase.access.rank :=
      Nat.le_trans op.rank_phrase_le (by decide)
    obtain ⟨y, ys', ts', us', rfl, hwaits', hy, htokens, hhead⟩ :=
      hwaits.applyWhile hexpects.symm hx hfits hrank happlied
    rw [← htokens]
    exact .expecting (.left ht hexpects.symm hwaits' hhead hy)

theorem significant_singleton {t : Token} (h : t.kind ≠ .blank ∧ t.kind ≠ .stop) :
    significant [t] = [t] := by
  simp [significant, h]

theorem significant_leaf {t : Token} {tree : Tree} (h : Token.leaf? source t = some tree) :
    significant [t] = [t] :=
  significant_singleton
    ⟨fun hkind => by simp [Token.leaf?, hkind, TokenKind.isLiteral] at h,
      fun hkind => by simp [Token.leaf?, hkind, TokenKind.isLiteral] at h⟩

/-- What has been read goes on with a token. -/
theorem Reads.step {s s' : ParserState} {t : Token} (h : Reads source s ts)
    (ht : t.kind = .property ∨ t.kind = .function → s.group.expectsOperand = false)
    (hstep : s.step limit source t = .ok s') : Reads source s' (ts ++ significant [t]) := by
  have hsteps := ParserState.step_eq_ok.mp hstep
  cases h with
  | @function t' outer ops x xs ts us vs houter hwaits hx ht' =>
    cases hsteps with
    | arguments hcall hkind =>
      cases hcall
      rw [significant_singleton (by simp [hkind]), List.append_assoc _ [t'] [t]]
      have hgroup := Reads.group (.call houter hwaits hx ht' hkind) (.expecting .nil)
      rwa [List.append_nil] at hgroup
    | skip hcall | openBracket hcall | closeGroup hcall | closeCall hcall | leaf hcall
    | property hcall | function hcall | operator hcall => cases hcall
  | @group outer g ts us houter hgathers =>
    cases hsteps with
    | arguments hcall => cases hcall
    | skip _ hkind =>
      have hnil : significant [t] = [] := by
        rcases hkind with hkind | hkind <;> simp [significant, hkind]
      rw [hnil, List.append_nil]
      exact .group houter hgathers
    | openBracket _ hkind hexpects =>
      rw [significant_singleton (by simp [hkind])]
      cases hgathers with
      | after => cases hexpects
      | expecting hwaits =>
        have hgroup := Reads.group (.bracket houter hwaits hkind) (.expecting .nil)
        rwa [List.append_nil] at hgroup
    | @closeGroup _ _ _ inner _ hkind houter' hinner =>
      rw [significant_singleton (by simp [hkind])]
      obtain rfl := houter'
      cases houter with
      | @bracket t' _ _ _ ts vs houter hwaits ht' =>
        have hprimary := Derives.brackets ht' (hgathers.finish hinner) hkind
        rw [show ts ++ vs ++ [t'] ++ us ++ [t] = ts ++ (vs ++ t' :: (us ++ [t])) by simp]
        exact .group houter (.after hwaits (.primary hprimary))
    | @closeCall _ _ _ _ inner _ hkind houter' hinner =>
      rw [significant_singleton (by simp [hkind])]
      obtain rfl := houter'
      cases houter with
      | @call t' u _ _ x _ ts vs ws houter hwaits hx ht' hu =>
        have hcall := Derives.call hx ht' hu (hgathers.finish hinner) hkind
        rw [show ts ++ vs ++ ws ++ [t', u] ++ us ++ [t] =
          ts ++ (vs ++ (ws ++ t' :: u :: (us ++ [t]))) by simp]
        exact .group houter (.after hwaits hcall)
    | leaf _ htree hexpects =>
      rw [significant_leaf htree]
      cases hgathers with
      | after => cases hexpects
      | expecting hwaits =>
        rw [List.append_assoc]
        exact .group houter (.after (x := .leaf _) hwaits (.primary (derives_leaf htree)))
    | property _ hkind hxs =>
      rw [significant_singleton (by simp [hkind]), List.append_assoc]
      cases hgathers with
      | expecting => cases ht (.inl hkind)
      | @after _ _ _ _ vs hwaits hx =>
        cases hxs
        rw [List.append_assoc]
        exact .group houter (.after hwaits (.property hx hkind))
    | function _ hkind hxs =>
      rw [significant_singleton (by simp [hkind])]
      cases hgathers with
      | expecting => cases ht (.inr hkind)
      | @after _ _ _ us vs hwaits hx =>
        cases hxs
        rw [← List.append_assoc]
        exact .function houter hwaits hx hkind
    | operator _ hkind hg =>
      rw [significant_singleton (by simp [hkind]), List.append_assoc]
      exact .group houter (hgathers.addOperator hkind hg)

/-- A group that waits for the arguments of a call goes on after an operand. -/
theorem Reads.expectsOperand_of_call {s : ParserState} {group : Group} {opening : Location}
    {call : Call} {outer : List Suspended} (h : Reads source s ts)
    (houter : s.outer = ⟨group, opening, some call⟩ :: outer) : group.expectsOperand = false := by
  have hencloses : ∃ us, Encloses source s.outer us := by
    cases h with
    | group hencloses | function hencloses => exact ⟨_, hencloses⟩
  rw [houter] at hencloses
  obtain ⟨us, hencloses⟩ := hencloses
  cases hencloses with
  | call => rfl

/-- After a value no operand is expected. -/
theorem Reads.expectsOperand_step {s s' : ParserState} {t : Token} {flag : Bool}
    (h : Reads source s ts) (hvalue : flag = true → s.group.expectsOperand = false)
    (ht : t.kind = .property → flag = true) (hstep : s.step limit source t = .ok s')
    (hnext : t.kind.leaves flag = true) : s'.group.expectsOperand = false := by
  cases ParserState.step_eq_ok.mp hstep with
  | skip _ hkind => rcases hkind with hkind | hkind <;> rw [hkind] at hnext <;> exact hvalue hnext
  | closeGroup | leaf => rfl
  | closeCall _ _ houter =>
    have hgroup := h.expectsOperand_of_call houter
    exact hgroup
  | property _ hkind => exact hvalue (ht hkind)
  | arguments _ hkind | openBracket _ hkind | function _ hkind | operator _ hkind =>
    rw [hkind] at hnext
    cases hnext

theorem Reads.run {s s' : ParserState} {flag : Bool} {rest : List Token}
    (h : Reads source s ts) (hvalue : flag = true → s.group.expectsOperand = false)
    (harranged : Arranged flag rest)
    (hrun : s.run limit source rest = .ok s') :
    Reads source s' (ts ++ significant rest) := by
  induction rest generalizing s ts flag with
  | nil =>
    cases hrun
    rwa [significant, List.filter_nil, List.append_nil]
  | cons t rest ih =>
    obtain ⟨ht, -, harranged⟩ := harranged
    rw [ParserState.run_cons] at hrun
    obtain ⟨u, hstep, hrun⟩ := bind_eq_ok.mp hrun
    have hsplit : significant (t :: rest) = significant [t] ++ significant rest :=
      List.filter_append [t] rest
    rw [hsplit, ← List.append_assoc]
    exact ih (h.step (fun hkind => hvalue (ht hkind)) hstep)
      (h.expectsOperand_step hvalue (fun hkind => ht (.inl hkind)) hstep) harranged hrun

/-! ## Expressions -/

/-- Only a literal with a value is read. -/
theorem readable_steps {s s' : ParserState} {t : Token}
    (h : ParserState.Steps limit source s t s') : Token.Readable t := by
  intro hliteral
  cases h with
  | leaf _ htree =>
    unfold Token.leaf? at htree
    split at htree
    · rw [‹t.kind = .name›] at hliteral
      cases hliteral
    · obtain ⟨value, hvalue, -⟩ := Option.map_eq_some_iff.mp htree
      rw [hvalue]
      rfl
  | skip _ hkind =>
    rcases hkind with hkind | hkind <;> rw [hkind] at hliteral <;> cases hliteral
  | arguments _ hkind | openBracket _ hkind | closeGroup _ hkind | closeCall _ hkind
  | property _ hkind | function _ hkind | operator _ hkind =>
    rw [hkind] at hliteral
    cases hliteral

theorem readable_run {s s' : ParserState} {ts : List Token}
    (h : s.run limit source ts = .ok s') : ∀ t ∈ ts, Token.Readable t :=
  ParserState.run_induction (motive := fun us _ => ∀ t ∈ us, Token.Readable t) h nofun
    fun _ _ _ _ hsteps hus => List.forall_mem_append.mpr
      ⟨hus, List.forall_mem_singleton.mpr (readable_steps hsteps)⟩

theorem Reads.finish {s : ParserState} (h : Reads source s ts)
    (hfinish : s.finish limit source = .ok x) :
    Derives source (.group ⟨source, 0⟩) ts x.tree := by
  cases h with
  | function => cases hfinish
  | group houter hgathers =>
    cases houter with
    | nil => exact hgathers.finish hfinish
    | bracket | call => cases hfinish

/-- What is parsed is derived from the tokens, and its literals have values. -/
theorem derives_of_parse {tree : Tree} (h : parse limit source = .ok tree) :
    (∀ t ∈ (lex source).tokens, Token.Readable t) ∧
      Derives source (.group ⟨source, 0⟩) (significant (lex source).tokens) tree := by
  obtain ⟨x, hx, rfl⟩ := map_eq_ok.mp h
  obtain ⟨-, s, hrun, hfinish⟩ := parseOperand_eq_ok.mp hx
  refine ⟨readable_run hrun, ?_⟩
  have hstart : Reads source .start [] := .group .nil (.expecting .nil)
  have hvalue : false = true → ParserState.start.group.expectsOperand = false := nofun
  have hreads := hstart.run hvalue (arranged_lexFrom false 0 source.toList) hrun
  exact hreads.finish hfinish

end TwoWaySql.Expr
