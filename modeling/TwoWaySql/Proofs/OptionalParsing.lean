import TwoWaySql.Proofs.OptionalPredicates
import TwoWaySql.Proofs.Subtrees

/-!
# Reading optional predicates

The tokens of a clause with optional predicates are read as its tree, whatever is open before them:
each connector is completed at the end of its branch, and each branch at the next one or the end of
its block (`run_optional`). The clause is complete at the first token after it that ends clauses, so
its tree is within that of the template (`within_of_parse`).
-/

namespace TwoWaySql.Template

/-! ## Adding trees -/

def Frame.addAll (f : Frame) (ts : List Tree) : Frame := ts.foldl (fun f t => f.add t) f

def Level.addAll (l : Level) (ts : List Tree) : Level := ts.foldl (fun l t => l.add t) l

theorem Level.addAll_append (l : Level) (ts us : List Tree) :
    l.addAll (ts ++ us) = (l.addAll ts).addAll us := List.foldl_append

theorem Level.addAll_cons (l : Level) (t : Tree) (ts : List Tree) :
    l.addAll (t :: ts) = (l.add t).addAll ts := rfl

theorem Frame.addAll_append (f : Frame) (ts us : List Tree) :
    f.addAll (ts ++ us) = (f.addAll ts).addAll us := List.foldl_append

variable {left? : Option LeftOperand} {children : List Tree} {f : Frame} {fs : List Frame}

/-- Trees go to the innermost construct that is open. -/
theorem Level.addAll_frames (ts : List Tree) :
    Level.addAll ⟨left?, children, f :: fs⟩ ts = ⟨left?, children, f.addAll ts :: fs⟩ := by
  induction ts generalizing f with
  | nil => rfl
  | cons t ts ih => exact ih

/-- Children come last first. -/
theorem Frame.addAll_eq (mk : List Tree → Frame) (hmk : ∀ t us, (mk us).add t = mk (t :: us))
    (ts us : List Tree) : (mk us).addAll ts = mk (ts.reverse ++ us) := by
  induction ts generalizing us with
  | nil => rfl
  | cons t ts ih =>
    rw [List.reverse_cons, List.append_assoc, ← List.singleton_append, ← ih]
    exact congrArg (Frame.addAll · ts) (hmk t us)

theorem Frame.addAll_isClauseOrLogical (ts : List Tree) :
    (f.addAll ts).isClauseOrLogical = f.isClauseOrLogical := by
  induction ts generalizing f with
  | nil => rfl
  | cons t ts ih =>
    refine (@ih (f.add t)).trans ?_
    cases f <;> rfl

/-- In an open block there is nothing to complete. -/
theorem Level.complete_block {p : Frame → Bool} (hp : p f = false) :
    Level.complete p ⟨left?, children, f :: fs⟩ = ⟨left?, children, f :: fs⟩ := by
  simp [complete, completeWhile, hp]

/-- A clause or connector in an open block is complete at the end of its branch. -/
theorem Level.settled_block {g : Frame} (hg : g.isClauseOrLogical = true)
    (hf : f.isClauseOrLogical = false) :
    Level.settled ⟨left?, children, g :: f :: fs⟩ = ⟨left?, children, f.add g.tree :: fs⟩ := by
  have hadd : (f.add g.tree).isClauseOrLogical = false := by
    rw [← hf]
    cases f <;> rfl
  simp [settled, complete, completeWhile, hg, hadd]

/-- The frame of an `if` block with branches but no `else`. -/
structure Frame.IfOpen (f : Frame) (test : Directive) (body : List Tree)
    (elseifs : List (Directive × List Tree)) : Prop where
  nextBranch_eq (kind : DirectiveKind) (d : Directive) :
    f.nextBranch? kind d = some (.branch kind d test body elseifs.reverse)
  tree_eq : f.tree = .ifBlock test body elseifs none

theorem Frame.IfOpen.addAll_ifBlock (test : Directive) (ts : List Tree) :
    ((Frame.ifBlock test []).addAll ts).IfOpen test ts [] := by
  rw [addAll_eq (.ifBlock test) fun _ _ => rfl]
  constructor <;> simp [nextBranch?, tree]

theorem Frame.IfOpen.addAll_branch {test : Directive} {body : List Tree}
    {bs : List (Directive × List Tree)} (d : Directive) (ts : List Tree) :
    ((Frame.branch .elseifBranch d test body bs.reverse).addAll ts).IfOpen test body
      (bs ++ [(d, ts)]) := by
  rw [branch, if_neg nofun, addAll_eq (.elseifBlock test body bs.reverse d) fun _ _ => rfl]
  constructor <;> simp [nextBranch?, tree]

namespace ParserState

variable {limit : Nat} {source : String} {level : Level} {outer : List Suspended}
  {s s' : ParserState} {t : Token}

/-! ## Steps -/

/-- A token that is no sample is read by its kind. -/
theorem reads_of_step (hkind : t.kind ≠ .word ∧ t.kind ≠ .quote ∧ t.kind ≠ .other ∧
    t.kind ≠ .openBracket) (hend : Token.isEnd t = false)
    (h : s.step limit source t = .ok s') : Reads limit source s.settle t s' := by
  cases (step_eq_ok hend).mp h with
  | sample hwaiting hsample =>
    unfold Waiting.sample? at hsample
    split at hsample <;> simp_all
  | brackets _ hbracket => exact absurd hbracket hkind.2.2.2
  | token _ _ hreads => exact hreads

/-- A bind directive whose sample may come. -/
def waitsFor (d? : Option Directive) : Option Waiting := d?.map (⟨.bind, ·⟩)

open PredicateItem (pending operand)

theorem settle_waitsFor (d? : Option Directive) :
    settle ⟨level, outer, waitsFor d?⟩ = ⟨level.addAll (pending d?), outer, none⟩ := by
  cases d? <;> rfl

theorem reads_leaf {tree : Tree} (htree : Token.leaf? source t = some tree)
    (h : Reads limit source s t s') : s' = s.add tree := by
  obtain ⟨kind, text, start⟩ := t
  cases h with
  | leaf htree' => rw [Option.some.inj (htree.symm.trans htree')]
  | wait hkind hsample =>
    obtain rfl := hkind
    rename_i d _
    cases d with
    | embedded => cases hsample
    | _ => cases htree
  | branch hkind hbranch =>
    obtain rfl := hkind
    rcases hbranch with rfl | rfl <;> cases htree
  | openBracket hkind | closeBracket hkind | clause hkind | connector hkind | set hkind
  | ifBlock hkind | forBlock hkind | endBlock hkind =>
    obtain rfl := hkind
    cases htree

/-- A word or a quoted text is the sample of the directive before, or stands for itself. -/
theorem step_operand {d? : Option Directive} (hkind : t.kind = .word ∨ t.kind = .quote)
    (h : step limit source ⟨level, outer, waitsFor d?⟩ t = .ok s') :
    s' = ⟨level.add (operand d? (.word t.text)), outer, none⟩ := by
  obtain ⟨kind, text, start⟩ := t
  cases d? with
  | none =>
    have hend : Token.isEnd (⟨kind, text, start⟩ : Token) = false := by
      rcases hkind with rfl | rfl <;> rfl
    have hleaf : Token.leaf? source ⟨kind, text, start⟩ = some (.word text) := by
      rcases hkind with rfl | rfl <;> rfl
    cases (step_eq_ok hend).mp h with
    | sample hwaiting | brackets hwaiting => cases hwaiting
    | token _ _ hreads => exact reads_leaf hleaf hreads
  | some d =>
    rcases hkind with rfl | rfl <;> cases h <;> rfl

/-- A group is the sample of the directive before, or stands for itself. -/
theorem step_openBracket {d? : Option Directive} (hkind : t.kind = .openBracket)
    (h : step limit source ⟨level, outer, waitsFor d?⟩ t = .ok s') :
    s' = ⟨.start, ⟨level, ⟨source, t.start⟩, waitsFor d?⟩ :: outer, none⟩ := by
  obtain ⟨kind, text, start⟩ := t
  obtain rfl := hkind
  cases (step_eq_ok rfl).mp h with
  | sample hwaiting hsample =>
    cases d? with
    | none => cases hwaiting
    | some d =>
      cases hwaiting
      cases hsample
  | brackets hwaiting =>
    rw [← hwaiting]
  | token hnot _ hreads =>
    cases d? with
    | none =>
      cases hreads with
      | openBracket => rfl
      | _ => contradiction
    | some d => exact absurd ⟨rfl, rfl⟩ (hnot _ rfl).2

theorem tree_waitsFor (d? : Option Directive) (l : Level) (location : Location) (inner : Tree) :
    Suspended.tree ⟨l, location, waitsFor d?⟩ inner = operand d? (.brackets inner) := by
  cases d? <;> rfl

/-! ## Predicates -/

/-- A blank, a comment or another character after a bind directive or not. -/
theorem step_leaf (d? : Option Directive) {tree : Tree}
    (hkind : t.kind = .blank ∨ t.kind = .comment ∨ t.kind = .other)
    (htree : Token.leaf? source t = some tree)
    (h : step limit source ⟨level, outer, waitsFor d?⟩ t = .ok s') :
    s' = ⟨(level.addAll (pending d?)).add tree, outer, none⟩ := by
  obtain ⟨kind, text, start⟩ := t
  have hend : Token.isEnd (⟨kind, text, start⟩ : Token) = false := by
    rcases hkind with rfl | rfl | rfl <;> rfl
  cases (step_eq_ok hend).mp h with
  | sample hwaiting hsample =>
    cases d? with
    | none => cases hwaiting
    | some d =>
      cases hwaiting
      rcases hkind with rfl | rfl | rfl <;> cases hsample
  | brackets _ hbracket => rcases hkind with rfl | rfl | rfl <;> cases hbracket
  | token _ _ hreads =>
    rw [settle_waitsFor] at hreads
    exact reads_leaf htree hreads

/-- A directive is read by its kind. -/
theorem addDirective_of_step {kind : DirectiveKind} (hkind : t.kind = .directive kind)
    (h : s.step limit source t = .ok s') :
    s.settle.addDirective kind (Token.directive source t) = .ok s' :=
  (addDirective_eq_ok hkind).mpr (reads_of_step (by simp [hkind]) (by simp [Token.isEnd, hkind]) h)

theorem step_bind {d? : Option Directive} (hkind : t.kind = .directive .bind)
    (h : step limit source ⟨level, outer, waitsFor d?⟩ t = .ok s') :
    s' = ⟨level.addAll (pending d?), outer, waitsFor (some (Token.directive source t))⟩ := by
  have hadd := addDirective_of_step hkind h
  rw [settle_waitsFor] at hadd
  cases hadd
  rfl

/-- Items are read as their trees; a bind directive at the end still waits for a sample. -/
theorem run_items {items : List PredicateItem} (d? : Option Directive)
    (hend : ∀ t ∈ items.flatMap (·.tokens), Token.isEnd t = false)
    (h : run limit source ⟨level, outer, waitsFor d?⟩ (items.flatMap (·.tokens)) = .ok s') :
    s'.settle = ⟨level.addAll (PredicateItem.trees limit source d? items), outer, none⟩ := by
  induction items generalizing level d? with
  | nil =>
    cases h
    exact settle_waitsFor d?
  | cons item items ih =>
    rw [List.flatMap_cons] at hend h
    have htail : ∀ t ∈ items.flatMap (·.tokens), Token.isEnd t = false :=
      fun t ht => hend t (List.mem_append_right _ ht)
    rw [run_append] at h
    obtain ⟨u, hu, h⟩ := bind_eq_ok.mp h
    cases item with
    | word t =>
      obtain rfl := step_operand (.inl t.2) (run_singleton.mp hu)
      exact ih none htail h
    | quote t =>
      obtain rfl := step_operand (.inr t.2) (run_singleton.mp hu)
      exact ih none htail h
    | other t =>
      have htree : Token.leaf? source t.1 = some (.other t.1.text) := by simp [Token.leaf?, t.2]
      obtain rfl := step_leaf d? (.inr (.inr t.2)) htree (run_singleton.mp hu)
      rw [ih none htail h, PredicateItem.trees, Level.addAll_append, Level.addAll_cons]
    | blank t =>
      have htree : Token.leaf? source t.1 = some (.blank t.1.text) := by simp [Token.leaf?, t.2]
      obtain rfl := step_leaf d? (.inl t.2) htree (run_singleton.mp hu)
      rw [ih none htail h, PredicateItem.trees, Level.addAll_append, Level.addAll_cons]
    | bind t =>
      obtain rfl := step_bind t.2 (run_singleton.mp hu)
      rw [ih _ htail h, PredicateItem.trees, Level.addAll_append]
    | group opening inner hbalanced closing =>
      rw [PredicateItem.tokens, List.cons_append, run_cons] at hu
      obtain ⟨v, hv, hu⟩ := bind_eq_ok.mp hu
      obtain rfl := step_openBracket opening.2 hv
      have hinner : ∀ t ∈ inner, Token.isEnd t = false := fun t ht =>
        hend t (by simp [PredicateItem.tokens, ht])
      obtain rfl := run_group hinner hbalanced closing.2 hu
      rw [tree_waitsFor] at h
      exact ih none htail h

theorem run_blanks {ts : List (TokenOf .blank)}
    (h : run limit source ⟨level, outer, none⟩ (ts.map (·.1)) = .ok s') :
    s' = ⟨level.addAll (blankTrees ts), outer, none⟩ := by
  induction ts generalizing level with
  | nil =>
    cases h
    rfl
  | cons t ts ih =>
    rw [List.map_cons, run_cons] at h
    obtain ⟨u, hu, h⟩ := bind_eq_ok.mp h
    have htree : Token.leaf? source t.1 = some (.blank t.1.text) := by simp [Token.leaf?, t.2]
    obtain rfl := step_leaf none (.inl t.2) htree hu
    exact ih h

/-- In an open block a connector opens at once. -/
theorem step_connector {op : Connector} (hf : f.isClauseOrLogical = false)
    (hkind : t.kind = .connector op)
    (h : step limit source ⟨⟨left?, children, f :: fs⟩, outer, none⟩ t = .ok s') :
    s' = ⟨⟨left?, children, .logical op t.text [] :: f :: fs⟩, outer, none⟩ := by
  have hlogical : f.isLogical = false := by cases f <;> first | rfl | cases hf
  cases reads_of_step (by simp [hkind]) (by simp [Token.isEnd, hkind]) h with
  | leaf htree => simp [Token.leaf?, hkind] at htree
  | connector hop =>
    obtain rfl := TokenKind.connector.inj (hkind.symm.trans hop)
    simp only [settle, Level.complete_block hlogical, Level.openFrame]
  | _ => simp_all

/-! ## Branches -/

/-- What is open once all clauses and connectors of the innermost block are complete. -/
structure OpenAt (s : ParserState) (level : Level) (outer : List Suspended) : Prop where
  outer_eq : s.outer = outer
  settled_eq : s.settle.level.settled = level

/-- The body of a branch is read as its trees. -/
theorem run_choice {c : Choice} (hf : f.isClauseOrLogical = false)
    (hend : ∀ t ∈ c.tokens, Token.isEnd t = false)
    (h : run limit source ⟨⟨left?, children, f :: fs⟩, outer, none⟩ c.tokens = .ok s') :
    OpenAt s' ⟨left?, children, f.addAll (c.trees limit source) :: fs⟩ outer := by
  have hadd (ts : List Tree) : (f.addAll ts).isClauseOrLogical = false := by
    rw [Frame.addAll_isClauseOrLogical, hf]
  cases c with
  | blank ts =>
    obtain rfl := run_blanks h
    refine ⟨rfl, ?_⟩
    rw [Level.addAll_frames]
    exact Level.complete_block (hadd _)
  | predicate p =>
    obtain ⟨lead, connective?, items, hcontent⟩ := p
    simp only [Choice.tokens, Predicate.tokens, List.append_assoc] at h hend
    rw [run_append] at h
    obtain ⟨u, hu, h⟩ := bind_eq_ok.mp h
    obtain rfl := run_blanks hu
    rw [Level.addAll_frames] at h
    have hitems : ∀ t ∈ items.flatMap (·.tokens), Token.isEnd t = false := fun t ht =>
      hend t (List.mem_append_right _ (List.mem_append_right _ ht))
    cases connective? with
    | none =>
      have hsettle := run_items none hitems h
      rw [Level.addAll_frames] at hsettle
      refine ⟨by rw [← settle_outer, hsettle], ?_⟩
      rw [hsettle]
      simp only [Choice.trees, Predicate.trees, Predicate.itemTrees, Frame.addAll_append]
      exact Level.complete_block (by rw [← Frame.addAll_append]; exact hadd _)
    | some c =>
      rw [Option.toList_some, List.map_singleton, List.singleton_append, run_cons] at h
      obtain ⟨v, hv, h⟩ := bind_eq_ok.mp h
      obtain rfl := step_connector (hadd _) c.token.2 hv
      have hsettle := run_items none hitems h
      rw [Level.addAll_frames, Frame.addAll_eq (.logical c.op c.token.1.text) fun _ _ => rfl,
        List.append_nil] at hsettle
      refine ⟨by rw [← settle_outer, hsettle], ?_⟩
      rw [hsettle]
      simp only [Choice.trees, Predicate.trees, Predicate.itemTrees, Frame.addAll_append]
      rw [Level.settled_block rfl (hadd _), Frame.tree, List.reverse_reverse]
      rfl

theorem step_ifBranch (hkind : t.kind = .directive .ifBranch)
    (h : step limit source ⟨⟨left?, children, fs⟩, outer, none⟩ t = .ok s') :
    s' = ⟨⟨left?, children, .ifBlock (Token.directive source t) [] :: fs⟩, outer, none⟩ :=
  (Except.ok.inj (addDirective_of_step hkind h)).symm

/-- The state after a directive that opens another branch. -/
theorem step_branch {kind : DirectiveKind} {f' : Frame} (hkind : t.kind = .directive kind)
    (hbranch : kind = .elseifBranch ∨ kind = .elseBranch)
    (hs : OpenAt s ⟨left?, children, f :: fs⟩ outer)
    (hf : f.nextBranch? kind (Token.directive source t) = some f')
    (h : s.step limit source t = .ok s') : s' = ⟨⟨left?, children, f' :: fs⟩, outer, none⟩ := by
  have hadd : s.settle.addBranch kind (Token.directive source t) = .ok s' := by
    have hdirective := addDirective_of_step hkind h
    rcases hbranch with rfl | rfl <;> exact hdirective
  obtain ⟨g, gs, g', hframes, hg, rfl⟩ := addBranch_eq_ok.mp hadd
  rw [hs.settled_eq] at hframes ⊢
  cases hframes
  obtain rfl := Option.some.inj (hg.symm.trans hf)
  rw [settle_outer, settle_waiting, hs.outer_eq]

/-- The state after the end of a block. -/
theorem step_blockEnd (hkind : t.kind = .directive .blockEnd)
    (hs : OpenAt s ⟨left?, children, f :: fs⟩ outer) (h : s.step limit source t = .ok s') :
    s' = ⟨Level.add f.tree ⟨left?, children, fs⟩, outer, none⟩ := by
  have hend : s.settle.endBlock (Token.directive source t).location = .ok s' :=
    addDirective_of_step hkind h
  obtain ⟨g, gs, hframes, rfl⟩ := endBlock_eq_ok.mp hend
  rw [hs.settled_eq] at hframes ⊢
  cases hframes
  rw [settle_outer, settle_waiting, hs.outer_eq]

/-- The branches after the first are read as their tests and trees. -/
theorem run_elseifs {es : List (TokenOf (.directive .elseifBranch) × Choice)} {test : Directive}
    {body : List Tree} {bs : List (Directive × List Tree)}
    (hend : ∀ t ∈ es.flatMap (fun e => e.1.1 :: e.2.tokens), Token.isEnd t = false)
    (hs : OpenAt s ⟨left?, children, f :: fs⟩ outer) (hf : f.IfOpen test body bs)
    (h : s.run limit source (es.flatMap fun e => e.1.1 :: e.2.tokens) = .ok s') :
    ∃ f', OpenAt s' ⟨left?, children, f' :: fs⟩ outer ∧ f'.IfOpen test body
      (bs ++ es.map fun e => (Token.directive source e.1, e.2.trees limit source)) := by
  induction es generalizing s f bs with
  | nil =>
    cases h
    exact ⟨f, hs, by simpa using hf⟩
  | cons e es ih =>
    simp only [List.flatMap_cons, List.forall_mem_append, List.forall_mem_cons] at hend
    rw [List.flatMap_cons, List.cons_append, run_cons] at h
    obtain ⟨u, hu, h⟩ := bind_eq_ok.mp h
    obtain rfl := step_branch e.1.2 (.inl rfl) hs (hf.nextBranch_eq _ _) hu
    rw [run_append] at h
    obtain ⟨v, hv, h⟩ := bind_eq_ok.mp h
    have hv := run_choice rfl hend.1.2 hv
    obtain ⟨f', hs', hf'⟩ := ih hend.2 hv (.addAll_branch _ _) h
    exact ⟨f', hs', by simpa using hf'⟩

/-- A block is read as its tree, with the connector and the predicate of each branch in it. -/
theorem run_block {b : OptionalBlock} (hend : ∀ t ∈ b.tokens, Token.isEnd t = false)
    (h : run limit source ⟨⟨left?, children, fs⟩, outer, none⟩ b.tokens = .ok s') :
    s' = ⟨Level.add (b.tree limit source) ⟨left?, children, fs⟩, outer, none⟩ := by
  obtain ⟨test, body, elseifs, else?, ending⟩ := b
  simp only [OptionalBlock.tokens, List.append_assoc, List.cons_append, List.forall_mem_cons,
    List.forall_mem_append] at hend h
  rw [run_cons] at h
  obtain ⟨s, hs, h⟩ := bind_eq_ok.mp h
  obtain rfl := step_ifBranch test.2 hs
  rw [run_append] at h
  obtain ⟨s, hbody, h⟩ := bind_eq_ok.mp h
  have hbody := run_choice (f := .ifBlock _ []) rfl hend.2.1 hbody
  rw [run_append] at h
  obtain ⟨s, helseifs, h⟩ := bind_eq_ok.mp h
  obtain ⟨f, helseifs, hf⟩ := run_elseifs hend.2.2.1 hbody (.addAll_ifBlock _ _) helseifs
  rw [List.nil_append] at hf
  cases else? with
  | none =>
    rw [step_blockEnd ending.2 helseifs (run_singleton.mp h), hf.tree_eq]
    rfl
  | some e =>
    obtain ⟨opening, c⟩ := e
    simp only [Option.toList_some, List.flatMap_cons, List.flatMap_nil, List.append_nil,
      List.forall_mem_cons, List.cons_append] at hend h
    rw [run_cons] at h
    obtain ⟨u, hu, h⟩ := bind_eq_ok.mp h
    obtain rfl := step_branch opening.2 (.inr rfl) helseifs (hf.nextBranch_eq _ _) hu
    rw [run_append] at h
    obtain ⟨v, hv, h⟩ := bind_eq_ok.mp h
    have hv := run_choice rfl hend.2.2.2.1.2 hv
    rw [step_blockEnd ending.2 hv (run_singleton.mp h)]
    simp [Frame.branch, Frame.addAll_eq (.elseBlock _ _ _) fun _ _ => rfl, Frame.tree,
      OptionalBlock.tree, OptionalBlock.elseifTrees]

/-! ## The clause -/

/-- The body of a clause is read as its trees. -/
theorem run_optional {parts : List OptionalPart}
    (hend : ∀ t ∈ parts.flatMap (·.tokens), Token.isEnd t = false)
    (h : run limit source ⟨level, outer, none⟩ (parts.flatMap (·.tokens)) = .ok s') :
    s' = ⟨level.addAll (parts.map (OptionalPart.tree limit source)), outer, none⟩ := by
  induction parts generalizing level with
  | nil =>
    cases h
    rfl
  | cons part parts ih =>
    rw [List.flatMap_cons] at hend h
    rw [List.forall_mem_append] at hend
    rw [run_append] at h
    obtain ⟨u, hu, h⟩ := bind_eq_ok.mp h
    cases part with
    | blank t =>
      have htree : Token.leaf? source t.1 = some (.blank t.1.text) := by simp [Token.leaf?, t.2]
      obtain rfl := step_leaf none (.inl t.2) htree (run_singleton.mp hu)
      exact ih hend.2 h
    | comment t =>
      have htree : Token.leaf? source t.1 = some (.comment t.1.text) := by simp [Token.leaf?, t.2]
      obtain rfl := step_leaf none (.inr (.inl t.2)) htree (run_singleton.mp hu)
      exact ih hend.2 h
    | block b =>
      obtain rfl := run_block hend.1 hu
      exact ih hend.2 h

/-- A clause opens where all clauses and connectors before are complete. -/
theorem step_clause {kind : ClauseKind} (hkind : t.kind = .clause kind)
    (h : s.step limit source t = .ok s') :
    s' = ⟨s.settle.level.settled.openFrame (.clause kind t.text []), s.outer, none⟩ := by
  cases reads_of_step (by simp [hkind]) (by simp [Token.isEnd, hkind]) h with
  | leaf htree => simp [Token.leaf?, hkind] at htree
  | clause hother =>
    obtain rfl := TokenKind.clause.inj (hkind.symm.trans hother)
    rw [settle_outer, settle_waiting]
  | _ => simp_all

/-- A clause is in the level as soon as it is complete. -/
theorem run_clause {c : OptionalClause} (hend : ∀ t ∈ c.tokens, Token.isEnd t = false)
    (h : s.run limit source c.tokens = .ok s') :
    s'.settle = s' ∧ Tree.Holds (c.tree limit source) s'.level.settled.roots := by
  rw [OptionalClause.tokens, run_cons] at h
  obtain ⟨u, hu, h⟩ := bind_eq_ok.mp h
  obtain rfl := step_clause c.keyword.2 hu
  have hs' := run_optional (fun t ht => hend t (List.mem_cons_of_mem _ ht)) h
  have hframes : s'.level.frames =
      .clause c.kind c.keyword.1.text (c.parts.map (OptionalPart.tree limit source)).reverse ::
        s.settle.level.settled.frames := by
    rw [hs', Level.openFrame, Level.addAll_frames, Frame.addAll_eq _ fun _ _ => rfl,
      List.append_nil]
  refine ⟨by rw [hs']; rfl, Level.holds_complete_head hframes rfl ?_⟩
  rw [Frame.tree, List.reverse_reverse]
  exact .refl

end ParserState

open ParserState

/-- The clause that optional predicates are in is part of the tree of the template. -/
theorem within_of_parse {limit : Nat} {source : String} {tree : Tree} {pre post : List Token}
    {c : OptionalClause} (h : parse limit source = .ok tree)
    (htokens : statementTokens source = pre ++ c.tokens ++ post)
    (hpost : ∀ t ∈ post.head?, Token.endsClause t = true) : (c.tree limit source).Within tree := by
  have hend : ∀ t ∈ statementTokens source, Token.isEnd t = false :=
    fun _ => isEnd_of_mem_statementTokens
  obtain ⟨-, s, hrun, hfinishes⟩ := parse_eq_ok_iff.mp h
  rw [htokens, run_append] at hrun
  simp only [htokens, List.forall_mem_append] at hend
  obtain ⟨u, hu, hrun⟩ := bind_eq_ok.mp hrun
  rw [run_append] at hu
  obtain ⟨before, -, hclause⟩ := bind_eq_ok.mp hu
  obtain ⟨hsettle, hholds⟩ := run_clause hend.1.2 hclause
  cases post with
  | nil =>
    cases hrun
    have hfinish := hfinishes.finish_eq
    rw [hsettle] at hfinish
    exact Level.within_of_finish (.inr hholds) hfinish
  | cons t post =>
    rw [run_cons] at hrun
    obtain ⟨v, hv, hrun⟩ := bind_eq_ok.mp hrun
    obtain ⟨ht, hpostEnd⟩ := List.forall_mem_cons.mp hend.2
    have hends := hpost t rfl
    have hkind : t.kind ≠ .word ∧ t.kind ≠ .quote ∧ t.kind ≠ .other ∧ t.kind ≠ .openBracket := by
      unfold Token.endsClause at hends
      split at hends <;> simp_all
    have hreads := reads_of_step hkind ht hv
    rw [hsettle] at hreads
    have hholds := holds_reads_of_ends hends (Tree.holds_append.mpr (.inr hholds)) hreads
    exact within_of_finishes (holds_run hpostEnd hholds hrun) hfinishes

end TwoWaySql.Template
