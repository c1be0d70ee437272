import TwoWaySql.Proofs.Tokens

/-!
# The grammar of templates

Which tokens form a statement. Clauses and connectors are no constructs of the grammar: their
keywords are items like others. What a statement has open at a token is a stack of brackets and
blocks, and the stack decides whether the next token fits: following it recognizes the statements of
the grammar (`derives_statement_iff`).
-/

namespace TwoWaySql.Template

/-! ## Phrases -/

inductive Phrase where
  /-- Operands with set operators between them. -/
  | statement
  /-- Items. -/
  | operand
  | item
  /-- A statement in brackets. -/
  | group
  /-- What is between `if` and its `end`. -/
  | branches

/-- A token that is an item. -/
def TokenKind.isItem : TokenKind → Bool
  | .word | .quote | .blank | .comment | .other | .clause _ | .connector _
  | .directive .embedded => true
  | _ => false

/-- A directive for a value, which may have a sample after it. -/
def TokenKind.isValue : TokenKind → Bool
  | .directive .bind | .directive .literal => true
  | _ => false

/-- The tokens form the phrase. -/
inductive Derives : Phrase → List Token → Prop where
  | operand {ts : List Token} : Derives .operand ts → Derives .statement ts
  | set {t : Token} {op : SetOperator} {ts us : List Token} : Derives .operand ts →
      t.kind = .set op → Derives .statement us → Derives .statement (ts ++ t :: us)
  | nil : Derives .operand []
  | cons {ts us : List Token} : Derives .item ts → Derives .operand us →
      Derives .operand (ts ++ us)
  | token {t : Token} : t.kind.isItem = true → Derives .item [t]
  | expand {t : Token} : t.kind = .directive .expand → Derives .item [t]
  | expandSample {t u : Token} : t.kind = .directive .expand → u.kind = .other → u.text = "*" →
      Derives .item [t, u]
  | value {t : Token} : t.kind.isValue = true → Derives .item [t]
  | valueSample {t u : Token} : t.kind.isValue = true → u.kind = .word ∨ u.kind = .quote →
      Derives .item [t, u]
  | valueGroup {t : Token} {ts : List Token} : t.kind.isValue = true → Derives .group ts →
      Derives .item (t :: ts)
  | group {ts : List Token} : Derives .group ts → Derives .item ts
  | ifBlock {t u : Token} {ts : List Token} : t.kind = .directive .ifBranch →
      Derives .branches ts → u.kind = .directive .blockEnd → Derives .item (t :: (ts ++ [u]))
  | forBlock {t u : Token} {ts : List Token} : t.kind = .directive .forLoop →
      Derives .operand ts → u.kind = .directive .blockEnd → Derives .item (t :: (ts ++ [u]))
  | brackets {t u : Token} {ts : List Token} : t.kind = .openBracket →
      Derives .statement ts → u.kind = .closeBracket → Derives .group (t :: (ts ++ [u]))
  | lastBranch {ts : List Token} : Derives .operand ts → Derives .branches ts
  | elseifBranch {t : Token} {ts us : List Token} : Derives .operand ts →
      t.kind = .directive .elseifBranch → Derives .branches us → Derives .branches (ts ++ t :: us)
  | elseBranch {t : Token} {ts us : List Token} : Derives .operand ts →
      t.kind = .directive .elseBranch → Derives .operand us → Derives .branches (ts ++ t :: us)

/-! ## What is open -/

/-- A construct whose end has not come. -/
inductive Open where
  | bracket
  /-- A block of which another branch may come. -/
  | choice
  /-- A block whose `else` has come. -/
  | otherwise
  | loop
  deriving DecidableEq

namespace Open

/-- What the construct has inside, from its start or from a branch on. -/
def inside : Open → Phrase
  | bracket => .statement
  | choice => .branches
  | otherwise | loop => .operand

/-- The token that ends the construct. -/
def ending : Open → TokenKind
  | bracket => .closeBracket
  | choice | otherwise | loop => .directive .blockEnd

/-- What is open after a token, the innermost first; none if the token does not fit. -/
def next? (k : TokenKind) (opens : List Open) : Option (List Open) :=
  match k with
  | .stop | .delimiter => none
  | .openBracket => some (bracket :: opens)
  | .set _ => if opens.head?.all (· = bracket) then some opens else none
  | .directive .ifBranch => some (choice :: opens)
  | .directive .forLoop => some (loop :: opens)
  | .directive .elseifBranch => if opens.head? = some choice then some opens else none
  | .directive .elseBranch =>
    if opens.head? = some choice then some (otherwise :: opens.tail) else none
  | .closeBracket | .directive .blockEnd =>
    if opens.head?.any (·.ending = k) then some opens.tail else none
  | .word | .quote | .blank | .comment | .other | .clause _ | .connector _
  | .directive .embedded | .directive .bind | .directive .literal | .directive .expand => some opens

/-- What is open after tokens. -/
def after? (opens : List Open) (ts : List Token) : Option (List Open) :=
  ts.foldlM (fun opens t => next? t.kind opens) opens

end Open

open Open

theorem after?_cons {opens : List Open} {t : Token} {ts : List Token} :
    after? opens (t :: ts) = (next? t.kind opens).bind (after? · ts) := List.foldlM_cons ..

theorem after?_append {opens : List Open} {ts us : List Token} :
    after? opens (ts ++ us) = (after? opens ts).bind (after? · us) := List.foldlM_append ..

/-! ## Every statement is recognized -/

theorem next?_item {k : TokenKind} (h : k.isItem = true) (opens : List Open) :
    next? k opens = some opens := by
  cases k with
  | directive d => cases d <;> first | rfl | cases h
  | _ => first | rfl | cases h

theorem next?_value {k : TokenKind} (h : k.isValue = true) (opens : List Open) :
    next? k opens = some opens := by
  cases k with
  | directive d => cases d <;> first | rfl | cases h
  | _ => cases h

/-- What reading a phrase does to what is open around it. -/
def Phrase.Keeps (ts : List Token) : Phrase → Prop
  | operand | item | group => ∀ opens, after? opens ts = some opens
  | statement => ∀ opens, opens.head?.all (· = bracket) = true → after? opens ts = some opens
  | branches => ∀ opens, ∃ o, o.ending = .directive .blockEnd ∧
      after? (choice :: opens) ts = some (o :: opens)

theorem Derives.keeps {phrase : Phrase} {ts : List Token} (h : Derives phrase ts) :
    phrase.Keeps ts := by
  induction h with
  | operand _ ih => exact fun opens _ => ih opens
  | @set t op ts us _ ht _ ih ih' =>
    intro opens hopens
    have hnext : next? t.kind opens = some opens := by rw [ht]; exact if_pos hopens
    rw [after?_append, ih opens, Option.bind_some, after?_cons, hnext, Option.bind_some]
    exact ih' opens hopens
  | nil => exact fun _ => rfl
  | @cons ts us _ _ ih ih' =>
    intro opens
    rw [after?_append, ih opens, Option.bind_some]
    exact ih' opens
  | token ht =>
    intro opens
    rw [after?_cons, next?_item ht]
    rfl
  | expand ht =>
    intro opens
    rw [after?_cons, ht]
    rfl
  | expandSample ht hu =>
    intro opens
    rw [after?_cons, ht, next?, Option.bind_some, after?_cons, hu]
    rfl
  | value ht =>
    intro opens
    rw [after?_cons, next?_value ht]
    rfl
  | valueSample ht hu =>
    intro opens
    rw [after?_cons, next?_value ht, Option.bind_some, after?_cons]
    rcases hu with hu | hu <;> rw [hu] <;> rfl
  | valueGroup ht _ ih =>
    intro opens
    rw [after?_cons, next?_value ht, Option.bind_some]
    exact ih opens
  | group _ ih => exact ih
  | @ifBlock t u ts ht _ hu ih =>
    intro opens
    obtain ⟨o, ho, hbranches⟩ := ih opens
    rw [after?_cons, ht, next?, Option.bind_some, after?_append, hbranches, Option.bind_some,
      after?_cons, hu]
    simp [next?, ho, after?]
  | @forBlock t u ts ht _ hu ih =>
    intro opens
    rw [after?_cons, ht, next?, Option.bind_some, after?_append, ih, Option.bind_some,
      after?_cons, hu]
    rfl
  | @brackets t u ts ht _ hu ih =>
    intro opens
    rw [after?_cons, ht, next?, Option.bind_some, after?_append, ih _ rfl, Option.bind_some,
      after?_cons, hu]
    rfl
  | lastBranch _ ih => exact fun opens => ⟨choice, rfl, ih _⟩
  | @elseifBranch t ts us _ ht _ ih ih' =>
    intro opens
    rw [after?_append, ih, Option.bind_some, after?_cons, ht]
    exact ih' opens
  | @elseBranch t ts us _ ht _ ih ih' =>
    intro opens
    refine ⟨otherwise, rfl, ?_⟩
    rw [after?_append, ih, Option.bind_some, after?_cons, ht]
    exact ih' _

/-! ## What is recognized is a statement -/

/-- The tokens end all that is open, and the statement around it. -/
inductive Closes : List Open → List Token → Prop where
  | statement {ts : List Token} : Derives .statement ts → Closes [] ts
  | inner {o : Open} {opens : List Open} {t : Token} {ts us : List Token} :
      Derives o.inside ts → t.kind = o.ending → Closes opens us →
      Closes (o :: opens) (ts ++ t :: us)

/-- Phrases that start with items. -/
def Phrase.startsWithItems : Phrase → Bool
  | statement | operand | branches => true
  | item | group => false

theorem Open.startsWithItems_inside (o : Open) : o.inside.startsWithItems = true := by
  cases o <;> rfl

/-- Another item fits at the start. -/
theorem Derives.item_append {phrase : Phrase} {ts us : List Token} (hts : Derives .item ts)
    (hphrase : phrase.startsWithItems = true) (hus : Derives phrase us) :
    Derives phrase (ts ++ us) := by
  cases hus with
  | operand h => exact .operand (.cons hts h)
  | set h ht h' =>
    rw [← List.append_assoc]
    exact .set (.cons hts h) ht h'
  | nil => exact .cons hts .nil
  | cons h h' => exact .cons hts (.cons h h')
  | lastBranch h => exact .lastBranch (.cons hts h)
  | elseifBranch h ht h' =>
    rw [← List.append_assoc]
    exact .elseifBranch (.cons hts h) ht h'
  | elseBranch h ht h' =>
    rw [← List.append_assoc]
    exact .elseBranch (.cons hts h) ht h'
  | _ => cases hphrase

theorem Closes.item_append {opens : List Open} {ts us : List Token} (hts : Derives .item ts)
    (hus : Closes opens us) : Closes opens (ts ++ us) := by
  cases hus with
  | statement h => exact .statement (hts.item_append rfl h)
  | @inner o opens t us vs h ht h' =>
    rw [← List.append_assoc]
    exact .inner (hts.item_append o.startsWithItems_inside h) ht h'

/-- A construct that the token opens is an item with what is before its end. -/
theorem Closes.of_inner {o : Open} {opens : List Open} {t : Token} {ts : List Token}
    (hitem : ∀ {us : List Token} {u : Token}, Derives o.inside us → u.kind = o.ending →
      Derives .item (t :: (us ++ [u])))
    (h : Closes (o :: opens) ts) : Closes opens (t :: ts) := by
  cases h with
  | @inner _ _ u us vs hus hu hvs =>
    have happend : t :: (us ++ u :: vs) = t :: (us ++ [u]) ++ vs := by simp
    rw [happend]
    exact hvs.item_append (hitem hus hu)

theorem Open.derives_nil (o : Open) : Derives o.inside [] := by
  cases o with
  | bracket => exact .operand .nil
  | choice => exact .lastBranch .nil
  | otherwise | loop => exact .nil

/-- The token ends the innermost construct. -/
theorem Closes.of_ending {opens opens' : List Open} {t : Token} {ts : List Token}
    (hnext : (if opens.head?.any (·.ending = t.kind) then some opens.tail else none) = some opens')
    (h : Closes opens' ts) : Closes opens (t :: ts) := by
  obtain ⟨hopen, heq⟩ := Option.ite_none_right_eq_some.mp hnext
  cases heq
  cases opens with
  | nil => cases hopen
  | cons o opens =>
    have hending : o.ending = t.kind := by simpa using hopen
    exact .inner o.derives_nil hending.symm h

/-- Tokens that end what is open after a token end, with that token, what was open before it. -/
theorem Closes.of_next? {opens opens' : List Open} {t : Token} {ts : List Token}
    (hnext : next? t.kind opens = some opens') (h : Closes opens' ts) : Closes opens (t :: ts) := by
  obtain ⟨kind, text, start⟩ := t
  cases kind with
  | stop | delimiter => cases hnext
  | word | quote | blank | comment | other | clause | connector =>
    cases hnext
    exact h.item_append (.token rfl)
  | openBracket =>
    cases hnext
    exact Closes.of_inner (o := bracket) (fun hus hu => .group (.brackets rfl hus hu)) h
  | closeBracket => exact .of_ending hnext h
  | set op =>
    obtain ⟨hopen, heq⟩ := Option.ite_none_right_eq_some.mp hnext
    cases heq
    cases h with
    | statement h => exact .statement (.set .nil rfl h)
    | @inner o _ _ _ _ hus hu hvs =>
      obtain rfl : o = bracket := by simpa using hopen
      exact .inner (o := bracket) (.set .nil rfl hus) hu hvs
  | directive d =>
    cases d with
    | bind | literal =>
      cases hnext
      exact h.item_append (.value rfl)
    | embedded =>
      cases hnext
      exact h.item_append (.token rfl)
    | expand =>
      cases hnext
      exact h.item_append (.expand rfl)
    | ifBranch =>
      cases hnext
      exact Closes.of_inner (o := choice) (.ifBlock rfl) h
    | forLoop =>
      cases hnext
      exact Closes.of_inner (o := loop) (.forBlock rfl) h
    | elseifBranch =>
      obtain ⟨hopen, heq⟩ := Option.ite_none_right_eq_some.mp hnext
      cases heq
      obtain ⟨rest, rfl⟩ := List.head?_eq_some_iff.mp hopen
      cases h with
      | inner hus hu hvs => exact .inner (o := choice) (.elseifBranch .nil rfl hus) hu hvs
    | elseBranch =>
      obtain ⟨hopen, heq⟩ := Option.ite_none_right_eq_some.mp hnext
      cases heq
      obtain ⟨rest, rfl⟩ := List.head?_eq_some_iff.mp hopen
      cases h with
      | inner hus hu hvs => exact .inner (o := choice) (.elseBranch .nil rfl hus) hu hvs
    | blockEnd => exact .of_ending hnext h

theorem closes_of_after? {ts : List Token} {opens : List Open} (h : after? opens ts = some []) :
    Closes opens ts := by
  induction ts generalizing opens with
  | nil =>
    cases h
    exact .statement (.operand .nil)
  | cons t ts ih =>
    rw [after?_cons] at h
    obtain ⟨opens', hnext, h⟩ := Option.bind_eq_some_iff.mp h
    exact .of_next? hnext (ih h)

/-- A statement is recognized by nothing being open at its end. -/
theorem derives_statement_iff {ts : List Token} :
    Derives .statement ts ↔ after? [] ts = some [] := by
  constructor
  · intro h
    exact h.keeps [] rfl
  · intro h
    cases closes_of_after? h with
    | statement h => exact h

end TwoWaySql.Template
