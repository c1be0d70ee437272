import TwoWaySql.Expr.Builtin
import TwoWaySql.Proofs.Expr.Outermost

/-!
# The arguments of calls

A call gives its function the values of the arguments, and a list has the values of its items. But
brackets leave no trace in a tree: items join those of a first one that is a list itself, and a
single argument that is a list or empty is taken for several or none. Only then does a function not
get exactly the values of the arguments (`values_kept_iff`).
-/

namespace TwoWaySql.Expr

open Text (isIdentifier)

variable {registry : Registry} {scope : Scope}

/-! ## Trees of arguments -/

namespace Tree

def isList : Tree → Bool
  | list _ _ => true
  | _ => false

def isEmpty : Tree → Bool
  | empty _ => true
  | _ => false

theorem items_of_not_isList {t : Tree} (h : t.isList = false) : t.items = [t] := by
  cases t with
  | list => cases h
  | _ => rfl

end Tree

/-- What several expressions with commas between them are parsed to. -/
def joinedTree : List Tree → Tree
  | [] => .empty nowhere
  | [t] => t
  | t :: more => .list (t.items ++ more) nowhere

/-- The first expression is no list, and if it is the only one, it is not empty. -/
def KeptApart : List Tree → Prop
  | [] => True
  | [t] => t.isList = false ∧ t.isEmpty = false
  | t :: _ => t.isList = false

/-- A list has two items or more. -/
theorem Derives.two_le_length {source : String} {φ : Phrase} {ts : List Token} {tree : Tree}
    (h : Derives source φ ts tree) {items : List Tree} {l : Location}
    (htree : tree = .list items l) : 2 ≤ items.length := by
  induction h generalizing items l with
  | group _ ih | single _ ih | operand _ ih | primary _ ih => exact ih htree
  | @comma _ _ _ left _ _ _ _ ihleft =>
    rw [Tree.joined_eq] at htree
    cases htree
    rw [List.length_append, List.length_singleton]
    cases left with
    | list items =>
      have := ihleft rfl
      simp only [Tree.items]
      omega
    | _ => exact Nat.le_refl 2
  | brackets _ _ _ ih => exact ih htree
  | empty | binary | not | property | call | literal | name => cases htree

/-! ## Values of items -/

theorem length_evalItems {ts : List Tree} {vs : List BoundValue}
    (h : evalItems registry scope ts = .ok vs) : vs.length = ts.length := by
  induction ts generalizing vs with
  | nil =>
    cases h
    rfl
  | cons t ts ih =>
    rw [evalItems] at h
    obtain ⟨v, -, h⟩ := bind_eq_ok.mp h
    obtain ⟨ws, hws, h⟩ := bind_eq_ok.mp h
    cases h
    rw [List.length_cons, List.length_cons, ih hws]

theorem evalItems_append {ts us : List Tree} {vs ws : List BoundValue}
    (hts : evalItems registry scope ts = .ok vs) (hus : evalItems registry scope us = .ok ws) :
    evalItems registry scope (ts ++ us) = .ok (vs ++ ws) := by
  induction ts generalizing vs with
  | nil =>
    cases hts
    exact hus
  | cons t ts ih =>
    rw [evalItems] at hts
    obtain ⟨v, hv, hts⟩ := bind_eq_ok.mp hts
    obtain ⟨vs', hvs, hts⟩ := bind_eq_ok.mp hts
    cases hts
    rw [List.cons_append, evalItems, hv]
    refine bind_eq_ok.mpr ⟨v, rfl, bind_eq_ok.mpr ⟨vs' ++ ws, ih hvs, rfl⟩⟩

theorem evalItems_singleton {t : Tree} {v : BoundValue} (h : eval registry scope t = .ok v) :
    evalItems registry scope [t] = .ok [v] := by
  rw [evalItems, h]
  rfl

/-- The value of a list is the list of the values of its items. -/
theorem eval_list_eq_ok {items : List Tree} {l : Location} {v : BoundValue}
    (h : eval registry scope (.list items l) = .ok v) :
    ∃ vs, evalItems registry scope items = .ok vs ∧ v = .of (.list (vs.map (·.value))) := by
  rw [eval] at h
  obtain ⟨vs, hvs, h⟩ := bind_eq_ok.mp h
  cases h
  exact ⟨vs, hvs, rfl⟩

/-- The values of items after those of a first tree: one for each, unless the first tree is a list,
which has more than one. -/
theorem evalItems_items {t : Tree} {more : List Tree} {v : BoundValue} {ws : List BoundValue}
    (ht : eval registry scope t = .ok v) (hmore : evalItems registry scope more = .ok ws)
    (hlist : ∀ items l, t = .list items l → 2 ≤ items.length) :
    ∃ vs, evalItems registry scope (t.items ++ more) = .ok vs ∧
      (t.isList = false → vs = v :: ws) ∧ (t.isList = true → (v :: ws).length < vs.length) := by
  cases t with
  | list items l =>
    obtain ⟨vs, hvs, -⟩ := eval_list_eq_ok ht
    refine ⟨vs ++ ws, evalItems_append hvs hmore, nofun, fun _ => ?_⟩
    have htwo := hlist items l rfl
    have hlength := length_evalItems hvs
    rw [List.length_cons, List.length_append]
    omega
  | _ =>
    rw [Tree.items_of_not_isList rfl]
    exact ⟨v :: ws, evalItems_append (evalItems_singleton ht) hmore, fun _ => rfl, nofun⟩

theorem argumentValues_single {t : Tree} (hlist : t.isList = false) (hempty : t.isEmpty = false) :
    argumentValues registry scope t = (eval registry scope t).map ([·]) := by
  cases t with
  | list => cases hlist
  | empty => cases hempty
  | _ => rfl

/-- The values that a function gets are those of the arguments if these are kept apart, and else
not even as many. -/
theorem exists_argumentValues {ts : List Tree} {vs : List BoundValue} (hne : ts ≠ [])
    (hts : evalItems registry scope ts = .ok vs)
    (hlists : ∀ t ∈ ts, ∀ items l, t = .list items l → 2 ≤ items.length) :
    ∃ values, argumentValues registry scope (joinedTree ts) = .ok values ∧
      (KeptApart ts → values = vs) ∧ (values.length = vs.length → KeptApart ts) := by
  cases ts with
  | nil => exact absurd rfl hne
  | cons t more =>
    rw [evalItems] at hts
    obtain ⟨v, hv, hts⟩ := bind_eq_ok.mp hts
    obtain ⟨ws, hws, hts⟩ := bind_eq_ok.mp hts
    cases hts
    obtain ⟨us, hus, hkept, hlong⟩ := evalItems_items hv hws (hlists t (List.mem_cons_self ..))
    have hlength : us.length = (v :: ws).length → t.isList = false := fun h => by
      cases hlist : t.isList with
      | false => rfl
      | true => exact absurd (hlong hlist) (by rw [h]; exact Nat.lt_irrefl _)
    cases more with
    | cons next more => exact ⟨us, hus, hkept, hlength⟩
    | nil =>
      rw [List.append_nil] at hus
      cases hws
      cases t with
      | empty => exact ⟨[], rfl, (fun h => nomatch h.2), nofun⟩
      | list => exact ⟨us, hus, (fun h => nomatch h.1), (fun h => nomatch hlength h)⟩
      | _ =>
        refine ⟨[v], ?_, fun _ => rfl, fun _ => ⟨rfl, rfl⟩⟩
        rw [joinedTree, argumentValues_single rfl rfl, hv]
        rfl

/-! ## Expressions by themselves -/

/-- Every limit that does not refuse the text gives the tree, and no limit refuses it that is as
large as the text is long. -/
structure ParsesTo (source : String) (tree : Tree) : Prop where
  accepted : ∀ limit, source.length ≤ limit → parse limit source = .ok tree
  unique : ∀ limit tree', parse limit source = .ok tree' → tree' = tree

theorem parsesTo_of_parse {source : String} {tree : Tree} {limit : Nat}
    (h : parse limit source = .ok tree) : ParsesTo source tree := by
  have haccepted {limit' : Nat} {tree' : Tree} (h : parse limit' source = .ok tree') :
      ∀ limit, source.length ≤ limit → parse limit source = .ok tree' := fun limit hlimit =>
    have hlex := failure?_of_parse h
    parse_of_derives hlex (Nat.le_trans (length_significant_lex hlex) hlimit)
      (derives_of_parse h).1 (derives_of_parse h).2
  refine ⟨haccepted h, fun limit' tree' h' => ?_⟩
  have hsame := haccepted h' _ (Nat.le_refl _)
  rw [haccepted h _ (Nat.le_refl _)] at hsame
  exact (Except.ok.inj hsame).symm

theorem ReadsAs.parsesTo {source : String} {φ : Phrase} {follows : List Char → Prop} {t : Tree}
    (h : ReadsAs φ follows source.toList t) (hφ : 0 < φ.rank) (hend : follows []) :
    ∃ tree, ParsesTo source tree ∧ tree.unlocated = t.unlocated := by
  obtain ⟨tree, htree, ht⟩ := map_eq_ok.mp (h.parse hφ hend (Nat.le_refl _))
  exact ⟨tree, parsesTo_of_parse htree, ht⟩

/-- An expression with its tree and value. -/
structure Item where
  text : String
  tree : Tree
  value : BoundValue

namespace Item

/-- By itself, the text is parsed to the tree, is not empty, and has the value. -/
structure Evaluates (registry : Registry) (scope : Scope) (item : Item) : Prop where
  parses : ∃ limit, parse limit item.text = .ok item.tree
  notEmpty : significant (lex item.text).tokens ≠ []
  evaluates : eval registry scope item.tree = .ok item.value

/-- No comma stands outside brackets. -/
def NoComma (item : Item) : Prop :=
  ∀ t ∈ outer 0 (significant (lex item.text).tokens), t.kind ≠ .operator .comma

/-- A member may follow: no operator stands outside brackets, and no integer at the end, where it
would take the point. -/
structure TakesMember (item : Item) : Prop where
  noOperator : ∀ t ∈ outer 0 (significant (lex item.text).tokens), ∀ op, t.kind ≠ .operator op
  noInteger : ∀ t ∈ (lex item.text).tokens.dropLast.getLast?, t.kind ≠ .int

variable {item : Item} {items : List Item}

theorem Evaluates.readsAs (h : item.Evaluates registry scope) (hcomma : item.NoComma) :
    ReadsAs (.chain .or) EndsItem item.text.toList item.tree.unlocated := by
  obtain ⟨limit, hparse⟩ := h.parses
  exact readsAs_item hparse h.notEmpty hcomma

theorem Evaluates.readsAs_receiver (h : item.Evaluates registry scope)
    (hmember : item.TakesMember) :
    ReadsAs .access StartsMember item.text.toList item.tree.unlocated := by
  obtain ⟨limit, hparse⟩ := h.parses
  exact Expr.readsAs_receiver hparse h.notEmpty hmember.noOperator hmember.noInteger

theorem Evaluates.two_le_length (h : item.Evaluates registry scope) {items : List Tree}
    {l : Location} (htree : item.tree = .list items l) : 2 ≤ items.length := by
  obtain ⟨limit, hparse⟩ := h.parses
  exact (derives_of_parse hparse).2.two_le_length htree

theorem evalItems_eq_ok (h : ∀ item ∈ items, item.Evaluates registry scope) :
    evalItems registry scope (items.map (·.tree)) = .ok (items.map (·.value)) := by
  induction items with
  | nil => rfl
  | cons item items ih =>
    obtain ⟨hitem, hitems⟩ := List.forall_mem_cons.mp h
    rw [List.map_cons, evalItems, hitem.evaluates]
    exact bind_eq_ok.mpr ⟨_, rfl, bind_eq_ok.mpr ⟨_, ih hitems, rfl⟩⟩

end Item

/-- Expressions with commas between them. -/
def listText (items : List Item) : String := ",".intercalate (items.map (·.text))

/-- A call of a member with the expressions as its arguments. -/
def callText (receiver : Item) (name : String) (items : List Item) : String :=
  receiver.text ++ "." ++ name ++ "(" ++ listText items ++ ")"

theorem toList_listText (item : Item) (items : List Item) :
    (listText (item :: items)).toList =
      item.text.toList ++ items.flatMap fun item => ',' :: item.text.toList := by
  rw [listText, String.toList_intercalate]
  induction items generalizing item with
  | nil => simp
  | cons next items ih => simpa [List.intercalate_cons_cons] using ih next

/-- Expressions with commas between them are parsed to the joined tree. -/
theorem readsAs_listText {items : List Item} (hne : items ≠ [])
    (hitems : ∀ item ∈ items, ReadsAs (.chain .or) EndsItem item.text.toList item.tree.unlocated) :
    ReadsAs (.chain .list) EndsItem (listText items).toList
      (joinedTree (items.map (·.tree))).unlocated := by
  cases items with
  | nil => exact absurd rfl hne
  | cons item items =>
    obtain ⟨hitem, hmore⟩ := List.forall_mem_cons.mp hitems
    have hfirst : ReadsAs (.chain .list) EndsItem item.text.toList item.tree.unlocated :=
      hitem.loosen (by decide) (by decide)
    rw [toList_listText]
    cases items with
    | nil => simpa [joinedTree] using hfirst
    | cons next items =>
      have hlist := hfirst.items
        (List.cons_ne_nil (next.text.toList, next.tree.unlocated)
          (items.map fun item => (item.text.toList, item.tree.unlocated)))
        (by simpa using hmore)
      rw [Tree.items_unlocated] at hlist
      simpa [joinedTree, Tree.unlocated, Tree.unlocatedItems_eq, List.flatMap_map,
        Function.comp_def] using hlist

/-! ## Values of arguments -/

/-- The value of a list is that of the arguments which it would be. -/
theorem eval_joinedTree {ts : List Tree} {values : List BoundValue} (hts : 2 ≤ ts.length)
    (h : argumentValues registry scope (joinedTree ts) = .ok values) :
    eval registry scope (joinedTree ts) = .ok (.of (.list (values.map (·.value)))) := by
  match ts, hts with
  | t :: next :: more, _ =>
    change eval registry scope (.list (t.items ++ next :: more) nowhere) = _
    rw [eval]
    exact bind_eq_ok.mpr ⟨values, h, rfl⟩

theorem toList_callText (receiver : Item) (name : String) (items : List Item) :
    (callText receiver name items).toList = receiver.text.toList ++
      ('.' :: name.toList ++ ('(' :: ((listText items).toList ++ [')']))) := by
  simp [callText]

theorem eq_call_of_unlocated {tree r arguments : Tree} {name : String}
    (h : tree.unlocated = .call r name arguments nowhere) :
    ∃ r' arguments' l, tree = .call r' name arguments' l ∧ r'.unlocated = r ∧
      arguments'.unlocated = arguments := by
  cases tree with
  | call r' name' arguments' l =>
    rw [Tree.unlocated] at h
    cases h
    exact ⟨r', arguments', l, rfl, rfl, rfl⟩
  | _ => cases h

/-- Trees that differ in locations have the same value. -/
theorem eval_of_unlocated {tree tree' : Tree} {v : BoundValue}
    (htree : tree.unlocated = tree'.unlocated) (h : eval registry scope tree' = .ok v) :
    eval registry scope tree = .ok v := by
  rw [← toOption_eq_some, ← eval_unlocated, htree, eval_unlocated, toOption_eq_some]
  exact h

theorem argumentValues_of_unlocated {tree tree' : Tree} {values : List BoundValue}
    (htree : tree.unlocated = tree'.unlocated)
    (h : argumentValues registry scope tree' = .ok values) :
    argumentValues registry scope tree = .ok values := by
  rw [← toOption_eq_some, ← argumentValues_unlocated, htree, argumentValues_unlocated,
    toOption_eq_some]
  exact h

/-- A call answers what its function makes of the values of the arguments, unless the receiver is
null. -/
theorem eval_call_eq {r arguments : Tree} {name : String} {l : Location} {v : BoundValue}
    {function : Function} {values : List BoundValue} (hr : eval registry scope r = .ok v)
    (hfunction : registry.function? v.value name = some function)
    (harguments : argumentValues registry scope arguments = .ok values) :
    eval registry scope (.call r name arguments l) =
      if v.value.isNull then .error (evaluationError (.nullReceiver .function name) l)
      else (function v.value values).mapError fun failure =>
        evaluationError (.failedCall name failure) l := by
  rw [eval_call, hr]
  change (if v.value.isNull then _ else _) = _
  rw [hfunction, harguments]
  rfl

/-- A call is parsed to a call of the receiver with the joined tree. -/
theorem parsesTo_callText {receiver : Item} {name : String} {items : List Item}
    (hreceiver : receiver.Evaluates registry scope) (hmember : receiver.TakesMember)
    (hname : isIdentifier name.toList = true) (hne : items ≠ [])
    (hitems : ∀ item ∈ items, item.Evaluates registry scope ∧ item.NoComma) :
    ∃ r arguments l, ParsesTo (callText receiver name items) (.call r name arguments l) ∧
      eval registry scope r = .ok receiver.value ∧
      arguments.unlocated = (joinedTree (items.map (·.tree))).unlocated := by
  have hread := readsAs_listText hne fun item hitem =>
    (hitems item hitem).1.readsAs (hitems item hitem).2
  have hcall := (hreceiver.readsAs_receiver hmember).call hname hread.fills
  rw [← toList_callText] at hcall
  obtain ⟨tree, htree, hcall⟩ := hcall.parsesTo (by decide) trivial
  obtain ⟨r, arguments, l, rfl, hr, harguments⟩ := eq_call_of_unlocated hcall
  rw [Tree.unlocated_unlocated] at hr harguments
  exact ⟨r, arguments, l, htree, eval_of_unlocated hr hreceiver.evaluates, harguments⟩

theorem parsesTo_listText {items : List Item} (hne : items ≠ [])
    (hitems : ∀ item ∈ items, item.Evaluates registry scope ∧ item.NoComma) :
    ∃ tree, ParsesTo (listText items) tree ∧
      tree.unlocated = (joinedTree (items.map (·.tree))).unlocated := by
  have hread := readsAs_listText hne fun item hitem =>
    (hitems item hitem).1.readsAs (hitems item hitem).2
  obtain ⟨tree, htree, hlist⟩ := hread.parsesTo (by decide) endsItem_nil
  rw [Tree.unlocated_unlocated] at hlist
  exact ⟨tree, htree, hlist⟩

/-- In a call, a function gets exactly the values of the arguments if these are kept apart, and only
then. Likewise a list has exactly the values of its items if the first one is no list, and only
then. -/
theorem values_kept_iff {receiver : Item} {name : String} {function : Function} {items : List Item}
    (hreceiver : receiver.Evaluates registry scope) (hmember : receiver.TakesMember)
    (hname : isIdentifier name.toList = true)
    (hfunction : registry.function? receiver.value.value name = some function) (hne : items ≠ [])
    (hitems : ∀ item ∈ items, item.Evaluates registry scope ∧ item.NoComma) :
    (∃ r arguments l values,
      ParsesTo (callText receiver name items) (.call r name arguments l) ∧
      argumentValues registry scope arguments = .ok values ∧
      (eval registry scope (.call r name arguments l) =
        if receiver.value.value.isNull then
          .error (evaluationError (.nullReceiver .function name) l)
        else (function receiver.value.value values).mapError fun failure =>
          evaluationError (.failedCall name failure) l) ∧
      (values = items.map (·.value) ↔ KeptApart (items.map (·.tree)))) ∧
    (2 ≤ items.length → ∃ tree values,
      ParsesTo (listText items) tree ∧
      eval registry scope tree = .ok (.of (.list values)) ∧
      (values = items.map (·.value.value) ↔ KeptApart (items.map (·.tree)))) := by
  have hvs := Item.evalItems_eq_ok fun item hitem => (hitems item hitem).1
  have hlists : ∀ t ∈ items.map (·.tree), ∀ its l, t = .list its l → 2 ≤ its.length :=
    List.forall_mem_map.mpr fun item hitem _ _ => (hitems item hitem).1.two_le_length
  obtain ⟨values, hvalues, hkept, hlength⟩ := exists_argumentValues (by simpa using hne) hvs hlists
  constructor
  · obtain ⟨r, arguments, l, hparses, hr, harguments⟩ :=
      parsesTo_callText hreceiver hmember hname hne hitems
    have hvalues' := argumentValues_of_unlocated harguments hvalues
    exact ⟨r, arguments, l, values, hparses, hvalues', eval_call_eq hr hfunction hvalues',
      fun h => hlength (by rw [h]), hkept⟩
  · intro htwo
    obtain ⟨tree, hparses, hlist⟩ := parsesTo_listText hne hitems
    refine ⟨tree, values.map (·.value), hparses,
      eval_of_unlocated hlist (eval_joinedTree (by simpa using htwo) hvalues), ?_, fun h => ?_⟩
    · intro h
      have hcount := congrArg List.length h
      simp only [List.length_map] at hcount
      exact hlength (by rw [hcount, List.length_map])
    · rw [hkept h, List.map_map]
      rfl

/-! ## A group of two -/

/-- Every value has a function that counts its arguments. -/
def counting : Registry :=
  .addFunction .empty .any "count" fun _ arguments => .ok (Builtin.count arguments.length)

theorem parse_of_tokens {limit height : Nat} {source : String} {ts : List Token}
    {s : ParserState} {tree : Tree} (htokens : (lex source).tokens = ts)
    (hfailure : (lex source).failure? = none)
    (hrun : ParserState.start.run limit source ts = .ok s)
    (hfinish : s.finish limit source = .ok ⟨tree, height⟩) : parse limit source = .ok tree := by
  subst htokens
  exact map_eq_ok.mpr ⟨_, parseOperand_eq_ok.mpr ⟨hfailure, s, hrun, hfinish⟩, rfl⟩

namespace Item

def flag : Item := ⟨"true", .literal (.of (.bool true)) ⟨"true", 0⟩, .of (.bool true)⟩

def one : Item := ⟨"1", .literal (.of (.int 1)) ⟨"1", 0⟩, .of (.int 1)⟩

/-- Brackets around a list. -/
def group : Item where
  text := "(2,3)"
  tree := .list [.literal (.of (.int 2)) ⟨"(2,3)", 1⟩, .literal (.of (.int 3)) ⟨"(2,3)", 3⟩]
    ⟨"(2,3)", 2⟩
  value := .of (.list [.int 2, .int 3])

theorem receiver_flag : flag.Evaluates counting .empty ∧ flag.TakesMember := by
  have htokens : (lex flag.text).tokens = [⟨.true, "true", 0⟩, ⟨.stop, "", 4⟩] := by decide +kernel
  have hparse : parse 4 flag.text = .ok flag.tree :=
    parse_of_tokens htokens (by decide +kernel) rfl rfl
  refine ⟨⟨⟨4, hparse⟩, by decide +kernel, rfl⟩, fun t ht op => ?_, by decide +kernel⟩
  have hkind : ∀ t ∈ outer 0 (significant (lex flag.text).tokens), t.kind = .true := by
    decide +kernel
  rw [hkind t ht]
  intro h
  cases h

theorem argument_one : one.Evaluates counting .empty ∧ one.NoComma := by
  have htokens : (lex one.text).tokens = [⟨.int, "1", 0⟩, ⟨.stop, "", 1⟩] := by decide +kernel
  have hparse : parse 1 one.text = .ok one.tree :=
    parse_of_tokens htokens (by decide +kernel) rfl rfl
  refine ⟨⟨⟨1, hparse⟩, by decide +kernel, rfl⟩, ?_⟩
  unfold NoComma
  decide +kernel

theorem argument_group : group.Evaluates counting .empty ∧ group.NoComma := by
  have htokens : (lex group.text).tokens =
      [⟨.openBracket, "(", 0⟩, ⟨.int, "2", 1⟩, ⟨.operator .comma, ",", 2⟩, ⟨.int, "3", 3⟩,
        ⟨.closeBracket, ")", 4⟩, ⟨.stop, "", 5⟩] := by decide +kernel
  have hparse : parse 5 group.text = .ok group.tree :=
    parse_of_tokens htokens (by decide +kernel) rfl rfl
  refine ⟨⟨⟨5, hparse⟩, by decide +kernel, rfl⟩, ?_⟩
  unfold NoComma
  decide +kernel

end Item

open Item in
/-- The call is `true.count(1,(2,3))`. -/
theorem values_kept_iff_second_group :
    (flag.Evaluates counting .empty ∧ flag.TakesMember) ∧ isIdentifier "count".toList = true ∧
    (∀ item ∈ [one, group], item.Evaluates counting .empty ∧ item.NoComma) ∧
    KeptApart [one.tree, group.tree] ∧
    (∃ r arguments l values,
      ParsesTo (callText flag "count" [one, group]) (.call r "count" arguments l) ∧
      argumentValues counting .empty arguments = .ok values ∧
      values = [one.value, group.value]) ∧
    ∃ tree values, ParsesTo (listText [one, group]) tree ∧
      eval counting .empty tree = .ok (.of (.list values)) ∧
      values = [one.value.value, group.value.value] := by
  have hname : isIdentifier "count".toList = true := by decide +kernel
  have hitems : ∀ item ∈ [one, group], item.Evaluates counting .empty ∧ item.NoComma := by
    simp only [List.forall_mem_cons]
    exact ⟨argument_one, argument_group, nofun⟩
  have hkept : KeptApart [one.tree, group.tree] := rfl
  obtain ⟨⟨r, arguments, l, values, hcall, harguments, -, hvalues⟩, hlist⟩ :=
    values_kept_iff receiver_flag.1 receiver_flag.2 hname rfl (List.cons_ne_nil _ _) hitems
  obtain ⟨tree, values', hparses, heval, hvalues'⟩ := hlist (by decide)
  exact ⟨receiver_flag, hname, hitems, hkept,
    ⟨r, arguments, l, values, hcall, harguments, hvalues.mpr hkept⟩,
    ⟨tree, values', hparses, heval, hvalues'.mpr hkept⟩⟩

open Item in
/-- The call `true.count((2,3))` gets two arguments for one, and `(2,3),1` is a list of three. -/
theorem values_lose_first_group :
    (flag.Evaluates counting .empty ∧ flag.TakesMember) ∧
    (∀ item ∈ [group, one], item.Evaluates counting .empty ∧ item.NoComma) ∧
    (∃ r arguments l values,
      ParsesTo (callText flag "count" [group]) (.call r "count" arguments l) ∧
      argumentValues counting .empty arguments = .ok values ∧
      values = [.of (.int 2), .of (.int 3)] ∧ values ≠ [group.value]) ∧
    ∃ tree values, ParsesTo (listText [group, one]) tree ∧
      eval counting .empty tree = .ok (.of (.list values)) ∧
      values = [.int 2, .int 3, .int 1] ∧ values ≠ [group.value.value, one.value.value] := by
  have hname : isIdentifier "count".toList = true := by decide +kernel
  have hgroup : ∀ item ∈ [group], item.Evaluates counting .empty ∧ item.NoComma :=
    List.forall_mem_singleton.mpr argument_group
  have hitems : ∀ item ∈ [group, one], item.Evaluates counting .empty ∧ item.NoComma := by
    simp only [List.forall_mem_cons]
    exact ⟨argument_group, argument_one, nofun⟩
  obtain ⟨r, arguments, l, hcall, -, harguments⟩ :=
    parsesTo_callText receiver_flag.1 receiver_flag.2 hname (List.cons_ne_nil _ _) hgroup
  obtain ⟨tree, hlist, htree⟩ := parsesTo_listText (List.cons_ne_nil _ _) hitems
  exact ⟨receiver_flag, hitems,
    ⟨r, arguments, l, _, hcall, argumentValues_of_unlocated harguments rfl, rfl, nofun⟩,
    ⟨tree, _, hlist, eval_of_unlocated htree rfl, rfl, nofun⟩⟩

end TwoWaySql.Expr
