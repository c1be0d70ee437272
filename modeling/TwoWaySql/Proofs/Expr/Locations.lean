import TwoWaySql.Expr.Eval
import TwoWaySql.Proofs.Expr.Grammar
import TwoWaySql.Proofs.Outcome

/-!
# Expressions without locations

Locations are for errors. Tokens derive the same tree wherever they stand, but for its locations
(`Derives.elsewhere`), and a tree without its locations has the value of the tree itself, or none
like it (`eval_unlocated`).
-/

namespace TwoWaySql.Expr

/-- The location that stands for all. -/
def nowhere : Location := ⟨"", 0⟩

namespace Tree

mutual

/-- The tree without its locations. -/
def unlocated : Tree → Tree
  | literal value _ => .literal value nowhere
  | name n _ => .name n nowhere
  | property receiver n _ => .property receiver.unlocated n nowhere
  | call receiver n arguments _ => .call receiver.unlocated n arguments.unlocated nowhere
  | list items _ => .list (unlocatedItems items) nowhere
  | not operand _ => .not operand.unlocated nowhere
  | binary op left right _ => .binary op left.unlocated right.unlocated nowhere
  | empty _ => .empty nowhere

def unlocatedItems : List Tree → List Tree
  | [] => []
  | t :: ts => t.unlocated :: unlocatedItems ts

end

theorem unlocatedItems_eq (ts : List Tree) : unlocatedItems ts = ts.map unlocated := by
  induction ts with
  | nil => rfl
  | cons t ts ih => rw [unlocatedItems, ih, List.map_cons]

mutual

theorem unlocated_unlocated : (t : Tree) → t.unlocated.unlocated = t.unlocated
  | literal _ _ | name _ _ | empty _ => by simp only [unlocated]
  | property receiver _ _ => by simp only [unlocated, unlocated_unlocated receiver]
  | call receiver _ arguments _ => by
    simp only [unlocated, unlocated_unlocated receiver, unlocated_unlocated arguments]
  | list items _ => by simp only [unlocated, unlocatedItems_unlocated items]
  | not operand _ => by simp only [unlocated, unlocated_unlocated operand]
  | binary _ left right _ => by
    simp only [unlocated, unlocated_unlocated left, unlocated_unlocated right]

theorem unlocatedItems_unlocated :
    (ts : List Tree) → unlocatedItems (unlocatedItems ts) = unlocatedItems ts
  | [] => by simp only [unlocatedItems]
  | t :: ts => by
    simp only [unlocatedItems, unlocated_unlocated t, unlocatedItems_unlocated ts]

end

/-- Whether a further item joins the items of the tree is seen without locations. -/
theorem unlocated_joined (left right : Tree) (location : Location) :
    (left.joined right location).unlocated =
      left.unlocated.joined right.unlocated nowhere := by
  cases left with
  | list items _ =>
    simp only [joined, unlocated, unlocatedItems_eq, List.map_append, List.map_cons, List.map_nil]
  | _ => simp only [joined, unlocated, unlocatedItems]

end Tree

/-! ## Derivations -/

/-- The token as if it stood at the start of a text. -/
def Token.bare (t : Token) : Token := { t with start := 0 }

theorem bare_eq_bare_iff {t u : Token} :
    Token.bare u = Token.bare t ↔ u.kind = t.kind ∧ u.text = t.text := by
  obtain ⟨k, s, n⟩ := t
  obtain ⟨k', s', n'⟩ := u
  simp [Token.bare]

/-- The phrase as if it stood at the start of a text. -/
def Phrase.unlocated : Phrase → Phrase
  | group _ => .group nowhere
  | φ => φ

theorem Phrase.eq_of_unlocated {φ φ' : Phrase} (h : φ'.unlocated = φ.unlocated)
    (hφ : 0 < φ.rank) : φ' = φ := by
  cases φ with
  | group => cases hφ
  | _ => cases φ' <;> first | exact h | cases h

variable {source source' : String}

/-- What tokens derive, the same tokens derive at any other place of any other text. -/
theorem Derives.elsewhere {φ φ' : Phrase} {ts us : List Token} {tree : Tree}
    (h : Derives source φ ts tree) (hφ : φ'.unlocated = φ.unlocated)
    (htokens : us.map Token.bare = ts.map Token.bare) :
    ∃ tree', Derives source' φ' us tree' ∧ tree'.unlocated = tree.unlocated := by
  induction h generalizing φ' us with
  | empty =>
    obtain rfl := List.map_eq_nil_iff.mp htokens
    cases φ' with
    | group start => exact ⟨_, .empty, rfl⟩
    | _ => cases hφ
  | group _ ih =>
    obtain ⟨tree', h', htree⟩ := ih rfl htokens
    cases φ' with
    | group start => exact ⟨tree', .group h', htree⟩
    | _ => cases hφ
  | @single level _ _ _ ih =>
    obtain rfl := Phrase.eq_of_unlocated hφ (by cases level <;> decide)
    obtain ⟨tree', h', htree⟩ := ih rfl htokens
    exact ⟨tree', .single h', htree⟩
  | @comma t ts vs left right _ ht _ ihleft ihright =>
    obtain rfl := Phrase.eq_of_unlocated hφ (by decide)
    rw [List.map_append, List.map_cons] at htokens
    obtain ⟨us', us'', rfl, hus', hus''⟩ := List.map_eq_append_iff.mp htokens
    obtain ⟨u, us'', rfl, hu, hus''⟩ := List.map_eq_cons_iff.mp hus''
    obtain ⟨hkind, -⟩ := bare_eq_bare_iff.mp hu
    obtain ⟨left', hleft, hleft'⟩ := ihleft rfl hus'
    obtain ⟨right', hright, hright'⟩ := ihright rfl hus''
    refine ⟨_, .comma hleft (hkind.trans ht) hright, ?_⟩
    rw [Tree.unlocated_joined, hleft', hright', Tree.unlocated_joined]
  | @binary t op ts vs left right _ ht _ ihleft ihright =>
    obtain rfl := Phrase.eq_of_unlocated hφ (by cases op <;> decide)
    rw [List.map_append, List.map_cons] at htokens
    obtain ⟨us', us'', rfl, hus', hus''⟩ := List.map_eq_append_iff.mp htokens
    obtain ⟨u, us'', rfl, hu, hus''⟩ := List.map_eq_cons_iff.mp hus''
    obtain ⟨hkind, -⟩ := bare_eq_bare_iff.mp hu
    obtain ⟨left', hleft, hleft'⟩ := ihleft rfl hus'
    obtain ⟨right', hright, hright'⟩ := ihright rfl hus''
    refine ⟨_, .binary hleft (hkind.trans ht) hright, ?_⟩
    simp only [Tree.unlocated, hleft', hright']
  | operand _ ih =>
    obtain rfl := Phrase.eq_of_unlocated hφ (by decide)
    obtain ⟨tree', h', htree⟩ := ih rfl htokens
    exact ⟨tree', .operand h', htree⟩
  | @not t ts tree ht _ ih =>
    obtain rfl := Phrase.eq_of_unlocated hφ (by decide)
    obtain ⟨u, us, rfl, hu, hus⟩ := List.map_eq_cons_iff.mp htokens
    obtain ⟨hkind, -⟩ := bare_eq_bare_iff.mp hu
    obtain ⟨tree', h', htree⟩ := ih rfl hus
    refine ⟨_, .not (hkind.trans ht) h', ?_⟩
    simp only [Tree.unlocated, htree]
  | primary _ ih =>
    obtain rfl := Phrase.eq_of_unlocated hφ (by decide)
    obtain ⟨tree', h', htree⟩ := ih rfl htokens
    exact ⟨tree', .primary h', htree⟩
  | @property t ts receiver _ ht ih =>
    obtain rfl := Phrase.eq_of_unlocated hφ (by decide)
    rw [List.map_append] at htokens
    obtain ⟨us, us', rfl, hus, hus'⟩ := List.map_eq_append_iff.mp htokens
    obtain ⟨u, rfl, hu⟩ := List.map_eq_singleton_iff.mp hus'
    obtain ⟨hkind, htext⟩ := bare_eq_bare_iff.mp hu
    obtain ⟨tree', h', htree⟩ := ih rfl hus
    refine ⟨_, .property h' (hkind.trans ht), ?_⟩
    simp only [Tree.unlocated, htree, Token.member, htext]
  | @call t o c ts vs receiver arguments _ ht ho _ hc ih ihgroup =>
    obtain rfl := Phrase.eq_of_unlocated hφ (by decide)
    rw [List.map_append, List.map_cons, List.map_cons, List.map_append] at htokens
    obtain ⟨us, ws, rfl, hus, hws⟩ := List.map_eq_append_iff.mp htokens
    obtain ⟨u, ws, rfl, hu, hws⟩ := List.map_eq_cons_iff.mp hws
    obtain ⟨o', ws, rfl, ho', hws⟩ := List.map_eq_cons_iff.mp hws
    obtain ⟨vs', cs, rfl, hvs', hcs⟩ := List.map_eq_append_iff.mp hws
    obtain ⟨c', rfl, hc'⟩ := List.map_eq_singleton_iff.mp hcs
    obtain ⟨hkind, htext⟩ := bare_eq_bare_iff.mp hu
    have hopen := (bare_eq_bare_iff.mp ho').1.trans ho
    have hclose := (bare_eq_bare_iff.mp hc').1.trans hc
    obtain ⟨receiver', h', hreceiver⟩ := ih rfl hus
    obtain ⟨arguments', h'', harguments⟩ := @ihgroup (.group ⟨source', o'.start⟩) vs' rfl hvs'
    refine ⟨_, .call h' (hkind.trans ht) hopen h'' hclose, ?_⟩
    simp only [Tree.unlocated, hreceiver, harguments, Token.member, htext]
  | @literal t ht =>
    obtain rfl := Phrase.eq_of_unlocated hφ (by decide)
    obtain ⟨u, rfl, hu⟩ := List.map_eq_singleton_iff.mp htokens
    obtain ⟨hkind, htext⟩ := bare_eq_bare_iff.mp hu
    refine ⟨_, .literal (hkind ▸ ht), ?_⟩
    simp only [Tree.unlocated, Token.literal, hkind, htext]
  | @name t ht =>
    obtain rfl := Phrase.eq_of_unlocated hφ (by decide)
    obtain ⟨u, rfl, hu⟩ := List.map_eq_singleton_iff.mp htokens
    obtain ⟨hkind, htext⟩ := bare_eq_bare_iff.mp hu
    refine ⟨_, .name (hkind.trans ht), ?_⟩
    simp only [Tree.unlocated, htext]
  | @brackets o c ts tree ho _ hc ih =>
    obtain rfl := Phrase.eq_of_unlocated hφ (by decide)
    rw [List.map_cons, List.map_append] at htokens
    obtain ⟨o', ws, rfl, ho', hws⟩ := List.map_eq_cons_iff.mp htokens
    obtain ⟨vs, cs, rfl, hvs, hcs⟩ := List.map_eq_append_iff.mp hws
    obtain ⟨c', rfl, hc'⟩ := List.map_eq_singleton_iff.mp hcs
    have hopen := (bare_eq_bare_iff.mp ho').1.trans ho
    have hclose := (bare_eq_bare_iff.mp hc').1.trans hc
    obtain ⟨tree', h', htree⟩ := @ih (.group ⟨source', o'.start⟩) vs rfl hvs
    exact ⟨tree', .brackets hopen h' hclose, htree⟩

/-- What tokens derive that all stand at the start of the empty text has no locations. -/
theorem Derives.unlocated {φ : Phrase} {ts : List Token} {tree : Tree} (h : Derives "" φ ts tree)
    (hφ : φ.unlocated = φ) (hstart : ∀ t ∈ ts, t.start = 0) : tree.unlocated = tree := by
  have hnowhere {t : Token} (ht : t.start = 0) : (⟨"", t.start⟩ : Location) = nowhere := by
    rw [ht]
    rfl
  induction h with
  | empty =>
    cases hφ
    rfl
  | group _ ih | operand _ ih | primary _ ih => exact ih rfl hstart
  | @single level _ _ _ ih => exact ih (by cases level <;> rfl) hstart
  | comma _ _ _ ihleft ihright =>
    obtain ⟨hts, ht, hus⟩ := (List.forall_mem_append.mp hstart).imp_right List.forall_mem_cons.mp
    rw [Tree.unlocated_joined, ihleft rfl hts, ihright rfl hus, hnowhere ht]
  | @binary _ op _ _ _ _ _ _ _ ihleft ihright =>
    obtain ⟨hts, ht, hus⟩ := (List.forall_mem_append.mp hstart).imp_right List.forall_mem_cons.mp
    rw [Tree.unlocated, ihleft rfl hts, ihright (by cases op <;> rfl) hus, hnowhere ht]
  | not _ _ ih =>
    obtain ⟨ht, hts⟩ := List.forall_mem_cons.mp hstart
    rw [Tree.unlocated, ih rfl hts, hnowhere ht]
  | property _ _ ih =>
    obtain ⟨hts, ht⟩ := List.forall_mem_append.mp hstart
    rw [Tree.unlocated, ih rfl hts, hnowhere (ht _ (List.mem_singleton_self _))]
  | call _ _ _ _ _ ih ihgroup =>
    obtain ⟨hts, ht, hu, hus, -⟩ := by
      simpa only [List.forall_mem_append, List.forall_mem_cons] using hstart
    rw [Tree.unlocated, ih rfl hts, ihgroup (by rw [hnowhere hu]; rfl) hus, hnowhere ht]
  | literal | name =>
    have ht := hstart _ (List.mem_singleton_self _)
    simp only [Token.literal, Tree.unlocated, hnowhere ht]
  | brackets _ _ _ ih =>
    obtain ⟨ht, hts, -⟩ := by
      simpa only [List.forall_mem_append, List.forall_mem_cons] using hstart
    exact ih (by rw [hnowhere ht]; rfl) hts

/-! ## Values -/

section

variable (registry : Registry) (scope : Scope)

/-- The values that a call gives to its function. -/
def argumentValues : Tree → Except Error (List BoundValue)
  | .empty _ => .ok []
  | .list items _ => evalItems registry scope items
  | single => (eval registry scope single).map ([·])

theorem eval_call (receiver : Tree) (name : String) (arguments : Tree) (location : Location) :
    eval registry scope (.call receiver name arguments location) = (do
      let receiver ← eval registry scope receiver
      if receiver.value.isNull then
        throw (evaluationError (.nullReceiver .function name) location)
      match registry.function? receiver.value name with
      | none =>
        throw (evaluationError (.unknownMember .function name receiver.value.type) location)
      | some function =>
        let values ← argumentValues registry scope arguments
        (function receiver.value values).mapError fun failure =>
          evaluationError (.failedCall name failure) location) := by
  rw [eval]
  refine bind_congr fun v => ?_
  dsimp only
  refine ite_congr rfl (fun _ => rfl) fun _ => ?_
  cases registry.function? v.value name with
  | none => rfl
  | some function =>
    cases arguments with
    | _ =>
      refine bind_congr fun values => ?_
      cases function v.value values <;> rfl

theorem truthOf_elsewhere (op : Operator) (operand : BoundValue) (l l' : Location) :
    (truthOf op l operand).toOption = (truthOf op l' operand).toOption := by
  unfold truthOf
  split <;> rfl

/-- The values of arguments are those of items, or the value of the tree itself. -/
theorem argumentValues_elsewhere {t : Tree}
    (heval : (eval registry scope t.unlocated).toOption = (eval registry scope t).toOption)
    (hitems : ∀ items l, t = .list items l →
      (evalItems registry scope (Tree.unlocatedItems items)).toOption =
        (evalItems registry scope items).toOption) :
    (argumentValues registry scope t.unlocated).toOption =
      (argumentValues registry scope t).toOption := by
  cases t with
  | list items l => exact hitems items l rfl
  | empty => rfl
  | _ =>
    simp only [Tree.unlocated, argumentValues, toOption_map] at heval ⊢
    rw [heval]

mutual

/-- Only errors tell where a tree stands. -/
theorem eval_unlocated :
    (t : Tree) → (eval registry scope t.unlocated).toOption = (eval registry scope t).toOption
  | .literal _ _ => by simp only [Tree.unlocated, eval]
  | .name n _ => by
    simp only [Tree.unlocated, eval]
    cases scope.lookup n <;> rfl
  | .property receiver n _ => by
    simp only [Tree.unlocated, eval, toOption_bind, eval_unlocated receiver]
    refine Option.bind_congr fun v _ => ?_
    split
    · rfl
    · cases registry.property? v.value n <;> rfl
  | .call receiver n arguments _ => by
    have harguments : (argumentValues registry scope arguments.unlocated).toOption =
        (argumentValues registry scope arguments).toOption := by
      refine argumentValues_elsewhere registry scope (eval_unlocated arguments) ?_
      rintro items _ rfl
      exact evalItems_unlocated items
    simp only [Tree.unlocated, eval_call, toOption_bind, eval_unlocated receiver]
    refine Option.bind_congr fun v _ => ?_
    split
    · rfl
    cases registry.function? v.value n with
    | none => rfl
    | some function =>
      simp only [toOption_bind, toOption_mapError, harguments]
  | .list items _ => by
    simp only [Tree.unlocated, eval, toOption_bind, evalItems_unlocated items]
  | .not operand l => by
    simp only [Tree.unlocated, eval, toOption_bind, eval_unlocated operand,
      truthOf_elsewhere .not _ nowhere l]
  | .binary op left right l => by
    simp only [Tree.unlocated, eval, toOption_bind, eval_unlocated left]
    refine Option.bind_congr fun v _ => ?_
    cases op.isLogical with
    | true =>
      simp only [if_true, toOption_bind, truthOf_elsewhere (.binary op) v nowhere l]
      refine Option.bind_congr fun b _ => ?_
      split
      · rfl
      · simp only [toOption_bind, eval_unlocated right, truthOf_elsewhere (.binary op) _ nowhere l]
    | false =>
      simp only [Bool.false_eq_true, if_false, toOption_bind, eval_unlocated right]
      refine Option.bind_congr fun w _ => ?_
      cases compareBy? op v.value w.value <;> rfl
  | .empty _ => by simp only [Tree.unlocated, eval]

theorem evalItems_unlocated : (ts : List Tree) →
    (evalItems registry scope (Tree.unlocatedItems ts)).toOption =
      (evalItems registry scope ts).toOption
  | [] => by simp only [Tree.unlocatedItems, evalItems]
  | t :: ts => by
    simp only [Tree.unlocatedItems, evalItems, toOption_bind, eval_unlocated t,
      evalItems_unlocated ts]

end

theorem argumentValues_unlocated (t : Tree) :
    (argumentValues registry scope t.unlocated).toOption =
      (argumentValues registry scope t).toOption :=
  argumentValues_elsewhere registry scope (eval_unlocated registry scope t)
    fun items _ _ => evalItems_unlocated registry scope items

end

end TwoWaySql.Expr
