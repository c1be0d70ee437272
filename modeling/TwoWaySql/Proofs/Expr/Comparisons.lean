import TwoWaySql.Expr.Builtin
import TwoWaySql.Proofs.Expr.Arguments
import TwoWaySql.Proofs.ValueOrder

/-!
# Comparisons

All comparisons of two expressions rest on one order and one equality of their values, so they
never contradict each other: where one of `<`, `<=`, `>` and `>=` can be told, all can, and `==` as
well. A list holds a value if and only if one of its items is equal to it
(`comparisons_coherent`).
-/

namespace TwoWaySql.Expr

variable {registry : Registry} {scope : Scope} {l r : Tree} {a b : BoundValue} {op : BinaryOp}

/-- A comparison is true or false, wherever it is written. -/
def Tells (registry : Registry) (scope : Scope) (op : BinaryOp) (l r : Tree) (truth : Bool) :
    Prop :=
  ∀ location, eval registry scope (.binary op l r location) = .ok (.of (.bool truth))

/-- A comparison can be told. -/
def Defined (registry : Registry) (scope : Scope) (op : BinaryOp) (l r : Tree) : Prop :=
  ∃ truth, Tells registry scope op l r truth

/-- A comparison fails, wherever it is written. -/
def Fails (registry : Registry) (scope : Scope) (op : BinaryOp) (l r : Tree) : Prop :=
  ∀ location, ∃ e, eval registry scope (.binary op l r location) = .error e

/-- What comparisons of two expressions have to do with each other. -/
structure Coherent (registry : Registry) (scope : Scope) (l r : Tree) : Prop where
  tells_or_fails : ∀ op, op.isLogical = false →
    Defined registry scope op l r ∨ Fails registry scope op l r
  defined_iff : ∀ op ∈ [BinaryOp.lt, .le, .gt, .ge],
    (Defined registry scope .lt l r ↔ Defined registry scope op l r) ∧
      (Defined registry scope .lt l r ↔ Defined registry scope op r l)
  eq_defined : Defined registry scope .lt l r → Defined registry scope .eq l r
  exactly_one : ∀ lt eq gt, Tells registry scope .lt l r lt → Tells registry scope .eq l r eq →
    Tells registry scope .gt l r gt → [lt, eq, gt].count true = 1
  le_iff : ∀ truth, Tells registry scope .le l r truth ↔ Tells registry scope .gt l r !truth
  ge_iff : ∀ truth, Tells registry scope .ge l r truth ↔ Tells registry scope .lt l r !truth
  lt_iff : ∀ truth, Tells registry scope .lt l r truth ↔ Tells registry scope .gt r l truth
  eq_iff : ∀ truth, Tells registry scope .eq l r truth ↔ Tells registry scope .eq r l truth
  ne_iff : ∀ truth, Tells registry scope .ne l r truth ↔ Tells registry scope .eq l r !truth
  trans : ∀ m, Tells registry scope .lt l r true → Tells registry scope .lt r m true →
    Tells registry scope .lt l m true

/-! ## Values -/

/-- A comparison evaluates both operands and then compares their values. -/
theorem eval_comparison (hop : op.isLogical = false) (hl : eval registry scope l = .ok a)
    (hr : eval registry scope r = .ok b) (location : Location) :
    eval registry scope (.binary op l r location) =
      match compareBy? op a.value b.value with
      | some truth => .ok (.of (.bool truth))
      | none => .error (evaluationError (.incomparable op a.value.type b.value.type) location) := by
  rw [eval, hl, hr]
  simp only [bind, Except.bind, hop, Bool.false_eq_true, if_false]
  cases compareBy? op a.value b.value <;> rfl

theorem tells_iff (hop : op.isLogical = false) (hl : eval registry scope l = .ok a)
    (hr : eval registry scope r = .ok b) {truth : Bool} :
    Tells registry scope op l r truth ↔ compareBy? op a.value b.value = some truth := by
  simp only [Tells, eval_comparison hop hl hr]
  cases compareBy? op a.value b.value with
  | none =>
    constructor
    · intro h
      cases h nowhere
    · intro h
      cases h
  | some t =>
    constructor
    · intro h
      cases h nowhere
      rfl
    · intro h _
      cases h
      rfl

theorem defined_iff_isSome (hop : op.isLogical = false) (hl : eval registry scope l = .ok a)
    (hr : eval registry scope r = .ok b) :
    Defined registry scope op l r ↔ (compareBy? op a.value b.value).isSome := by
  simp only [Defined, tells_iff hop hl hr, Option.isSome_iff_exists]

/-- Operands that are compared have values. -/
theorem exists_values_of_tells (hop : op.isLogical = false) {truth : Bool}
    (h : Tells registry scope op l r truth) :
    ∃ a b, eval registry scope l = .ok a ∧ eval registry scope r = .ok b := by
  have hnowhere := h nowhere
  rw [eval] at hnowhere
  obtain ⟨a, ha, hnowhere⟩ := bind_eq_ok.mp hnowhere
  simp only [hop, Bool.false_eq_true, if_false] at hnowhere
  obtain ⟨b, hb, -⟩ := bind_eq_ok.mp hnowhere
  exact ⟨a, b, ha, hb⟩

section

variable {x y : Value}

/-- All comparisons by order are defined where there is one. -/
theorem isSome_compareBy? (hop : op ∈ [BinaryOp.lt, .le, .gt, .ge]) :
    (compareBy? op x y).isSome = (x.compare? y).isSome := by
  simp only [List.mem_cons, List.not_mem_nil, or_false] at hop
  rcases hop with rfl | rfl | rfl | rfl <;> exact Option.isSome_map

/-- Where values are ordered, equality is what the order says. -/
theorem equal?_of_compare? {order : Ordering} (h : x.compare? y = some order) :
    equal? x y = some (order == .eq) := by
  obtain ⟨htype, hx, hy⟩ := Value.type_eq_of_compare? h
  simp [equal?, htype, hx, hy, h]

theorem equal?_comm (x y : Value) : equal? x y = equal? y x := by
  unfold equal?
  rw [Bool.or_comm, Bool.and_comm, Value.compare?_swap x y, Value.same_comm x y]
  refine ite_congr rfl (fun _ => rfl) fun _ => ?_
  refine ite_congr (propext ne_comm) (fun _ => rfl) fun _ => ?_
  rcases x.compare? y with _ | (_ | _ | _) <;> rfl

/-- Equality of expressions is that of values, where it is defined. -/
theorem same_of_equal? {truth : Bool} (h : equal? x y = some truth) : x.same y = truth := by
  unfold equal? at h
  split at h
  · cases x <;> cases y <;> simp_all [Value.isNull, Value.same]
  · split at h
    · cases h
    · split at h
      · rename_i order horder
        rw [Value.same_of_compare? horder, Option.some.inj h]
      · exact Option.some.inj h

end

/-- Any two expressions with values are compared coherently. -/
theorem coherent (hl : eval registry scope l = .ok a) (hr : eval registry scope r = .ok b) :
    Coherent registry scope l r := by
  have hswap := Value.compare?_swap a.value b.value
  constructor
  case tells_or_fails =>
    intro op hop
    cases htruth : compareBy? op a.value b.value with
    | some truth => exact .inl ⟨truth, (tells_iff hop hl hr).mpr htruth⟩
    | none =>
      refine .inr fun location =>
        ⟨evaluationError (.incomparable op a.value.type b.value.type) location, ?_⟩
      rw [eval_comparison hop hl hr, htruth]
  case defined_iff =>
    intro op hop
    have hlogical : op.isLogical = false :=
      (by decide : ∀ op ∈ [BinaryOp.lt, .le, .gt, .ge], op.isLogical = false) op hop
    rw [defined_iff_isSome rfl hl hr, defined_iff_isSome hlogical hl hr,
      defined_iff_isSome hlogical hr hl, isSome_compareBy? (by decide), isSome_compareBy? hop,
      isSome_compareBy? hop, hswap, Option.isSome_map]
    exact ⟨Iff.rfl, Iff.rfl⟩
  case eq_defined =>
    rw [defined_iff_isSome rfl hl hr, defined_iff_isSome rfl hl hr]
    intro h
    obtain ⟨order, horder⟩ := Option.isSome_iff_exists.mp (Option.isSome_map ▸ h)
    simp [compareBy?, equal?_of_compare? horder]
  case exactly_one =>
    intro lt eq gt hlt heq hgt
    rw [tells_iff rfl hl hr] at hlt heq hgt
    obtain ⟨order, horder, rfl⟩ := Option.map_eq_some_iff.mp hlt
    rw [compareBy?, horder] at hgt
    rw [compareBy?, equal?_of_compare? horder] at heq
    cases hgt
    cases heq
    cases order <;> rfl
  case le_iff =>
    intro truth
    rw [tells_iff rfl hl hr, tells_iff rfl hl hr, compareBy?, compareBy?]
    rcases a.value.compare? b.value with _ | (_ | _ | _) <;> cases truth <;> decide
  case ge_iff =>
    intro truth
    rw [tells_iff rfl hl hr, tells_iff rfl hl hr, compareBy?, compareBy?]
    rcases a.value.compare? b.value with _ | (_ | _ | _) <;> cases truth <;> decide
  case lt_iff =>
    intro truth
    rw [tells_iff rfl hl hr, tells_iff rfl hr hl, compareBy?, compareBy?, hswap]
    rcases a.value.compare? b.value with _ | (_ | _ | _) <;> cases truth <;> decide
  case eq_iff =>
    intro truth
    rw [tells_iff rfl hl hr, tells_iff rfl hr hl, compareBy?, compareBy?, equal?_comm]
  case ne_iff =>
    intro truth
    rw [tells_iff rfl hl hr, tells_iff rfl hl hr, compareBy?, compareBy?]
    rcases equal? a.value b.value with _ | (_ | _) <;> cases truth <;> decide
  case trans =>
    intro m hlt hlt'
    obtain ⟨-, c, -, hm⟩ := exists_values_of_tells rfl hlt'
    rw [tells_iff rfl hl hr] at hlt
    rw [tells_iff rfl hr hm] at hlt'
    rw [tells_iff rfl hl hm]
    simp only [compareBy?, Option.map_eq_some_iff, beq_iff_eq, exists_eq_right] at *
    exact Value.compare?_trans hlt hlt'

/-! ## Lists -/

/-- An expression asks a list for the item at an index. -/
def AsksFor (list : Tree) (index : Nat) (t : Tree) : Prop :=
  ∃ l l', t = .call list "get" (.literal (.of (.int (.ofNat index))) l) l'

section

variable {list t : Tree} {v : BoundValue} {items : List Value}

/-- The built-in function of a list on one argument. -/
theorem eval_ofList {name : String} {function : Function} {l : Location}
    (hlist : eval .builtin scope list = .ok v) (hitems : v.value = .list items)
    (hfunction : Registry.builtin.function? (.list items) name = some function)
    (ht : eval .builtin scope t = .ok b) (hone : t.isList = false ∧ t.isEmpty = false) :
    eval .builtin scope (.call list name t l) =
      (function (.list items) [b]).mapError fun failure =>
        evaluationError (.failedCall name failure) l := by
  have harguments : argumentValues .builtin scope t = .ok [b] := by
    rw [argumentValues_single hone.1 hone.2, ht]
    rfl
  rw [eval_call_eq hlist (hitems ▸ hfunction) harguments, hitems]
  rfl

/-- The item of a list at an index is the item there. -/
theorem eval_of_asksFor {index : Nat} (hlist : eval .builtin scope list = .ok v)
    (hitems : v.value = .list items) (hindex : index < items.length)
    (hlength : items.length < 2 ^ 31) (ht : AsksFor list index t) :
    eval .builtin scope t = .ok (.of items[index]) := by
  obtain ⟨l, l', rfl⟩ := ht
  have hint : (Int32.ofNat index).toInt = index := Int32.toInt_ofNat_of_lt (by omega)
  have hliteral : eval .builtin scope (.literal (.of (.int (.ofNat index))) l) =
      .ok (.of (.int (.ofNat index))) := by rw [eval]
  have hget : Registry.builtin.function? (.list items) "get" = some Builtin.item := rfl
  have hitem : Builtin.item (.list items) [.of (.int (.ofNat index))] = .ok (.of items[index]) := by
    simp [Builtin.item, Builtin.onlyArgument, Builtin.items, Typed.of, hint, hindex, bind,
      Except.bind, pure, Except.pure]
  rw [eval_ofList hlist hitems hget hliteral ⟨rfl, rfl⟩, hitem]
  rfl

/-- Whether a list holds a value is whether an item is the same. -/
theorem eval_contains {l : Location} (hlist : eval .builtin scope list = .ok v)
    (hitems : v.value = .list items) (ht : eval .builtin scope t = .ok b)
    (hone : t.isList = false ∧ t.isEmpty = false) :
    eval .builtin scope (.call list "contains" t l) =
      .ok (.of (.bool (items.any (·.same b.value)))) := by
  have hcontains : Registry.builtin.function? (.list items) "contains" = some Builtin.contains :=
    rfl
  rw [eval_ofList hlist hitems hcontains ht hone]
  rfl

end

/-- Comparisons of expressions that have values are coherent, and a list contains what one of its
items is equal to, if it can be told of every item. -/
theorem comparisons_coherent :
    (∀ (registry : Registry) (scope : Scope) (l r : Tree) (a b : BoundValue),
      eval registry scope l = .ok a → eval registry scope r = .ok b →
      Coherent registry scope l r) ∧
    ∀ (scope : Scope) (list x : Tree) (item : Nat → Tree) (v w : BoundValue) (items : List Value)
      (location : Location),
      eval .builtin scope list = .ok v → v.value = .list items → items.length < 2 ^ 31 →
      eval .builtin scope x = .ok w → x.isList = false ∧ x.isEmpty = false →
      (∀ i < items.length, AsksFor list i (item i) ∧ Defined .builtin scope .eq (item i) x) →
      ∃ found, eval .builtin scope (.call list "contains" x location) = .ok (.of (.bool found)) ∧
        (found = true ↔ ∃ i < items.length, Tells .builtin scope .eq (item i) x true) := by
  refine ⟨fun _ _ _ _ _ _ => coherent, ?_⟩
  intro scope list x item v w items location hlist hitems hlength hx hone hdefined
  refine ⟨_, eval_contains hlist hitems hx hone, ?_⟩
  have hsame (i : Nat) (hi : i < items.length) :
      items[i].same w.value = true ↔ Tells .builtin scope .eq (item i) x true := by
    obtain ⟨hasks, truth, htruth⟩ := hdefined i hi
    have heval := eval_of_asksFor hlist hitems hi hlength hasks
    rw [tells_iff rfl heval hx] at htruth ⊢
    have hequal : equal? items[i] w.value = some truth := htruth
    rw [same_of_equal? hequal]
    exact Option.some_inj.symm.trans (by rw [← htruth])
  rw [List.any_eq_true]
  constructor
  · rintro ⟨y, hy, h⟩
    obtain ⟨i, hi, rfl⟩ := List.mem_iff_getElem.mp hy
    exact ⟨i, hi, (hsame i hi).mp h⟩
  · rintro ⟨i, hi, h⟩
    exact ⟨_, List.getElem_mem hi, (hsame i hi).mpr h⟩

/-- One and a half with a null, written with one fraction digit or with more. -/
def halves (zeros : Nat) : Value :=
  match Number.Decimal.mk? false (15 * Number.tenPow zeros) (zeros + 1) with
  | some d => .pair (.decimal d) .null
  | none => .null

def halvesScope : Scope :=
  .ofList [("ps", .of (.list [.null, halves 0])), ("p", .of (halves 1))]

def halvesAt (index : Nat) : Tree :=
  .call (.name "ps" nowhere) "get" (.literal (.of (.int (.ofNat index))) nowhere) nowhere

/-- Decimals of different scale are equal, also within pairs, and null is told from any value. -/
theorem comparisons_coherent_scales :
    eval .builtin halvesScope (.name "ps" nowhere) = .ok (.of (.list [.null, halves 0])) ∧
      eval .builtin halvesScope (.name "p" nowhere) = .ok (.of (halves 1)) ∧
      (∀ i < 2, AsksFor (.name "ps" nowhere) i (halvesAt i) ∧
        Defined .builtin halvesScope .eq (halvesAt i) (.name "p" nowhere)) ∧
      Coherent .builtin halvesScope (halvesAt 1) (.name "p" nowhere) ∧
      Tells .builtin halvesScope .eq (halvesAt 1) (.name "p" nowhere) true ∧
      ∃ found, eval .builtin halvesScope
          (.call (.name "ps" nowhere) "contains" (.name "p" nowhere) nowhere) =
          .ok (.of (.bool found)) ∧
        (found = true ↔
          ∃ i < 2, Tells .builtin halvesScope .eq (halvesAt i) (.name "p" nowhere) true) := by
  have hlist : eval .builtin halvesScope (.name "ps" nowhere) =
      .ok (.of (.list [.null, halves 0])) := rfl
  have hp : eval .builtin halvesScope (.name "p" nowhere) = .ok (.of (halves 1)) := rfl
  have hasks (i : Nat) : AsksFor (.name "ps" nowhere) i (halvesAt i) := ⟨nowhere, nowhere, rfl⟩
  have hitem (i : Nat) (hi : i < 2) := eval_of_asksFor hlist rfl hi (by decide) (hasks i)
  have hnull : Tells .builtin halvesScope .eq (halvesAt 0) (.name "p" nowhere) false :=
    (tells_iff rfl (hitem 0 (by decide)) hp).mpr rfl
  have hequal : Tells .builtin halvesScope .eq (halvesAt 1) (.name "p" nowhere) true :=
    (tells_iff rfl (hitem 1 (by decide)) hp).mpr (by decide +kernel)
  have hdefined : ∀ i < 2, AsksFor (.name "ps" nowhere) i (halvesAt i) ∧
      Defined .builtin halvesScope .eq (halvesAt i) (.name "p" nowhere)
    | 0, _ => ⟨hasks 0, false, hnull⟩
    | 1, _ => ⟨hasks 1, true, hequal⟩
  obtain ⟨hcoherent, hcontains⟩ := comparisons_coherent
  exact ⟨hlist, hp, hdefined, hcoherent _ _ _ _ _ _ (hitem 1 (by decide)) hp, hequal,
    hcontains _ _ _ halvesAt _ _ _ _ hlist rfl (by decide) hp ⟨rfl, rfl⟩ hdefined⟩

end TwoWaySql.Expr
