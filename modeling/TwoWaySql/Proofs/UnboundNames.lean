import TwoWaySql.Proofs.Outcome
import TwoWaySql.Proofs.Scoping

/-!
# Unbound names

An expression that fails for want of a binding names a free name that the scope does not bind.
Without the binding of a name an expression has the value or error that it had, or fails at a place
where it reads the name (`eval_hangs`). No other error has the message of an unbound name
(`message_eq_unboundName_iff`).
-/

namespace TwoWaySql.Expr

/-! ## The message -/

/-- Whether a text has the character at the place, counted from zero. -/
def HasAt (n : Nat) (c : Char) (text : String) : Prop := text.toList[n]? = some c

namespace HasAt

variable {n : Nat} {c d : Char} {s t : String}

theorem append (h : HasAt n c s) : HasAt n c (s ++ t) := by
  unfold HasAt at *
  rw [String.toList_append, List.getElem?_append_left (List.getElem?_eq_some_iff.mp h).1, h]

theorem ne (h : HasAt n c s) (hne : c ≠ d) : ¬HasAt n d s :=
  fun h' => hne (Option.some.inj (h.symm.trans h'))

end HasAt

theorem LexicalCause.not_hasAt_message : (cause : LexicalCause) → ¬HasAt 4 'v' cause.message
  | illegalNumber _ => HasAt.ne (c := 'i') (.append (.append rfl)) (by decide)
  | illegalMemberStart _ => HasAt.ne (c := 'c') (.append (.append rfl)) (by decide)
  | unclosedChar | unclosedString | nothingAfterDot | memberWithoutValue => nofun

theorem SyntaxCause.not_hasAt_message : (cause : SyntaxCause) → ¬HasAt 4 'v' cause.message
  | tooDeep _ => HasAt.ne (c := 'e') (.append (.append rfl)) (by decide)
  | misplacedOperand _ | unsupportedToken _ =>
    HasAt.ne (c := 't') (.append (.append rfl)) (by decide)
  | missingOperand _ => HasAt.ne (c := 'o') (.append (.append rfl)) (by decide)
  | missingReceiver _ => HasAt.ne (c := 'r') (.append (.append rfl)) (by decide)
  | numberOutOfRange _ => HasAt.ne (c := 'n') (.append (.append rfl)) (by decide)
  | unclosedBracket | unopenedBracket | missingArguments | trailingOperand => nofun

/-- The fifth character tells the message of an unbound name from all others. -/
theorem EvaluationCause.eq_unboundName {cause : EvaluationCause} (h : HasAt 4 'v' cause.message) :
    ∃ name, cause = unboundName name := by
  cases cause with
  | unboundName name => exact ⟨name, rfl⟩
  | nullReceiver kind name =>
    exact absurd h (HasAt.ne (c := 'r') (.append (.append rfl)) (by decide))
  | unknownMember kind name type =>
    cases kind with
    | property =>
      have hstart : HasAt 4 'p' ("The " ++ MemberKind.property.name) := rfl
      exact absurd h (hstart.append.append.append.ne (by decide))
    | function =>
      have hstart : HasAt 4 'f' ("The " ++ MemberKind.function.name) := rfl
      exact absurd h (hstart.append.append.append.ne (by decide))
  | failedCall name failure =>
    exact absurd h (HasAt.ne (c := 'f') (.append (.append (.append rfl))) (by decide))
  | conditionNotBoolean type =>
    exact absurd h (HasAt.ne (c := 'c') (.append (.append rfl)) (by decide))
  | operandNotBoolean op type =>
    exact absurd h (HasAt.ne (c := 'o') (.append (.append (.append (.append rfl)))) (by decide))
  | incomparable op left right =>
    have hstart : HasAt 4 'o' "The operator \"" := rfl
    exact absurd h (hstart.append.append.append.append.append.append.ne (by decide))

theorem message_eq_unboundName_iff {cause : Cause} {x : String} :
    cause.message = s!"The value \"{x}\" is not found" ↔ cause = .evaluation (.unboundName x) := by
  constructor
  · intro h
    have hfifth : HasAt 4 'v' cause.message := by
      rw [h]
      exact .append (.append rfl)
    rcases cause with cause | cause | cause
    · exact absurd hfifth cause.not_hasAt_message
    · exact absurd hfifth cause.not_hasAt_message
    · obtain ⟨name, rfl⟩ := cause.eq_unboundName hfifth
      have htext : "The value \"" ++ name ++ "\" is not found" =
          "The value \"" ++ x ++ "\" is not found" := h
      have hchars := congrArg String.toList htext
      simp only [String.toList_append, List.append_assoc, List.append_cancel_left_eq,
        List.append_cancel_right_eq] at hchars
      rw [String.toList_injective hchars]
  · rintro rfl
    rfl

/-! ## Where names are read -/

namespace Tree

mutual

/-- The places where the expression reads a name. -/
def occurrences (x : String) : Tree → List Location
  | literal _ _ | empty _ => []
  | name n l => if n = x then [l] else []
  | property receiver _ _ => receiver.occurrences x
  | call receiver _ arguments _ => receiver.occurrences x ++ arguments.occurrences x
  | list items _ => itemOccurrences x items
  | not operand _ => operand.occurrences x
  | binary _ left right _ => left.occurrences x ++ right.occurrences x

def itemOccurrences (x : String) : List Tree → List Location
  | [] => []
  | t :: ts => t.occurrences x ++ itemOccurrences x ts

end

mutual

theorem mem_names_of_mem_occurrences {x : String} {l : Location} :
    (t : Tree) → l ∈ t.occurrences x → x ∈ t.names
  | literal _ _, h | empty _, h => by
    rw [occurrences] at h
    cases h
  | name n _, h => by
    rw [occurrences] at h
    split at h
    · subst x
      exact List.mem_singleton.mpr rfl
    · cases h
  | property receiver _ _, h | not receiver _, h => by
    rw [occurrences] at h
    rw [names]
    exact mem_names_of_mem_occurrences receiver h
  | call left _ right _, h | binary _ left right _, h => by
    rw [occurrences] at h
    rw [names]
    apply List.mem_append.mpr
    rcases List.mem_append.mp h with h | h
    · exact .inl (mem_names_of_mem_occurrences left h)
    · exact .inr (mem_names_of_mem_occurrences right h)
  | list items _, h => by
    rw [occurrences] at h
    rw [names]
    exact mem_itemNames_of_mem_itemOccurrences items h

theorem mem_itemNames_of_mem_itemOccurrences {x : String} {l : Location} :
    (ts : List Tree) → l ∈ itemOccurrences x ts → x ∈ itemNames ts
  | [], h => by
    rw [itemOccurrences] at h
    cases h
  | t :: ts, h => by
    rw [itemOccurrences] at h
    rw [itemNames]
    apply List.mem_append.mpr
    rcases List.mem_append.mp h with h | h
    · exact .inl (mem_names_of_mem_occurrences t h)
    · exact .inr (mem_itemNames_of_mem_itemOccurrences ts h)

end

end Tree

/-! ## Evaluation -/

/-- How the outcome `r` of a part in a scope, and its outcome `r'` without the binding of `x`, hang
on the name, which the part reads at these places. -/
structure Hangs {α : Type} (x : String) (scope : Scope) (places : List Location)
    (r r' : Except Error α) : Prop where
  unbound : ∀ l, r = .error (evaluationError (.unboundName x) l) →
    l ∈ places ∧ scope.lookup x = none
  erased : r' = r ∨ ∃ l ∈ places, r' = .error (evaluationError (.unboundName x) l)

namespace Hangs

variable {α β : Type} {x : String} {scope : Scope} {places places' : List Location}
  {r r' : Except Error α}

/-- An outcome that has nothing to do with the name. -/
theorem neutral (h : ∀ l, r ≠ .error (evaluationError (.unboundName x) l)) :
    Hangs x scope places r r :=
  ⟨fun l hl => absurd hl (h l), .inl rfl⟩

theorem ok (a : α) : Hangs x scope places (.ok a) (.ok a) := neutral fun _ => nofun

theorem error {cause : EvaluationCause} {l : Location} (h : cause ≠ .unboundName x) :
    Hangs x scope places (.error (evaluationError cause l) : Except Error α)
      (.error (evaluationError cause l)) := by
  apply neutral
  intro l' he
  cases he
  exact h rfl

theorem bind (h : Hangs x scope places r r') {f f' : α → Except Error β}
    (hf : ∀ a, Hangs x scope places' (f a) (f' a)) :
    Hangs x scope (places ++ places') (r >>= f) (r' >>= f') := by
  constructor
  · intro l hl
    cases r with
    | error e =>
      obtain ⟨hmem, hscope⟩ := h.unbound l (congrArg Except.error (Except.error.inj hl))
      exact ⟨List.mem_append_left _ hmem, hscope⟩
    | ok a =>
      obtain ⟨hmem, hscope⟩ := (hf a).unbound l hl
      exact ⟨List.mem_append_right _ hmem, hscope⟩
  · rcases h.erased with rfl | ⟨l, hl, rfl⟩
    · cases r' with
      | error e => exact .inl rfl
      | ok a =>
        rcases (hf a).erased with he | ⟨l, hl, he⟩
        · exact .inl he
        · exact .inr ⟨l, List.mem_append_right _ hl, he⟩
    · exact .inr ⟨l, List.mem_append_left _ hl, rfl⟩

/-- What follows reads nothing. -/
theorem andThen (h : Hangs x scope places r r') {f : α → Except Error β}
    (hf : ∀ a, Hangs x scope [] (f a) (f a)) : Hangs x scope places (r >>= f) (r' >>= f) := by
  rw [← List.append_nil places]
  exact h.bind hf

theorem map (h : Hangs x scope places r r') (f : α → β) :
    Hangs x scope places (r.map f) (r'.map f) := by
  have e (r : Except Error α) : r.map f = r >>= fun a => .ok (f a) := by cases r <;> rfl
  rw [e, e]
  exact h.andThen fun a => .ok (f a)

theorem truthOf (op : Operator) (location : Location) (v : BoundValue) :
    Hangs x scope places (truthOf op location v) (truthOf op location v) := by
  unfold Expr.truthOf
  split
  · exact ok _
  · exact error nofun

end Hangs

mutual

theorem eval_hangs (registry : Registry) (scope : Scope) (x : String) :
    (t : Tree) →
      Hangs x scope (t.occurrences x) (eval registry scope t) (eval registry (scope.erase x) t)
  | .literal v _ => by
    rw [eval, eval]
    exact .ok v
  | .empty _ => by
    rw [eval, eval]
    exact .ok _
  | .name n l => by
    rw [eval, eval, Tree.occurrences, Scope.lookup_erase]
    by_cases hn : n = x
    · subst hn
      simp only [↓reduceIte]
      constructor
      · intro l' h
        split at h
        · cases h
        · cases h
          exact ⟨List.mem_singleton.mpr rfl, ‹_›⟩
      · exact .inr ⟨l, List.mem_singleton.mpr rfl, rfl⟩
    · simp only [hn, ↓reduceIte]
      split
      · exact .ok _
      · exact .error fun h => hn (EvaluationCause.unboundName.inj h)
  | .property receiver name location => by
    rw [eval, eval, Tree.occurrences]
    apply (eval_hangs registry scope x receiver).andThen
    intro v
    dsimp only
    split
    · exact .error nofun
    · split
      · exact .ok _
      · exact .error nofun
  | .call receiver name arguments location => by
    rw [eval, eval, Tree.occurrences]
    apply (eval_hangs registry scope x receiver).bind
    intro v
    dsimp only
    split
    · exact .error nofun
    · split
      · exact .error nofun
      · have hcall (f : Function) (values : List BoundValue) :
            Hangs x scope []
              (match f v.value values with
                | .ok value => pure value
                | .error failure => throw (evaluationError (.failedCall name failure) location))
              (match f v.value values with
                | .ok value => pure value
                | .error failure =>
                  throw (evaluationError (.failedCall name failure) location)) := by
          split
          · exact .ok _
          · exact .error nofun
        cases arguments with
        | empty _ => exact (Hangs.ok []).andThen (hcall _)
        | list items _ =>
          rw [Tree.occurrences]
          exact (evalItems_hangs registry scope x items).andThen (hcall _)
        | _ => exact ((eval_hangs registry scope x _).map ([·])).andThen (hcall _)
  | .list items _ => by
    rw [eval, eval, Tree.occurrences]
    exact (evalItems_hangs registry scope x items).andThen fun _ => .ok _
  | .not operand location => by
    rw [eval, eval, Tree.occurrences]
    apply (eval_hangs registry scope x operand).andThen
    intro v
    exact (Hangs.truthOf .not location v).andThen fun b => .ok _
  | .binary op left right location => by
    rw [eval, eval, Tree.occurrences]
    apply (eval_hangs registry scope x left).bind
    intro v
    have hright := eval_hangs registry scope x right
    split
    · have hleft : Hangs x scope [] (truthOf (.binary op) location v)
          (truthOf (.binary op) location v) := .truthOf _ location v
      apply hleft.bind
      intro b
      split
      · exact .ok _
      · apply hright.andThen
        intro w
        exact (Hangs.truthOf (.binary op) location w).andThen fun b => .ok _
    · apply hright.andThen
      intro w
      split
      · exact .ok _
      · exact .error nofun

theorem evalItems_hangs (registry : Registry) (scope : Scope) (x : String) :
    (ts : List Tree) → Hangs x scope (Tree.itemOccurrences x ts) (evalItems registry scope ts)
      (evalItems registry (scope.erase x) ts)
  | [] => by
    rw [evalItems, evalItems]
    exact .ok []
  | t :: ts => by
    rw [evalItems, evalItems, Tree.itemOccurrences]
    apply (eval_hangs registry scope x t).bind
    intro v
    exact (evalItems_hangs registry scope x ts).andThen fun vs => .ok (v :: vs)

end

/-- An expression fails with an unbound name only at a free name that the scope does not bind.
Without the binding of a name the outcome is the same, or the expression fails at a place where it
reads the name; the latter only if the name is free. -/
theorem eval_freeNames (registry : Registry) (scope : Scope) (t : Tree) :
    ((∀ n ∈ t.freeNames, scope.contains n) → ∀ (error : Error) (x : String),
      eval registry scope t = .error error →
      error.cause.message ≠ s!"The value \"{x}\" is not found") ∧
    (∀ (error : Error) (x : String), eval registry scope t = .error error →
      error.cause.message = s!"The value \"{x}\" is not found" →
      x ∈ t.freeNames ∧ scope.contains x = false) ∧
    (∀ x, eval registry (scope.erase x) t = eval registry scope t ∨
      ∃ l ∈ t.occurrences x,
        eval registry (scope.erase x) t = .error ⟨.evaluation (.unboundName x), l⟩) ∧
    ∀ x, x ∉ t.freeNames → ∀ l,
      eval registry (scope.erase x) t ≠ .error ⟨.evaluation (.unboundName x), l⟩ := by
  have hunbound (s : Scope) (error : Error) (x : String) (herror : eval registry s t = .error error)
      (hmessage : error.cause.message = s!"The value \"{x}\" is not found") :
      x ∈ t.freeNames ∧ s.contains x = false := by
    obtain ⟨cause, l⟩ := error
    obtain rfl : cause = _ := message_eq_unboundName_iff.mp hmessage
    obtain ⟨hl, hx⟩ := (eval_hangs registry s x t).unbound l herror
    refine ⟨List.mem_eraseDups.mpr (t.mem_names_of_mem_occurrences hl), ?_⟩
    rw [Scope.contains, hx]
    rfl
  refine ⟨fun hall error x herror hmessage => ?_, hunbound scope,
    fun x => (eval_hangs registry scope x t).erased, fun x hx l herror => ?_⟩
  · obtain ⟨hfree, hx⟩ := hunbound scope error x herror hmessage
    rw [hall x hfree] at hx
    cases hx
  · exact hx (hunbound _ _ x herror rfl).1

end TwoWaySql.Expr
