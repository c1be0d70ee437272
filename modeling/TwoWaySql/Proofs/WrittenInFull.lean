import TwoWaySql.Proofs.OptionalPredicates
import TwoWaySql.Proofs.Subtrees

/-!
# Trees that are written in full

A tree without directives writes its template, less the keywords and clauses that are left out, so
what it writes is no longer than its template and differs from it as soon as anything is left out.
`writesUpTo_renderTree`: nothing is left out if and only if each clause that may be left out has
content in its body and each connector has content before it in its scope. Content is a word, a
quoted text, another character or brackets (`Tree.isContent`).
-/

namespace TwoWaySql.Template

namespace Tree

/-! ## Scopes -/

def isConnector : Tree → Bool
  | logical .. => true
  | _ => false

mutual

/-- The tree and the trees within it that stand in the same scope, as they follow each other. -/
def inScope : Tree → List Tree
  | statement ts => inScopeAll ts
  | clause kind keyword ts =>
    clause kind keyword ts :: if kind.isAlwaysWritten then inScopeAll ts else []
  | logical op keyword ts => logical op keyword ts :: inScopeAll ts
  | t => [t]

def inScopeAll : List Tree → List Tree
  | [] => []
  | t :: ts => inScope t ++ inScopeAll ts

end

/-- The scopes that a tree opens: brackets, each operand of a set operation, and the body of a
clause that may be left out. -/
def scopes : Tree → List (List Tree)
  | brackets inner => [[inner]]
  | setOperation left _ _ right => [[left], [right]]
  | clause kind _ ts => if kind.isAlwaysWritten then [] else [ts]
  | _ => []

/-- A scope of the tree is the whole tree, or one that a tree within it opens. -/
def IsScope (ts : List Tree) (t : Tree) : Prop :=
  ts = [t] ∨ ∃ u : Tree, u.Within t ∧ ts ∈ u.scopes

/-- There is content in the scope. -/
def HasContent (ts : List Tree) : Prop := ∃ u ∈ inScopeAll ts, u.isContent = true

/-- Every clause of the tree that may be left out has content in its body. -/
def ClausesFilled (t : Tree) : Prop :=
  ∀ kind keyword ts, (clause kind keyword ts).Within t → kind.isAlwaysWritten = false →
    HasContent ts

/-- Every connector of the tree has content before it in its scope. -/
def ConnectorsLed (t : Tree) : Prop :=
  ∀ ts, IsScope ts t → ∀ before op keyword body after,
    inScopeAll ts = before ++ logical op keyword body :: after → ∃ u ∈ before, u.isContent = true

/-! ## Trees one after the other -/

/-- Whether there is content in the scope. -/
def hasContent (ts : List Tree) : Bool := (inScopeAll ts).any isContent

theorem hasContent_iff {ts : List Tree} : hasContent ts = true ↔ HasContent ts := List.any_eq_true

/-- Every connector has content before it, among the trees or before all of them. -/
def Led (available : Bool) (us : List Tree) : Prop :=
  ∀ before op keyword body after, us = before ++ logical op keyword body :: after →
    available = true ∨ ∃ u ∈ before, u.isContent = true

variable {available : Bool} {t u : Tree} {ts us : List Tree}

theorem led_nil : Led available [] := by
  intro before op keyword body after h
  simp at h

theorem led_cons :
    Led available (u :: us) ↔
      (u.isConnector = true → available = true) ∧ Led (available || u.isContent) us := by
  constructor
  · intro h
    refine ⟨fun hu => ?_, fun before op keyword body after hus => ?_⟩
    · cases u with
      | logical op keyword body => simpa using h [] op keyword body us rfl
      | _ => cases hu
    · have hbefore := h (u :: before) op keyword body after (by rw [hus]; rfl)
      simpa [or_assoc] using hbefore
  · rintro ⟨hu, hus⟩ before op keyword body after h
    cases before with
    | nil =>
      obtain ⟨rfl, -⟩ := List.cons.inj h
      exact .inl (hu rfl)
    | cons v before =>
      obtain ⟨rfl, hrest⟩ := List.cons.inj h
      have hbefore := hus before op keyword body after hrest
      simpa [or_assoc] using hbefore

theorem led_append :
    Led available (ts ++ us) ↔ Led available ts ∧ Led (available || ts.any isContent) us := by
  induction ts generalizing available with
  | nil => simp [led_nil]
  | cons t ts ih => simp [led_cons, ih, and_assoc, Bool.or_assoc]

theorem led_singleton (h : u.isConnector = false) : Led available [u] :=
  led_cons.mpr ⟨fun hu => absurd (h.symm.trans hu) nofun, led_nil⟩

/-! ## Everywhere in trees -/

/-- `p` holds of the trees and of all trees within them. -/
def Everywhere (p : Tree → Prop) (ts : List Tree) : Prop := ∀ u, Holds u ts → p u

variable {p : Tree → Prop}

theorem Everywhere.mono (h : Everywhere p ts) (hsub : ∀ u ∈ us, u ∈ ts) : Everywhere p us :=
  fun u hu => h u (hu.mono hsub)

theorem everywhere_nil : Everywhere p [] := by
  rintro u ⟨t, ht, -⟩
  cases ht

theorem everywhere_append : Everywhere p (ts ++ us) ↔ Everywhere p ts ∧ Everywhere p us := by
  simp only [Everywhere, holds_append, or_imp, forall_and]

theorem everywhere_cons : Everywhere p (t :: ts) ↔ Everywhere p [t] ∧ Everywhere p ts := by
  rw [← everywhere_append, List.singleton_append]

theorem everywhere_singleton : Everywhere p [t] ↔ p t ∧ Everywhere p t.children := by
  constructor
  · intro h
    exact ⟨h t (holds_singleton.mpr .refl),
      fun u hu => h u (holds_singleton.mpr (hu.within fun _ hc => hc))⟩
  · rintro ⟨ht, hchildren⟩ u hu
    cases holds_singleton.mp hu with
    | refl => exact ht
    | child hc hwithin => exact hchildren u ⟨_, hc, hwithin⟩

/-- A tree without trees in it. -/
theorem everywhere_leaf (h : t.children = []) : Everywhere p [t] ↔ p t := by
  rw [everywhere_singleton, h]
  exact and_iff_left everywhere_nil

/-! ## Trees that keep everything -/

/-- A tree keeps its keyword and the connectors in the scopes that it opens. -/
structure KeepsOwn (t : Tree) : Prop where
  filled : ∀ kind keyword ts, t = clause kind keyword ts → kind.isAlwaysWritten = false →
    hasContent ts = true
  led : ∀ ts ∈ t.scopes, Led false (inScopeAll ts)

/-- Nothing of the trees is left out, given whether there is content before them. -/
structure Keeps (ts : List Tree) (available : Bool) : Prop where
  led : Led available (inScopeAll ts)
  own : Everywhere KeepsOwn ts

theorem keeps_nil : Keeps [] available := ⟨led_nil, everywhere_nil⟩

theorem inScopeAll_singleton (t : Tree) : inScopeAll [t] = inScope t := by
  simp [inScopeAll]

theorem keeps_cons :
    Keeps (t :: ts) available ↔ Keeps [t] available ∧ Keeps ts (available || hasContent [t]) := by
  constructor
  · intro ⟨hled, hown⟩
    rw [inScopeAll, led_append, ← inScopeAll_singleton] at hled
    rw [everywhere_cons] at hown
    exact ⟨⟨hled.1, hown.1⟩, ⟨hled.2, hown.2⟩⟩
  · intro ⟨ht, hts⟩
    refine ⟨?_, everywhere_cons.mpr ⟨ht.own, hts.own⟩⟩
    rw [inScopeAll, led_append, ← inScopeAll_singleton]
    exact ⟨ht.led, hts.led⟩

theorem hasContent_cons (t : Tree) (ts : List Tree) :
    hasContent (t :: ts) = (hasContent [t] || hasContent ts) := by
  simp [hasContent, inScopeAll]

theorem keeps_singleton :
    Keeps [t] available ↔
      Led available (inScope t) ∧ KeepsOwn t ∧ Everywhere KeepsOwn t.children := by
  rw [← everywhere_singleton, ← inScopeAll_singleton]
  exact ⟨fun h => ⟨h.led, h.own⟩, fun h => ⟨h.1, h.2⟩⟩

theorem KeepsOwn.of_led (hclause : ∀ kind keyword ts, t ≠ clause kind keyword ts)
    (hled : ∀ ts ∈ t.scopes, Led false (inScopeAll ts)) : KeepsOwn t :=
  ⟨fun kind keyword ts h => absurd h (hclause kind keyword ts), hled⟩

/-- A tree that is no clause and opens no scopes keeps its own. -/
theorem KeepsOwn.of_scopes (hclause : ∀ kind keyword ts, t ≠ clause kind keyword ts)
    (hscopes : t.scopes = []) : KeepsOwn t :=
  .of_led hclause (by simp [hscopes])

theorem keeps_leaf (hchildren : t.children = []) (hscope : inScope t = [t])
    (hconnector : t.isConnector = false) (hown : KeepsOwn t) : Keeps [t] available := by
  rw [keeps_singleton, hscope, hchildren]
  exact ⟨led_singleton hconnector, hown, everywhere_nil⟩

theorem keeps_statement : Keeps [statement ts] available ↔ Keeps ts available := by
  have hown : KeepsOwn (statement ts) := .of_scopes nofun rfl
  rw [keeps_singleton, inScope, children]
  exact ⟨fun h => ⟨h.1, h.2.2⟩, fun h => ⟨h.led, hown, h.own⟩⟩

theorem keeps_logical (op : Connector) (keyword : String) :
    Keeps [logical op keyword ts] available ↔ available = true ∧ Keeps ts available := by
  have hown : KeepsOwn (logical op keyword ts) := .of_scopes nofun rfl
  rw [keeps_singleton, inScope, children, led_cons]
  simp only [isConnector, isContent, Bool.or_false, true_imp_iff]
  exact ⟨fun h => ⟨h.1.1, h.1.2, h.2.2⟩, fun h => ⟨⟨h.1, h.2.led⟩, hown, h.2.own⟩⟩

theorem keeps_alwaysWritten {kind : ClauseKind} (hkind : kind.isAlwaysWritten = true)
    (keyword : String) : Keeps [clause kind keyword ts] available ↔ Keeps ts available := by
  have hown : KeepsOwn (clause kind keyword ts) := by
    refine ⟨fun kind' keyword' ts' h hkind' => ?_, by simp [scopes, hkind]⟩
    cases h
    rw [hkind] at hkind'
    cases hkind'
  rw [keeps_singleton, inScope, children, if_pos hkind, led_cons]
  simp only [isConnector, isContent, Bool.or_false, Bool.false_eq_true, false_imp_iff, true_and]
  exact ⟨fun h => ⟨h.1, h.2.2⟩, fun h => ⟨h.led, hown, h.own⟩⟩

theorem keeps_elidable {kind : ClauseKind} (hkind : kind.isAlwaysWritten = false)
    (keyword : String) :
    Keeps [clause kind keyword ts] available ↔ hasContent ts = true ∧ Keeps ts false := by
  have hscopes : (clause kind keyword ts).scopes = [ts] := by simp [scopes, hkind]
  have hscope : inScope (clause kind keyword ts) = [clause kind keyword ts] := by
    simp [inScope, hkind]
  rw [keeps_singleton, hscope, children]
  constructor
  · rintro ⟨_, hown, hbody⟩
    exact ⟨hown.filled kind keyword ts rfl hkind, hown.led ts (by simp [hscopes]), hbody⟩
  · rintro ⟨hfilled, hkeeps⟩
    refine ⟨led_singleton rfl, ⟨fun kind' keyword' ts' h _ => ?_, ?_⟩, hkeeps.own⟩
    · cases h
      exact hfilled
    · rw [hscopes, List.forall_mem_singleton]
      exact hkeeps.led

theorem keeps_brackets : Keeps [brackets t] available ↔ Keeps [t] false := by
  have hclause : ∀ kind keyword ts, brackets t ≠ clause kind keyword ts := nofun
  have hscopes : (brackets t).scopes = [[t]] := rfl
  rw [keeps_singleton, inScope.eq_def, children]
  constructor
  · exact fun h => ⟨h.2.1.led [t] (by simp [hscopes]), h.2.2⟩
  · intro h
    exact ⟨led_singleton rfl, .of_led hclause (by simpa [hscopes] using h.led), h.own⟩

theorem keeps_setOperation (op : SetOperator) (keyword : String) :
    Keeps [setOperation t op keyword u] available ↔ Keeps [t] false ∧ Keeps [u] false := by
  have hclause : ∀ kind keyword' ts, setOperation t op keyword u ≠ clause kind keyword' ts := nofun
  have hscopes : (setOperation t op keyword u).scopes = [[t], [u]] := rfl
  rw [keeps_singleton, inScope.eq_def, children, everywhere_cons]
  constructor
  · rintro ⟨_, hown, hleft, hright⟩
    exact ⟨⟨hown.led [t] (by simp [hscopes]), hleft⟩, hown.led [u] (by simp [hscopes]), hright⟩
  · rintro ⟨hleft, hright⟩
    refine ⟨led_singleton rfl, .of_led hclause ?_, hleft.own, hright.own⟩
    simpa [hscopes] using ⟨hleft.led, hright.led⟩

/-- Everything of a tree is kept if its clauses are filled and its connectors led. -/
theorem keeps_iff : Keeps [t] false ↔ t.ClausesFilled ∧ t.ConnectorsLed := by
  constructor
  · intro ⟨hled, hown⟩
    refine ⟨fun kind keyword ts hwithin hkind => ?_, fun ts hts => ?_⟩
    · exact hasContent_iff.mp
        ((hown _ (holds_singleton.mpr hwithin)).filled kind keyword ts rfl hkind)
    · have hscope : Led false (inScopeAll ts) := by
        rcases hts with rfl | ⟨u, hwithin, hu⟩
        · exact hled
        · exact (hown u (holds_singleton.mpr hwithin)).led ts hu
      intro before op keyword body after h
      exact (hscope before op keyword body after h).resolve_left nofun
  · intro ⟨hfilled, hconnectors⟩
    have hled {ts : List Tree} (hts : IsScope ts t) : Led false (inScopeAll ts) :=
      fun before op keyword body after h => .inr (hconnectors ts hts before op keyword body after h)
    refine ⟨hled (Or.inl rfl), fun u hu => ⟨fun kind keyword ts h hkind => ?_, fun ts hts => ?_⟩⟩
    · obtain rfl := h
      exact hasContent_iff.mpr (hfilled kind keyword ts (holds_singleton.mp hu) hkind)
    · exact hled (Or.inr ⟨u, holds_singleton.mp hu, hts⟩)

/-! ## Trees without directives -/

def isOperation : Tree → Bool
  | setOperation .. => true
  | _ => false

/-- What a tree is like without directives: its keyword is not empty, and a set operation is not
among other trees. -/
def IsPlain : Tree → Prop
  | word _ | blank _ | other _ | comment _ | brackets _ => True
  | statement ts => ∀ t ∈ ts, t.isOperation = false
  | setOperation _ _ keyword _ => keyword ≠ ""
  | clause _ keyword ts | logical _ keyword ts => keyword ≠ "" ∧ ∀ t ∈ ts, t.isOperation = false
  | _ => False

/-- Trees without directives that may follow each other. -/
structure PlainItems (ts : List Tree) : Prop where
  plain : Everywhere IsPlain ts
  items : ∀ t ∈ ts, t.isOperation = false

theorem plainItems_nil : PlainItems [] := ⟨everywhere_nil, nofun⟩

theorem plainItems_append : PlainItems (ts ++ us) ↔ PlainItems ts ∧ PlainItems us := by
  constructor
  · intro ⟨hplain, hitems⟩
    rw [everywhere_append] at hplain
    rw [List.forall_mem_append] at hitems
    exact ⟨⟨hplain.1, hitems.1⟩, ⟨hplain.2, hitems.2⟩⟩
  · intro ⟨hts, hus⟩
    exact ⟨everywhere_append.mpr ⟨hts.plain, hus.plain⟩,
      List.forall_mem_append.mpr ⟨hts.items, hus.items⟩⟩

theorem plainItems_cons : PlainItems (t :: ts) ↔ PlainItems [t] ∧ PlainItems ts := by
  rw [← plainItems_append, List.singleton_append]

theorem PlainItems.reverse (h : PlainItems ts) : PlainItems ts.reverse :=
  ⟨h.plain.mono fun _ hu => List.mem_reverse.mp hu, fun t ht => h.items t (List.mem_reverse.mp ht)⟩

end Tree

/-! ## Writing up to all of a text -/

/-- A text is no longer than another one, and equal to it under a condition. -/
structure Shortens (full : String) (kept : Prop) (text : String) : Prop where
  length_le : text.length ≤ full.length
  eq_iff : text = full ↔ kept

namespace Shortens

variable {full full' text text' : String} {kept kept' : Prop}

theorem all (text : String) : Shortens text True text := ⟨Nat.le_refl _, by simp⟩

theorem congr (h : Shortens full kept text) (hkept : kept ↔ kept') : Shortens full kept' text :=
  ⟨h.length_le, h.eq_iff.trans hkept⟩

theorem append (h : Shortens full kept text) (h' : Shortens full' kept' text') :
    Shortens (full ++ full') (kept ∧ kept') (text ++ text') := by
  have hle := h.length_le
  have hle' := h'.length_le
  refine ⟨by simp only [String.length_append]; omega, ?_⟩
  rw [← h.eq_iff, ← h'.eq_iff]
  constructor
  · -- Neither text is longer than its part of the whole, so neither can be shorter.
    intro heq
    have hlist := congrArg String.toList heq
    have hlength := congrArg String.length heq
    rw [String.toList_append, String.toList_append] at hlist
    rw [String.length_append, String.length_append] at hlength
    obtain ⟨hfirst, hsecond⟩ := List.append_inj hlist (by simp only [String.length_toList]; omega)
    exact ⟨String.toList_injective hfirst, String.toList_injective hsecond⟩
  · rintro ⟨rfl, rfl⟩
    rfl

/-- What is shorter is not all. -/
theorem of_lt (hlt : text.length < full.length) (hkept : ¬kept) : Shortens full kept text := by
  refine ⟨Nat.le_of_lt hlt, fun heq => ?_, fun h => absurd h hkept⟩
  rw [heq] at hlt
  exact absurd hlt (Nat.lt_irrefl _)

end Shortens

theorem length_pos_of_ne_empty {s : String} (h : s ≠ "") : 0 < s.length := by
  refine Nat.pos_of_ne_zero fun hzero => h ?_
  rw [← String.length_toList, List.length_eq_zero_iff] at hzero
  exact String.toList_injective hzero

/-- A part writes at most a text, and all of it under a condition on whether there is content before
it; then there is content afterwards if there is some before or in it. -/
def WritesUpTo (f : Render) (full : String) (kept : Bool → Prop) (counts : Bool) : Prop :=
  ∀ available scope, ∃ after text, f available scope = .ok ⟨after, scope, .sql text⟩ ∧
    Shortens full (kept available) text ∧ (kept available → after = (available || counts))

theorem elidable_of_ok {keyword : String} {body : Render} {available : Bool} {scope : Scope}
    {x : Rendered} (h : body false scope = .ok x) :
    elidable keyword body available scope =
      if x.available then .ok ⟨available, x.scope, .sql keyword ++ x.output⟩
      else if startsWithClause x.output.text then .ok ⟨true, x.scope, x.output⟩
      else .ok ⟨available, x.scope, .empty⟩ := by
  rw [elidable, h]
  rfl

namespace WritesUpTo

variable {f f' : Render} {full full' keyword : String} {kept kept' : Bool → Prop}
  {counts counts' : Bool}

theorem congr (h : WritesUpTo f full kept counts)
    (hkept : ∀ available, kept available ↔ kept' available) :
    WritesUpTo f full kept' counts := by
  intro available scope
  obtain ⟨after, text, hf, hs, hafter⟩ := h available scope
  exact ⟨after, text, hf, hs.congr (hkept available),
    fun hkept' => hafter ((hkept available).mpr hkept')⟩

theorem nothing : WritesUpTo .nothing "" (fun _ => True) false :=
  fun available _ => ⟨available, "", rfl, .all "", fun _ => (Bool.or_false _).symm⟩

theorem content (text : String) : WritesUpTo (.content text) text (fun _ => True) true :=
  fun _ _ => ⟨true, text, rfl, .all text, fun _ => (Bool.or_true _).symm⟩

theorem passing (text : String) : WritesUpTo (.passing text) text (fun _ => True) false :=
  fun available _ => ⟨available, text, rfl, .all text, fun _ => (Bool.or_false _).symm⟩

theorem andThen (h : WritesUpTo f full kept counts) (h' : WritesUpTo f' full' kept' counts') :
    WritesUpTo (.andThen f f') (full ++ full')
      (fun available => kept available ∧ kept' (available || counts)) (counts || counts') := by
  intro available scope
  obtain ⟨between, text, hf, hs, hbetween⟩ := h available scope
  obtain ⟨after, text', hf', hs', hafter⟩ := h' between scope
  -- Whether there is content between the parts is known only if all of the first one is written.
  have hkept : kept available ∧ kept' between ↔ kept available ∧ kept' (available || counts) :=
    and_congr_right fun hkept => by rw [hbetween hkept]
  refine ⟨after, text ++ text', ?_, (hs.append hs').congr hkept, fun hboth => ?_⟩
  · exact bind_eq_ok.mpr ⟨_, hf, bind_eq_ok.mpr ⟨_, hf', rfl⟩⟩
  · have hfirst := hkept.mpr hboth
    rw [hafter hfirst.2, hbetween hfirst.1, Bool.or_assoc]

theorem after (h : WritesUpTo f full kept counts) (sql : String) :
    WritesUpTo (.after sql f) (sql ++ full) kept counts := by
  intro available scope
  obtain ⟨after, text, hf, hs, hafter⟩ := h available scope
  refine ⟨after, sql ++ text, bind_eq_ok.mpr ⟨_, hf, rfl⟩, ?_, hafter⟩
  exact ((Shortens.all sql).append hs).congr (iff_of_eq (true_and _))

/-- A scope of its own. -/
theorem fresh (h : WritesUpTo f full kept counts) (available : Bool) (scope : Scope) :
    ∃ after text, Render.fresh f available scope = .ok ⟨after, scope, .sql text⟩ ∧
      Shortens full (kept false) text := by
  obtain ⟨after, text, hf, hs, -⟩ := h false scope
  exact ⟨after, text, hf, hs⟩

theorem brackets (h : WritesUpTo f full kept counts) :
    WritesUpTo (.asContent (.andThen (.after "(" (.fresh f)) (.passing ")")))
      ("(" ++ full ++ ")") (fun _ => kept false) true := by
  intro available scope
  obtain ⟨after, text, hf, hs⟩ := h.fresh available scope
  refine ⟨true, "(" ++ text ++ ")", ?_, ?_, fun _ => (Bool.or_true _).symm⟩
  · have hinner : Render.after "(" (.fresh f) available scope =
        .ok ⟨after, scope, .sql ("(" ++ text)⟩ := bind_eq_ok.mpr ⟨_, hf, rfl⟩
    exact bind_eq_ok.mpr ⟨_, bind_eq_ok.mpr ⟨_, hinner, rfl⟩, rfl⟩
  · exact (((Shortens.all "(").append hs).append (.all ")")).congr (by simp)

theorem operands (h : WritesUpTo f full kept counts) (h' : WritesUpTo f' full' kept' counts')
    (keyword : String) :
    WritesUpTo (.asContent (.andThen (.fresh f) (.after keyword (.fresh f'))))
      (full ++ keyword ++ full') (fun _ => kept false ∧ kept' false) true := by
  intro available scope
  obtain ⟨between, text, hf, hs⟩ := h.fresh available scope
  obtain ⟨after, text', hf', hs'⟩ := h'.fresh between scope
  refine ⟨true, text ++ keyword ++ text', ?_, ?_, fun _ => (Bool.or_true _).symm⟩
  · have hright : Render.after keyword (.fresh f') between scope =
        .ok ⟨after, scope, .sql (keyword ++ text')⟩ := bind_eq_ok.mpr ⟨_, hf', rfl⟩
    rw [String.append_assoc]
    exact bind_eq_ok.mpr ⟨_, bind_eq_ok.mpr ⟨_, hf, bind_eq_ok.mpr ⟨_, hright, rfl⟩⟩, rfl⟩
  · exact ((hs.append (.all keyword)).append hs').congr (by simp)

/-- Without content before it a connector loses its keyword. -/
theorem logical (h : WritesUpTo f full kept counts) (hkeyword : keyword ≠ "") :
    WritesUpTo (fun available => (if available then .after keyword f else f) available)
      (keyword ++ full) (fun available => available = true ∧ kept available) counts := by
  intro available scope
  cases available with
  | true =>
    obtain ⟨after, text, hf, hs, hafter⟩ := h.after keyword true scope
    exact ⟨after, text, hf, hs.congr (by simp), fun hkept => hafter hkept.2⟩
  | false =>
    obtain ⟨after, text, hf, hs, -⟩ := h false scope
    refine ⟨after, text, hf, .of_lt ?_ nofun, nofun⟩
    have hle := hs.length_le
    have hpos := length_pos_of_ne_empty hkeyword
    simp only [String.length_append]
    omega

/-- Without content in its body a clause loses its keyword, whether or not clauses within it
stay. -/
theorem elidable (h : WritesUpTo f full kept counts) (hkeyword : keyword ≠ "") :
    WritesUpTo (Template.elidable keyword f) (keyword ++ full)
      (fun _ => counts = true ∧ kept false) false := by
  intro available scope
  obtain ⟨after, text, hf, hs, hafter⟩ := h false scope
  rw [Bool.false_or] at hafter
  rw [elidable_of_ok hf]
  cases after with
  | true =>
    have hkept : kept false ↔ counts = true ∧ kept false :=
      ⟨fun hkept => ⟨(hafter hkept).symm, hkept⟩, And.right⟩
    exact ⟨available, keyword ++ text, rfl,
      ((Shortens.all keyword).append hs).congr ((iff_of_eq (true_and _)).trans hkept),
      fun _ => (Bool.or_false _).symm⟩
  | false =>
    have hnot : ¬(counts = true ∧ kept false) := by
      rintro ⟨hcounts, hkept⟩
      rw [← hafter hkept] at hcounts
      cases hcounts
    -- Neither the body alone nor nothing is as long as the keyword and all of the body.
    have short {part : String} (hpart : part.length ≤ text.length) :
        Shortens (keyword ++ full) (counts = true ∧ kept false) part := by
      have hle := hs.length_le
      have hpos := length_pos_of_ne_empty hkeyword
      refine .of_lt ?_ hnot
      rw [String.length_append]
      omega
    simp only [Bool.false_eq_true, ↓reduceIte]
    split
    · exact ⟨true, text, rfl, short (Nat.le_refl _), fun hboth => absurd hboth hnot⟩
    · exact ⟨available, "", rfl, short (Nat.zero_le _), fun hboth => absurd hboth hnot⟩

end WritesUpTo

/-! ## Trees -/

open Template.Tree (Everywhere Keeps PlainItems hasContent everywhere_cons everywhere_singleton
  plainItems_cons)

mutual

/-- A tree without directives writes all of its template if and only if it keeps everything. -/
theorem writesUpTo_renderTree (r : Renderer) :
    (t : Tree) → Everywhere Tree.IsPlain [t] →
      WritesUpTo (r.renderTree t) t.template (Keeps [t]) (hasContent [t] || t.isOperation)
  | .statement ts, hplain => by
    obtain ⟨hitems, hbody⟩ := everywhere_singleton.mp hplain
    have hcontent : (hasContent [.statement ts] || Tree.isOperation (.statement ts)) =
        hasContent ts := by
      simp [hasContent, Tree.inScopeAll, Tree.inScope, Tree.isOperation]
    rw [Renderer.renderTree, Tree.template, hcontent]
    exact (writesUpTo_renderAll r ts ⟨hbody, hitems⟩).congr fun _ => Tree.keeps_statement.symm
  | .setOperation left op keyword right, hplain => by
    obtain ⟨hleft, hright⟩ := everywhere_cons.mp (everywhere_singleton.mp hplain).2
    rw [Renderer.renderTree, Tree.template, Tree.isOperation, Bool.or_true]
    exact ((writesUpTo_renderTree r left hleft).operands
      (writesUpTo_renderTree r right hright) keyword).congr
        fun _ => (Tree.keeps_setOperation op keyword).symm
  | .clause kind keyword ts, hplain => by
    obtain ⟨⟨hkeyword, hitems⟩, hbody⟩ := everywhere_singleton.mp hplain
    have hts := writesUpTo_renderAll r ts ⟨hbody, hitems⟩
    have hitem : Tree.isOperation (.clause kind keyword ts) = false := rfl
    rw [Renderer.renderTree, Tree.template, hitem, Bool.or_false]
    cases hkind : kind.isAlwaysWritten with
    | true =>
      have hcontent : hasContent [.clause kind keyword ts] = hasContent ts := by
        simp [hasContent, Tree.inScopeAll, Tree.inScope, hkind, Tree.isContent]
      rw [if_pos rfl, hcontent]
      exact (hts.after keyword).congr fun _ => (Tree.keeps_alwaysWritten hkind keyword).symm
    | false =>
      have hcontent : hasContent [.clause kind keyword ts] = false := by
        simp [hasContent, Tree.inScopeAll, Tree.inScope, hkind, Tree.isContent]
      rw [if_neg Bool.false_ne_true, hcontent]
      exact (hts.elidable hkeyword).congr fun _ => (Tree.keeps_elidable hkind keyword).symm
  | .logical op keyword ts, hplain => by
    obtain ⟨⟨hkeyword, hitems⟩, hbody⟩ := everywhere_singleton.mp hplain
    have hcontent : hasContent [.logical op keyword ts] = hasContent ts := by
      simp [hasContent, Tree.inScopeAll, Tree.inScope, Tree.isContent]
    have hitem : Tree.isOperation (.logical op keyword ts) = false := rfl
    rw [Renderer.renderTree, Tree.template, hitem, Bool.or_false, hcontent]
    exact ((writesUpTo_renderAll r ts ⟨hbody, hitems⟩).logical hkeyword).congr
      fun _ => (Tree.keeps_logical op keyword).symm
  | .brackets inner, hplain => by
    have hinner := writesUpTo_renderTree r inner (everywhere_singleton.mp hplain).2
    rw [Renderer.renderTree, Tree.template]
    exact hinner.brackets.congr fun _ => Tree.keeps_brackets.symm
  | .word text, _ => by
    rw [Renderer.renderTree, Tree.template]
    exact (WritesUpTo.content text).congr fun _ =>
      iff_of_true trivial (Tree.keeps_leaf rfl rfl rfl (.of_scopes nofun rfl))
  | .other text, _ => by
    rw [Renderer.renderTree, Tree.template]
    exact (WritesUpTo.content text).congr fun _ =>
      iff_of_true trivial (Tree.keeps_leaf rfl rfl rfl (.of_scopes nofun rfl))
  | .blank text, _ => by
    rw [Renderer.renderTree, Tree.template]
    exact (WritesUpTo.passing text).congr fun _ =>
      iff_of_true trivial (Tree.keeps_leaf rfl rfl rfl (.of_scopes nofun rfl))
  | .comment text, _ => by
    rw [Renderer.renderTree, Tree.template]
    exact (WritesUpTo.passing text).congr fun _ =>
      iff_of_true trivial (Tree.keeps_leaf rfl rfl rfl (.of_scopes nofun rfl))
  | .bind .., hplain | .literal .., hplain | .embedded _, hplain | .expand .., hplain
  | .ifBlock .., hplain | .forBlock .., hplain => (everywhere_singleton.mp hplain).1.elim

theorem writesUpTo_renderAll (r : Renderer) :
    (ts : List Tree) → PlainItems ts →
      WritesUpTo (r.renderAll ts) (Tree.templates ts) (Keeps ts) (hasContent ts)
  | [], _ => by
    rw [Renderer.renderAll, Tree.templates]
    exact WritesUpTo.nothing.congr fun _ => iff_of_true trivial Tree.keeps_nil
  | t :: ts, hplain => by
    obtain ⟨ht, hts⟩ := plainItems_cons.mp hplain
    have hfirst := writesUpTo_renderTree r t ht.plain
    rw [ht.items t List.mem_cons_self, Bool.or_false] at hfirst
    rw [Renderer.renderAll, Tree.templates, Tree.hasContent_cons]
    exact (hfirst.andThen (writesUpTo_renderAll r ts hts)).congr fun _ => Tree.keeps_cons.symm

end

end TwoWaySql.Template
