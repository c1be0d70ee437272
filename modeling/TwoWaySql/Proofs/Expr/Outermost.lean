import TwoWaySql.Proofs.Expr.Reading
import TwoWaySql.Proofs.Expr.Soundness

/-!
# Tokens outside brackets

Which phrase an expression is shows in the operators outside its brackets: without a comma it is an
item, without any operator it is a receiver. So an expression that is parsed on its own reads the
same as a part of a longer one (`readsAs_item`, `readsAs_receiver`).
-/

namespace TwoWaySql.Expr

/-- The brackets that are open after the tokens, if `depth` are open before. -/
def depthAfter (depth : Nat) (ts : List Token) : Nat :=
  ts.foldl (fun depth t => match t.kind with
    | .openBracket => depth + 1
    | .closeBracket => depth - 1
    | _ => depth) depth

/-- The tokens outside brackets, if `depth` brackets are open before. -/
def outer : Nat → List Token → List Token
  | _, [] => []
  | depth, t :: ts =>
    if depth = 0 then t :: outer (depthAfter depth [t]) ts else outer (depthAfter depth [t]) ts

variable {source : String} {φ : Phrase} {t : Token} {ts us : List Token} {tree : Tree} {depth : Nat}

theorem depthAfter_append (depth : Nat) (ts us : List Token) :
    depthAfter depth (ts ++ us) = depthAfter (depthAfter depth ts) us :=
  List.foldl_append

theorem depthAfter_cons (depth : Nat) (t : Token) (ts : List Token) :
    depthAfter depth (t :: ts) = depthAfter (depthAfter depth [t]) ts := rfl

theorem outer_append (depth : Nat) (ts us : List Token) :
    outer depth (ts ++ us) = outer depth ts ++ outer (depthAfter depth ts) us := by
  induction ts generalizing depth with
  | nil => rfl
  | cons t ts ih =>
    rw [List.cons_append, outer, outer, depthAfter_cons depth t ts, ih]
    split <;> rfl

theorem mem_outer_zero (t : Token) (ts : List Token) : t ∈ outer 0 (t :: ts) :=
  List.mem_cons_self ..

theorem depthAfter_open (ht : t.kind = .openBracket) : depthAfter depth [t] = depth + 1 := by
  simp [depthAfter, ht]

theorem depthAfter_close (ht : t.kind = .closeBracket) : depthAfter (depth + 1) [t] = depth := by
  simp [depthAfter, ht]

theorem depthAfter_other (hopen : t.kind ≠ .openBracket) (hclose : t.kind ≠ .closeBracket) :
    depthAfter depth [t] = depth := by
  unfold depthAfter
  rw [List.foldl_cons, List.foldl_nil]
  split
  · contradiction
  · contradiction
  · rfl

/-- All brackets that a phrase opens it closes. -/
theorem Derives.depthAfter (h : Derives source φ ts tree) (depth : Nat) :
    depthAfter depth ts = depth := by
  induction h generalizing depth with
  | empty => rfl
  | group _ ih | single _ ih | operand _ ih | primary _ ih => exact ih depth
  | comma _ ht _ ihleft ihright | binary _ ht _ ihleft ihright =>
    rw [depthAfter_append, ihleft, depthAfter_cons, depthAfter_other (by simp [ht]) (by simp [ht]),
      ihright]
  | not ht _ ih =>
    rw [depthAfter_cons, depthAfter_other (by simp [ht]) (by simp [ht]), ih]
  | property _ ht ih => rw [depthAfter_append, ih, depthAfter_other (by simp [ht]) (by simp [ht])]
  | call _ ht hu _ hv ih ihgroup =>
    rw [depthAfter_append, ih, depthAfter_cons, depthAfter_other (by simp [ht]) (by simp [ht]),
      depthAfter_cons, depthAfter_open hu, depthAfter_append, ihgroup, depthAfter_close hv]
  | @literal t ht =>
    exact depthAfter_other (fun h => by rw [h] at ht; cases ht) (fun h => by rw [h] at ht; cases ht)
  | name ht => exact depthAfter_other (by simp [ht]) (by simp [ht])
  | brackets ht _ hu ih =>
    rw [depthAfter_cons, depthAfter_open ht, depthAfter_append, ih, depthAfter_close hu]

/-- What stands between two phrases stands outside the brackets of both. -/
theorem Derives.mem_outer (h : Derives source φ ts tree) (t : Token) (us : List Token) :
    t ∈ outer 0 (ts ++ t :: us) := by
  rw [outer_append, h.depthAfter]
  exact List.mem_append_right _ (mem_outer_zero t us)

/-- An expression without a comma outside brackets is an item. -/
theorem Derives.item {start : Location} (h : Derives source (.group start) ts tree) (hne : ts ≠ [])
    (hcomma : ∀ t ∈ outer 0 ts, t.kind ≠ .operator .comma) :
    Derives source (.chain .or) ts tree := by
  cases h with
  | empty => exact absurd rfl hne
  | group h =>
    generalize hφ : Phrase.chain .list = φ at h
    cases h with
    | single h =>
      cases hφ
      exact h
    | comma h ht => exact absurd ht (hcomma _ (h.mem_outer _ _))
    | @binary _ op =>
      cases op <;> cases hφ
    | _ => cases hφ

/-- An expression without an operator outside brackets may have members. -/
theorem Derives.access (h : Derives source φ ts tree) (hne : ts ≠ [])
    (hop : ∀ t ∈ outer 0 ts, ∀ op, t.kind ≠ .operator op) : Derives source .access ts tree := by
  induction h with
  | empty => exact absurd rfl hne
  | group _ ih | single _ ih => exact ih hne hop
  | comma h ht | binary h ht => exact absurd ht (hop _ (h.mem_outer _ _) _)
  | operand h => exact h
  | not ht => exact absurd ht (hop _ (mem_outer_zero _ _) _)
  | primary h => exact .primary h
  | property h ht => exact .property h ht
  | call h ht hu hgroup hv => exact .call h ht hu hgroup hv
  | literal ht => exact .primary (.literal ht)
  | name ht => exact .primary (.name ht)
  | brackets ht h hu => exact .primary (.brackets ht h hu)

/-- A phrase ends with a token that produces a value. -/
theorem Derives.producesValue (h : Derives source φ ts tree) (hφ : 0 < φ.rank) :
    ∃ us t, ts = us ++ [t] ∧ t.kind.producesValue = true := by
  induction h with
  | empty | group => cases hφ
  | @single level _ _ _ ih => exact ih (by cases level <;> decide)
  | @comma t ts _ _ _ _ _ _ _ ihright =>
    obtain ⟨us, u, rfl, hu⟩ := ihright (by decide)
    exact ⟨ts ++ t :: us, u, by simp, hu⟩
  | @binary t op ts _ _ _ _ _ _ _ ihright =>
    obtain ⟨us, u, rfl, hu⟩ := ihright (by cases op <;> decide)
    exact ⟨ts ++ t :: us, u, by simp, hu⟩
  | operand _ ih => exact ih (by decide)
  | @not t _ _ _ _ ih =>
    obtain ⟨us, u, rfl, hu⟩ := ih (by decide)
    exact ⟨t :: us, u, rfl, hu⟩
  | primary _ ih => exact ih (by decide)
  | property _ ht => exact ⟨_, _, rfl, by rw [ht]; rfl⟩
  | @call t u v ts us _ _ _ _ _ _ hv =>
    exact ⟨ts ++ t :: u :: us, v, by simp, by rw [hv]; rfl⟩
  | @literal t ht =>
    refine ⟨[], t, rfl, ?_⟩
    cases hkind : t.kind <;> rw [hkind] at ht <;> first | rfl | cases ht
  | name ht => exact ⟨[], _, rfl, by rw [ht]; rfl⟩
  | @brackets t u ts _ _ _ hu => exact ⟨t :: ts, u, rfl, by rw [hu]; rfl⟩

/-! ## Texts -/

/-- A value has been read last if the last significant token is one. -/
theorem Scans.producesValue {rest text : List Char} {b b' : Bool} (h : Scans rest b text ts b') :
    b' = ((significant ts).getLast?.map (·.kind.producesValue)).getD b := by
  induction h with
  | nil => rfl
  | @cons b next b' c cs k n ts hscan _ _ ih =>
    have hstop := (extends_scan _ _ _ hscan).1
    have hleaves := (promises_of_scan hscan).leaves
    by_cases hblank : k = .blank
    · subst hblank
      rw [significant_blank rfl, ih, hleaves]
      rfl
    · rw [k.leaves_eq_producesValue ⟨hblank, hstop⟩] at hleaves
      rw [significant_cons ⟨hblank, hstop⟩, List.getLast?_cons, ih, hleaves]
      cases (significant ts).getLast? <;> rfl

theorem failure?_of_parse {limit : Nat} (h : parse limit source = .ok tree) :
    (lex source).failure? = none := by
  obtain ⟨x, hx, -⟩ := map_eq_ok.mp h
  obtain ⟨s, -, hx⟩ := bind_eq_ok.mp hx
  cases hfailure : (lex source).failure? with
  | none => rfl
  | some failure =>
    rw [hfailure] at hx
    cases hx

/-- What a text is parsed to on its own, it reads as in front of anything that may stand after its
last token. -/
theorem readsAs_of_parse {limit : Nat} {follows : List Char → Prop}
    (h : parse limit source = .ok tree)
    (hderives : Derives source φ (significant (lex source).tokens) tree) (hφ : 0 < φ.rank)
    (hfollows : ∀ t ∈ (lex source).tokens.dropLast.getLast?, ∀ rest, follows rest →
      ∀ d ∈ rest.head?, t.kind.mayPrecede d = true) :
    ReadsAs φ follows source.toList tree.unlocated := fun rest hrest => by
  obtain ⟨ts, b, hscans, htokens⟩ := scans_of_lexFrom (failure?_of_parse h)
  change (lex source).tokens.map Token.bare = _ at htokens
  have hlast : (lex source).tokens.dropLast.map Token.bare = ts := by
    rw [List.map_dropLast, htokens, List.dropLast_concat]
  have hbefore : ∀ t ∈ ts.getLast?, ∀ d ∈ rest.head?, t.kind.mayPrecede d = true := by
    intro t ht
    rw [← hlast, List.getLast?_map] at ht
    obtain ⟨u, hu, rfl⟩ := Option.map_eq_some_iff.mp ht
    exact hfollows u hu rest hrest
  have hsignificant : (significant ts).map Token.bare =
      (significant (lex source).tokens).map Token.bare := by
    rw [significant_of_bare htokens, hscans.map_significant]
  obtain ⟨tree', hderives', htree⟩ : ∃ tree', Derives "" φ (significant ts) tree' ∧
      tree'.unlocated = tree.unlocated := hderives.elsewhere rfl hsignificant
  have hphrase : φ.unlocated = φ := by
    cases φ with
    | group => cases hφ
    | _ => rfl
  have hstart : ∀ t ∈ significant ts, t.start = 0 := by
    rw [← hscans.map_significant]
    exact List.forall_mem_map.mpr fun t _ => rfl
  rw [hderives'.unlocated hphrase hstart] at htree
  obtain ⟨us, t, hvalue, hproduces⟩ := hderives'.producesValue hφ
  have hb : b = true := by
    rw [hscans.producesValue, hvalue, List.getLast?_concat, Option.map_some, Option.getD_some,
      hproduces]
  refine ⟨ts, hb ▸ hscans.before hbefore, ?_, htree ▸ hderives'⟩
  rw [← hlast]
  exact List.forall_mem_map.mpr fun u hu => (derives_of_parse h).1 u (List.dropLast_subset _ hu)

/-- An expression that is parsed on its own, is not empty and has no comma outside brackets. -/
theorem readsAs_item {limit : Nat} (h : parse limit source = .ok tree)
    (hne : significant (lex source).tokens ≠ [])
    (hcomma : ∀ t ∈ outer 0 (significant (lex source).tokens), t.kind ≠ .operator .comma) :
    ReadsAs (.chain .or) EndsItem source.toList tree.unlocated :=
  readsAs_of_parse h ((derives_of_parse h).2.item hne hcomma) (by decide)
    fun t _ _ hrest => hrest.mayPrecede t.kind

/-- An expression that is parsed on its own, is not empty, has no operator outside brackets, and
does not end with an integer, which would take the point of a member. -/
theorem readsAs_receiver {limit : Nat} (h : parse limit source = .ok tree)
    (hne : significant (lex source).tokens ≠ [])
    (hop : ∀ t ∈ outer 0 (significant (lex source).tokens), ∀ op, t.kind ≠ .operator op)
    (hint : ∀ t ∈ (lex source).tokens.dropLast.getLast?, t.kind ≠ .int) :
    ReadsAs .access StartsMember source.toList tree.unlocated := by
  refine readsAs_of_parse h ((derives_of_parse h).2.access hne hop) (by decide) ?_
  intro t ht rest hrest d hd
  obtain rfl : '.' = d := Option.some.inj (hrest.symm.trans hd)
  have hpoint : Text.isIdentifierPart '.' = false ∧ Text.isBlank '.' = false :=
    ⟨(Text.identifier_ascii (by decide)).1, by decide⟩
  have hkind := hint t ht
  cases hk : t.kind with
  | int => exact absurd hk hkind
  | _ => simp [TokenKind.mayPrecede, hpoint]

end TwoWaySql.Expr
