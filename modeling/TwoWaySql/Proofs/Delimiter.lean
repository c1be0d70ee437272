import TwoWaySql.Proofs.Caching
import TwoWaySql.Proofs.Operands

/-!
# After the semicolon

A statement ends with its first semicolon, and what comes after that is not looked at: it may be
anything, also a text that cannot be read (`build_delimiter`). Only a line comment at the end takes
the semicolon in.
-/

namespace TwoWaySql

namespace Template

variable {limit : Nat} {c : Char} {cs : List Char} {k : TokenKind} {n : Nat} {t u : Token}
  {ts : List Token}

/-- A comment up to the end of the line. -/
def Token.IsLineComment (t : Token) : Prop := t.kind = .comment ∧ ['-', '-'] <+: t.text.toList

instance (t : Token) : Decidable (Token.IsLineComment t) := inferInstanceAs (Decidable (_ ∧ _))

/-- The last token before the end. -/
def lastToken? (ts : List Token) : Option Token := (ts.filter (·.kind ≠ .stop)).getLast?

theorem lastToken?_cons (h : u ∈ lastToken? ts) : u ∈ lastToken? (t :: ts) := by
  unfold lastToken? at h ⊢
  by_cases ht : t.kind = .stop
  · rwa [List.filter_cons_of_neg (by simp [ht])]
  · rw [List.filter_cons_of_pos (by simp [ht]), List.getLast?_cons, Option.mem_def.mp h]
    rfl

/-! ## Reading -/

theorem untilEnd_of_isEnd (h : Token.isEnd t = true) (ts : List Token) : untilEnd (t :: ts) = [] :=
  List.takeWhile_cons_of_neg (by simp [h])

/-- A token of a text is found also before a semicolon, unless it is a line comment that goes on to
the end. -/
theorem scan_before_delimiter (h : scan c cs = .ok (k, n))
    (hline : n = cs.length → ¬(k = .comment ∧ ['-', '-'] <+: c :: cs)) (more : List Char) :
    scan c (cs ++ ';' :: more) = .ok (k, n) := by
  refine scan_of_boundary (r := []) (by rwa [List.append_nil]) (scan_le h) boundary_nil
    (boundary_semicolon more) fun hk hc hn => (hline hn ⟨hk, ?_⟩).elim
  subst hk hc
  rcases scan_comment h with ⟨-, hcs, -⟩ | ⟨hc, -⟩
  · obtain ⟨cs, rfl⟩ := List.head?_eq_some_iff.mp hcs
    exact ⟨cs, rfl⟩
  · cases hc

theorem scan_delimiter (cs : List Char) : scan ';' cs = .ok (.delimiter, 0) :=
  scan_of_scanRule (.delimiter rfl)

/-- Up to the end of the statement, a text has the same tokens before a semicolon. -/
theorem lexFrom_delimiter (more cs : List Char) (offset : Nat)
    (hends : Ends (scanner.lexFrom () offset cs).tokens)
    (hline : ∀ t ∈ lastToken? (scanner.lexFrom () offset cs).tokens, ¬ Token.IsLineComment t) :
    Ends (scanner.lexFrom () offset (cs ++ ';' :: more)).tokens ∧
      untilEnd (scanner.lexFrom () offset (cs ++ ';' :: more)).tokens =
        untilEnd (scanner.lexFrom () offset cs).tokens := by
  induction cs using lex_induction generalizing offset with
  | nil =>
    rw [List.nil_append, lexFrom_token (scan_delimiter more), lexFrom_nil]
    exact ⟨⟨_, List.mem_cons_self, rfl⟩, rfl⟩
  | error c cs cause h => simp [lexFrom_error h, Ends] at hends
  | token c cs k n h ih =>
    have hstop := (scan_start h).1
    have hscan : scan c (cs ++ ';' :: more) = .ok (k, n) := by
      refine scan_before_delimiter h (fun hn hcomment => ?_) more
      obtain ⟨hk, hdashes⟩ := hcomment
      subst hn
      rw [lexFrom_token h, List.take_length, List.drop_length] at hline
      refine hline ⟨k, String.ofList (c :: cs), offset⟩ ?_ ⟨hk, by rwa [String.toList_ofList]⟩
      simp [lexFrom_nil, lastToken?, hstop]
    rw [List.cons_append, lexFrom_token hscan, List.take_append_of_le_length (scan_le h),
      List.drop_append_of_le_length (scan_le h)]
    rw [lexFrom_token h] at hends hline ⊢
    dsimp only at hends hline ⊢
    cases hend : Token.isEnd (⟨k, String.ofList (c :: cs.take n), offset⟩ : Token) with
    | true =>
      refine ⟨⟨_, List.mem_cons_self, hend⟩, ?_⟩
      rw [untilEnd_of_isEnd hend, untilEnd_of_isEnd hend]
    | false =>
      obtain ⟨⟨t, ht, hstops⟩, hsame⟩ := ih _ (hends.tail hend) fun t ht =>
        hline t (lastToken?_cons ht)
      refine ⟨⟨t, List.mem_cons_of_mem _ ht, hstops⟩, ?_⟩
      rw [untilEnd_cons hend, untilEnd_cons hend, hsame]

/-- What comes after a semicolon makes no difference to what a template is parsed to. -/
theorem parse_delimiter {limit : Nat} {template : String} {tree : Tree} (rest : String)
    (h : parse limit template = .ok tree)
    (hline : ∀ t ∈ lastToken? (lex template).tokens, ¬ Token.IsLineComment t) :
    ∃ tree', parse limit (template ++ ";" ++ rest) = .ok tree' ∧
      tree'.unlocated = tree.unlocated := by
  obtain ⟨hends, s, hrun, hfinishes⟩ := exists_parse_iff.mp ⟨tree, h, rfl⟩
  obtain ⟨hends', hsame⟩ := lexFrom_delimiter rest.toList template.toList 0 hends hline
  have htext : (template ++ ";" ++ rest).toList = template.toList ++ ';' :: rest.toList := by simp
  rw [← htext] at hends' hsame
  have htokens : statementTokens (template ++ ";" ++ rest) = statementTokens template := hsame
  exact exists_parse_iff.mpr ⟨hends', s, by rwa [htokens], hfinishes⟩

end Template

/-! ## Building -/

open Template

namespace Cache

/-- Every tree of the cache is what its text is parsed to within the limit. -/
def ParsedWithin (limit : Nat) (cache : Cache) : Prop :=
  ∀ p ∈ cache.trees, Template.parse limit p.1 = .ok p.2

theorem parsedWithin_empty (limit capacity : Nat) : (empty capacity).ParsedWithin limit :=
  List.forall_mem_nil _

end Cache

/-- A build keeps that the trees of the cache are such ones. -/
theorem Compiler.parsedWithin_build (c : Compiler) {cache? : Option Cache}
    (hcache : ∀ cache ∈ cache?, cache.ParsedWithin c.limit) (template : String)
    (parameters : Scope) :
    ∀ cache ∈ (c.build cache? template parameters).cache?, cache.ParsedWithin c.limit := by
  rw [build_cache?]
  cases cache? with
  | none => exact nofun
  | some cache =>
    have hkept := hcache cache rfl
    unfold Compiler.parse
    cases hlookup : cache.trees.lookup template with
    | some tree =>
      simp only [Cache.get, hlookup]
      rintro _ ⟨⟩ p hp
      exact hkept p hp
    | none =>
      simp only [Cache.get, hlookup]
      cases hparse : Template.parse c.limit template with
      | error e =>
        rintro _ ⟨⟩
        exact hkept
      | ok tree =>
        rintro _ ⟨⟩ p hp
        rcases Cache.mem_trees_insert hp with rfl | hp
        · exact hparse
        · exact hkept p hp

/-- A cache with such trees makes no difference. -/
theorem Compiler.parse_result (c : Compiler) {cache? : Option Cache}
    (hcache : ∀ cache ∈ cache?, cache.ParsedWithin c.limit) (template : String) :
    (c.parse cache? template).result = Template.parse c.limit template := by
  cases cache? with
  | none => rfl
  | some cache =>
    unfold Compiler.parse
    cases hlookup : cache.trees.lookup template with
    | some tree =>
      simp only [Cache.get, hlookup]
      exact (hcache cache rfl _ (Cache.mem_of_lookup hlookup)).symm
    | none =>
      simp only [Cache.get, hlookup]
      cases Template.parse c.limit template <;> rfl

/-- A template that is built is built to the same statement with a semicolon and any text after it,
if it does not end with a line comment. This is so without caches and with ones that hold what the
compiler would parse. -/
theorem build_delimiter (c : Compiler) (cache? cache'? : Option Cache) (parameters : Scope)
    (template rest : String) (s : Statement)
    (hcache : ∀ cache ∈ cache?, cache.ParsedWithin c.limit)
    (hcache' : ∀ cache ∈ cache'?, cache.ParsedWithin c.limit)
    (hline : ∀ t ∈ lastToken? (lex template).tokens, ¬ Token.IsLineComment t)
    (h : (c.build cache? template parameters).result = .ok s) :
    (c.build cache'? (template ++ ";" ++ rest) parameters).result = .ok s := by
  have huncached {cache? : Option Cache} (hcache : ∀ cache ∈ cache?, cache.ParsedWithin c.limit)
      (template : String) : (c.build cache? template parameters).result =
        (c.build none template parameters).result := by
    rw [Compiler.build_result, Compiler.build_result, c.parse_result hcache]
    rfl
  rw [huncached hcache] at h
  rw [huncached hcache']
  obtain ⟨tree, ps, scope, hparse, hresolve, rfl⟩ := Compiler.build_eq_ok_iff_resolve.mp h
  obtain ⟨tree', hparse', hsame⟩ := parse_delimiter rest hparse hline
  refine Compiler.build_eq_ok_iff_resolve.mpr ⟨tree', ps, scope, hparse', ?_, rfl⟩
  rw [← resolve_unlocated_eq_ok, hsame, resolve_unlocated_eq_ok]
  exact hresolve

/-- The template ends with a word that the text after the semicolon would make a keyword. That text
has an unknown directive, a bracket that is not open, and a quote that is not closed. -/
theorem build_delimiter_unreadable :
    let template := "select a from t where b = /*x*/1 and (/*y*/'c' = d) for"
    let parameters : Scope := .ofList [("x", .of (.int 5)), ("y", .of (.string "e"))]
    let built := Compiler.standard.build (some (.empty 1)) template parameters
    (∀ t ∈ lastToken? (lex template).tokens, ¬ Token.IsLineComment t) ∧
      ∃ s, built.result = .ok s ∧
        (Compiler.standard.build built.cache?
          (template ++ ";" ++ " update /*%bogus*/ ) 'open") parameters).result = .ok s := by
  intro template parameters built
  have hlog : built.result.toOption.map (·.log) =
      some "select a from t where b = 5 and ('e' = d) for" := by
    decide +kernel
  obtain ⟨s, hs, -⟩ := exists_ok_of_map hlog
  have hline : ∀ t ∈ lastToken? (lex template).tokens, ¬ Token.IsLineComment t := by
    decide +kernel
  have hcache : ∀ cache ∈ some (Cache.empty 1), cache.ParsedWithin Compiler.standard.limit := by
    rintro _ ⟨⟩
    exact Cache.parsedWithin_empty _ 1
  exact ⟨hline, s, hs, build_delimiter .standard (some (.empty 1)) built.cache? parameters template
    " update /*%bogus*/ ) 'open" s hcache
    (Compiler.standard.parsedWithin_build hcache template parameters) hline hs⟩

end TwoWaySql
