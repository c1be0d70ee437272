import TwoWaySql.Proofs.Expr.Completeness
import TwoWaySql.Proofs.Expr.Lexing
import TwoWaySql.Proofs.Expr.Locations

/-!
# Expressions one after the other

A text is read the same in front of another one if its last token may stand there (`Scans.before`).
So what is known of the pieces of a text tells what the whole is parsed to (`parse_of_scans`).
-/

namespace TwoWaySql.Expr

/-- In front of `rest`, the text is read as the tokens, each as if it stood at the start of a text.
The Booleans tell whether a value comes before the text and whether the text ends with one. -/
inductive Scans (rest : List Char) : Bool → List Char → List Token → Bool → Prop where
  | nil {b : Bool} : Scans rest b [] [] b
  | cons {b next b' : Bool} {c : Char} {cs : List Char} {k : TokenKind} {n : Nat}
      {ts : List Token} : scan b c (cs ++ rest) = .token k n next → n ≤ cs.length →
      Scans rest next (cs.drop n) ts b' →
      Scans rest b (c :: cs) (⟨k, String.ofList (c :: cs.take n), 0⟩ :: ts) b'

variable {a rest text more : List Char} {b b' b'' : Bool} {c : Char} {k : TokenKind}
  {ts us : List Token}

theorem Scans.append (h : Scans (more ++ rest) b text ts b') (hmore : Scans rest b' more us b'') :
    Scans rest b (text ++ more) (ts ++ us) b'' := by
  induction h with
  | nil => exact hmore
  | @cons b _ _ c cs k n ts hscan hn _ ih =>
    have htake : (cs ++ more).take n = cs.take n := List.take_append_of_le_length hn
    have hdrop : (cs ++ more).drop n = cs.drop n ++ more := List.drop_append_of_le_length hn
    rw [List.cons_append, List.cons_append, ← htake]
    refine .cons (by rwa [List.append_assoc]) (by rw [List.length_append]; omega) ?_
    rw [hdrop]
    exact ih hmore

/-- The other way round of `Scans.append`: some tokens of a text are those of its first part. -/
theorem Scans.split (h : Scans rest b text (ts ++ us) b'') :
    ∃ left right b', text = left ++ right ∧ Scans (right ++ rest) b left ts b' ∧
      Scans rest b' right us b'' := by
  induction ts generalizing b text with
  | nil => exact ⟨[], text, b, rfl, .nil, h⟩
  | cons t ts ih =>
    rw [List.cons_append] at h
    cases h with
    | @cons _ next _ c cs k n _ hscan hn h =>
      obtain ⟨left, right, b', hdrop, hleft, hright⟩ := ih h
      have hcs : cs.take n ++ left ++ right = cs := by
        rw [List.append_assoc, ← hdrop, List.take_append_drop]
      have hlength : (cs.take n).length = n := List.length_take_of_le hn
      have hscan' : scan b c (cs.take n ++ left ++ (right ++ rest)) = .token k n next := by
        rwa [← List.append_assoc, hcs]
      have hcons : Scans (right ++ rest) b (c :: (cs.take n ++ left))
          (⟨k, String.ofList (c :: (cs.take n ++ left).take n), 0⟩ :: ts) b' := by
        refine .cons hscan' ?_ ?_
        · rw [List.length_append, hlength]
          exact Nat.le_add_right n _
        · rwa [List.drop_left' hlength]
      rw [List.take_left' hlength] at hcons
      exact ⟨_, right, b', congrArg (c :: ·) hcs.symm, hcons, hright⟩

theorem Scans.text_eq (h : Scans rest b text ts b') : text = ts.flatMap (·.text.toList) := by
  induction h with
  | nil => rfl
  | @cons _ _ _ c cs k n ts _ _ _ ih =>
    rw [List.flatMap_cons, ← ih, String.toList_ofList, List.cons_append, List.take_append_drop]

/-- One token that is a whole text. -/
theorem scans_token (h : scan b c a = .token k a.length b')
    (hrest : ∀ d ∈ rest.head?, k.mayPrecede d = true) :
    Scans rest b (c :: a) [⟨k, String.ofList (c :: a), 0⟩] b' := by
  have hscan := (extends_scan _ _ _ h).2.2 rest fun _ => hrest
  have hcons : Scans rest b (c :: a) [_] _ :=
    .cons hscan (Nat.le_refl _) (by rw [List.drop_length]; exact .nil)
  rwa [List.take_length] at hcons

/-- A text is read the same in front of another one that may stand after its last token. -/
theorem Scans.before (h : Scans [] b text ts b')
    (hmore : ∀ t ∈ ts.getLast?, ∀ d ∈ more.head?, t.kind.mayPrecede d = true) :
    Scans more b text ts b' := by
  induction h with
  | nil => exact .nil
  | @cons b _ b' c cs k n ts hscan hn h ih =>
    rw [List.append_nil] at hscan
    refine .cons ((extends_scan _ _ _ hscan).2.2 more fun hend => ?_) hn (ih fun t ht => hmore t ?_)
    · rw [hend, List.drop_length] at h
      cases h
      exact hmore _ rfl
    · rw [List.getLast?_cons, Option.mem_def.mp ht]
      rfl

theorem Scans.length_le (h : Scans rest b text ts b') : ts.length ≤ text.length := by
  induction h with
  | nil => exact Nat.le_refl _
  | cons _ _ _ ih =>
    rw [List.length_drop] at ih
    rw [List.length_cons, List.length_cons]
    omega

theorem Scans.bare (h : Scans rest b text ts b') : ts.map Token.bare = ts := by
  induction h with
  | nil => rfl
  | cons _ _ _ ih => rw [List.map_cons, ih]; rfl

/-- The end of a text, as if at its start. -/
def stopToken : Token := ⟨.stop, "", 0⟩

theorem Scans.lexFrom (h : Scans [] b text ts b') (offset : Nat) :
    (scanner.lexFrom b offset text).failure? = none ∧
      (scanner.lexFrom b offset text).tokens.map Token.bare = ts ++ [stopToken] := by
  induction h generalizing offset with
  | nil =>
    rw [Scanner.lexFrom]
    exact ⟨rfl, rfl⟩
  | cons hscan _ _ ih =>
    rw [List.append_nil] at hscan
    rw [lexFrom_token hscan]
    refine ⟨(ih _).1, ?_⟩
    rw [List.map_cons, (ih _).2]
    rfl

theorem scans_of_lexFrom {offset : Nat} (h : (scanner.lexFrom b offset text).failure? = none) :
    ∃ ts b', Scans [] b text ts b' ∧
      (scanner.lexFrom b offset text).tokens.map Token.bare = ts ++ [stopToken] := by
  fun_induction scanner.lexFrom b offset text with
  | case1 b offset => exact ⟨[], b, .nil, rfl⟩
  | case2 => cases h
  | case3 b offset c cs k n next hscan token more ih =>
    obtain ⟨ts, b', hscans, htokens⟩ := ih h
    have hscan' : scan b c (cs ++ []) = .token k n next := by
      rw [List.append_nil]
      exact hscan
    refine ⟨_, b', .cons hscan' (extends_scan _ _ _ hscan).2.1 hscans, ?_⟩
    rw [List.map_cons, htokens]
    rfl

/-! ## Expressions -/

theorem map_significant (ts : List Token) :
    (significant ts).map Token.bare = significant (ts.map Token.bare) := by
  rw [significant, significant, List.filter_map]
  rfl

theorem significant_append (ts us : List Token) :
    significant (ts ++ us) = significant ts ++ significant us := List.filter_append ts us

/-- The end is not significant. -/
theorem significant_of_bare (h : us.map Token.bare = ts ++ [stopToken]) :
    (significant us).map Token.bare = significant ts := by
  rw [map_significant, h, significant_append]
  exact List.append_nil _

theorem Scans.map_significant (h : Scans rest b text ts b') :
    (significant ts).map Token.bare = significant ts := by
  rw [Expr.map_significant, h.bare]

/-- No token is empty. -/
theorem length_significant_lex {source : String} (h : (lex source).failure? = none) :
    (significant (lex source).tokens).length ≤ source.length := by
  obtain ⟨ts, b, hscans, htokens⟩ := scans_of_lexFrom h
  have hsame : (significant (lex source).tokens).map Token.bare = significant ts :=
    significant_of_bare htokens
  calc (significant (lex source).tokens).length
    _ = (significant ts).length := by rw [← hsame, List.length_map]
    _ ≤ ts.length := List.length_filter_le _ ts
    _ ≤ source.toList.length := hscans.length_le
    _ = source.length := String.length_toList

/-- A text is parsed to what the grammar derives from its tokens, wherever they stand, if the limit
is at least the length of the text. -/
theorem parse_of_scans {source : String} {limit : Nat} {start : Location} {tree : Tree}
    (h : Scans [] false text ts b') (hreadable : ∀ t ∈ ts, Token.Readable t)
    (hderives : Derives source (.group start) (significant ts) tree)
    (hlimit : text.length ≤ limit) :
    (parse limit (String.ofList text)).map Tree.unlocated = .ok tree.unlocated := by
  obtain ⟨hlex, htokens⟩ : (lex (String.ofList text)).failure? = none ∧
      (lex (String.ofList text)).tokens.map Token.bare = ts ++ [stopToken] := by
    rw [lex, String.toList_ofList]
    exact h.lexFrom 0
  have hsignificant : (significant (lex (String.ofList text)).tokens).map Token.bare =
      (significant ts).map Token.bare := by
    rw [significant_of_bare htokens, h.map_significant]
  obtain ⟨tree', hderives', htree⟩ : ∃ tree', Derives (String.ofList text)
      (.group ⟨String.ofList text, 0⟩) (significant (lex (String.ofList text)).tokens) tree' ∧
      tree'.unlocated = tree.unlocated := hderives.elsewhere rfl hsignificant
  have hreadable' : ∀ t ∈ (lex (String.ofList text)).tokens, Token.Readable t := by
    intro t ht
    have hmem : Token.bare t ∈ ts ++ [stopToken] := htokens ▸ List.mem_map_of_mem ht
    rcases List.mem_append.mp hmem with hmem | hmem
    · exact hreadable (Token.bare t) hmem
    · have hkind : t.kind = .stop := congrArg (·.kind) (List.mem_singleton.mp hmem)
      intro hliteral
      rw [hkind] at hliteral
      cases hliteral
  have hcount : (significant (lex (String.ofList text)).tokens).length ≤ limit := by
    refine Nat.le_trans (length_significant_lex hlex) ?_
    rwa [String.length_ofList]
  rw [parse_of_derives hlex hcount hreadable' hderives', ← htree]
  rfl

end TwoWaySql.Expr
