import TwoWaySql.Proofs.Parsing

/-!
# The nesting limit

The limit makes the parser refuse a template and has no other effect: what is parsed within a limit
is parsed to the same tree within every larger one (`parse_of_limit_le`), and within a smaller one
unless its nesting is beyond that (`parse_of_withinLimit`).
-/

namespace TwoWaySql.Template

namespace ParserState

variable {limit limit' : Nat} {source : String} {s s' : ParserState} {t : Token}

theorem Reads.of_limit_le (h : limit ≤ limit') (hreads : Reads limit source s t s') :
    Reads limit' source s t s' := by
  cases hreads with
  | leaf htree => exact .leaf htree
  | wait hkind hsample => exact .wait hkind hsample
  | openBracket hkind hdepth => exact .openBracket hkind (Nat.le_trans hdepth h)
  | closeBracket hkind houter hinner => exact .closeBracket hkind houter hinner
  | clause hkind => exact .clause hkind
  | connector hkind => exact .connector hkind
  | set hkind hleft => exact .set hkind hleft
  | ifBlock hkind => exact .ifBlock hkind
  | forBlock hkind hparts => exact .forBlock hkind hparts
  | branch hkind hbranch hframes hf => exact .branch hkind hbranch hframes hf
  | endBlock hkind hframes => exact .endBlock hkind hframes

theorem Steps.of_limit_le (h : limit ≤ limit') (hsteps : Steps limit source s t s') :
    Steps limit' source s t s' := by
  cases hsteps with
  | sample hwaiting hsample => exact .sample hwaiting hsample
  | brackets hwaiting hkind htakes hdepth =>
    exact .brackets hwaiting hkind htakes (Nat.le_trans hdepth h)
  | token hnot hdepth hreads =>
    exact .token hnot (Nat.le_trans hdepth h) (hreads.of_limit_le h)

theorem run_of_limit_le (h : limit ≤ limit') {ts : List Token}
    (hend : ∀ t ∈ ts, Token.isEnd t = false) (hrun : s.run limit source ts = .ok s') :
    s.run limit' source ts = .ok s' := by
  induction ts generalizing s with
  | nil => exact hrun
  | cons t ts ih =>
    obtain ⟨ht, hts⟩ := List.forall_mem_cons.mp hend
    rw [run_cons] at hrun ⊢
    obtain ⟨u, hstep, hrun⟩ := bind_eq_ok.mp hrun
    have hstep' := (step_eq_ok ht).mpr (((step_eq_ok ht).mp hstep).of_limit_le h)
    exact bind_eq_ok.mpr ⟨u, hstep', ih hts hrun⟩

theorem Finishes.of_limit_le (h : limit ≤ limit') {tree : Tree}
    (hfinishes : s.Finishes limit tree) : s.Finishes limit' tree :=
  { hfinishes with depth_le := Nat.le_trans hfinishes.depth_le h }

end ParserState

theorem parse_of_limit_le {limit limit' : Nat} (h : limit ≤ limit') {source : String} {tree : Tree}
    (hparse : parse limit source = .ok tree) : parse limit' source = .ok tree := by
  obtain ⟨hends, s, hrun, hfinishes⟩ := parse_eq_ok_iff.mp hparse
  have hrun' := ParserState.run_of_limit_le h (fun _ => isEnd_of_mem_statementTokens) hrun
  exact parse_eq_ok_iff.mpr ⟨hends, s, hrun', hfinishes.of_limit_le h⟩

/-- The limit makes no difference to the tree. -/
theorem parse_unique {limit limit' : Nat} {source : String} {tree tree' : Tree}
    (h : parse limit source = .ok tree) (h' : parse limit' source = .ok tree') : tree = tree' := by
  have hmax := parse_of_limit_le (Nat.le_max_left limit limit') h
  rw [parse_of_limit_le (Nat.le_max_right limit limit') h'] at hmax
  exact (Except.ok.inj hmax).symm

/-! ## Smaller limits -/

/-- The nesting is beyond the limit. -/
def TooDeep {α : Type} (limit : Nat) (x : Except Error α) : Prop :=
  ∃ location, x = .error (.structural (.tooDeep limit) location)

/-- The parser does not refuse the template for its nesting. -/
def WithinLimit (limit : Nat) (source : String) : Prop := ¬TooDeep limit (parse limit source)

theorem TooDeep.bind {α β : Type} {limit : Nat} {x : Except Error α} (h : TooDeep limit x)
    (f : α → Except Error β) : TooDeep limit (x >>= f) := by
  obtain ⟨location, rfl⟩ := h
  exact ⟨location, rfl⟩

theorem TooDeep.after {α β : Type} {limit : Nat} {x : Except Error α} {a : α}
    {f : α → Except Error β} (hx : x = .ok a) (h : TooDeep limit (f a)) :
    TooDeep limit (x >>= f) := by
  rw [hx]
  exact h

namespace ParserState

variable {limit limit' : Nat} {source : String} {s s' : ParserState} {t : Token}

theorem tooDeep_checkDepth {location : Location} (h : ¬s.depth ≤ limit) :
    TooDeep limit (s.checkDepth limit location) := by
  rw [checkDepth, if_pos (by omega)]
  exact ⟨location, rfl⟩

variable (limit)

theorem openBracket_lower {location : Location} {sampleOf? : Option Waiting}
    (h : openBracket limit' s location sampleOf? = .ok s') :
    openBracket limit s location sampleOf? = .ok s' ∨
      TooDeep limit (openBracket limit s location sampleOf?) := by
  obtain ⟨-, rfl⟩ := openBracket_eq_ok.mp h
  unfold openBracket
  split
  · exact .inr ⟨location, rfl⟩
  · exact .inl rfl

theorem addToken_lower (h : s.addToken limit' source t = .ok s') :
    s.addToken limit source t = .ok s' ∨ TooDeep limit (s.addToken limit source t) := by
  obtain ⟨u, -, h⟩ := bind_eq_ok.mp h
  by_cases hdepth : s.depth ≤ limit
  · have hcheck {location : Location} : s.checkDepth limit location = .ok () :=
      checkDepth_eq_ok.mpr hdepth
    obtain ⟨kind, text, start⟩ := t
    cases kind with
    | openBracket =>
      rcases openBracket_lower limit h with h | h
      · exact .inl (bind_eq_ok.mpr ⟨(), hcheck, h⟩)
      · exact .inr (.after hcheck h)
    | _ => exact .inl (bind_eq_ok.mpr ⟨(), hcheck, h⟩)
  · exact .inr ((tooDeep_checkDepth hdepth).bind _)

theorem step_lower (h : s.step limit' source t = .ok s') :
    s.step limit source t = .ok s' ∨ TooDeep limit (s.step limit source t) := by
  unfold step at h ⊢
  split at h
  · exact addToken_lower limit h
  · split at h
    · exact .inl h
    · split at h
      · rename_i hbracket
        simp only [hbracket, and_self, ↓reduceIte]
        exact openBracket_lower limit h
      · rename_i hbracket
        simp only [hbracket, ↓reduceIte]
        exact addToken_lower limit h

theorem finish_lower {tree : Tree} (h : s.finish limit' source t = .ok tree) :
    s.finish limit source t = .ok tree ∨ TooDeep limit (s.finish limit source t) := by
  by_cases hdepth : s.settle.depth ≤ limit
  · have hfinishes := finish_eq_ok_iff.mp h
    exact .inl (finish_eq_ok_iff.mpr { hfinishes with depth_le := hdepth })
  · exact .inr ((tooDeep_checkDepth hdepth).bind _)

end ParserState

theorem parseTokens_lower {limit limit' : Nat} {source : String} {error? : Option Error}
    {tree : Tree} {ts : List Token} {s : ParserState}
    (h : parseTokens limit' source error? s ts = .ok tree) :
    parseTokens limit source error? s ts = .ok tree ∨
      TooDeep limit (parseTokens limit source error? s ts) := by
  induction ts generalizing s with
  | nil => exact .inl h
  | cons t ts ih =>
    unfold parseTokens at h ⊢
    split
    · rename_i hend
      rw [if_pos hend] at h
      exact ParserState.finish_lower limit h
    · rename_i hend
      rw [if_neg hend] at h
      obtain ⟨u, hstep, h⟩ := bind_eq_ok.mp h
      rcases ParserState.step_lower limit hstep with hstep | hdeep
      · exact (ih h).imp (fun h => bind_eq_ok.mpr ⟨u, hstep, h⟩) (.after hstep)
      · exact .inr (hdeep.bind _)

theorem withinLimit_of_isSome {limit : Nat} {source : String}
    (h : (parse limit source).toOption.isSome = true) : WithinLimit limit source := by
  rintro ⟨location, hdeep⟩
  rw [hdeep] at h
  cases h

/-- Within a smaller limit there is no other error than that the nesting is beyond it. -/
theorem parse_of_withinLimit {limit limit' : Nat} {source : String} {tree : Tree}
    (h : parse limit' source = .ok tree) (hwithin : WithinLimit limit source) :
    parse limit source = .ok tree :=
  (parseTokens_lower h).resolve_right hwithin

end TwoWaySql.Template
