import TwoWaySql.Proofs.Parsing

/-!
# Brackets

While the brackets opened within them are not closed, tokens are read over the suspended levels
without looking at these: a run over them is a run by itself (`run_under`). So a group is read as
its inner tokens would be read by themselves (`run_group`).
-/

namespace TwoWaySql.Template

/-- Whether all brackets are closed in the tokens, after `depth` others were opened. -/
def balanced : Nat → List Token → Bool
  | depth, [] => depth == 0
  | depth, t :: ts =>
    match t.kind with
    | .openBracket => balanced (depth + 1) ts
    | .closeBracket => depth != 0 && balanced (depth - 1) ts
    | _ => balanced depth ts

/-- The tree of tokens that are between brackets; these can be read in a template that can. -/
def innerTree (limit : Nat) (source : String) (inner : List Token) : Tree :=
  let tree? := do (← ParserState.start.run limit source inner).settle.level.finish
  tree?.toOption.getD (.statement [])

namespace ParserState

variable {limit : Nat} {source : String} {s s' : ParserState} {t : Token}
  {base : List Suspended}

/-- The state over more suspended levels. -/
def under (s : ParserState) (base : List Suspended) : ParserState :=
  { s with outer := s.outer ++ base }

theorem settle_under (s : ParserState) (base : List Suspended) :
    (s.under base).settle = s.settle.under base := by
  obtain ⟨level, outer, waiting?⟩ := s
  cases waiting? <;> rfl

theorem depth_le_under (s : ParserState) (base : List Suspended) :
    s.depth ≤ (s.under base).depth := by
  simp only [depth, under, List.foldr_append]
  have hbase : s.level.size ≤ base.foldr (fun o n => o.level.size + 1 + n) s.level.size := by
    induction base with
    | nil => exact Nat.le_refl _
    | cons o base ih =>
      rw [List.foldr_cons]
      omega
  induction s.outer with
  | nil => exact hbase
  | cons o outer ih =>
    rw [List.foldr_cons, List.foldr_cons]
    omega

/-- Reading a token over more levels, unless it closes one of them. -/
theorem reads_under (hclose : t.kind = .closeBracket → s.outer ≠ [])
    (h : Reads limit source (s.under base) t s') :
    ∃ u, Reads limit source s t u ∧ s' = u.under base := by
  cases h with
  | leaf htree => exact ⟨_, .leaf htree, rfl⟩
  | wait hkind hsample => exact ⟨_, .wait hkind hsample, rfl⟩
  | openBracket hkind hlimit =>
    have hdepth := s.depth_le_under base
    exact ⟨_, .openBracket hkind (by omega), rfl⟩
  | @closeBracket o outer inner hkind houter hinner =>
    obtain ⟨level, souter, waiting?⟩ := s
    cases souter with
    | nil => exact absurd rfl (hclose hkind)
    | cons o' outer' =>
      obtain ⟨rfl, rfl⟩ := List.cons.inj houter
      exact ⟨_, .closeBracket hkind rfl hinner, rfl⟩
  | clause hkind => exact ⟨_, .clause hkind, rfl⟩
  | connector hkind => exact ⟨_, .connector hkind, rfl⟩
  | set hkind hleft => exact ⟨_, .set hkind hleft, rfl⟩
  | ifBlock hkind => exact ⟨_, .ifBlock hkind, rfl⟩
  | forBlock hkind hparts => exact ⟨_, .forBlock hkind hparts, rfl⟩
  | branch hkind hbranch hframes hf => exact ⟨_, .branch hkind hbranch hframes hf, rfl⟩
  | endBlock hkind hframes => exact ⟨_, .endBlock hkind hframes, rfl⟩

theorem step_under (hend : Token.isEnd t = false) (hclose : t.kind = .closeBracket → s.outer ≠ [])
    (h : (s.under base).step limit source t = .ok s') :
    ∃ u, s.step limit source t = .ok u ∧ s' = u.under base := by
  cases (step_eq_ok hend).mp h with
  | sample hwaiting hsample => exact ⟨_, (step_eq_ok hend).mpr (.sample hwaiting hsample), rfl⟩
  | brackets hwaiting hkind htakes hlimit =>
    have hdepth := s.depth_le_under base
    exact ⟨_, (step_eq_ok hend).mpr (.brackets hwaiting hkind htakes (by omega)), rfl⟩
  | token hnot hdepth hreads =>
    rw [settle_under] at hdepth hreads
    have hle := s.settle.depth_le_under base
    obtain ⟨u, hu, rfl⟩ := reads_under (by rwa [settle_outer]) hreads
    exact ⟨u, (step_eq_ok hend).mpr (.token hnot (by omega) hu), rfl⟩

/-- The number of levels suspended after a token. -/
def outerAfter (t : Token) (n : Nat) : Nat :=
  match t.kind with
  | .openBracket => n + 1
  | .closeBracket => n - 1
  | _ => n

theorem length_outer_reads (h : Reads limit source s t s') :
    s'.outer.length = outerAfter t s.outer.length := by
  obtain ⟨kind, text, start⟩ := t
  cases h with
  | leaf htree =>
    cases kind with
    | openBracket | closeBracket => contradiction
    | _ => rfl
  | closeBracket hkind houter =>
    obtain rfl := hkind
    simp [outerAfter, houter]
  | wait hkind | openBracket hkind | clause hkind | connector hkind | set hkind | ifBlock hkind
  | forBlock hkind | branch hkind | endBlock hkind =>
    obtain rfl := hkind
    rfl

theorem length_outer_step (hend : Token.isEnd t = false) (h : s.step limit source t = .ok s') :
    s'.outer.length = outerAfter t s.outer.length := by
  cases (step_eq_ok hend).mp h with
  | @sample w sample hwaiting hsample =>
    have hkind : t.kind ≠ .openBracket ∧ t.kind ≠ .closeBracket := by
      unfold Waiting.sample? at hsample
      constructor <;> intro hkind <;> rw [hkind] at hsample <;> split at hsample <;> contradiction
    unfold outerAfter
    split
    · exact absurd ‹_› hkind.1
    · exact absurd ‹_› hkind.2
    · rfl
  | brackets _ hkind => simp [outerAfter, hkind]
  | token _ _ hreads => rw [length_outer_reads hreads, settle_outer]

theorem balanced_cons {depth : Nat} {ts : List Token} (h : balanced depth (t :: ts) = true) :
    (t.kind = .closeBracket → depth ≠ 0) ∧ balanced (outerAfter t depth) ts = true := by
  unfold balanced at h
  unfold outerAfter
  split at h <;> rename_i hkind
  · exact ⟨by simp [hkind], h⟩
  · simp only [Bool.and_eq_true, bne_iff_ne] at h
    exact ⟨fun _ => h.1, h.2⟩
  · exact ⟨fun hclose => absurd hclose ‹_›, h⟩

/-- A run in which all brackets are closed does not look at the levels below. -/
theorem run_under {ts : List Token} (hend : ∀ t ∈ ts, Token.isEnd t = false)
    (hbalanced : balanced s.outer.length ts = true)
    (h : (s.under base).run limit source ts = .ok s') :
    ∃ u, s.run limit source ts = .ok u ∧ s' = u.under base ∧ u.outer = [] := by
  induction ts generalizing s with
  | nil =>
    cases h
    exact ⟨s, rfl, rfl, by simpa [balanced] using hbalanced⟩
  | cons t ts ih =>
    have ht := hend t List.mem_cons_self
    obtain ⟨hclose, hrest⟩ := balanced_cons hbalanced
    rw [run_cons] at h
    obtain ⟨v, hstep, h⟩ := bind_eq_ok.mp h
    obtain ⟨u, hu, rfl⟩ := step_under ht (fun hkind hnil => hclose hkind (by simp [hnil])) hstep
    rw [← length_outer_step ht hu] at hrest
    obtain ⟨w, hw, hresult⟩ := ih (fun x hx => hend x (List.mem_cons_of_mem t hx)) hrest h
    exact ⟨w, by rw [run_cons]; exact bind_eq_ok.mpr ⟨u, hu, hw⟩, hresult⟩

/-- What follows an open bracket up to its close bracket is read as by itself. -/
theorem run_group {o : Suspended} {outer : List Suspended} {inner : List Token} {closing : Token}
    (hend : ∀ t ∈ inner, Token.isEnd t = false) (hbalanced : balanced 0 inner = true)
    (hclosing : closing.kind = .closeBracket)
    (h : run limit source ⟨.start, o :: outer, none⟩ (inner ++ [closing]) = .ok s') :
    s' = ⟨o.level.add (o.tree (innerTree limit source inner)), outer, none⟩ := by
  rw [run_append] at h
  obtain ⟨v, hv, h⟩ := bind_eq_ok.mp h
  obtain ⟨u, hu, rfl, houter⟩ := run_under (s := start) hend hbalanced hv
  rw [run_cons] at h
  obtain ⟨w, hstep, h⟩ := bind_eq_ok.mp h
  cases h
  have hclosingEnd : Token.isEnd closing = false := by simp [Token.isEnd, hclosing]
  cases (step_eq_ok hclosingEnd).mp hstep with
  | sample hwaiting hsample =>
    unfold Waiting.sample? at hsample
    rw [hclosing] at hsample
    split at hsample <;> contradiction
  | brackets _ hkind =>
    rw [hclosing] at hkind
    cases hkind
  | token _ _ hreads =>
    rw [settle_under] at hreads
    obtain ⟨kind, text, start⟩ := closing
    obtain rfl := hclosing
    cases hreads with
    | @closeBracket o' outer' tree _ ho htree =>
      have hinner : innerTree limit source inner = tree := by
        have hlevel : (u.settle.under (o :: outer)).level = u.settle.level := rfl
        rw [hlevel] at htree
        simp [innerTree, hu, htree, bind, Except.bind, Except.toOption]
      rw [under, settle_outer, houter] at ho
      obtain ⟨rfl, rfl⟩ := List.cons.inj ho
      rw [hinner]
    | _ => contradiction

end ParserState

end TwoWaySql.Template
