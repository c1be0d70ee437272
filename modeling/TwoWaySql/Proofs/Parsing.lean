import TwoWaySql.Proofs.Canonical
import TwoWaySql.Proofs.Outcome

/-!
# Runs of the parser

Parsing runs the steps of the tokens before the end, and then finishes. `step_eq_ok` lists what a
step can do: take the token as a sample of the directive before, or settle that directive and read
the token by its kind. What every step keeps, a run keeps.
-/

namespace TwoWaySql.Template

/-- The directive that a token is. -/
def Token.directive (source : String) (t : Token) : Directive :=
  ⟨t.body?.getD "", t.text, ⟨source, t.start⟩⟩

/-- The tree of a token that stands for itself. -/
def Token.leaf? (source : String) (t : Token) : Option Tree :=
  match t.kind with
  | .word | .quote => some (.word t.text)
  | .blank => some (.blank t.text)
  | .comment => some (.comment t.text)
  | .other => some (.other t.text)
  | .directive .embedded => some (.embedded (Token.directive source t))
  | _ => none

/-- The directives that wait for a sample. -/
def DirectiveKind.sample? : DirectiveKind → Option SampleKind
  | .bind => some .bind
  | .literal => some .literal
  | .expand => some .expand
  | _ => none

/-- The frame with another branch open, if the frame is that of an `if` without `else`. -/
def Frame.nextBranch? (kind : DirectiveKind) (d : Directive) : Frame → Option Frame
  | .ifBlock test ts => some (.branch kind d test ts.reverse [])
  | .elseifBlock test body bs e ts => some (.branch kind d test body ((e, ts.reverse) :: bs))
  | _ => none

/-- The level without the clauses and connectors open at its end. -/
def Level.settled (l : Level) : Level := l.complete Frame.isClauseOrLogical

theorem Level.finish_eq (l : Level) :
    l.finish = match l.settled.frames.head?.bind Frame.opening? with
      | some d => .error (.structural .blockWithoutEnd d.location)
      | none => .ok l.settled.tree := rfl

/-- What a group in brackets is read as, from the tree within. -/
def Suspended.tree (o : Suspended) (inner : Tree) : Tree :=
  match o.sampleOf? with
  | none => .brackets inner
  | some w => w.tree (some (.brackets inner))

namespace ParserState

variable {limit : Nat} {source : String} {s s' : ParserState} {t : Token}

/-! ## Steps -/

theorem settle_waiting (s : ParserState) : s.settle.waiting? = none := by
  unfold settle
  split
  · assumption
  · rfl

theorem settle_outer (s : ParserState) : s.settle.outer = s.outer := by
  unfold settle
  split <;> rfl

theorem settle_eq (s : ParserState) : s.settle = ⟨s.settle.level, s.outer, none⟩ := by
  rw [← settle_outer, ← settle_waiting]

/-- What reading a token by its kind does to a state in which no directive waits. -/
inductive Reads (limit : Nat) (source : String) (s : ParserState) (t : Token) :
    ParserState → Prop where
  | leaf {tree : Tree} : Token.leaf? source t = some tree → Reads limit source s t (s.add tree)
  | wait {d : DirectiveKind} {kind : SampleKind} : t.kind = .directive d → d.sample? = some kind →
      Reads limit source s t { s with waiting? := some ⟨kind, Token.directive source t⟩ }
  | openBracket : t.kind = .openBracket → s.depth + 1 ≤ limit →
      Reads limit source s t ⟨.start, ⟨s.level, ⟨source, t.start⟩, none⟩ :: s.outer, none⟩
  | closeBracket {o : Suspended} {outer : List Suspended} {inner : Tree} :
      t.kind = .closeBracket → s.outer = o :: outer → s.level.finish = .ok inner →
      Reads limit source s t ⟨o.level.add (o.tree inner), outer, none⟩
  | clause {kind : ClauseKind} : t.kind = .clause kind →
      Reads limit source s t
        { s with level := s.level.settled.openFrame (.clause kind t.text []) }
  | connector {op : Connector} : t.kind = .connector op →
      Reads limit source s t
        { s with level := (s.level.complete Frame.isLogical).openFrame (.logical op t.text []) }
  | set {op : SetOperator} {left : Tree} : t.kind = .set op → s.level.finish = .ok left →
      Reads limit source s t { s with level := ⟨some ⟨left, op, t.text⟩, [], []⟩ }
  | ifBlock : t.kind = .directive .ifBranch →
      Reads limit source s t (s.openFrame (.ifBlock (Token.directive source t) []))
  | forBlock {identifier expression : List Char} : t.kind = .directive .forLoop →
      loopParts? (Token.directive source t).expression.toList = some (identifier, expression) →
      Reads limit source s t (s.openFrame (.forBlock (Token.directive source t)
        (String.ofList identifier) (String.ofList expression) []))
  | branch {kind : DirectiveKind} {f f' : Frame} {fs : List Frame} :
      t.kind = .directive kind → kind = .elseifBranch ∨ kind = .elseBranch →
      s.level.settled.frames = f :: fs → f.nextBranch? kind (Token.directive source t) = some f' →
      Reads limit source s t { s with level := { s.level.settled with frames := f' :: fs } }
  | endBlock {f : Frame} {fs : List Frame} : t.kind = .directive .blockEnd →
      s.level.settled.frames = f :: fs →
      Reads limit source s t { s with level := { s.level.settled with frames := fs }.add f.tree }

theorem checkDepth_eq_ok {location : Location} {u : Unit} :
    s.checkDepth limit location = .ok u ↔ s.depth ≤ limit := by
  unfold checkDepth
  split
  · exact ⟨nofun, fun h => by omega⟩
  · exact ⟨fun _ => by omega, fun _ => rfl⟩

theorem openBracket_eq_ok {location : Location} {sampleOf? : Option Waiting} :
    openBracket limit s location sampleOf? = .ok s' ↔
      s.depth + 1 ≤ limit ∧ s' = ⟨.start, ⟨s.level, location, sampleOf?⟩ :: s.outer, none⟩ := by
  unfold openBracket
  split
  · exact ⟨nofun, fun h => by omega⟩
  · exact ⟨fun h => ⟨by omega, (Except.ok.inj h).symm⟩, fun h => by rw [h.2]⟩

theorem closeBracket_eq_ok {location : Location} :
    s.closeBracket location = .ok s' ↔
      ∃ o outer inner, s.outer = o :: outer ∧ s.level.finish = .ok inner ∧
        s' = ⟨o.level.add (o.tree inner), outer, none⟩ := by
  unfold closeBracket
  constructor
  · intro h
    split at h
    · cases h
    · rename_i o outer houter
      obtain ⟨inner, hinner, h⟩ := bind_eq_ok.mp h
      exact ⟨o, outer, inner, houter, hinner, (Except.ok.inj h).symm⟩
  · rintro ⟨o, outer, inner, houter, hinner, rfl⟩
    rw [houter]
    exact bind_eq_ok.mpr ⟨inner, hinner, rfl⟩

theorem addBranch_eq_ok {kind : DirectiveKind} {d : Directive} :
    s.addBranch kind d = .ok s' ↔
      ∃ f fs f', s.level.settled.frames = f :: fs ∧ f.nextBranch? kind d = some f' ∧
        s' = { s with level := { s.level.settled with frames := f' :: fs } } := by
  unfold addBranch
  dsimp only
  constructor
  · intro h
    split at h
    · exact ⟨_, _, _, ‹_›, rfl, (Except.ok.inj h).symm⟩
    · exact ⟨_, _, _, ‹_›, rfl, (Except.ok.inj h).symm⟩
    · cases h
    · cases h
  · rintro ⟨f, fs, f', hframes, hf, rfl⟩
    rw [show (s.level.complete Frame.isClauseOrLogical).frames = f :: fs from hframes]
    cases f with
    | ifBlock | elseifBlock =>
      cases hf
      rfl
    | _ => cases hf

theorem endBlock_eq_ok {location : Location} :
    s.endBlock location = .ok s' ↔
      ∃ f fs, s.level.settled.frames = f :: fs ∧
        s' = { s with level := { s.level.settled with frames := fs }.add f.tree } := by
  unfold endBlock
  dsimp only
  constructor
  · intro h
    split at h
    · cases h
    · exact ⟨_, _, ‹_›, (Except.ok.inj h).symm⟩
  · rintro ⟨f, fs, hframes, rfl⟩
    rw [show (s.level.complete Frame.isClauseOrLogical).frames = f :: fs from hframes]
    rfl

theorem addDirective_eq_ok {kind : DirectiveKind} (hkind : t.kind = .directive kind) :
    s.addDirective kind (Token.directive source t) = .ok s' ↔ Reads limit source s t s' := by
  constructor
  · intro h
    cases kind with
    | bind | literal | expand =>
      cases h
      exact .wait hkind rfl
    | embedded =>
      cases h
      exact .leaf (by simp [Token.leaf?, hkind])
    | ifBranch =>
      cases h
      exact .ifBlock hkind
    | elseifBranch =>
      obtain ⟨f, fs, f', hf, hf', rfl⟩ := addBranch_eq_ok.mp h
      exact .branch hkind (.inl rfl) hf hf'
    | elseBranch =>
      obtain ⟨f, fs, f', hf, hf', rfl⟩ := addBranch_eq_ok.mp h
      exact .branch hkind (.inr rfl) hf hf'
    | blockEnd =>
      obtain ⟨f, fs, hf, rfl⟩ := endBlock_eq_ok.mp h
      exact .endBlock hkind hf
    | forLoop =>
      simp only [addDirective] at h
      split at h
      · cases h
      · cases h
        exact .forBlock hkind ‹_›
  · intro h
    cases h with
    | @leaf tree htree =>
      cases kind with
      | embedded =>
        simp only [Token.leaf?, hkind, Option.some.injEq] at htree
        subst htree
        rfl
      | _ => simp [Token.leaf?, hkind] at htree
    | @wait d sample hd hsample =>
      obtain rfl : kind = d := TokenKind.directive.inj (hkind.symm.trans hd)
      cases kind with
      | bind | literal | expand =>
        cases hsample
        rfl
      | _ => cases hsample
    | ifBlock hif =>
      obtain rfl : kind = .ifBranch := TokenKind.directive.inj (hkind.symm.trans hif)
      rfl
    | forBlock hfor hparts =>
      obtain rfl : kind = .forLoop := TokenKind.directive.inj (hkind.symm.trans hfor)
      simp [addDirective, hparts]
    | @branch kind' f f' fs hbranch hcase hframes hf =>
      obtain rfl : kind = kind' := TokenKind.directive.inj (hkind.symm.trans hbranch)
      have hadd := addBranch_eq_ok.mpr ⟨f, fs, f', hframes, hf, rfl⟩
      rcases hcase with rfl | rfl <;> exact hadd
    | endBlock hend hframes =>
      obtain rfl : kind = .blockEnd := TokenKind.directive.inj (hkind.symm.trans hend)
      exact endBlock_eq_ok.mpr ⟨_, _, hframes, rfl⟩
    | openBracket hother | closeBracket hother | clause hother | connector hother | set hother =>
      rw [hkind] at hother
      cases hother

theorem addToken_eq_ok (ht : Token.isEnd t = false) :
    s.addToken limit source t = .ok s' ↔ s.depth ≤ limit ∧ Reads limit source s t s' := by
  obtain ⟨kind, text, start⟩ := t
  constructor
  · intro h
    obtain ⟨u, hdepth, h⟩ := bind_eq_ok.mp h
    refine ⟨checkDepth_eq_ok.mp hdepth, ?_⟩
    cases kind with
    | stop | delimiter => cases ht
    | word | quote | blank | comment | other =>
      cases h
      exact .leaf rfl
    | openBracket =>
      obtain ⟨hlimit, rfl⟩ := openBracket_eq_ok.mp h
      exact .openBracket rfl hlimit
    | closeBracket =>
      obtain ⟨o, outer, inner, ho, hinner, rfl⟩ := closeBracket_eq_ok.mp h
      exact .closeBracket rfl ho hinner
    | clause kind =>
      cases h
      exact .clause rfl
    | connector op =>
      cases h
      exact .connector rfl
    | set op =>
      obtain ⟨left, hleft, h⟩ := bind_eq_ok.mp h
      cases h
      exact .set rfl hleft
    | directive kind => exact (addDirective_eq_ok rfl).mp h
  · rintro ⟨hdepth, h⟩
    refine bind_eq_ok.mpr ⟨(), checkDepth_eq_ok.mpr hdepth, ?_⟩
    cases kind with
    | stop | delimiter => cases ht
    | directive kind => exact (addDirective_eq_ok rfl).mpr h
    | word | quote | blank | comment | other =>
      cases h with
      | leaf htree =>
        cases htree
        rfl
      | _ => contradiction
    | openBracket =>
      cases h with
      | openBracket _ hlimit => exact openBracket_eq_ok.mpr ⟨hlimit, rfl⟩
      | _ => contradiction
    | closeBracket =>
      cases h with
      | closeBracket _ ho hinner => exact closeBracket_eq_ok.mpr ⟨_, _, _, ho, hinner, rfl⟩
      | _ => contradiction
    | clause kind =>
      cases h with
      | clause hkind =>
        cases hkind
        rfl
      | _ => contradiction
    | connector op =>
      cases h with
      | connector hkind =>
        cases hkind
        rfl
      | _ => contradiction
    | set op =>
      cases h with
      | set hkind hleft =>
        cases hkind
        exact bind_eq_ok.mpr ⟨_, hleft, rfl⟩
      | _ => contradiction

/-- A step takes the token, or brackets that it opens, as a sample, or settles what waits and reads
the token by its kind. -/
inductive Steps (limit : Nat) (source : String) (s : ParserState) (t : Token) :
    ParserState → Prop where
  | sample {w : Waiting} {sample : Tree} : s.waiting? = some w → w.sample? t = some sample →
      Steps limit source s t { s.add (w.tree (some sample)) with waiting? := none }
  | brackets {w : Waiting} : s.waiting? = some w → t.kind = .openBracket → w.takesBrackets = true →
      s.depth + 1 ≤ limit →
      Steps limit source s t ⟨.start, ⟨s.level, ⟨source, t.start⟩, some w⟩ :: s.outer, none⟩
  | token {s' : ParserState} :
      (∀ w, s.waiting? = some w →
        w.sample? t = none ∧ ¬(t.kind = .openBracket ∧ w.takesBrackets = true)) →
      s.settle.depth ≤ limit → Reads limit source s.settle t s' → Steps limit source s t s'

theorem step_eq_ok (ht : Token.isEnd t = false) :
    s.step limit source t = .ok s' ↔ Steps limit source s t s' := by
  unfold step
  constructor
  · intro h
    split at h <;> rename_i hwaiting
    · obtain ⟨hdepth, hreads⟩ := (addToken_eq_ok ht).mp h
      have hsettle : s.settle = s := by simp [settle, hwaiting]
      rw [← hsettle] at hdepth hreads
      exact .token (by simp [hwaiting]) hdepth hreads
    · rename_i w
      split at h
      · cases h
        exact .sample hwaiting ‹_›
      · rename_i hsample
        split at h <;> rename_i hbracket
        · obtain ⟨hlimit, rfl⟩ := openBracket_eq_ok.mp h
          exact .brackets hwaiting hbracket.1 hbracket.2 hlimit
        · obtain ⟨hdepth, hreads⟩ := (addToken_eq_ok ht).mp h
          refine .token (fun v hv => ?_) hdepth hreads
          obtain rfl : w = v := Option.some.inj (hwaiting.symm.trans hv)
          exact ⟨hsample, hbracket⟩
  · intro h
    cases h with
    | sample hwaiting hsample =>
      rw [hwaiting]
      simp only [hsample]
    | @brackets w hwaiting hkind htakes hlimit =>
      have hsample : w.sample? t = none := by
        unfold Waiting.sample?
        rw [hkind]
        split <;> first | contradiction | rfl
      rw [hwaiting]
      simp only [hsample, hkind, htakes, and_self, ↓reduceIte]
      exact openBracket_eq_ok.mpr ⟨hlimit, rfl⟩
    | token hnot hdepth hreads =>
      have hadd := (addToken_eq_ok ht).mpr ⟨hdepth, hreads⟩
      cases hwaiting : s.waiting? with
      | none =>
        have hsettle : s.settle = s := by simp [settle, hwaiting]
        rw [← hsettle]
        exact hadd
      | some w =>
        obtain ⟨hsample, hbracket⟩ := hnot w hwaiting
        simp only [hsample, if_neg hbracket]
        exact hadd

/-! ## Runs -/

/-- Reads one token after the other. -/
def run (limit : Nat) (source : String) (s : ParserState) (ts : List Token) :
    Except Error ParserState :=
  ts.foldlM (step limit source) s

theorem run_cons {ts : List Token} :
    s.run limit source (t :: ts) = s.step limit source t >>= (run limit source · ts) :=
  List.foldlM_cons ..

theorem run_singleton : s.run limit source [t] = .ok s' ↔ s.step limit source t = .ok s' := by
  rw [run_cons, bind_eq_ok]
  simp [run, pure, Except.pure]

theorem run_append {ts us : List Token} :
    s.run limit source (ts ++ us) = s.run limit source ts >>= (run limit source · us) :=
  List.foldlM_append ..

/-- What every step keeps, a run keeps. -/
theorem run_induction {motive : List Token → ParserState → Prop} {ts : List Token}
    (h : s.run limit source ts = .ok s') (start : motive [] s)
    (step : ∀ us u t u', t ∈ ts → u.step limit source t = .ok u' → motive us u →
      motive (us ++ [t]) u') : motive ts s' := by
  suffices ∀ vs us u, (∀ t ∈ vs, t ∈ ts) → u.run limit source vs = .ok s' → motive us u →
      motive (us ++ vs) s' from this ts [] s (fun _ ht => ht) h start
  intro vs
  induction vs with
  | nil =>
    intro us u _ hrun hu
    cases hrun
    rwa [List.append_nil]
  | cons t vs ih =>
    intro us u hmem hrun hu
    rw [run_cons] at hrun
    obtain ⟨u', hstep, hrun⟩ := bind_eq_ok.mp hrun
    rw [List.append_cons]
    exact ih (us ++ [t]) u' (fun x hx => hmem x (List.mem_cons_of_mem t hx)) hrun
      (step us u t u' (hmem t List.mem_cons_self) hstep hu)

/-- The statement may end in the state, and has the tree. -/
structure Finishes (limit : Nat) (s : ParserState) (tree : Tree) : Prop where
  depth_le : s.settle.depth ≤ limit
  outer_eq : s.outer = []
  finish_eq : s.settle.level.finish = .ok tree

theorem finish_eq_ok_iff {tree : Tree} :
    s.finish limit source t = .ok tree ↔ s.Finishes limit tree := by
  unfold finish checkDepth
  constructor
  · intro h
    obtain ⟨u, hdepth, h⟩ := bind_eq_ok.mp h
    split at hdepth
    · cases hdepth
    · split at h
      · rename_i houter
        exact ⟨by omega, by rw [← settle_outer, houter], h⟩
      · cases h
  · intro ⟨hdepth, houter, hfinish⟩
    rw [← settle_outer] at houter
    simp [show ¬limit < s.settle.depth by omega, houter, hfinish, bind, Except.bind]

end ParserState

open ParserState

theorem parseTokens_eq_ok_iff {limit : Nat} {source : String} {error? : Option Error} {tree : Tree}
    {ts : List Token} (hends : error? = none → Ends ts) {s : ParserState} :
    parseTokens limit source error? s ts = .ok tree ↔
      Ends ts ∧ ∃ s', s.run limit source (untilEnd ts) = .ok s' ∧ s'.Finishes limit tree := by
  induction ts generalizing s with
  | nil =>
    have hnil : ¬Ends [] := by simp [Ends]
    cases error? with
    | none => exact absurd (hends rfl) hnil
    | some e => simp [parseTokens, hnil]
  | cons t ts ih =>
    unfold parseTokens
    split
    · rename_i hend
      have ht : Token.isEnd t = true := by simpa [Token.isEnd] using hend
      rw [finish_eq_ok_iff]
      simp [untilEnd, ht, run, Ends, pure, Except.pure]
    · rename_i hend
      have ht : Token.isEnd t = false := by simpa [Token.isEnd] using hend
      have htail : Ends (t :: ts) ↔ Ends ts := by simp [Ends, ht]
      rw [htail, untilEnd_cons ht, run_cons]
      cases hstep : s.step limit source t with
      | error e => simp [bind, Except.bind]
      | ok s' => exact ih (fun hnone => (hends hnone).tail ht)

/-- A template parses if the tokens before its end can be read and the statement may end there. -/
theorem parse_eq_ok_iff {limit : Nat} {source : String} {tree : Tree} :
    parse limit source = .ok tree ↔ Ends (lex source).tokens ∧
      ∃ s, ParserState.start.run limit source (statementTokens source) = .ok s ∧
        s.Finishes limit tree :=
  parseTokens_eq_ok_iff fun hnone => lex_ends (Option.map_eq_none_iff.mp hnone)

end TwoWaySql.Template
