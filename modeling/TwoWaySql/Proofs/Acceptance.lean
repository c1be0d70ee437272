import Mathlib.Algebra.Ring.Nat
import TwoWaySql.Proofs.Brackets
import TwoWaySql.Proofs.Grammar
import TwoWaySql.Proofs.TreeText

/-!
# What the parser accepts

The parser has more open than the grammar: clauses, connectors, and a directive that waits for its
sample. Without these, what it has open follows its tokens as the grammar has it, token by token
(`follows_step`), and so the parser accepts the statements of the grammar and refuses all other
tokens (`parse_accepts`).
-/

namespace TwoWaySql.Template

open Open (next? after?)
open ParserState (outerAfter)

/-! ## What the parser has open -/

/-- The construct of the grammar that a frame is. -/
def Frame.open? : Frame → Option Open
  | clause .. | logical .. => none
  | ifBlock .. | elseifBlock .. => some .choice
  | elseBlock .. => some .otherwise
  | forBlock .. => some .loop

/-- The blocks that are open in a level. -/
def Level.opens (l : Level) : List Open := l.frames.filterMap Frame.open?

/-- The blocks and brackets that are open. -/
def ParserState.opens (s : ParserState) : List Open :=
  s.level.opens ++ s.outer.flatMap fun o => .bracket :: o.level.opens

/-- The parser finds fault with the structure. -/
def Rejects {α : Type} (x : Except Error α) : Prop :=
  ∃ cause location, x = .error (.structural cause location)

namespace Frame

theorem open?_add (t : Tree) (f : Frame) : (f.add t).open? = f.open? := by
  cases f <;> rfl

theorem open?_eq_none {f : Frame} (h : f.isClauseOrLogical = true) : f.open? = none := by
  cases f <;> first | rfl | cases h

theorem open?_eq_some {f : Frame} (h : f.isClauseOrLogical = false) : ∃ o, f.open? = some o := by
  cases f with
  | clause | logical => cases h
  | _ => exact ⟨_, rfl⟩

theorem open?_of_nextBranch? {kind : DirectiveKind} {d : Directive} {f f' : Frame}
    (h : f.nextBranch? kind d = some f') : f.open? = some .choice ∧
      f'.open? = if kind = .elseBranch then some .otherwise else some .choice := by
  cases f with
  | ifBlock | elseifBlock =>
    cases h
    unfold branch
    split <;> exact ⟨rfl, rfl⟩
  | _ => cases h

theorem open?_ne_choice {kind : DirectiveKind} {d : Directive} {f : Frame}
    (h : f.nextBranch? kind d = none) : f.open? ≠ some .choice := by
  cases f with
  | ifBlock | elseifBlock => cases h
  | _ => exact nofun

theorem ending_of_open? {f : Frame} {o : Open} (h : f.open? = some o) :
    o.ending = .directive .blockEnd := by
  cases f with
  | clause | logical => cases h
  | _ =>
    cases h
    rfl

end Frame

/-- Completing clauses and connectors changes no block. -/
theorem filterMap_completeWhile {p : Frame → Bool}
    (hp : ∀ f, p f = true → f.isClauseOrLogical = true) (t? : Option Tree) (fs : List Frame) :
    (completeWhile p t? fs).2.filterMap Frame.open? = fs.filterMap Frame.open? ∧
      (completeWhile p t? fs).2.length ≤ fs.length := by
  induction fs generalizing t? with
  | nil => exact ⟨rfl, Nat.le_refl _⟩
  | cons f fs ih =>
    have hadd : (t?.elim f f.add).open? = f.open? := by
      cases t? with
      | none => rfl
      | some t => exact f.open?_add t
    simp only [completeWhile]
    split
    · rename_i h
      have hnone : f.open? = none := hadd ▸ Frame.open?_eq_none (hp _ h)
      obtain ⟨hopens, hlength⟩ := ih (some (t?.elim f f.add).tree)
      exact ⟨by rw [hopens, List.filterMap_cons_none hnone], Nat.le_succ_of_le hlength⟩
    · exact ⟨by rw [List.filterMap_cons, List.filterMap_cons, hadd], Nat.le_refl _⟩

theorem Waiting.isItem_of_sample? {t : Token} {sample : Tree} (w : Waiting)
    (h : w.sample? t = some sample) : t.kind.isItem = true := by
  unfold sample? at h
  split at h
  · rw [‹t.kind = .word›]
    rfl
  · rw [‹t.kind = .quote›]
    rfl
  · rw [‹t.kind = .word›]
    rfl
  · rw [‹t.kind = .quote›]
    rfl
  · rw [‹t.kind = .other›]
    rfl
  · cases h

theorem Rejects.bind {α β : Type} {x : Except Error α} (h : Rejects x) (f : α → Except Error β) :
    Rejects (x >>= f) := by
  obtain ⟨cause, location, rfl⟩ := h
  exact ⟨cause, location, rfl⟩

namespace Level

theorem ending_of_mem {l : Level} {o : Open} (h : o ∈ l.opens) :
    o.ending = .directive .blockEnd := by
  obtain ⟨f, -, hf⟩ := List.mem_filterMap.mp h
  exact Frame.ending_of_open? hf

theorem opens_add (t : Tree) (l : Level) : (l.add t).opens = l.opens := by
  unfold add opens
  split
  · rfl
  · rename_i hframes
    rw [hframes, List.filterMap_cons, List.filterMap_cons, Frame.open?_add]

theorem size_add (t : Tree) (l : Level) : (l.add t).size = l.size := by
  unfold add size
  split
  · rfl
  · rename_i hframes
    rw [hframes, List.length_cons, List.length_cons]

theorem size_openFrame (f : Frame) (l : Level) : (l.openFrame f).size = l.size + 1 := rfl

theorem opens_complete {p : Frame → Bool} (hp : ∀ f, p f = true → f.isClauseOrLogical = true)
    (l : Level) : (l.complete p).opens = l.opens := (filterMap_completeWhile hp none l.frames).1

theorem size_complete {p : Frame → Bool} (hp : ∀ f, p f = true → f.isClauseOrLogical = true)
    (l : Level) : (l.complete p).size ≤ l.size :=
  Nat.add_le_add_left (filterMap_completeWhile hp none l.frames).2 _

theorem opens_settled (l : Level) : l.settled.opens = l.opens := opens_complete (fun _ h => h) l

theorem size_settled (l : Level) : l.settled.size ≤ l.size := size_complete (fun _ h => h) l

theorem size_settled_frames {l : Level} {fs : List Frame}
    (h : fs.length ≤ l.settled.frames.length) :
    ({ l.settled with frames := fs } : Level).size ≤ l.size + 2 := by
  have hsettled := l.size_settled
  unfold size at hsettled ⊢
  dsimp only
  omega

/-- What is innermost in a settled level is a block. -/
theorem settled_cases (l : Level) :
    (l.opens = [] ∧ l.settled.frames = []) ∨
      ∃ f fs o, l.settled.frames = f :: fs ∧ f.open? = some o ∧
        l.opens = o :: fs.filterMap Frame.open? := by
  rw [← opens_settled]
  cases hframes : l.settled.frames with
  | nil => exact .inl ⟨by rw [opens, hframes, List.filterMap_nil], rfl⟩
  | cons f fs =>
    have hblock : f.isClauseOrLogical = false := completeWhile_head (congrArg List.head? hframes)
    obtain ⟨o, ho⟩ := Frame.open?_eq_some hblock
    exact .inr ⟨f, fs, o, rfl, ho, by rw [opens, hframes, List.filterMap_cons_some ho]⟩

theorem finish_of_opens_nil {l : Level} (h : l.opens = []) : ∃ tree, l.finish = .ok tree := by
  rcases l.settled_cases with ⟨-, hframes⟩ | ⟨f, fs, o, -, -, hopens⟩
  · exact ⟨l.settled.tree, by rw [finish_eq, hframes]; rfl⟩
  · rw [h] at hopens
    cases hopens

theorem rejects_finish {l : Level} (h : l.opens ≠ []) : Rejects l.finish := by
  rcases l.settled_cases with ⟨hopens, -⟩ | ⟨f, fs, o, hframes, hopen, -⟩
  · exact absurd hopens h
  · cases hopening : f.opening? with
    | none =>
      rw [Frame.open?_eq_none (Frame.isClauseOrLogical_of_opening? hopening)] at hopen
      cases hopen
    | some d => exact ⟨.blockWithoutEnd, d.location, by simp [finish_eq, hframes, hopening]⟩

end Level

/-! ## Steps -/

/-- The loop directives of a template have their parts. -/
def Token.Formed (t : Token) : Prop :=
  t.kind = .directive .forLoop → (loopParts? (t.body?.getD "").toList).isSome = true

/-- What comes of a state that had a depth: a state with what is open and not much deeper, or, if
nothing fits, an error. -/
def Follows (depth : Nat) (opens? : Option (List Open)) (x : Except Error ParserState) : Prop :=
  match opens? with
  | some opens => ∃ s, x = .ok s ∧ s.opens = opens ∧ s.depth ≤ depth + 2
  | none => Rejects x

namespace ParserState

variable {limit : Nat} {source : String} {s : ParserState} {t : Token}

theorem depth_eq (s : ParserState) :
    s.depth = s.level.size + (s.outer.map fun o => o.level.size + 1).sum := by
  unfold depth
  induction s.outer with
  | nil => rfl
  | cons o outer ih =>
    rw [List.foldr_cons, ih, List.map_cons, List.sum_cons]
    omega

theorem opens_add (t : Tree) (s : ParserState) : (s.add t).opens = s.opens :=
  congrArg (· ++ _) (s.level.opens_add t)

theorem depth_add (t : Tree) (s : ParserState) : (s.add t).depth = s.depth := by
  rw [depth_eq, depth_eq]
  exact congrArg (· + _) (s.level.size_add t)

theorem opens_settle (s : ParserState) : s.settle.opens = s.opens := by
  unfold settle
  split
  · rfl
  · exact opens_add _ s

theorem depth_settle (s : ParserState) : s.settle.depth = s.depth := by
  unfold settle
  split
  · rfl
  · exact depth_add _ s

/-- Another level in place of the innermost. -/
theorem follows_level {opens : List Open} {l : Level} {w? : Option Waiting}
    (hopens : l.opens ++ (s.outer.flatMap fun o => .bracket :: o.level.opens) = opens)
    (hsize : l.size ≤ s.level.size + 2) :
    Follows s.depth (some opens) (.ok ⟨l, s.outer, w?⟩) := by
  refine ⟨_, rfl, hopens, ?_⟩
  simp only [depth_eq]
  omega

theorem follows_add (tree : Tree) : Follows s.depth (some s.opens) (.ok (s.add tree)) :=
  ⟨_, rfl, opens_add tree s, by rw [depth_add]; omega⟩

theorem follows_openBlock {f : Frame} {o : Open} (h : f.open? = some o) :
    Follows s.depth (some (o :: s.opens)) (.ok (s.openFrame f)) :=
  follows_level (by simp [Level.opens, Level.openFrame, opens, h])
    (by rw [Level.size_openFrame]; omega)

/-- A clause or connector is opened after those that it closes. -/
theorem follows_openFrame {p : Frame → Bool} {f : Frame}
    (hp : ∀ f, p f = true → f.isClauseOrLogical = true) (hf : f.isClauseOrLogical = true) :
    Follows s.depth (some s.opens)
      (.ok { s with level := (s.level.complete p).openFrame f }) := by
  refine follows_level (congrArg (· ++ _) ?_) ?_
  · exact (List.filterMap_cons_none (Frame.open?_eq_none hf)).trans (Level.opens_complete hp _)
  · have hsize := Level.size_complete hp s.level
    rw [Level.size_openFrame]
    omega

theorem follows_openBracket {location : Location} {sampleOf? : Option Waiting}
    (hdepth : s.depth + 2 ≤ limit) :
    Follows s.depth (next? .openBracket s.opens) (openBracket limit s location sampleOf?) := by
  refine ⟨_, openBracket_eq_ok.mpr ⟨by omega, rfl⟩, rfl, ?_⟩
  simp only [depth_eq, List.map_cons, List.sum_cons, Level.size, Level.start]
  simp
  omega

/-- Brackets or nothing is around a level without blocks. -/
theorem head?_opens (h : s.level.opens = []) :
    s.opens.head? = none ∨ s.opens.head? = some .bracket := by
  unfold opens
  rw [h, List.nil_append]
  cases s.outer with
  | nil => exact .inl rfl
  | cons o outer => exact .inr rfl

theorem follows_closeBracket {location : Location} :
    Follows s.depth (next? .closeBracket s.opens) (s.closeBracket location) := by
  obtain ⟨level, outer, w?⟩ := s
  cases hopens : level.opens with
  | cons block blocks =>
    have hending := Level.ending_of_mem (hopens ▸ List.mem_cons_self)
    have hnext : next? .closeBracket (opens ⟨level, outer, w?⟩) = none := by
      simp [next?, opens, hopens, hending]
    rw [hnext]
    cases outer with
    | nil => exact ⟨.unopenedBracket, location, rfl⟩
    | cons o outer => exact (Level.rejects_finish (by simp [hopens])).bind _
  | nil =>
    cases outer with
    | nil =>
      have hnext : next? .closeBracket (opens ⟨level, [], w?⟩) = none := by
        simp [next?, opens, hopens]
      rw [hnext]
      exact ⟨.unopenedBracket, location, rfl⟩
    | cons o outer =>
      obtain ⟨tree, htree⟩ := Level.finish_of_opens_nil hopens
      have hnext : next? .closeBracket (opens ⟨level, o :: outer, w?⟩) =
          some (opens ⟨o.level.add (o.tree tree), outer, none⟩) := by
        simp [next?, opens, hopens, Level.opens_add, Open.ending]
      rw [hnext]
      refine ⟨_, closeBracket_eq_ok.mpr ⟨o, outer, tree, rfl, htree, rfl⟩, rfl, ?_⟩
      simp only [depth_eq, List.map_cons, List.sum_cons, Level.size_add]
      omega

theorem follows_addBranch {kind : DirectiveKind} {d : Directive}
    (hkind : kind = .elseifBranch ∨ kind = .elseBranch) :
    Follows s.depth (next? (.directive kind) s.opens) (s.addBranch kind d) := by
  rcases s.level.settled_cases with ⟨hopens, hframes⟩ | ⟨f, fs, o, hframes, hopen, hopens⟩
  · have hnext : next? (.directive kind) s.opens = none := by
      rcases hkind with rfl | rfl <;> rcases head?_opens hopens with h | h <;> simp [next?, h]
    rw [hnext]
    exact ⟨.branchWithoutIf, d.location, by
      rw [addBranch, show (s.level.complete Frame.isClauseOrLogical).frames = [] from hframes]⟩
  · have hs : s.opens = o :: (fs.filterMap Frame.open? ++
        s.outer.flatMap fun o => .bracket :: o.level.opens) := by rw [opens, hopens]; rfl
    cases hbranch : f.nextBranch? kind d with
    | some f' =>
      obtain ⟨hchoice, hf'⟩ := Frame.open?_of_nextBranch? hbranch
      obtain rfl : o = .choice := Option.some.inj (hopen.symm.trans hchoice)
      have hnext : next? (.directive kind) s.opens = some
          (Level.opens { s.level.settled with frames := f' :: fs } ++
            s.outer.flatMap fun o => .bracket :: o.level.opens) := by
        rw [hs]
        rcases hkind with rfl | rfl <;> simp [next?, Level.opens, hf']
      rw [hnext, addBranch_eq_ok.mpr ⟨f, fs, f', hframes, hbranch, rfl⟩]
      refine follows_level rfl (Level.size_settled_frames ?_)
      rw [hframes]
      exact Nat.le_refl _
    | none =>
      have ho : o ≠ .choice := fun h => Frame.open?_ne_choice hbranch (h ▸ hopen)
      have hnext : next? (.directive kind) s.opens = none := by
        rw [hs]
        rcases hkind with rfl | rfl <;> simp [next?, ho]
      rw [hnext]
      unfold addBranch
      dsimp only
      rw [show (s.level.complete Frame.isClauseOrLogical).frames = f :: fs from hframes]
      cases f with
      | elseBlock | forBlock => exact ⟨_, _, rfl⟩
      | ifBlock | elseifBlock => cases hbranch
      | clause | logical => cases hopen

theorem follows_endBlock {location : Location} :
    Follows s.depth (next? (.directive .blockEnd) s.opens) (s.endBlock location) := by
  rcases s.level.settled_cases with ⟨hopens, hframes⟩ | ⟨f, fs, o, hframes, hopen, hopens⟩
  · have hnext : next? (.directive .blockEnd) s.opens = none := by
      rcases head?_opens hopens with h | h <;> simp [next?, h, Open.ending]
    rw [hnext]
    exact ⟨.endWithoutBlock, location, by
      rw [endBlock, show (s.level.complete Frame.isClauseOrLogical).frames = [] from hframes]⟩
  · have hnext : next? (.directive .blockEnd) s.opens = some (fs.filterMap Frame.open? ++
        s.outer.flatMap fun o => .bracket :: o.level.opens) := by
      simp [next?, opens, hopens, Frame.ending_of_open? hopen]
    rw [hnext, endBlock_eq_ok.mpr ⟨f, fs, hframes, rfl⟩]
    refine follows_level (by rw [Level.opens_add, Level.opens]) ?_
    rw [Level.size_add]
    refine Level.size_settled_frames ?_
    rw [hframes]
    exact Nat.le_succ _

theorem follows_set {op : SetOperator} {keyword : String} :
    Follows s.depth (next? (.set op) s.opens)
      (do let left ← s.level.finish
          return { s with level := ⟨some ⟨left, op, keyword⟩, [], []⟩ }) := by
  cases hopens : s.level.opens with
  | nil =>
    have hnext : next? (.set op) s.opens = some s.opens := by
      rcases head?_opens hopens with h | h <;> simp [next?, h]
    obtain ⟨left, hleft⟩ := Level.finish_of_opens_nil hopens
    rw [hnext, hleft]
    exact follows_level (by rw [opens, hopens]; rfl) (Nat.le_add_left _ _)
  | cons block blocks =>
    have hending := Level.ending_of_mem (hopens ▸ List.mem_cons_self)
    have hnext : next? (.set op) s.opens = none := by
      have hblock : block ≠ .bracket := by
        rintro rfl
        cases hending
      simp [next?, opens, hopens, hblock]
    rw [hnext]
    exact (Level.rejects_finish (by simp [hopens])).bind _

theorem follows_addDirective {kind : DirectiveKind} (ht : t.kind = .directive kind)
    (hformed : Token.Formed t) :
    Follows s.depth (next? (.directive kind) s.opens)
      (s.addDirective kind (Token.directive source t)) := by
  cases kind with
  | bind | literal | expand => exact follows_level rfl (Nat.le_add_right _ _)
  | embedded => exact follows_add _
  | ifBranch => exact follows_openBlock rfl
  | elseifBranch => exact follows_addBranch (.inl rfl)
  | elseBranch => exact follows_addBranch (.inr rfl)
  | blockEnd => exact follows_endBlock
  | forLoop =>
    obtain ⟨⟨identifier, expression⟩, hparts⟩ := Option.isSome_iff_exists.mp (hformed ht)
    have hadd : s.addDirective .forLoop (Token.directive source t) = .ok (s.openFrame
        (.forBlock (Token.directive source t) (String.ofList identifier)
          (String.ofList expression) [])) := by
      simp [addDirective, Token.directive, hparts]
    rw [hadd]
    exact follows_openBlock rfl

theorem follows_addToken (hend : Token.isEnd t = false) (hformed : Token.Formed t)
    (hdepth : s.depth + 2 ≤ limit) :
    Follows s.depth (next? t.kind s.opens) (s.addToken limit source t) := by
  have hcheck : s.checkDepth limit ⟨source, t.start⟩ = .ok () := checkDepth_eq_ok.mpr (by omega)
  unfold addToken
  dsimp only
  rw [hcheck]
  cases hkind : t.kind with
  | stop | delimiter => simp [Token.isEnd, hkind] at hend
  | word | quote | blank | comment | other => exact follows_add _
  | openBracket => exact follows_openBracket hdepth
  | closeBracket => exact follows_closeBracket
  | clause kind => exact follows_openFrame (fun _ h => h) rfl
  | connector op => exact follows_openFrame (fun _ => Frame.isClauseOrLogical_of_isLogical) rfl
  | set op => exact follows_set
  | directive kind => exact follows_addDirective hkind hformed

/-- A step does with what is open what the grammar has it do. -/
theorem follows_step (hend : Token.isEnd t = false) (hformed : Token.Formed t)
    (hdepth : s.depth + 2 ≤ limit) :
    Follows s.depth (next? t.kind s.opens) (s.step limit source t) := by
  have htoken : Follows s.depth (next? t.kind s.opens) (s.settle.addToken limit source t) := by
    rw [← depth_settle, ← opens_settle]
    exact follows_addToken hend hformed (by rwa [depth_settle])
  cases hwaiting : s.waiting? with
  | none =>
    have hsettle : s.settle = s := by simp [settle, hwaiting]
    rw [hsettle] at htoken
    simp only [step, hwaiting]
    exact htoken
  | some w =>
    simp only [step, hwaiting]
    split
    · rename_i sample hsample
      rw [next?_item (w.isItem_of_sample? hsample)]
      exact follows_add (s := { s with waiting? := none }) _
    · split
      · rename_i hbracket
        rw [hbracket.1]
        exact follows_openBracket (s := { s with waiting? := none }) hdepth
      · exact htoken

end ParserState

/-! ## Loop directives -/

/-- The last two characters of a directive do not matter to its body. -/
theorem directiveBody_append (kind : DirectiveKind) (start : List Char) {tail : List Char}
    (htail : tail.length = 2) :
    directiveBody kind (start ++ tail) = Text.trim (start.drop kind.openingLength) := by
  unfold directiveBody
  rw [List.length_append, htail, Nat.add_sub_cancel, ← List.drop_take, List.take_left]

theorem loopParts?_of_checkBody {body : List Char} (h : checkBody .forLoop body = .ok ()) :
    (loopParts? body).isSome = true := by
  unfold checkBody at h
  dsimp only at h
  split at h
  · cases h
  · split at h
    · cases h
    · rename_i hparts
      simpa [Option.isSome_iff_ne_none] using hparts

/-- A loop directive has its parts as it was written. -/
theorem loopParts?_of_scanComment {cs : List Char} {n : Nat}
    (h : scanComment cs = .ok (.directive .forLoop, n)) :
    (loopParts? (directiveBody .forLoop ('/' :: '*' :: cs.take (n - 1)))).isSome = true := by
  obtain ⟨m, hm, rfl, -⟩ := scanComment_eq_ok h
  unfold scanComment at h
  rw [hm] at h
  obtain ⟨kind?, hkind, h⟩ := bind_eq_ok.mp h
  cases kind? with
  | none => cases h
  | some kind =>
    obtain ⟨u, hcheck, h⟩ := bind_eq_ok.mp h
    cases h
    have htail : ((cs.drop m).take 2).length = 2 := by
      have hlength := commentLength?_le hm
      rw [List.length_take, List.length_drop]
      omega
    have htext : '/' :: '*' :: cs.take (m + 3 - 1) =
        (['/', '*'] ++ cs.take m) ++ (cs.drop m).take 2 := by
      rw [show m + 3 - 1 = m + 2 from rfl, List.take_add]
      rfl
    rw [directiveBody_append _ _ rfl] at hcheck
    rw [htext, directiveBody_append _ _ htail]
    exact loopParts?_of_checkBody hcheck

theorem formed_of_scan {c : Char} {cs : List Char} {k : TokenKind} {n offset : Nat}
    (h : scan c cs = .ok (k, n)) : Token.Formed ⟨k, String.ofList (c :: cs.take n), offset⟩ := by
  intro hk
  change k = .directive .forLoop at hk
  cases scanRule_of_scan h with
  | @comment _ _ hc hcs hcomment =>
    obtain ⟨rest, rfl⟩ := List.head?_eq_some_iff.mp hcs
    obtain ⟨m, -, rfl, -⟩ := scanComment_eq_ok hcomment
    subst hk hc
    have hparts := loopParts?_of_scanComment hcomment
    simpa [Token.body?] using hparts
  | @word length =>
    have hword := wordKind_isWord (c :: cs.take length) (cs.drop length)
    rw [hk] at hword
    exact hword.elim
  | _ => cases hk

theorem formed_of_lexFrom (cs : List Char) (offset : Nat) :
    ∀ t ∈ (scanner.lexFrom () offset cs).tokens, Token.Formed t :=
  forall_mem_lexFrom (fun _ => nofun) (fun _ _ _ _ _ => formed_of_scan) cs offset

/-! ## Templates -/

/-- The tokens up to the end or the first semicolon that is in no brackets, after `depth` brackets
were opened; none if neither is reached. -/
def upToEnd? : Nat → List Token → Option (List Token)
  | _, [] => none
  | depth, t :: ts =>
    if t.kind = .stop ∨ t.kind = .delimiter ∧ depth = 0 then some []
    else (upToEnd? (outerAfter t depth) ts).map (t :: ·)

/-- The outcome is a tree if what is accepted holds, and otherwise a fault of the structure. -/
def Decides (accepted : Prop) (x : Except Error Tree) : Prop :=
  (accepted ∧ ∃ tree, x = .ok tree) ∨ (¬accepted ∧ Rejects x)

theorem decides_finish {limit : Nat} {source : String} {s : ParserState} {t : Token}
    (hdepth : s.depth ≤ limit) : Decides (s.opens = []) (s.finish limit source t) := by
  have hcheck : s.settle.checkDepth limit ⟨source, t.start⟩ = .ok () :=
    ParserState.checkDepth_eq_ok.mpr (by rwa [ParserState.depth_settle])
  rw [← s.opens_settle]
  unfold ParserState.finish
  dsimp only
  rw [hcheck]
  cases houter : s.settle.outer with
  | cons o outer =>
    have hopens : s.settle.opens ≠ [] := by simp [ParserState.opens, houter]
    exact .inr ⟨hopens, .unclosedBracket, o.opening, rfl⟩
  | nil =>
    have hopens : s.settle.opens = s.settle.level.opens := by simp [ParserState.opens, houter]
    rw [hopens]
    by_cases hlevel : s.settle.level.opens = []
    · exact .inl ⟨hlevel, Level.finish_of_opens_nil hlevel⟩
    · exact .inr ⟨hlevel, Level.rejects_finish hlevel⟩

/-- Reading goes on as the grammar does, with as many levels suspended as brackets are open. -/
theorem decides_parseTokens {limit : Nat} {source : String} {error? : Option Error}
    {ts us : List Token} {s : ParserState} (hformed : ∀ t ∈ ts, Token.Formed t)
    (htokens : upToEnd? s.outer.length ts = some us) (hdepth : s.depth + 2 * us.length ≤ limit) :
    Decides (after? s.opens us = some []) (parseTokens limit source error? s ts) := by
  induction ts generalizing s us with
  | nil => cases htokens
  | cons t ts ih =>
    unfold upToEnd? at htokens
    unfold parseTokens
    split at htokens <;> rename_i hlast
    · cases htokens
      rw [if_pos (hlast.imp_right And.left)]
      have hopens : after? s.opens [] = some [] ↔ s.opens = [] := Option.some_inj
      rw [hopens]
      exact decides_finish hdepth
    · obtain ⟨vs, hvs, rfl⟩ := Option.map_eq_some_iff.mp htokens
      rw [List.length_cons] at hdepth
      rw [after?_cons]
      by_cases hend : t.kind = .stop ∨ t.kind = .delimiter
      · have hnext : next? t.kind s.opens = none := by
          rcases hend with h | h <;> rw [h] <;> rfl
        rw [if_pos hend, hnext]
        have hdepth : s.depth ≤ limit := by omega
        rcases decides_finish (t := t) hdepth with ⟨hopens, -⟩ | ⟨-, hrejects⟩
        · have houter : s.outer = [] := by
            cases houter : s.outer with
            | nil => rfl
            | cons o outer => simp [ParserState.opens, houter] at hopens
          exact absurd (hend.imp_right fun h => ⟨h, congrArg List.length houter⟩) hlast
        · exact .inr ⟨(by rintro ⟨⟩), hrejects⟩
      · rw [if_neg hend]
        have hend : Token.isEnd t = false := by simpa [Token.isEnd] using hend
        have hfollows : Follows s.depth (next? t.kind s.opens) (s.step limit source t) :=
          ParserState.follows_step hend (hformed t List.mem_cons_self) (by omega)
        cases hnext : next? t.kind s.opens with
        | none =>
          rw [hnext] at hfollows
          exact .inr ⟨(by rintro ⟨⟩), hfollows.bind _⟩
        | some opens =>
          rw [hnext] at hfollows
          obtain ⟨s', hstep, rfl, hdepth'⟩ := hfollows
          rw [hstep]
          rw [← ParserState.length_outer_step hend hstep] at hvs
          exact ih (fun u hu => hformed u (List.mem_cons_of_mem t hu)) hvs (by omega)

/-- The parser accepts the statements of the grammar; any other tokens have a fault in their
structure, which it finds. -/
theorem parse_accepts (limit : Nat) (source : String) (ts : List Token)
    (htokens : upToEnd? 0 (lex source).tokens = some ts) (hlimit : 2 * ts.length + 1 ≤ limit) :
    ((∃ tree, parse limit source = .ok tree) ↔ Derives .statement ts) ∧
      (¬ Derives .statement ts →
        ∃ cause location, parse limit source = .error (.structural cause location)) := by
  have hdecides : Decides (Derives .statement ts) (parse limit source) := by
    rw [derives_statement_iff]
    refine decides_parseTokens (s := .start) (formed_of_lexFrom _ 0) htokens ?_
    show 1 + 2 * ts.length ≤ limit
    omega
  rcases hdecides with ⟨hderives, htree⟩ | ⟨hderives, hrejects⟩
  · exact ⟨⟨fun _ => hderives, fun _ => htree⟩, fun h => absurd hderives h⟩
  · refine ⟨⟨fun ⟨tree, htree⟩ => ?_, fun h => absurd h hderives⟩, fun _ => hrejects⟩
    obtain ⟨cause, location, herror⟩ := hrejects
    rw [htree] at herror
    cases herror

/-- An `end` within brackets does not close the block around them. -/
theorem parse_accepts_interleaved :
    ∃ ts, upToEnd? 0 (lex "a /*%if x*/(b /*y*/(1) union c/*%end*/) ; d").tokens = some ts ∧
      2 * ts.length + 1 ≤ 35 ∧ ¬ Derives .statement ts ∧
      ∃ cause location, parse 35 "a /*%if x*/(b /*y*/(1) union c/*%end*/) ; d" =
        .error (.structural cause location) := by
  have hlexed : (upToEnd? 0 (lex "a /*%if x*/(b /*y*/(1) union c/*%end*/) ; d").tokens).map
      (fun ts => (ts.length, after? [] ts)) = some (17, none) := by
    decide +kernel
  obtain ⟨ts, htokens, hts⟩ := Option.map_eq_some_iff.mp hlexed
  obtain ⟨hlength, hafter⟩ := Prod.mk.inj hts
  have hlimit : 2 * ts.length + 1 ≤ 35 := by omega
  have hderives : ¬ Derives .statement ts := by
    rw [derives_statement_iff, hafter]
    exact nofun
  exact ⟨ts, htokens, hlimit, hderives, (parse_accepts 35 _ ts htokens hlimit).2 hderives⟩

end TwoWaySql.Template
