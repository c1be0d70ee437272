import TwoWaySql.Proofs.Characters
import TwoWaySql.Proofs.Directives

/-!
# Bodies of loops

The body of a loop is an identifier, the word `in` and an expression, with blanks between them and
maybe blanks around them (`LoopBody`). Only the blanks tell the parts from each other, so `in` may
be the identifier too, or the start of the expression. Still a text is such a body in one way at
most (`LoopBody.text_injective`), and the parts of exactly these texts are found
(`loopParts?_eq_some_iff`). As the scanner refuses all other loops, the parser, which looks for the
parts again, always finds them.
-/

namespace TwoWaySql

namespace Text

/-- There are no blanks in a name, and there is something in it. -/
theorem isBlank_of_mem_identifier {cs : List Char} (h : isIdentifier cs = true) :
    cs ≠ [] ∧ ∀ c ∈ cs, isBlank c = false := by
  cases cs with
  | nil => cases h
  | cons c cs =>
    obtain ⟨hstart, hparts⟩ := Bool.and_eq_true_iff.mp h
    refine ⟨nofun, List.forall_mem_cons.mpr ⟨?_, fun x hx => ?_⟩⟩
    · exact isBlank_of_isIdentifierPart (isIdentifierPart_of_start hstart)
    · exact isBlank_of_isIdentifierPart (List.all_eq_true.mp hparts x hx)

end Text

namespace Template

open Text

/-! ## The form of a body -/

/-- The parts of a loop's body, and the blanks around them. -/
@[ext]
structure LoopBody where
  before : List Char
  identifier : List Char
  beforeIn : List Char
  afterIn : List Char
  expression : List Char
  after : List Char
  isIdentifier_identifier : isIdentifier identifier = true
  beforeIn_ne_nil : beforeIn ≠ []
  afterIn_ne_nil : afterIn ≠ []
  expression_ne_nil : expression ≠ []
  isTrimmed_expression : IsTrimmed expression
  blank_before : ∀ c ∈ before, isBlank c = true
  blank_beforeIn : ∀ c ∈ beforeIn, isBlank c = true
  blank_afterIn : ∀ c ∈ afterIn, isBlank c = true
  blank_after : ∀ c ∈ after, isBlank c = true

namespace LoopBody

/-- The body from the identifier up to the end of the expression. -/
def inner (w : LoopBody) : List Char :=
  w.identifier ++ (w.beforeIn ++ ('i' :: 'n' :: (w.afterIn ++ w.expression)))

/-- The body as it is written. -/
def text (w : LoopBody) : List Char :=
  w.before ++ (w.identifier ++ (w.beforeIn ++
    ('i' :: 'n' :: (w.afterIn ++ (w.expression ++ w.after)))))

variable (w : LoopBody)

theorem text_eq : w.text = w.before ++ (w.inner ++ w.after) := by
  simp [text, inner]

/-- What follows the blanks before the identifier starts with no blank. -/
theorem head?_identifier (rest : List Char) :
    ∀ c ∈ (w.identifier ++ rest).head?, isBlank c = false := by
  obtain ⟨hne, hblank⟩ := isBlank_of_mem_identifier w.isIdentifier_identifier
  rw [List.head?_append_of_ne_nil _ hne]
  exact fun c hc => hblank c (List.mem_of_mem_head? hc)

theorem head?_beforeIn (rest : List Char) :
    ∀ c ∈ (w.beforeIn ++ rest).head?, (!isBlank c) = false := by
  rw [List.head?_append_of_ne_nil _ w.beforeIn_ne_nil]
  exact fun c hc => by simp [w.blank_beforeIn c (List.mem_of_mem_head? hc)]

theorem head?_expression (rest : List Char) :
    ∀ c ∈ (w.expression ++ rest).head?, isBlank c = false := by
  rw [List.head?_append_of_ne_nil _ w.expression_ne_nil]
  exact w.isTrimmed_expression.first

/-- The identifier is a run of characters that are no blanks. -/
theorem not_blank_identifier : ∀ c ∈ w.identifier, (!isBlank c) = true := fun c hc => by
  simp [(isBlank_of_mem_identifier w.isIdentifier_identifier).2 c hc]

theorem isTrimmed_inner : IsTrimmed w.inner := by
  refine ⟨w.head?_identifier _, fun c hc => ?_⟩
  have hlast : w.inner.getLast? = w.expression.getLast? := by
    have hsplit :
        w.inner = w.identifier ++ w.beforeIn ++ ['i', 'n'] ++ w.afterIn ++ w.expression := by
      simp [inner]
    rw [hsplit, List.getLast?_append_of_ne_nil _ w.expression_ne_nil]
  rw [hlast] at hc
  exact w.isTrimmed_expression.last c hc

theorem trim_text : trim w.text = w.inner := by
  rw [w.text_eq]
  exact trim_append w.blank_before w.isTrimmed_inner w.blank_after

theorem trim_expression : trim (w.expression ++ w.after) = w.expression :=
  trim_append (List.forall_mem_nil _) w.isTrimmed_expression w.blank_after

/-- A text is the body of a loop in one way at most. -/
theorem text_injective : Function.Injective text := by
  intro v w h
  obtain ⟨hbefore, h⟩ :=
    span_inj v.blank_before (v.head?_identifier _) w.blank_before (w.head?_identifier _) h
  obtain ⟨hidentifier, h⟩ :=
    span_inj v.not_blank_identifier (v.head?_beforeIn _) w.not_blank_identifier
      (w.head?_beforeIn _) h
  have hin (rest : List Char) : ∀ c ∈ ('i' :: rest).head?, isBlank c = false := by
    intro c hc
    cases hc
    decide
  obtain ⟨hbeforeIn, h⟩ := span_inj v.blank_beforeIn (hin _) w.blank_beforeIn (hin _) h
  obtain ⟨hafterIn, h⟩ :=
    span_inj v.blank_afterIn (v.head?_expression _) w.blank_afterIn (w.head?_expression _)
      (List.cons.inj (List.cons.inj h).2).2
  have hexpression : v.expression = w.expression := by
    have htrim := v.trim_expression
    rw [h, w.trim_expression] at htrim
    exact htrim.symm
  rw [hexpression] at h
  exact LoopBody.ext hbefore hidentifier hbeforeIn hafterIn hexpression (List.append_cancel_left h)

end LoopBody

/-! ## Finding the parts -/

/-- The parts of a body are found. -/
theorem loopParts?_text (w : LoopBody) : loopParts? w.text = some (w.identifier, w.expression) := by
  obtain ⟨c, gap, hafterIn⟩ := List.exists_cons_of_ne_nil w.afterIn_ne_nil
  have hblank := w.blank_afterIn
  rw [hafterIn] at hblank
  obtain ⟨hc, hgap⟩ := List.forall_mem_cons.mp hblank
  obtain ⟨htake, hdrop⟩ := span_append w.not_blank_identifier
    (w.head?_beforeIn ('i' :: 'n' :: (w.afterIn ++ w.expression)))
  have hrest : trimStart (w.beforeIn ++ ('i' :: 'n' :: (w.afterIn ++ w.expression))) =
      'i' :: 'n' :: c :: (gap ++ w.expression) := by
    rw [hafterIn]
    refine (span_append w.blank_beforeIn fun x hx => ?_).2
    cases hx
    decide
  have hexpression : trim (gap ++ w.expression) = w.expression := by
    have h := trim_append (b := []) hgap w.isTrimmed_expression nofun
    rwa [List.append_nil] at h
  unfold loopParts?
  dsimp only
  rw [w.trim_text, LoopBody.inner, htake, hdrop, hrest]
  simp [hexpression, hc, w.isIdentifier_identifier, w.expression_ne_nil]

/-- Where parts are found, the text is a body of these parts. -/
theorem exists_loopBody {body identifier expression : List Char}
    (h : loopParts? body = some (identifier, expression)) :
    ∃ w : LoopBody, w.text = body ∧ w.identifier = identifier ∧ w.expression = expression := by
  obtain ⟨before, after, hbefore, hafter, hbody⟩ := exists_blanks body
  unfold loopParts? at h
  dsimp only at h
  split at h
  · rename_i c more hrest
    split at h
    · rename_i hparts
      cases h
      simp only [Bool.and_eq_true, Bool.not_eq_true', List.isEmpty_eq_false_iff] at hparts
      obtain ⟨⟨hc, hidentifier⟩, hexpression⟩ := hparts
      obtain ⟨gap, afterMore, hgap, hafterMore, hmore⟩ := exists_blanks more
      have hword : (trim body).takeWhile (!isBlank ·) ++ (trim body).dropWhile (!isBlank ·) =
          trim body := List.takeWhile_append_dropWhile
      have hend := List.head?_dropWhile_not (!isBlank ·) (trim body)
      generalize (trim body).dropWhile (!isBlank ·) = tail at hword hrest hend
      have htail : tail.takeWhile isBlank ++ trimStart tail = tail :=
        List.takeWhile_append_dropWhile
      have hne : tail.takeWhile isBlank ≠ [] := by
        cases tail with
        | nil => cases hrest
        | cons x xs =>
          have hx : isBlank x = true := by simpa using hend
          rw [List.takeWhile_cons_of_pos hx]
          nofun
      refine ⟨⟨before, _, tail.takeWhile isBlank, c :: gap, trim more, afterMore ++ after,
        hidentifier, hne, nofun, hexpression, isTrimmed_trim more, hbefore,
        fun x => List.mem_takeWhile_imp, List.forall_mem_cons.mpr ⟨hc, hgap⟩,
        List.forall_mem_append.mpr ⟨hafterMore, hafter⟩⟩, ?_, rfl, rfl⟩
      rw [LoopBody.text_eq]
      conv_rhs => rw [hbody, ← hword, ← htail, hrest, hmore]
      simp [LoopBody.inner]
    · cases h
  · cases h

/-- A text has the parts that it has as the body of a loop. -/
theorem loopParts?_eq_some_iff {body identifier expression : List Char} :
    loopParts? body = some (identifier, expression) ↔
      ∃ w : LoopBody, w.text = body ∧ w.identifier = identifier ∧ w.expression = expression := by
  refine ⟨exists_loopBody, ?_⟩
  rintro ⟨w, rfl, rfl, rfl⟩
  exact loopParts?_text w

/-- Blanks around a body do not matter. -/
theorem loopParts?_trim (body : List Char) : loopParts? (trim body) = loopParts? body := by
  unfold loopParts?
  rw [trim_trim]

/-! ## Loops of a template -/

/-- The directive of a loop encloses a body, and what the parser is given is that body, trimmed. -/
theorem loopBody_of_mem_lex {source : String} {t : Token} (ht : t ∈ (lex source).tokens)
    (hkind : t.kind = .directive .forLoop) :
    ∃ w : LoopBody, t.text.toList = DirectiveKind.forLoop.opening ++ w.text ++ ['*', '/'] ∧
      Token.body? t = some (String.ofList w.inner) := by
  obtain ⟨text, hencloses⟩ := encloses_of_mem_lex ht hkind
  have hparts := loopParts?_of_checkBody hencloses.2
  rw [loopParts?_trim] at hparts
  obtain ⟨⟨identifier, expression⟩, hparts⟩ := Option.isSome_iff_exists.mp hparts
  obtain ⟨w, rfl, -, -⟩ := exists_loopBody hparts
  refine ⟨w, hencloses.1, ?_⟩
  rw [body?_of_encloses hkind hencloses, w.trim_text]

/-- The parts of a body are found again once it is trimmed. -/
theorem loopParts?_inner (w : LoopBody) :
    loopParts? w.inner = some (w.identifier, w.expression) := by
  rw [← w.trim_text, loopParts?_trim, loopParts?_text]

/-- If the run fails, it finds fault with the structure. -/
abbrev FailsStructurally {α : Type} (x : Except Error α) : Prop :=
  Outcome (fun _ => True) (fun e => ∃ cause location, e = .structural cause location) x

theorem Level.finish_structural (l : Level) : FailsStructurally l.finish := by
  rw [finish_eq]
  split
  · exact ⟨_, _, rfl⟩
  · exact trivial

namespace ParserState

variable {limit : Nat} {source : String} {s : ParserState} {t : Token}

theorem checkDepth_structural (limit : Nat) (s : ParserState) (location : Location) :
    FailsStructurally (s.checkDepth limit location) := by
  unfold checkDepth
  split
  · exact ⟨_, _, rfl⟩
  · exact trivial

theorem openBracket_structural (limit : Nat) (s : ParserState) (location : Location)
    (sampleOf? : Option Waiting) :
    FailsStructurally (s.openBracket limit location sampleOf?) := by
  unfold openBracket
  split
  · exact ⟨_, _, rfl⟩
  · exact trivial

theorem closeBracket_structural (s : ParserState) (location : Location) :
    FailsStructurally (s.closeBracket location) := by
  unfold closeBracket
  split
  · exact ⟨_, _, rfl⟩
  · exact (Level.finish_structural _).bind fun _ _ => trivial

theorem addBranch_structural (s : ParserState) (kind : DirectiveKind) (d : Directive) :
    FailsStructurally (s.addBranch kind d) := by
  unfold addBranch
  dsimp only
  split
  · exact trivial
  · exact trivial
  · exact ⟨_, _, rfl⟩
  · exact ⟨_, _, rfl⟩

theorem endBlock_structural (s : ParserState) (location : Location) :
    FailsStructurally (s.endBlock location) := by
  unfold endBlock
  dsimp only
  split
  · exact ⟨_, _, rfl⟩
  · exact trivial

/-- The loop that a directive opens has the parts of the body that it encloses. -/
theorem addDirective_loop {w : LoopBody} (hbody : Token.body? t = some (String.ofList w.inner)) :
    s.addDirective .forLoop (Token.directive source t) =
      .ok (s.openFrame (.forBlock (Token.directive source t) (String.ofList w.identifier)
        (String.ofList w.expression) [])) := by
  have hparts : loopParts? (Token.directive source t).expression.toList =
      some (w.identifier, w.expression) := by
    unfold Token.directive
    rw [hbody, Option.getD_some, String.toList_ofList, loopParts?_inner]
  unfold addDirective
  dsimp only
  rw [hparts]

/-- Of the directives only a loop could be malformed, and those of a template are not. -/
theorem addDirective_structural {kind : DirectiveKind} (ht : t ∈ (lex source).tokens)
    (hkind : t.kind = .directive kind) (s : ParserState) :
    FailsStructurally (s.addDirective kind (Token.directive source t)) := by
  cases kind with
  | bind | literal | expand | embedded | ifBranch => exact trivial
  | elseifBranch | elseBranch => exact addBranch_structural s _ _
  | blockEnd => exact endBlock_structural s _
  | forLoop =>
    obtain ⟨w, -, hbody⟩ := loopBody_of_mem_lex ht hkind
    rw [addDirective_loop hbody]
    exact trivial

theorem addToken_structural (ht : t ∈ (lex source).tokens) (s : ParserState) :
    FailsStructurally (s.addToken limit source t) := by
  refine (checkDepth_structural limit s _).bind fun _ _ => ?_
  cases hkind : t.kind with
  | stop | delimiter | word | quote | blank | comment | other | clause | connector => exact trivial
  | openBracket => exact openBracket_structural limit s _ none
  | closeBracket => exact closeBracket_structural s _
  | set => exact s.level.finish_structural.bind fun _ _ => trivial
  | directive kind => exact addDirective_structural ht hkind s

/-- The parser finds fault with the structure of a template only. -/
theorem step_structural (limit : Nat) (ht : t ∈ (lex source).tokens) (s : ParserState) :
    FailsStructurally (s.step limit source t) := by
  unfold step
  split
  · exact addToken_structural ht s
  · split
    · exact trivial
    · split
      · exact openBracket_structural limit _ _ _
      · exact addToken_structural ht s.settle

theorem finish_structural (limit : Nat) (source : String) (s : ParserState) (t : Token) :
    FailsStructurally (s.finish limit source t) := by
  refine (checkDepth_structural limit s.settle _).bind fun _ _ => ?_
  split
  · exact Level.finish_structural _
  · exact ⟨_, _, rfl⟩

end ParserState

/-- A template is refused for its structure, or because it is not read to the end. -/
theorem parseTokens_fails {limit : Nat} {source : String} {ts : List Token}
    (hts : ∀ t ∈ ts, t ∈ (lex source).tokens) (failure? : Option Error) (s : ParserState) :
    Outcome (fun _ => True)
      (fun e => (∃ cause location, e = .structural cause location) ∨ failure? = some e)
      (parseTokens limit source failure? s ts) := by
  have structural {α : Type} {x : Except Error α} (h : FailsStructurally x) :
      Outcome (fun _ => True)
        (fun e => (∃ cause location, e = .structural cause location) ∨ failure? = some e) x := by
    cases x with
    | ok => exact trivial
    | error e => exact .inl h
  induction ts generalizing s with
  | nil =>
    cases failure? with
    | none => exact structural s.settle.level.finish_structural
    | some e => exact .inr rfl
  | cons t ts ih =>
    obtain ⟨ht, hts⟩ := List.forall_mem_cons.mp hts
    unfold parseTokens
    split
    · exact structural (s.finish_structural limit source t)
    · exact (structural (ParserState.step_structural limit ht s)).bind fun u _ => ih hts u

theorem parse_fails (limit : Nat) (source : String) :
    Outcome (fun _ => True)
      (fun e => (∃ cause location, e = .structural cause location) ∨
        (lex source).failure?.map (Error.ofFailure source) = some e)
      (parse limit source) :=
  parseTokens_fails (fun _ ht => ht) _ .start

/-- The parts found of a text are those that it has as the body of a loop, in the only way that it
is one, and blanks around the text do not matter. So wherever a template has a loop, its directive
encloses a body, and the parser, which is given the body trimmed, finds the same parts again: it
never refuses a loop as malformed. If a template is refused for such a loop, it is not read to the
end. -/
theorem loopBody_grammar :
    (∀ body identifier expression, loopParts? body = some (identifier, expression) ↔
      ∃ w : LoopBody, w.text = body ∧ w.identifier = identifier ∧ w.expression = expression) ∧
    Function.Injective LoopBody.text ∧
    (∀ body, loopParts? (trim body) = loopParts? body) ∧
    ∀ source,
      (∀ t ∈ (lex source).tokens, t.kind = .directive .forLoop → ∃ w : LoopBody,
        t.text.toList = DirectiveKind.forLoop.opening ++ w.text ++ ['*', '/'] ∧
        (Token.directive source t).expression.toList = trim w.text ∧
        ∀ s : ParserState, s.addDirective .forLoop (Token.directive source t) =
          .ok (s.openFrame (.forBlock (Token.directive source t) (String.ofList w.identifier)
            (String.ofList w.expression) []))) ∧
      (∀ t ∈ (lex source).tokens, ∀ limit location, ∀ s : ParserState,
        s.step limit source t ≠ .error (.lexical .malformedLoop location)) ∧
      ∀ limit location, parse limit source = .error (.lexical .malformedLoop location) →
        (lex source).failure?.map (Error.ofFailure source) =
          some (.lexical .malformedLoop location) := by
  refine ⟨fun _ _ _ => loopParts?_eq_some_iff, LoopBody.text_injective, loopParts?_trim,
    fun source => ⟨fun t ht hkind => ?_, fun t ht limit location s hstep => ?_,
      fun limit location hparse => ?_⟩⟩
  · obtain ⟨w, htext, hbody⟩ := loopBody_of_mem_lex ht hkind
    refine ⟨w, htext, ?_, fun s => ParserState.addDirective_loop hbody⟩
    unfold Token.directive
    rw [hbody, Option.getD_some, String.toList_ofList, w.trim_text]
  · have hfails := ParserState.step_structural limit ht s
    rw [hstep] at hfails
    obtain ⟨_, _, herror⟩ := hfails
    cases herror
  · have hfails := parse_fails limit source
    rw [hparse] at hfails
    obtain ⟨_, _, herror⟩ | hfailure := hfails
    · cases herror
    · exact hfailure

/-- A loop of which the identifier is `in`, over an expression that starts with `in`. -/
def loopOverIn : String := "/*%for in in in == in */x/*%end*/"

theorem loopBody_grammar_in :
    let t : Token := ⟨.directive .forLoop, "/*%for in in in == in */", 0⟩
    t ∈ (lex loopOverIn).tokens ∧ ∃ w : LoopBody, w.text = " in in in == in ".toList ∧
      w.identifier = "in".toList ∧ w.expression = "in == in".toList ∧
      ∀ s : ParserState, s.addDirective .forLoop (Token.directive loopOverIn t) =
        .ok (s.openFrame (.forBlock (Token.directive loopOverIn t) "in" "in == in" [])) := by
  intro t
  obtain ⟨hgrammar, hunique, -, htemplates⟩ := loopBody_grammar
  have hparts : loopParts? " in in in == in ".toList = some ("in".toList, "in == in".toList) := by
    decide +kernel
  have ht : t ∈ (lex loopOverIn).tokens := by decide +kernel
  obtain ⟨w, htext, hidentifier, hexpression⟩ := (hgrammar _ _ _).mp hparts
  obtain ⟨v, hv, -, hopen⟩ := (htemplates loopOverIn).1 t ht rfl
  obtain rfl : v = w := by
    refine hunique ?_
    have hdirective : t.text.toList =
        DirectiveKind.forLoop.opening ++ " in in in == in ".toList ++ ['*', '/'] := by
      decide +kernel
    rw [hdirective, ← htext] at hv
    exact (List.append_cancel_left (List.append_cancel_right hv)).symm
  refine ⟨ht, v, htext, hidentifier, hexpression, fun s => ?_⟩
  rw [hopen s, hidentifier, hexpression, String.ofList_toList, String.ofList_toList]

end Template

end TwoWaySql
