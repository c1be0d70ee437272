import TwoWaySql.Literal
import TwoWaySql.Proofs.Brackets
import TwoWaySql.Proofs.Concatenation
import TwoWaySql.Proofs.Expr.Literals

/-!
# Literals within a template

Whatever characters a value contains, its literal stays within its quotes: read as a part of a
template, it is quoted texts, words and balanced brackets with commas between them, and the quoted
texts are those of the value (`lex_literal`). `Inlined` says so of a text that a comma, a bracket or
the end follows; words and quoted texts are inlined, and with them what is put in brackets.
-/

namespace TwoWaySql

/-! ## Values -/

namespace Value

mutual

/-- Whether a value or an item of it at any depth is a binary number. Records are no collections
here, as they are quoted. -/
def hasBinary : Value → Bool
  | .float _ | .double _ => true
  | .list items => anyBinary items
  | .pair a b => a.hasBinary || b.hasBinary
  | .triple a b c => a.hasBinary || b.hasBinary || c.hasBinary
  | _ => false

def anyBinary : List Value → Bool
  | [] => false
  | v :: vs => v.hasBinary || anyBinary vs

end

mutual

/-- The texts of the characters, strings and records that a value is made of, in their order. -/
def quotedTexts : Value → List String
  | .char c => [c.toString]
  | .string s => [s]
  | .record fields => [(Value.record fields).text]
  | .list items => allQuotedTexts items
  | .pair a b => a.quotedTexts ++ b.quotedTexts
  | .triple a b c => a.quotedTexts ++ b.quotedTexts ++ c.quotedTexts
  | _ => []

def allQuotedTexts : List Value → List String
  | [] => []
  | v :: vs => v.quotedTexts ++ allQuotedTexts vs

end

theorem allQuotedTexts_eq_flatMap (vs : List Value) :
    allQuotedTexts vs = vs.flatMap quotedTexts := by
  induction vs <;> simp_all [allQuotedTexts]

end Value

theorem Dialect.literals_eq_map (d : Dialect) (vs : List Value) :
    d.literals vs = vs.map d.literal := by
  induction vs <;> simp_all [Dialect.literals]

/-! ## Quoted texts -/

/-- The text with every doubled quote made one. -/
def undoubled : List Char → List Char
  | [] => []
  | '\x27' :: '\x27' :: cs => '\x27' :: undoubled cs
  | c :: cs => c :: undoubled cs

/-- The text that a quoted one stands for: without the quotes around it, those within it undone. -/
def unquoted (text : String) : String := String.ofList (undoubled (text.toList.drop 1).dropLast)

theorem undoubled_doubleQuotes (cs : List Char) : undoubled (doubleQuotes cs) = cs := by
  induction cs with
  | nil => rfl
  | cons c cs ih =>
    rw [doubleQuotes]
    split
    · rename_i hc
      rw [hc, undoubled, ih]
    · rename_i hc
      rw [undoubled, ih]
      rintro _ rfl
      exact absurd rfl hc

theorem unquoted_quoteText (s : String) : unquoted (quoteText s) = s := by
  rw [unquoted, quoteText, String.toList_ofList, List.cons_append, List.drop_one, List.tail_cons,
    List.dropLast_concat, undoubled_doubleQuotes, String.ofList_toList]

namespace Template

open Text

theorem quotedLength?_cons {quote c : Char} (hc : c ≠ quote) (cs : List Char) :
    quotedLength? quote (c :: cs) = (quotedLength? quote cs).map (· + 1) := by
  cases cs with
  | nil => simp [quotedLength?, hc]
  | cons d cs => rw [quotedLength?, if_pos hc]

/-- The first quote that is not doubled is the one after the text. -/
theorem quotedLength?_doubleQuotes {rest : List Char} (hrest : ∀ c ∈ rest.head?, c ≠ '\x27')
    (cs : List Char) : quotedLength? '\x27' (doubleQuotes cs ++ '\x27' :: rest) =
      some (doubleQuotes cs ++ ['\x27']).length := by
  induction cs with
  | nil =>
    cases rest with
    | nil => rfl
    | cons d rest =>
      have hd : d ≠ '\x27' := hrest d rfl
      simp [doubleQuotes, quotedLength?, hd]
  | cons c cs ih =>
    rw [doubleQuotes]
    split
    · rename_i hc
      rw [List.cons_append, List.cons_append, quotedLength?, if_neg (not_not_intro hc),
        if_pos hc, ih]
      rfl
    · rename_i hc
      rw [List.cons_append, quotedLength?_cons hc, ih]
      rfl

/-! ## Tokens of literals -/

/-- The tokens that literals are made of: quoted texts, words, brackets, and commas with a space
after them. -/
def Token.IsLiteralPart (t : Token) : Prop :=
  t.kind = .quote ∨ t.kind = .word ∨ t.kind = .openBracket ∨ t.kind = .closeBracket ∨
    t.kind = .other ∧ t.text = "," ∨ t.kind = .blank ∧ t.text = " "

/-- The texts that the quoted texts of some tokens stand for. -/
def quotedTexts (ts : List Token) : List String :=
  (ts.filter fun t => t.kind = .quote).map fun t => unquoted t.text

/-- The tokens are parts of literals, their brackets are balanced and their quoted texts stand for
the given ones. -/
structure LiteralTokens (ts : List Token) (texts : List String) : Prop where
  parts : ∀ t ∈ ts, t.IsLiteralPart
  balanced : ∀ depth us, balanced depth (ts ++ us) = Template.balanced depth us
  texts : quotedTexts ts = texts

namespace LiteralTokens

variable {ts us : List Token} {texts texts' : List String} {t : Token}

theorem nil : LiteralTokens [] [] := ⟨nofun, fun _ _ => rfl, rfl⟩

theorem append (h : LiteralTokens ts texts) (h' : LiteralTokens us texts') :
    LiteralTokens (ts ++ us) (texts ++ texts') where
  parts := List.forall_mem_append.mpr ⟨h.parts, h'.parts⟩
  balanced depth vs := by rw [List.append_assoc, h.balanced, h'.balanced]
  texts := by
    rw [← h.texts, ← h'.texts]
    simp only [quotedTexts, List.filter_append, List.map_append]

/-- A token that is no bracket. -/
theorem single (hpart : t.IsLiteralPart) (hkind : t.kind ≠ .openBracket ∧ t.kind ≠ .closeBracket) :
    LiteralTokens [t] (quotedTexts [t]) where
  parts := List.forall_mem_singleton.mpr hpart
  balanced depth us := by
    rw [List.singleton_append, Template.balanced]
    split
    · exact absurd ‹_› hkind.1
    · exact absurd ‹_› hkind.2
    · rfl
  texts := rfl

theorem quote (s : String) (offset : Nat) :
    LiteralTokens [⟨.quote, quoteText s, offset⟩] [s] := by
  have hparts := single (t := ⟨.quote, quoteText s, offset⟩) (.inl rfl) (by simp)
  have htexts : quotedTexts [⟨.quote, quoteText s, offset⟩] = [s] :=
    congrArg ([·]) (unquoted_quoteText s)
  rwa [htexts] at hparts

theorem separator (offset offset' : Nat) :
    LiteralTokens [⟨.other, ",", offset⟩, ⟨.blank, " ", offset'⟩] [] :=
  have hcomma : LiteralTokens [⟨.other, ",", offset⟩] [] :=
    single (.inr (.inr (.inr (.inr (.inl ⟨rfl, rfl⟩))))) (by simp)
  have hspace : LiteralTokens [⟨.blank, " ", offset'⟩] [] :=
    single (.inr (.inr (.inr (.inr (.inr ⟨rfl, rfl⟩))))) (by simp)
  hcomma.append hspace

theorem brackets (h : LiteralTokens ts texts) {start stop : Token}
    (hstart : start.kind = .openBracket) (hstop : stop.kind = .closeBracket) :
    LiteralTokens (start :: (ts ++ [stop])) texts where
  parts := by
    rw [List.forall_mem_cons, List.forall_mem_append, List.forall_mem_singleton]
    exact ⟨.inr (.inr (.inl hstart)), h.parts, .inr (.inr (.inr (.inl hstop)))⟩
  balanced depth us := by
    rw [List.cons_append, List.append_assoc, Template.balanced, hstart]
    dsimp only
    rw [h.balanced, List.singleton_append, Template.balanced, hstop]
    rfl
  texts := by
    rw [← h.texts]
    simp [quotedTexts, hstart, hstop]

end LiteralTokens

/-! ## Texts before others -/

/-- Before `rest`, the text is read as the tokens. -/
structure ReadBefore (rest : List Char) (offset : Nat) (text : List Char) (ts : List Token) :
    Prop where
  tokens : (scanner.lexFrom () offset (text ++ rest)).tokens =
    ts ++ (scanner.lexFrom () (offset + byteLength text) rest).tokens
  failure? : (scanner.lexFrom () offset (text ++ rest)).failure? =
    (scanner.lexFrom () (offset + byteLength text) rest).failure?

theorem ReadBefore.append {rest text more : List Char} {offset : Nat} {ts us : List Token}
    (h : ReadBefore (more ++ rest) offset text ts)
    (h' : ReadBefore rest (offset + byteLength text) more us) :
    ReadBefore rest offset (text ++ more) (ts ++ us) where
  tokens := by
    rw [List.append_assoc, h.tokens, h'.tokens, byteLength_append, Nat.add_assoc,
      List.append_assoc]
  failure? := by
    rw [List.append_assoc, h.failure?, h'.failure?, byteLength_append, Nat.add_assoc]

theorem readBefore_token {rest a : List Char} {c : Char} {k : TokenKind}
    (h : scan c (a ++ rest) = .ok (k, a.length)) (offset : Nat) :
    ReadBefore rest offset (c :: a) [⟨k, String.ofList (c :: a), offset⟩] := by
  have hlex := lexFrom_token h offset
  rw [List.take_left, List.drop_left] at hlex
  dsimp only at hlex
  rw [Token.stop, String.toList_ofList] at hlex
  exact ⟨by rw [List.cons_append, hlex]; rfl, by rw [List.cons_append, hlex]⟩

theorem scan_comma (cs : List Char) : scan ',' cs = .ok (.other, 0) := by
  refine scan_of_scanRule (.other ⟨by decide, by decide, by decide, by decide, ?_, ?_, ?_, ?_⟩)
  · exact fun h => absurd h.1 (by decide)
  · exact fun h => absurd h.1 (by decide)
  · exact fun h => absurd h.1 (by decide)
  · decide +kernel

/-- One space, if no other blank follows. -/
theorem scan_space {cs : List Char} (h : ∀ c ∈ cs.head?, isBlank c = false) :
    scan ' ' cs = .ok (.blank, 0) := by
  have hrun : runLength isBlank cs = 0 := runLength_append h []
  exact scan_of_scanRule (by rw [← hrun]; exact .blank (by decide))

/-- What follows a literal: a comma or a bracket, or nothing. -/
def EndsLiteral (rest : List Char) : Prop := ∀ c ∈ rest.head?, c = ',' ∨ c = ')'

theorem EndsLiteral.not_of {rest : List Char} (h : EndsLiteral rest) {p : Char → Bool}
    (hp : p ',' = false ∧ p ')' = false) : ∀ c ∈ rest.head?, p c = false := by
  intro c hc
  rcases h c hc with rfl | rfl
  · exact hp.1
  · exact hp.2

/-- Before anything that may follow a literal, the text is read as tokens of literals. It does not
start with a blank, so that a space may come before it. -/
structure Inlined (text : List Char) (texts : List String) : Prop where
  notBlank : ∀ c ∈ text.head?, isBlank c = false
  reads : ∀ offset rest, EndsLiteral rest →
    ∃ ts, ReadBefore rest offset text ts ∧ LiteralTokens ts texts

namespace Inlined

variable {text more : List Char} {texts texts' : List String}

theorem nil : Inlined [] [] where
  notBlank := nofun
  reads _ _ _ := ⟨[], ⟨rfl, rfl⟩, .nil⟩

/-- Two texts with a comma between them. -/
theorem join (h : Inlined text texts) (h' : Inlined more texts') :
    Inlined (text ++ ',' :: ' ' :: more) (texts ++ texts') where
  notBlank c hc := by
    cases text with
    | nil =>
      obtain rfl := Option.some_inj.mp hc
      decide
    | cons d text => exact h.notBlank c hc
  reads offset rest hrest := by
    obtain ⟨us, hus, hparts⟩ := h'.reads (offset + byteLength text + 1 + 1) rest hrest
    have hhead : ∀ c ∈ (more ++ rest).head?, isBlank c = false := by
      cases more with
      | nil => exact hrest.not_of (by decide)
      | cons c more => exact h'.notBlank
    have hseparator : ReadBefore (more ++ rest) (offset + byteLength text) [',', ' '] _ :=
      (readBefore_token (a := []) (scan_comma _) _).append
        (readBefore_token (a := []) (scan_space hhead) _)
    obtain ⟨ts, hts, hparts'⟩ := h.reads offset (',' :: ' ' :: (more ++ rest))
      fun c hc => .inl (Option.some_inj.mp hc).symm
    exact ⟨_, hts.append (hseparator.append hus),
      hparts'.append ((LiteralTokens.separator _ _).append hparts)⟩

theorem brackets (h : Inlined text texts) : Inlined ('(' :: (text ++ [')'])) texts where
  notBlank c hc := by
    obtain rfl := Option.some_inj.mp hc
    decide
  reads offset rest hrest := by
    obtain ⟨ts, hts, hparts⟩ := h.reads (offset + 1) ([')'] ++ rest)
      fun c hc => .inr (Option.some_inj.mp hc).symm
    have hopen : ReadBefore (text ++ [')'] ++ rest) offset ['('] _ :=
      readBefore_token (a := []) (scan_of_scanRule (.openBracket rfl)) offset
    have hclose : ReadBefore rest (offset + 1 + byteLength text) [')'] _ :=
      readBefore_token (a := []) (scan_of_scanRule (.closeBracket rfl)) _
    exact ⟨_, hopen.append (hts.append hclose), hparts.brackets rfl rfl⟩

end Inlined

/-! ## Words -/

/-- The keywords of one word, and the first words of those of two. -/
def firstWords : List String :=
  ["select", "from", "where", "having", "option", "union", "except", "minus", "intersect", "and",
    "or", "group", "order", "for"]

theorem wordKind_of_firstWords {word : List Char}
    (h : ∀ keyword ∈ firstWords, isKeyword keyword word = false) (rest : List Char) :
    wordKind word rest = (.word, 0) := by
  simp only [firstWords, List.forall_mem_cons] at h
  obtain ⟨h1, h2, h3, h4, h5, h6, h7, h8, h9, h10, h11, h12, h13, h14, -⟩ := h
  simp [wordKind, h1, h2, h3, h4, h5, h6, h7, h8, h9, h10, h11, h12, h13, h14]

/-- No keyword starts with a digit. -/
theorem wordKind_of_isDigit {c : Char} (hc : c.isDigit = true) (word rest : List Char) :
    wordKind (c :: word) rest = (.word, 0) := by
  refine wordKind_of_firstWords (fun keyword hkeyword => Bool.eq_false_iff.mpr fun h => ?_) rest
  have hlower : ∀ d ∈ keyword.toList, d.isLower = true :=
    List.all_eq_true.mp (List.all_eq_true.mp
      (by decide : (firstWords.all fun k => k.toList.all Char.isLower) = true) keyword hkeyword)
  have halpha := isAlpha_iff.mp (isAlpha_of_isKeyword hlower h c List.mem_cons_self)
  have hdigit := isDigit_iff.mp hc
  omega

theorem isWordPart_of_isDigit {c : Char} (h : c.isDigit = true) : isWordPart c = true := by
  have hpart := (isIdentifierPart_of_isDigit h).1
  rw [isIdentifierPart] at hpart
  rw [isWordPart, hpart]
  rfl

/-- A run of the characters of words ends with the literal. -/
theorem runLength_of_endsLiteral {cs rest : List Char} (hcs : ∀ c ∈ cs, isWordPart c = true)
    (hrest : EndsLiteral rest) : runLength isWordPart (cs ++ rest) = cs.length := by
  rw [runLength_append (hrest.not_of (by decide +kernel)), runLength,
    Expr.takeWhile_of_all (List.all_eq_true.mpr hcs)]

namespace Inlined

variable {c : Char} {cs : List Char}

theorem word (hall : ∀ d ∈ c :: cs, isWordPart d = true)
    (hkind : ∀ rest, wordKind (c :: cs) rest = (.word, 0)) : Inlined (c :: cs) [] where
  notBlank d hd := by
    obtain rfl := Option.some_inj.mp hd
    exact isBlank_of_isWordPart (hall c List.mem_cons_self)
  reads offset rest hrest := by
    obtain ⟨hc, hcs⟩ := List.forall_mem_cons.mp hall
    have hscan : scan c (cs ++ rest) = .ok (.word, cs.length) := by
      have hrule : ScanRule c (cs ++ rest) _ _ :=
        .word (by simp [isBlank_of_isWordPart hc]) hc rfl
      rw [runLength_of_endsLiteral hcs hrest, List.take_left, List.drop_left, hkind] at hrule
      exact scan_of_scanRule hrule
    exact ⟨_, readBefore_token hscan offset,
      .single (.inr (.inl rfl)) (by simp)⟩

/-- A word of letters that is neither a keyword nor the first word of one. -/
theorem letters (hall : (c :: cs).all Char.isAlpha = true)
    (hkind : (firstWords.any fun keyword => isKeyword keyword (c :: cs)) = false) :
    Inlined (c :: cs) [] :=
  word (fun d hd => isWordPart_of_isAlpha (List.all_eq_true.mp hall d hd))
    (wordKind_of_firstWords fun keyword hkeyword =>
      Bool.eq_false_iff.mpr (List.any_eq_false.mp hkind keyword hkeyword))

/-- A number is a word, also with a sign. -/
theorem number (negative : Prop) [Decidable negative] (hc : c.isDigit = true)
    (hcs : ∀ d ∈ cs, isWordPart d = true) :
    Inlined ((if negative then ['-'] else []) ++ c :: cs) [] := by
  have hall : ∀ d ∈ c :: cs, isWordPart d = true :=
    List.forall_mem_cons.mpr ⟨isWordPart_of_isDigit hc, hcs⟩
  split
  · refine ⟨fun d hd => ?_, fun offset rest hrest => ?_⟩
    · obtain rfl := Option.some_inj.mp hd
      decide
    · have hscan : scan '-' (c :: cs ++ rest) = .ok (.word, (c :: cs).length) := by
        rw [← runLength_of_endsLiteral hall hrest]
        exact scan_of_scanRule (.signed (.inr rfl) hc)
      exact ⟨_, readBefore_token hscan offset,
        .single (.inr (.inl rfl)) (by simp)⟩
  · exact word hall (wordKind_of_isDigit hc cs)

theorem integer (n : Int) : Inlined (toString n).toList [] := by
  obtain ⟨c, cs, hdigits, hc, hcs⟩ := Expr.exists_digits n.natAbs
  rw [Expr.toList_toString, hdigits]
  exact number _ hc fun d hd => isWordPart_of_isDigit (List.all_eq_true.mp hcs d hd)

theorem decimal (d : Number.Decimal) : Inlined d.text.toList [] := by
  have hall : ∀ c ∈ Number.padded (d.scale + 1) d.mantissa, c.isDigit = true := by
    rw [Number.padded, List.forall_mem_append]
    exact ⟨fun c hc => (List.eq_of_mem_replicate hc).symm ▸ rfl,
      List.all_eq_true.mp (Expr.all_isDigit_digits _)⟩
  have hlength : d.scale < (Number.padded (d.scale + 1) d.mantissa).length := by
    rw [Number.padded, List.length_append, List.length_replicate, Number.digitCount]
    omega
  rw [Number.Decimal.text, String.toList_ofList]
  revert hall hlength
  generalize Number.padded (d.scale + 1) d.mantissa = ds
  intro hall hlength
  obtain ⟨c, cs, hwhole⟩ : ∃ c cs, ds.take (ds.length - d.scale) = c :: cs :=
    List.exists_cons_of_length_pos (by rw [List.length_take]; omega)
  have hdigit : ∀ e ∈ c :: cs, e.isDigit = true := fun e he =>
    hall e (List.mem_of_mem_take (hwhole ▸ he))
  obtain ⟨hc, hcs⟩ := List.forall_mem_cons.mp hdigit
  rw [hwhole, List.append_assoc, List.cons_append]
  refine number _ hc (List.forall_mem_append.mpr ⟨fun e he => isWordPart_of_isDigit (hcs e he), ?_⟩)
  split
  · nofun
  · rw [List.forall_mem_cons]
    exact ⟨by decide +kernel, fun e he => isWordPart_of_isDigit (hall e (List.mem_of_mem_drop he))⟩

theorem quote (s : String) : Inlined (quoteText s).toList [s] := by
  have htext : (quoteText s).toList = '\x27' :: (doubleQuotes s.toList ++ ['\x27']) :=
    String.toList_ofList
  refine ⟨fun c hc => ?_, fun offset rest hrest => ?_⟩
  · rw [htext] at hc
    obtain rfl := Option.some_inj.mp hc
    decide
  · have hscan : scan '\x27' (doubleQuotes s.toList ++ ['\x27'] ++ rest) =
        .ok (.quote, (doubleQuotes s.toList ++ ['\x27']).length) := by
      refine scan_of_scanRule (.quote rfl ?_)
      rw [List.append_assoc]
      refine quotedLength?_doubleQuotes (fun c hc => ?_) s.toList
      rintro rfl
      exact absurd (hrest _ hc) (by decide)
    have htoken := readBefore_token hscan offset
    rw [← htext, String.ofList_toList] at htoken
    exact ⟨_, htoken, .quote s offset⟩

/-! ## Values -/

/-- The literals of values in brackets, with commas between them. -/
theorem values {vs : List Value}
    (h : ∀ v ∈ vs, Inlined (Dialect.generic.literal v).toList v.quotedTexts) :
    Inlined ("(" ++ ", ".intercalate (vs.map Dialect.generic.literal) ++ ")").toList
      (vs.flatMap Value.quotedTexts) := by
  rw [String.toList_append, String.toList_append, String.toList_intercalate]
  refine brackets ?_
  induction vs with
  | nil => exact nil
  | cons v vs ih =>
    obtain ⟨hv, hvs⟩ := List.forall_mem_cons.mp h
    cases vs with
    | nil => simpa using hv
    | cons w vs => simpa [List.intercalate_cons_cons] using hv.join (ih hvs)

end Inlined

mutual

theorem inlined_literal :
    (v : Value) → v.hasBinary = false → Inlined (Dialect.generic.literal v).toList v.quotedTexts
  | .null, _ => .letters (by decide) (by decide)
  | .bool b, _ => by
    cases b with
    | false => exact .letters (by decide) (by decide)
    | true => exact .letters (by decide) (by decide)
  | .int n, _ => .integer n.toInt
  | .long n, _ => .integer n.toInt
  | .decimal d, _ => .decimal d
  | .char c, _ => .quote c.toString
  | .string s, _ => .quote s
  | .record fields, _ => .quote (Value.record fields).text
  | .list items, h => by
    rw [Dialect.literal, Dialect.literals_eq_map, Value.quotedTexts,
      Value.allQuotedTexts_eq_flatMap]
    exact .values (inlined_literals items h)
  | .pair a b, h => by
    obtain ⟨ha, hb⟩ := Bool.or_eq_false_iff.mp h
    have hall : ∀ v ∈ [a, b], Inlined (Dialect.generic.literal v).toList v.quotedTexts := by
      simpa using ⟨inlined_literal a ha, inlined_literal b hb⟩
    simpa [Dialect.literal, Value.quotedTexts] using Inlined.values hall
  | .triple a b c, h => by
    obtain ⟨hab, hc⟩ := Bool.or_eq_false_iff.mp h
    obtain ⟨ha, hb⟩ := Bool.or_eq_false_iff.mp hab
    have hall : ∀ v ∈ [a, b, c], Inlined (Dialect.generic.literal v).toList v.quotedTexts := by
      simpa using ⟨inlined_literal a ha, inlined_literal b hb, inlined_literal c hc⟩
    simpa [Dialect.literal, Value.quotedTexts] using Inlined.values hall

theorem inlined_literals : (vs : List Value) → Value.anyBinary vs = false →
    ∀ v ∈ vs, Inlined (Dialect.generic.literal v).toList v.quotedTexts
  | [], _ => nofun
  | v :: vs, h => by
    obtain ⟨hv, hvs⟩ := Bool.or_eq_false_iff.mp h
    exact List.forall_mem_cons.mpr ⟨inlined_literal v hv, inlined_literals vs hvs⟩

end

/-- The literal of a value is read as a template of nothing but quoted texts, words and balanced
brackets with commas between them, and the quoted texts stand for those of the value. -/
theorem lex_literal (v : BoundValue) (h : v.value.hasBinary = false) :
    let literal := Dialect.generic.formatter v
    ∃ ts, lex literal = ⟨ts ++ [⟨.stop, "", byteLength literal.toList⟩], none⟩ ∧
      (∀ t ∈ ts, t.IsLiteralPart) ∧ balanced 0 ts = true ∧
        quotedTexts ts = v.value.quotedTexts := by
  obtain ⟨ts, hts, hparts⟩ := (inlined_literal v.value h).reads 0 [] nofun
  have htokens := hts.tokens
  have hfailure := hts.failure?
  rw [List.append_nil, Nat.zero_add, lexFrom_nil] at htokens hfailure
  dsimp only at htokens hfailure
  have hbalanced := hparts.balanced 0 []
  rw [List.append_nil] at hbalanced
  refine ⟨ts, ?_, hparts.parts, hbalanced, hparts.texts⟩
  rw [lex, Dialect.formatter, ← htokens, ← hfailure]

/-- A value of texts that would end the quotes, open a comment or end the statement. -/
def hostileValue : Value :=
  .list [.string "\x27; drop table t --", .pair (.char '\x27') (.int (-1)), .null,
    .record [("a", .of (.string "/*%end*/\n\x27\x27"))]]

theorem lex_literal_hostile : hostileValue.hasBinary = false ∧
    let literal := Dialect.generic.formatter (.of hostileValue)
    ∃ ts, lex literal = ⟨ts ++ [⟨.stop, "", byteLength literal.toList⟩], none⟩ ∧
      (∀ t ∈ ts, t.IsLiteralPart) ∧ balanced 0 ts = true ∧
        quotedTexts ts = ["\x27; drop table t --", "\x27", "\x7ba=/*%end*/\n\x27\x27\x7d"] := by
  refine ⟨rfl, ?_⟩
  obtain ⟨ts, hlex, hparts, hbalanced, htexts⟩ := lex_literal (.of hostileValue) rfl
  exact ⟨ts, hlex, hparts, hbalanced, htexts.trans (by decide +kernel)⟩

end Template

end TwoWaySql
