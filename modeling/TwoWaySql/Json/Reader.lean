import TwoWaySql.Json.Token

/-!
# Reading JSON

The reader turns the text into tokens and keeps the arrays and objects that are open on a stack, so
it goes through the tokens once. `read?` is strict. `readOutline?` is for documents of which only
some fields of the outermost object matter: within values it lets unsound tokens and any nesting
pass.
-/

namespace TwoWaySql.Json

/-- The token that a text without blanks before it starts with, and what follows the token. -/
def token? (cs : List Char) : Option (Token × List Char) :=
  match cs with
  | [] => none
  | '[' :: rest => some (.openArray, rest)
  | ']' :: rest => some (.closeArray, rest)
  | '\x7b' :: rest => some (.openObject, rest)
  | '\x7d' :: rest => some (.closeObject, rest)
  | ',' :: rest => some (.comma, rest)
  | ':' :: rest => some (.colon, rest)
  | 'n' :: 'u' :: 'l' :: 'l' :: rest => some (.null, rest)
  | 't' :: 'r' :: 'u' :: 'e' :: rest => some (.true, rest)
  | 'f' :: 'a' :: 'l' :: 's' :: 'e' :: rest => some (.false, rest)
  | '"' :: rest =>
    (stringParts? rest).map fun (parts, rest) =>
      let (cs, sound) := joinParts parts
      (.string (String.ofList cs) sound, rest)
  | c :: _ => if c = '-' ∨ c.isDigit then number? cs else none

def isBlank (c : Char) : Bool := c == ' ' || c == '\t' || c == '\n' || c == '\r'

/-- The tokens of a text, at most as many as `fuel`; a text has no more tokens than characters. -/
def tokens? : Nat → List Char → Option (List Token)
  | 0, cs => if cs.all isBlank then some [] else none
  | fuel + 1, cs =>
    match cs.dropWhile isBlank with
    | [] => some []
    | cs =>
      match token? cs with
      | none => none
      | some (t, rest) => (tokens? fuel rest).map (t :: ·)

/-- An array or object that is open, with the items so far, the last one first. -/
inductive Container where
  | array (items : List Json)
  /-- The name is that of the field whose value comes next. -/
  | object (fields : List (String × Json)) (name : String)

/-- What may come next. -/
inductive Expected where
  | value
  | itemOrClose
  | nameOrClose
  | name
  | colon
  | separator

/-- The state of the reader. `done?` is the document once it is complete. -/
structure ReaderState where
  expected : Expected
  stack : List Container
  done? : Option Json

def ReaderState.start : ReaderState := ⟨.value, [], none⟩

/-- The number of arrays and objects that may be open at once. -/
def nestingLimit : Nat := 127

namespace ReaderState

/-- Puts a value where it belongs. -/
def place (stack : List Container) (value : Json) : ReaderState :=
  match stack with
  | [] => ⟨.separator, [], some value⟩
  | .array items :: stack => ⟨.separator, .array (value :: items) :: stack, none⟩
  | .object fields name :: stack =>
    ⟨.separator, .object ((name, value) :: fields) name :: stack, none⟩

def takesValue (s : ReaderState) : Bool :=
  match s.expected with
  | .value | .itemOrClose => s.done?.isNone
  | _ => Bool.false

/-- A value of one token. -/
def addValue (strict : Bool) (s : ReaderState) (value : Json) (sound : Bool) : Option ReaderState :=
  if s.takesValue && (sound || !strict) then some (place s.stack value) else none

/-- Opens an array or object. -/
def opens (strict : Bool) (s : ReaderState) (container : Container) (expected : Expected) :
    Option ReaderState :=
  if s.takesValue && (s.stack.length < nestingLimit || !strict) then
    some ⟨expected, container :: s.stack, none⟩
  else none

def step (strict : Bool) (s : ReaderState) (t : Token) : Option ReaderState :=
  match t, s.expected, s.stack with
  | .string name sound, .nameOrClose, .object fields _ :: stack
  | .string name sound, .name, .object fields _ :: stack =>
    if sound || !(strict || stack.isEmpty) then some ⟨.colon, .object fields name :: stack, none⟩
    else none
  | .string text sound, _, _ => s.addValue strict (.string text) sound
  | .number value sound, _, _ => s.addValue strict value sound
  | .null, _, _ => s.addValue strict .null Bool.true
  | .true, _, _ => s.addValue strict (.bool Bool.true) Bool.true
  | .false, _, _ => s.addValue strict (.bool Bool.false) Bool.true
  | .openArray, _, _ => s.opens strict (.array []) .itemOrClose
  | .openObject, _, _ => s.opens strict (.object [] "") .nameOrClose
  | .closeArray, .itemOrClose, .array items :: stack
  | .closeArray, .separator, .array items :: stack => some (place stack (.array items.reverse))
  | .closeObject, .nameOrClose, .object fields _ :: stack
  | .closeObject, .separator, .object fields _ :: stack =>
    some (place stack (.object fields.reverse))
  | .comma, .separator, .array items :: stack => some ⟨.value, .array items :: stack, none⟩
  | .comma, .separator, .object fields name :: stack =>
    some ⟨.name, .object fields name :: stack, none⟩
  | .colon, .colon, stack => some ⟨.value, stack, none⟩
  | _, _, _ => none

end ReaderState

/-- The document that a text holds. -/
def readWith (strict : Bool) (text : String) : Option Json := do
  let tokens ← tokens? text.length text.toList
  let state ← tokens.foldlM (ReaderState.step strict) .start
  state.done?

def read? (text : String) : Option Json := readWith Bool.true text

def readOutline? (text : String) : Option Json := readWith Bool.false text

end TwoWaySql.Json
