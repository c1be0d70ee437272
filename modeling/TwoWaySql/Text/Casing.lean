import TwoWaySql.Text.CaseTable
import TwoWaySql.Text.Cased

/-!
# Upper and lower case

The full case mappings: a letter may become several (`ß` becomes `SS`), and a capital sigma that
ends a word becomes the final small sigma.
-/

namespace TwoWaySql.Text

/-- The image of a character under a simple mapping and its exceptions. -/
def mapCase (runs : List CaseRun) (expansions : List (Nat × List Nat)) (c : Char) : List Char :=
  match expansions.lookup c.toNat with
  | some ns => ns.map Char.ofNat
  | none =>
    match runs.findSome? (·.map? c.toNat) with
    | some n => [Char.ofNat n]
    | none => [c]

def upperChar (c : Char) : List Char := mapCase upperRuns upperExpansions c

def lowerChar (c : Char) : List Char := mapCase lowerRuns lowerExpansions c

/-- Whether the first character that counts is a cased one. -/
def startsCased (cs : List Char) : Bool :=
  match cs.dropWhile isCaseIgnorable with
  | c :: _ => isCased c
  | [] => false

/-- Lower case, with the text before the cursor given backwards. -/
def lowerFrom (before : List Char) : List Char → List Char
  | [] => []
  | c :: cs =>
    (if c = 'Σ' then (if startsCased before && !startsCased cs then ['ς'] else ['σ'])
      else lowerChar c) ++ lowerFrom (c :: before) cs

def lower (s : String) : String := String.ofList (lowerFrom [] s.toList)

def upper (s : String) : String := String.ofList (s.toList.flatMap upperChar)

example : upper "straße" = "STRASSE" ∧ lower "ΟΔΟΣ Σ" = "οδος σ" ∧ lower "İ" = "i̇" := by
  decide +kernel

end TwoWaySql.Text
