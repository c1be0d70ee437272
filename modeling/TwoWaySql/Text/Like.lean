/-!
# LIKE patterns

In a pattern `%` stands for any text and `_` for any character; a backslash takes that meaning from
the character after it. `escapeLike` writes a text so that a pattern matches just it.
-/

namespace TwoWaySql.Text

def isLikeSpecial (c : Char) : Bool := c == '\\' || c == '%' || c == '_'

def escapeLikeChars : List Char → List Char
  | [] => []
  | c :: cs => if isLikeSpecial c then '\\' :: c :: escapeLikeChars cs else c :: escapeLikeChars cs

def escapeLike (s : String) : String := String.ofList (escapeLikeChars s.toList)

/-- The pattern of the texts that start with `s`. -/
def prefixPattern (s : String) : String := escapeLike s ++ "%"

/-- The pattern of the texts that contain `s`. -/
def infixPattern (s : String) : String := "%" ++ escapeLike s ++ "%"

/-- The pattern of the texts that end with `s`. -/
def suffixPattern (s : String) : String := "%" ++ escapeLike s

example : infixPattern "10%_" = "%10\\%\\_%" := by decide

end TwoWaySql.Text
