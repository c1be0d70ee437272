import TwoWaySql.Number.Binary

/-!
# JSON documents

Fields are listed in the order they were written or are to be written in, also several of one name,
of which the last one counts.

Taken as given of documents is how their numbers are kept. Whole numbers in the range of 64-bit
integers, signed or not, are exact, but for a negative zero. That one and all other numbers are
binary ones of 64 bits, the nearest to what is written; a number that is too great is refused.
-/

namespace TwoWaySql

open Number (Binary BinaryFormat)

inductive Json where
  | null
  | bool (b : Bool)
  | integer (n : Int)
  | real {f : BinaryFormat} (x : Binary f)
  | string (s : String)
  | array (items : List Json)
  | object (fields : List (String × Json))

instance : Inhabited Json := ⟨.null⟩

end TwoWaySql
