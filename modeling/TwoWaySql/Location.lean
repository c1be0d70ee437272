/-!
# Locations in a text

A location is a byte offset from the start of a text in UTF-8. Messages give it as a line and as the
position of a character in that line, both counted from one. Offsets beyond the end stand for the
end.
-/

namespace TwoWaySql

/-- The characters before the byte offset `n`. -/
def takeBytes : Nat → List Char → List Char
  | _, [] => []
  | n, c :: cs => if c.utf8Size ≤ n then c :: takeBytes (n - c.utf8Size) cs else []

/-- The number of bytes of a text. -/
def byteLength (cs : List Char) : Nat := cs.foldr (fun c n => c.utf8Size + n) 0

theorem byteLength_append (as bs : List Char) :
    byteLength (as ++ bs) = byteLength as + byteLength bs := by
  induction as <;> simp_all [byteLength, Nat.add_assoc]

theorem takeBytes_append (as bs : List Char) : takeBytes (byteLength as) (as ++ bs) = as := by
  induction as with
  | nil =>
    cases bs with
    | nil => rfl
    | cons b bs => simp [takeBytes, byteLength, Nat.pos_iff_ne_zero.mp b.utf8Size_pos]
  | cons a as ih =>
    have h : byteLength (a :: as) = a.utf8Size + byteLength as := rfl
    rw [h, List.cons_append, takeBytes, if_pos (by omega), Nat.add_sub_cancel_left, ih]

/-- A place in a text, for messages. -/
structure Location where
  source : String
  offset : Nat
  deriving DecidableEq

namespace Location

/-- The characters before the place. -/
def before (l : Location) : List Char := takeBytes l.offset l.source.toList

/-- The number of the line, from one. -/
def line (l : Location) : Nat := l.before.count '\n' + 1

/-- The number of the character in its line, from one. -/
def position (l : Location) : Nat := (l.before.reverse.takeWhile (· ≠ '\n')).length + 1

theorem before_byteLength {s : String} {as bs : List Char} (h : s.toList = as ++ bs) :
    before ⟨s, byteLength as⟩ = as := by
  rw [before, h, takeBytes_append]

def text (l : Location) : String := s!"<{l.source}>:{l.line}:{l.position}"

end Location

/-- A stretch of a text, from the byte offset `start` up to `stop`. -/
structure Span where
  start : Nat
  stop : Nat
  deriving DecidableEq

namespace Span

def length (s : Span) : Nat := s.stop - s.start

def isEmpty (s : Span) : Bool := s.start == s.stop

end Span

end TwoWaySql
