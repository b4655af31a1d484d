import RubyLens.Text.Span
import RubyLens.Text.Position

/-!
Positions and byte offsets of one text. Lines end at a line feed and nowhere else, so a carriage
return is part of its line. A column past the end of its line belongs to the end of that line, a
row past the last line to the end of the text, and a column inside a character to the boundary
before it.
-/

namespace RubyLens.Text

/-- The text up to its first line feed. -/
def firstLine (t : Text) : Text := t.takeWhile (· != '\n')

/-- The offsets of the line starts behind each line feed of `t`, where `t` starts at `base`. -/
def lineStartsFrom : Nat → Text → List Nat
  | _, [] => []
  | base, c :: t =>
    if c = '\n' then (base + c.utf8Size) :: lineStartsFrom (base + c.utf8Size) t
    else lineStartsFrom (base + c.utf8Size) t

/-- The byte offset at which each line starts. -/
def lineStarts (t : Text) : List Nat := 0 :: lineStartsFrom 0 t

/-- The byte offset of a row and a column. -/
def offsetAtRow (e : Encoding) : Text → Nat → Nat → Nat
  | [], _, _ => 0
  | c :: t, 0, column => size (within e column (firstLine (c :: t)))
  | c :: t, row + 1, column =>
    c.utf8Size + offsetAtRow e t (if c = '\n' then row else row + 1) column

/-- The byte offset of a position. -/
def offsetAt (e : Encoding) (t : Text) (p : Position) : Nat := offsetAtRow e t p.row p.column

end RubyLens.Text

namespace RubyLens

/-- The position behind one more character. -/
def Position.next (e : Encoding) (p : Position) (c : Char) : Position :=
  if c = '\n' then ⟨p.row + 1, 0⟩ else ⟨p.row, p.column + e.charLen c⟩

end RubyLens

namespace RubyLens.Text

/-- The position behind a whole text. -/
def endPosition (e : Encoding) (t : Text) : Position := t.foldl (Position.next e) ⟨0, 0⟩

/-- The position of a byte offset. -/
def positionAt (e : Encoding) (t : Text) (offset : Nat) : Position :=
  endPosition e (within .utf8 offset t)

/-- The range of a span, as it is sent. -/
def rangeOf (e : Encoding) (t : Text) (s : Span) : Range :=
  ⟨(positionAt e t s.start).toWire, (positionAt e t s.stop).toWire⟩

/-- The span of a range. A range that is given backwards names the same span. -/
def spanOf (e : Encoding) (t : Text) (r : Range) : Span :=
  let a := offsetAt e t r.start
  let b := offsetAt e t r.stop
  ⟨min a b, max a b⟩

/-- The offset of a position, both counted in `e`. -/
def unitsAt (e : Encoding) (t : Text) (p : Position) : Nat := convert .utf8 e t (offsetAt e t p)

/-- The position of an offset, both counted in `e`. -/
def positionAtUnits (e : Encoding) (t : Text) (n : Nat) : Position :=
  positionAt e t (convert e .utf8 t n)

end RubyLens.Text
