/-!
Places in a text as an editor names them: a row and a column, both counted from zero. In which
unit the column is counted is a matter of the encoding in force.
-/

namespace RubyLens

structure Position where
  row : Nat
  column : Nat
deriving DecidableEq, Repr

namespace Position

/-- Positions are ordered row by row, and within a row by column. -/
instance : LE Position := ⟨fun p q => p.row < q.row ∨ p.row = q.row ∧ p.column ≤ q.column⟩

instance (p q : Position) : Decidable (p ≤ q) :=
  inferInstanceAs (Decidable (p.row < q.row ∨ p.row = q.row ∧ p.column ≤ q.column))

/-- The greatest number that fits the 32 bits of a row or a column on the wire. -/
def wireMax : Nat := 0xFFFFFFFF

/-- The position as it is sent: a number too large for the wire becomes the greatest one. -/
def toWire (p : Position) : Position := ⟨min p.row wireMax, min p.column wireMax⟩

def display (p : Position) : String := s!"{p.row}:{p.column}"

end Position

/-- From `start` up to but not including `stop`. -/
structure Range where
  start : Position
  stop : Position
deriving DecidableEq, Repr

namespace Range

/-- Both ends count. -/
def includes (r : Range) (p : Position) : Bool := r.start ≤ p && p ≤ r.stop

def contains (r s : Range) : Bool := r.start ≤ s.start && s.stop ≤ r.stop

def strictlyLarger (r s : Range) : Bool := r.contains s && r != s

end Range

end RubyLens
