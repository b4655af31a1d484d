import RubyLens.Json.Decode
import RubyLens.Syntax.Concrete

/-!
Concrete syntax in the form in which a parser hands it over: a list with a row for each node, in
pre-order. A row holds the number of the parent, which is negative for the root, the type, two marks
as bits, the byte offsets of start and end, and the role in the parent or null.
-/

namespace RubyLens.Concrete

open Json (Value)

/-- One row. The first mark says that the node is named, the second that it is missing. -/
def rowOfJson? : Value → Option (Option Nat × Label)
  | .list [parent, type, marks, start, stop, role] => do
    let marks ← marks.nat?
    let label : Label := {
      typeName := ← type.text?
      named := marks % 2 == 1
      missing := marks / 2 % 2 == 1
      span := ⟨← start.nat?, ← stop.nat?⟩
      field := ← role.nullable? Value.text? }
    some (parent.nat?, label)
  | _ => none

def ofJson? (v : Value) : Option Concrete := (v.listOf? rowOfJson?).bind ofRows?

end RubyLens.Concrete
