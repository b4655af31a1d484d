import RubyLens.Address.Uri
import RubyLens.Json.Decode
import RubyLens.Query.Outline
import RubyLens.Text.Edit

/-!
How positions, ranges, edits and symbols are written in messages.
-/

namespace RubyLens

open Json (Value)

namespace Position

def toJson (p : Position) : Value :=
  .record [("line", .nat p.row), ("character", .nat p.column)]

def ofJson? (v : Value) : Option Position := do
  let r ← v.record? ["line", "character"]
  some ⟨← r.required "line" Value.nat32?,
    ← r.required "character" Value.nat32?⟩

end Position

namespace Range

def toJson (r : Range) : Value := .record [("start", r.start.toJson), ("end", r.stop.toJson)]

def ofJson? (v : Value) : Option Range := do
  let r ← v.record? ["start", "end"]
  some ⟨← r.required "start" Position.ofJson?, ← r.required "end" Position.ofJson?⟩

end Range

def Uri.ofJson? (v : Value) : Option Uri := v.text?.bind Uri.ofString?

def Edit.toJson (e : Edit) : Value :=
  .record [("range", e.range.toJson), ("newText", .text (String.ofList e.text))]

namespace SymbolKind

def name : SymbolKind → String
  | classDef => "class"
  | moduleDef => "module"
  | method => "method"
  | constant => "constant"
  | field => "field"

/-- The number that the protocol gives to a kind. -/
def code : SymbolKind → Nat
  | moduleDef => 2
  | classDef => 5
  | method => 6
  | field => 8
  | constant => 14

end SymbolKind

namespace Symbol

mutual
/-- An entry, with the kind written by `kind`. -/
def toJson (kind : SymbolKind → Value) : Symbol Range → Value
  | mk n k extent selection cs =>
    .record [("name", .text n), ("kind", kind k), ("range", extent.toJson),
      ("selectionRange", selection.toJson), ("children", .list (toJsonAll kind cs))]

def toJsonAll (kind : SymbolKind → Value) : List (Symbol Range) → List Value
  | [] => []
  | c :: cs => toJson kind c :: toJsonAll kind cs
end

end Symbol

/-- An outline with the kinds by name. -/
def Outline.toJson (symbols : List (Symbol Range)) : Value :=
  .list (Symbol.toJsonAll (fun k => .text k.name) symbols)

/-- An outline with the kinds by number. -/
def Outline.toWire (symbols : List (Symbol Range)) : Value :=
  .list (Symbol.toJsonAll (fun k => .nat k.code) symbols)

end RubyLens
