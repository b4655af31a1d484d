import RubyLens.Lint.Offense
import RubyLens.Protocol.Wire

/-!
Offenses as an editor shows them. Each carries the data with which the editor asks to have it
corrected.
-/

namespace RubyLens

open Json (Value)

/-- The members of an object that are present. -/
def Json.Value.present (members : List (String × Option Value)) : Value :=
  .record (members.filterMap fun m => m.2.map fun v => (m.1, v))

/-- What a request for a correction has to say: which cop, and where. -/
structure Correction where
  copName : String
  correctable : Bool
  range : Range
  uri : Uri
deriving DecidableEq

namespace Correction

def toJson (c : Correction) : Value :=
  .record [("copName", .text c.copName), ("correctable", .bool c.correctable),
    ("range", c.range.toJson), ("uri", .text c.uri.text)]

def ofJson? (v : Value) : Option Correction := do
  let r ← v.record? ["copName", "correctable", "range", "uri"]
  some ⟨← r.required "copName" Value.text?, ← r.required "correctable" Value.bool?,
    ← r.required "range" Range.ofJson?, ← r.required "uri" Uri.ofJson?⟩

end Correction

/-- A place in another document that has to do with a diagnostic. -/
structure RelatedInformation where
  uri : Uri
  range : Range
  message : String
deriving DecidableEq

namespace RelatedInformation

def toJson (i : RelatedInformation) : Value :=
  .record [("location", .record [("uri", .text i.uri.text), ("range", i.range.toJson)]),
    ("message", .text i.message)]

def ofJson? (v : Value) : Option RelatedInformation := do
  let r ← v.record? ["location", "message"]
  let location ← r.required "location" (Value.record? ["uri", "range"])
  some ⟨← location.required "uri" Uri.ofJson?, ← location.required "range" Range.ofJson?,
    ← r.required "message" Value.text?⟩

end RelatedInformation

/-- A diagnostic, ours or that of another server. -/
structure Diagnostic where
  range : Range
  severity : Option Int
  /-- A number or a text. -/
  code : Option (Int ⊕ String)
  codeDescription : Option Uri
  source : Option String
  message : String
  relatedInformation : Option (List RelatedInformation)
  tags : Option (List Int)
  data : Option Value

namespace Diagnostic

def codeOfJson? : Value → Option (Int ⊕ String)
  | .text s => some (.inr s)
  | v => v.int32?.map .inl

def codeToJson : Int ⊕ String → Value
  | .inl i => .integer i
  | .inr s => .text s

def toJson (d : Diagnostic) : Value :=
  .present [("range", some d.range.toJson), ("severity", d.severity.map .integer),
    ("code", d.code.map codeToJson),
    ("codeDescription", d.codeDescription.map fun u => .record [("href", .text u.text)]),
    ("source", d.source.map .text), ("message", some (.text d.message)),
    ("relatedInformation", d.relatedInformation.map fun l => .list (l.map (·.toJson))),
    ("tags", d.tags.map fun l => .list (l.map .integer)), ("data", d.data)]

def ofJson? (v : Value) : Option Diagnostic := do
  let r ← v.record? ["range", "severity", "code", "codeDescription", "source", "message",
    "relatedInformation", "tags", "data"]
  some {
    range := ← r.required "range" Range.ofJson?
    severity := ← r.optional "severity" Value.int32?
    code := ← r.optional "code" codeOfJson?
    codeDescription := ← r.optional "codeDescription" fun v => do
      (← v.record? ["href"]).required "href" Uri.ofJson?
    source := ← r.optional "source" Value.text?
    message := ← r.required "message" Value.text?
    relatedInformation := ← r.optional "relatedInformation"
      (Value.listOf? RelatedInformation.ofJson?)
    tags := ← r.optional "tags" (Value.listOf? Value.int32?)
    data := ← r.optional "data" some }

end Diagnostic

/-- The diagnostic of an offense in a document. -/
def Offense.toDiagnostic (e : Encoding) (t : Text) (uri : Uri) (o : Offense) : Diagnostic :=
  let range := o.range e t
  { range
    severity := some o.severity.level
    code := some (.inr o.copName)
    codeDescription := none
    source := some "RuboCop"
    message := o.message
    relatedInformation := none
    tags := none
    data := some (Correction.toJson ⟨o.copName, o.correctable, range, uri⟩) }

end RubyLens
