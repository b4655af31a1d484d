import RubyLens.Failure
import RubyLens.Json.Decode
import RubyLens.Json.Reader
import RubyLens.Text.Lines

/-!
What the linter reports: offenses against its rules, called cops, each with a place in the text that
is counted from one, by lines and characters.
-/

namespace RubyLens

open Json (Value)

inductive Severity where
  | convention
  | error
  | fatal
  | info
  | refactor
  | warning
  | unknown
deriving DecidableEq, Repr

namespace Severity

/-- A word that is not known is no error. -/
def ofName : String → Severity
  | "convention" => convention
  | "error" => error
  | "fatal" => fatal
  | "info" => info
  | "refactor" => refactor
  | "warning" => warning
  | _ => unknown

/-- How grave an editor shows it: 1 for an error, 2 for a warning, 3 for information and 4 for a
hint. -/
def level : Severity → Nat
  | convention | info => 3
  | refactor => 4
  | warning => 2
  | error | fatal | unknown => 1

/-- A severity is written as a word, or as an object with the word as its only key and null as
value. -/
def ofJson? : Value → Option Severity
  | .text s => some (ofName s)
  | .object [(some s, .null)] => some (ofName s)
  | _ => none

end Severity

/-- A place counted from one; the last character is included. -/
structure OffenseLocation where
  startLine : Nat
  startColumn : Nat
  lastLine : Nat
  lastColumn : Nat
deriving DecidableEq, Repr

def OffenseLocation.ofJson? (v : Value) : Option OffenseLocation := do
  let r ← v.record? ["start_line", "start_column", "last_line", "last_column"]
  some ⟨← r.required "start_line" Value.nat?, ← r.required "start_column" Value.nat?,
    ← r.required "last_line" Value.nat?, ← r.required "last_column" Value.nat?⟩

structure Offense where
  copName : String
  correctable : Bool
  location : OffenseLocation
  message : String
  severity : Severity
deriving DecidableEq, Repr

namespace Offense

def ofJson? (v : Value) : Option Offense := do
  let r ← v.record? ["cop_name", "correctable", "location", "message", "severity"]
  some {
    copName := ← r.required "cop_name" Value.text?
    correctable := ← r.defaulted "correctable" false Value.bool?
    location := ← r.required "location" OffenseLocation.ofJson?
    message := ← r.required "message" Value.text?
    severity := ← r.required "severity" Severity.ofJson? }

/-- The offenses of one file of a report. -/
def ofFile? (v : Value) : Option (List Offense) := do
  let r ← v.record? ["offenses"]
  r.defaulted "offenses" [] (Value.listOf? ofJson?)

/-- The offenses of the first file of a report. All files have to be well-formed. -/
def ofReport? (v : Value) : Option (List Offense) := do
  let r ← v.record? ["files"]
  let files ← r.defaulted "files" [] (Value.listOf? ofFile?)
  some (files.head?.getD [])

/-- The offenses in what the linter prints. -/
def parse (output : Text) : Except Failure (List Offense) :=
  match Json.read? output with
  | none => .error (.json "the output is not JSON")
  | some v =>
    match ofReport? v with
    | none => .error (.json "the output is not a report")
    | some offenses => .ok offenses

/-- Where an offense begins and ends, as byte offsets. -/
def offsets (t : Text) (o : Offense) : Nat × Nat :=
  (Text.offsetAt .utf32 t ⟨o.location.startLine - 1, o.location.startColumn - 1⟩,
    Text.offsetAt .utf32 t ⟨o.location.lastLine - 1, o.location.lastColumn⟩)

/-- The range of an offense. -/
def range (e : Encoding) (t : Text) (o : Offense) : Range :=
  let (start, stop) := o.offsets t
  Text.rangeOf e t ⟨start, stop⟩

end Offense

end RubyLens
