import RubyLens.Protocol.Wire

/-!
Shapes of values. Much of what a client sends has no consequences, but all of it has to be of the
shape that the protocol lays down.
-/

namespace RubyLens

open Json (Value)

/-- Which values can stand in a place of a message. -/
abbrev Shape := Value → Bool

/-- Whether a field may be left out of a record. An optional one may be null too, and a list has to
have a place for it. -/
inductive Presence where
  | required
  | optional
  | defaulted
deriving DecidableEq, Repr

/-- A field of a record. -/
structure RecordField where
  name : String
  presence : Presence
  shape : Shape

namespace RecordField

def required (name : String) (shape : Shape) : RecordField := ⟨name, .required, shape⟩

def optional (name : String) (shape : Shape) : RecordField := ⟨name, .optional, shape⟩

def defaulted (name : String) (shape : Shape) : RecordField := ⟨name, .defaulted, shape⟩

def names (fields : List RecordField) : List String := fields.map (·.name)

/-- A record has the field as it should be. -/
def fits (r : Json.Record) (f : RecordField) : Bool :=
  let item? (v : Value) : Option Unit := if f.shape v then some () else none
  match f.presence with
  | .required => (r.required f.name item?).isSome
  | .optional => (r.optional f.name item?).isSome
  | .defaulted => (r.defaulted f.name () item?).isSome

end RecordField

namespace Shape

def any : Shape := fun _ => true

def flag : Shape := fun v => v.bool?.isSome

def text : Shape := fun v => v.text?.isSome

def nat32 : Shape := fun v => v.nat32?.isSome

def int32 : Shape := fun v => v.int32?.isSome

def number : Shape
  | .integer _ | .decimal _ => true
  | _ => false

def uri : Shape := fun v => (Uri.ofJson? v).isSome

def position : Shape := fun v => (Position.ofJson? v).isSome

def range : Shape := fun v => (Range.ofJson? v).isSome

/-- One of a few words, which may also be written as the key of a null. -/
def word (words : List String) : Shape
  | .text s => words.contains s
  | .object [(some s, .null)] => words.contains s
  | _ => false

def either (a b : Shape) : Shape := fun v => a v || b v

def nullable (s : Shape) : Shape := fun v => v.isNull || s v

def listOf (item : Shape) : Shape
  | .list vs => vs.all item
  | _ => false

/-- An object whose keys are of one shape, and its values of another. -/
def mapOf (key item : Shape) : Shape
  | .object ms => ms.all fun m => (m.1.any fun k => key (.text k)) && item m.2
  | _ => false

/-- A record, as an object or as a list. -/
def record (fields : List RecordField) : Shape := fun v =>
  (v.record? (RecordField.names fields)).any fun r => fields.all (RecordField.fits r)

/-- A record into which others are mixed, so that only an object will do. -/
def mixed (fields : List RecordField) : Shape := fun v =>
  (v.objectRecord? (RecordField.names fields)).any fun r => fields.all (RecordField.fits r)

end Shape

end RubyLens
