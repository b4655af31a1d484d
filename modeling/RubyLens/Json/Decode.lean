import RubyLens.Json.Value

/-!
Reading domain data off JSON values. A record is written as an object, with its keys in any order
and unknown keys ignored, or as a list of its fields in their declared order.
-/

namespace RubyLens.Json

variable {α : Type}

namespace Value

def text? : Value → Option String
  | .text s => some s
  | _ => none

def bool? : Value → Option Bool
  | .bool b => some b
  | _ => none

/-- A number without sign, fraction and exponent, below `bound`. -/
def natBelow? (bound : Nat) : Value → Option Nat
  | .integer (.ofNat n) => if n < bound then some n else none
  | _ => none

/-- An unsigned number of 64 bits. -/
def nat? : Value → Option Nat := natBelow? 0x10000000000000000

/-- An unsigned number of 32 bits. -/
def nat32? : Value → Option Nat := natBelow? 0x100000000

/-- A signed number of 32 bits. -/
def int32? : Value → Option Int
  | .integer i => if -0x80000000 ≤ i ∧ i < 0x80000000 then some i else none
  | _ => none

def listOf? (item? : Value → Option α) : Value → Option (List α)
  | .list vs => vs.mapM item?
  | _ => none

/-- Null stands for no value. -/
def nullable? (item? : Value → Option α) : Value → Option (Option α)
  | .null => some none
  | v => (item? v).map some

end Value

/-- The known fields of a record that are present. In a record written as a list, only fields at the
end can be missing. -/
structure Record where
  positional : Bool
  entries : List (String × Value)

/-- The fields of a record, of which `names` is the declared order. A known key that is repeated, a
key that is no text and a surplus item make it no record. -/
def Value.record? (names : List String) : Value → Option Record
  | .object ms => do
    let ms ← ms.mapM fun m => m.1.map fun key => (key, m.2)
    let known := ms.filter fun m => names.contains m.1
    if (known.map Prod.fst).Nodup then some ⟨false, known⟩ else none
  | .list vs => if vs.length ≤ names.length then some ⟨true, names.zip vs⟩ else none
  | _ => none

/-- The fields of a record that can only be written as an object, because other records are mixed
into it or because it has more fields than are known here. -/
def Value.objectRecord? (names : List String) : Value → Option Record
  | .object ms => record? names (.object ms)
  | _ => none

namespace Record

/-- A field that has to be there. -/
def required (r : Record) (name : String) (item? : Value → Option α) : Option α :=
  (r.entries.lookup name).bind item?

/-- A field that may be left out of an object, or be null. -/
def optional (r : Record) (name : String) (item? : Value → Option α) : Option (Option α) :=
  match r.entries.lookup name with
  | some v => v.nullable? item?
  | none => if r.positional then none else some none

/-- A field that has a value when it is left out. -/
def defaulted (r : Record) (name : String) (default : α) (item? : Value → Option α) : Option α :=
  match r.entries.lookup name with
  | some v => item? v
  | none => some default

end Record

end RubyLens.Json
