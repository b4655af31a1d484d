/-!
JSON data. Members keep their order and may repeat a key, since whether a repeated key is an
error depends on who reads it.
-/

namespace RubyLens.Json

inductive Value where
  | null
  | bool (b : Bool)
  /-- A number that is written as an integer and fits into 64 bits, signed or unsigned. -/
  | integer (i : Int)
  /-- Any other number, as it is written. -/
  | decimal (literal : String)
  | text (s : String)
  /-- A string in which an escape names half of a surrogate pair without the other half, or a number
  out of range. It is well written but spells nothing, and only a reader that skips it can accept
  it. -/
  | unpaired
  | list (items : List Value)
  /-- The members of an object; a key without text is one that is `unpaired`. -/
  | object (members : List (Option String × Value))
deriving Inhabited, Repr

namespace Value

/-- The object with the given members. -/
def record (members : List (String × Value)) : Value :=
  .object (members.map fun m => (some m.1, m.2))

def nat (n : Nat) : Value := .integer (Int.ofNat n)

/-- The value of a key, if this is an object that has it. -/
def member? (v : Value) (key : String) : Option Value :=
  match v with
  | .object ms => ms.lookup (some key)
  | _ => none

def isNull : Value → Bool
  | .null => true
  | _ => false

mutual
/-- Every part of it can be read. -/
def isSound : Value → Bool
  | .unpaired => false
  | .list vs => itemsSound vs
  | .object ms => membersSound ms
  | _ => true

def itemsSound : List Value → Bool
  | [] => true
  | v :: vs => v.isSound && itemsSound vs

def membersSound : List (Option String × Value) → Bool
  | [] => true
  | (_, v) :: ms => v.isSound && membersSound ms
end

end Value

end RubyLens.Json
