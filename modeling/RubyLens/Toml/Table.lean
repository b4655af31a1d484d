import RubyLens.Json.Value

/-!
Tables of a configuration file while they are being filled. What may be added to a table depends on
how it came about: by a header, as part of the path of one, or as part of a dotted key.
-/

namespace RubyLens.Toml

open Json (Value)

mutual
/-- A table. It is implied until a header names it, and dotted if a dotted key made it. -/
inductive Table where
  | mk (implied dotted : Bool) (entries : List (String × Item))

/-- What a key of a table stands for. -/
inductive Item where
  /-- A finished value, to which nothing can be added. -/
  | value (v : Value)
  | table (t : Table)
  /-- Tables of one name, in reverse. -/
  | tables (latest : Table) (earlier : List Table)
end

namespace Table

def implied : Table → Bool
  | mk i _ _ => i

def dotted : Table → Bool
  | mk _ d _ => d

def entries : Table → List (String × Item)
  | mk _ _ es => es

/-- The table at the start of a file, or of an inline table. -/
def empty : Table := mk false false []

def get? (t : Table) (key : String) : Option Item := t.entries.lookup key

/-- Sets a key, in place if it is there. -/
def set (t : Table) (key : String) (item : Item) : Table :=
  if (t.get? key).isSome then
    mk t.implied t.dotted (t.entries.map fun e => if e.1 == key then (key, item) else e)
  else mk t.implied t.dotted (t.entries ++ [(key, item)])

/-- Changes the table at the end of a path. Missing tables on the way are made; a dotted key leads
only through tables that no header names, and nothing leads into a finished value. -/
def modify (byDots : Bool) (change : Table → Option Table) : List String → Table → Option Table
  | [], t => change t
  | key :: path, t =>
    match t.get? key with
    | none => (modify byDots change path (mk true byDots [])).map fun c => t.set key (.table c)
    | some (.table c) =>
      if byDots && !c.implied then none
      else (modify byDots change path c).map fun c => t.set key (.table c)
    | some (.tables latest earlier) =>
      (modify byDots change path latest).map fun c => t.set key (.tables c earlier)
    | some (.value _) => none

/-- Adds a value under a key, which may be dotted. The key must be new, and a dotted key does not
add to a table that came about by a header. -/
def add (path : List String) (key : String) (v : Value) : Table → Option Table :=
  modify true (fun t =>
    if t.dotted == path.isEmpty then none
    else if (t.get? key).isSome then none
    else some (t.set key (.value v))) path

/-- Makes the table that a header names. It must be new, or only implied so far by other headers. -/
def declare (path : List String) (key : String) : Table → Option Table :=
  modify false (fun t =>
    match t.get? key with
    | none => some (t.set key (.table empty))
    | some (.table c) =>
      if c.implied && !c.dotted then some (t.set key (.table (mk false false c.entries))) else none
    | some _ => none) path

/-- Makes one more table of the name that a doubled header gives. -/
def append (path : List String) (key : String) : Table → Option Table :=
  modify false (fun t =>
    match t.get? key with
    | none => some (t.set key (.tables empty []))
    | some (.tables latest earlier) => some (t.set key (.tables empty (latest :: earlier)))
    | some _ => none) path

end Table

mutual
/-- The data of a table. -/
def Table.toValue : Table → Value
  | .mk _ _ entries => .object (entriesToValue entries)

def entriesToValue : List (String × Item) → List (Option String × Value)
  | [] => []
  | (key, item) :: es => (some key, item.toValue) :: entriesToValue es

def Item.toValue : Item → Value
  | .value v => v
  | .table t => t.toValue
  | .tables latest earlier => .list ((latest.toValue :: tablesToValue earlier).reverse)

def tablesToValue : List Table → List Value
  | [] => []
  | t :: ts => t.toValue :: tablesToValue ts
end

end RubyLens.Toml
