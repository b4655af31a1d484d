import RubyLens.Json.Value

/-!
Writing JSON, on one line or indented. An empty list or object is written on one line in both
styles.
-/

namespace RubyLens.Json

/-- How a value is laid out: on one line or indented, with all characters or with escapes for those
that are not ASCII. -/
structure Style where
  indented : Bool
  ascii : Bool

namespace Style

/-- All on one line, in ASCII. -/
def compact : Style := ⟨false, true⟩

/-- Two blanks a level. -/
def pretty : Style := ⟨true, false⟩

end Style

/-- A 16-bit unit as an escape. -/
def unitEscape (n : Nat) : String :=
  let ds := Nat.toDigits 16 n
  "\\u" ++ String.ofList (List.replicate (4 - ds.length) '0' ++ ds)

def escape (style : Style) (c : Char) : String :=
  if c = '"' then "\\\""
  else if c = '\\' then "\\\\"
  else if c = '\n' then "\\n"
  else if c = '\r' then "\\r"
  else if c = '\t' then "\\t"
  else if c.toNat = 8 then "\\b"
  else if c.toNat = 12 then "\\f"
  else if c.toNat < 0x20 then unitEscape c.toNat
  else if style.ascii && 0x7f ≤ c.toNat then
    if c.toNat < 0x10000 then unitEscape c.toNat
    else
      let n := c.toNat - 0x10000
      unitEscape (0xD800 + n / 0x400) ++ unitEscape (0xDC00 + n % 0x400)
  else c.toString

def quote (style : Style) (s : String) : String :=
  "\"" ++ String.join (s.toList.map (escape style)) ++ "\""

/-- A line break and the indentation of a level, if the style has any. -/
def Style.newline (style : Style) (level : Nat) : String :=
  if style.indented then "\n" ++ String.ofList (List.replicate (2 * level) ' ') else ""

/-- Parts between two brackets, one level further in. -/
def enclose (style : Style) (level : Nat) (opening closing : String) (parts : List String) :
    String :=
  match parts with
  | [] => opening ++ closing
  | _ =>
    let inside := style.newline (level + 1)
    opening ++ inside ++ String.intercalate ("," ++ inside) parts ++ style.newline level ++ closing

mutual
/-- A value that starts at the given level of indentation. -/
def write (style : Style) (level : Nat) : Value → String
  | .null => "null"
  | .bool true => "true"
  | .bool false => "false"
  | .integer i => toString i
  | .decimal literal => literal
  | .text s => quote style s
  | .unpaired => quote style "\uFFFD"
  | .list items => enclose style level "[" "]" (writeItems style (level + 1) items)
  | .object ms => enclose style level "\x7b" "\x7d" (writeMembers style (level + 1) ms)

def writeItems (style : Style) (level : Nat) : List Value → List String
  | [] => []
  | v :: vs => write style level v :: writeItems style level vs

def writeMembers (style : Style) (level : Nat) : List (Option String × Value) → List String
  | [] => []
  | (key, v) :: ms =>
    (quote style (key.getD "\uFFFD") ++ (if style.indented then ": " else ":") ++
      write style level v) :: writeMembers style level ms
end

def Value.render (style : Style) (v : Value) : String := write style 0 v

end RubyLens.Json
