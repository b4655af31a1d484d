import RubyLens.Text.Encoding
import RubyLens.Toml.Scalar
import RubyLens.Toml.Table

/-!
Configuration files. A file is a sequence of lines, each a header or a key with its value;
lists and inline tables may go over several lines. Functions that read a part of a text answer with
what they read and with what follows, and loops are bounded by a number that is never less than the
characters left.
-/

namespace RubyLens.Toml

open Json (Value)

/-! ### Blanks, comments and line ends -/

def isSpace (c : Char) : Bool := c == ' ' || c == '\t'

/-- Characters that may stand in comments and strings. -/
def isPlain (c : Char) : Bool := c == '\t' || (0x20 ≤ c.toNat && c.toNat != 0x7f)

def skipSpace (cs : List Char) : List Char := cs.dropWhile isSpace

/-- What follows a line feed, which may have a carriage return in front. -/
def newline? : List Char → Option (List Char)
  | '\n' :: cs => some cs
  | '\r' :: '\n' :: cs => some cs
  | _ => none

/-- What follows blanks and line ends. -/
def skipLines : List Char → List Char
  | '\n' :: cs => skipLines cs
  | '\r' :: '\n' :: cs => skipLines cs
  | c :: cs => if isSpace c then skipLines cs else c :: cs
  | [] => []

/-- What follows blanks, comments and line ends. -/
def skipTrivia (inComment : Bool) : List Char → Option (List Char)
  | [] => some []
  | '\n' :: cs => skipTrivia false cs
  | '\r' :: '\n' :: cs => skipTrivia false cs
  | c :: cs =>
    if inComment then if isPlain c then skipTrivia true cs else none
    else if c = '#' then skipTrivia true cs
    else if isSpace c then skipTrivia false cs
    else some (c :: cs)

/-- What follows the end of a line, where only blanks and a comment may be left of it. -/
def endOfLine? (cs : List Char) : Option (List Char) :=
  let cs := skipSpace cs
  let rest :=
    match cs with
    | '#' :: comment => comment.dropWhile fun c => c != '\n' && isPlain c
    | _ => cs
  match rest with
  | [] => some []
  | _ => newline? rest

/-! ### Strings -/

/-- The character with a number, unless there is none. -/
def charOf? (n : Nat) : Option Char := if n.isValidChar then some (Char.ofNat n) else none

/-- The character that an escape stands for. Some are given by a number of two, four or eight
digits. -/
def escape? (cs : List Char) : Option (Char × List Char) :=
  let numbered (n : Nat) (cs : List Char) : Option (Char × List Char) :=
    let ds := cs.take n
    if ds.length == n && ds.all isHexDigit then
      (charOf? (valueIn 16 ds)).map fun c => (c, cs.drop n)
    else none
  match cs with
  | 'b' :: r => some (Char.ofNat 8, r)
  | 't' :: r => some ('\t', r)
  | 'n' :: r => some ('\n', r)
  | 'f' :: r => some (Char.ofNat 12, r)
  | 'r' :: r => some ('\r', r)
  | 'e' :: r => some (Char.ofNat 0x1b, r)
  | '"' :: r => some ('"', r)
  | '\\' :: r => some ('\\', r)
  | 'x' :: r => numbered 2 r
  | 'u' :: r => numbered 4 r
  | 'U' :: r => numbered 8 r
  | _ => none

/-- The rest of a string on one line. Between double quotes a backslash starts an escape. -/
def lineString? (quote : Char) : Nat → List Char → Option (List Char × List Char)
  | 0, _ => none
  | _ + 1, [] => none
  | fuel + 1, c :: cs =>
    if c = quote then some ([], cs)
    else if c = '\\' ∧ quote = '"' then do
      let (d, cs) ← escape? cs
      let (s, cs) ← lineString? quote fuel cs
      some (d :: s, cs)
    else if isPlain c then do
      let (s, cs) ← lineString? quote fuel cs
      some (c :: s, cs)
    else none

/-- The rest of a string over several lines. It ends with three quotes, of a run of at most five; a
backslash at the end of a line skips all blanks and line ends that follow. -/
def blockString? (quote : Char) : Nat → List Char → Option (List Char × List Char)
  | 0, _ => none
  | fuel + 1, cs =>
    let quotes := (cs.takeWhile (· == quote)).take 5
    if 3 ≤ quotes.length then some (quotes.drop 3, cs.drop quotes.length)
    else
      match cs with
      | [] => none
      | '\r' :: '\n' :: cs => do
        let (s, cs) ← blockString? quote fuel cs
        some ('\r' :: '\n' :: s, cs)
      | c :: cs =>
        if c = '\\' ∧ quote = '"' then
          match newline? (skipSpace cs) with
          | some cs => blockString? quote fuel (skipLines cs)
          | none => do
            let (d, cs) ← escape? cs
            let (s, cs) ← blockString? quote fuel cs
            some (d :: s, cs)
        else if isPlain c || c == '\n' then do
          let (s, cs) ← blockString? quote fuel cs
          some (c :: s, cs)
        else none

/-- A string that may be a value. A line end right behind the opening of one over several lines is
not part of it. -/
def string? (fuel : Nat) (cs : List Char) : Option (String × List Char) :=
  let block (quote : Char) (cs : List Char) : Option (String × List Char) :=
    (blockString? quote fuel ((newline? cs).getD cs)).map fun r => (String.ofList r.1, r.2)
  let line (quote : Char) (cs : List Char) : Option (String × List Char) :=
    (lineString? quote fuel cs).map fun r => (String.ofList r.1, r.2)
  match cs with
  | '"' :: '"' :: '"' :: r => block '"' r
  | '\'' :: '\'' :: '\'' :: r => block '\'' r
  | '"' :: r => line '"' r
  | '\'' :: r => line '\'' r
  | _ => none

/-! ### Keys -/

def isBareKeyChar (c : Char) : Bool := c.isAlphanum || c == '_' || c == '-'

/-- One part of a key: a word, or a string on one line. -/
def keyPart? (fuel : Nat) (cs : List Char) : Option (String × List Char) :=
  match cs with
  | '"' :: r => (lineString? '"' fuel r).map fun r => (String.ofList r.1, r.2)
  | '\'' :: r => (lineString? '\'' fuel r).map fun r => (String.ofList r.1, r.2)
  | _ =>
    let word := cs.takeWhile isBareKeyChar
    if word.isEmpty then none else some (String.ofList word, cs.dropWhile isBareKeyChar)

/-- Parts of a key with dots between them, and blanks around the dots. -/
def keyParts? : Nat → List Char → Option (List String × List Char)
  | 0, _ => none
  | fuel + 1, cs => do
    let (part, cs) ← keyPart? fuel (skipSpace cs)
    match skipSpace cs with
    | '.' :: cs =>
      let (parts, cs) ← keyParts? fuel cs
      some (part :: parts, cs)
    | cs => some ([part], cs)

/-- How many lists and inline tables may stand inside each other, and how many parts a key may
have. -/
def maxDepth : Nat := 80

/-- A key. -/
def key? (fuel : Nat) (cs : List Char) : Option (List String × List Char) := do
  let (parts, cs) ← keyParts? fuel cs
  if parts.length ≤ maxDepth then some (parts, cs) else none

/-- The path of a key and its last part. -/
def splitKey? (parts : List String) : Option (List String × String) :=
  parts.getLast?.map fun last => (parts.dropLast, last)

/-! ### Values -/

/-- The word in front. A date and a time with one blank between them are one word. -/
def word (cs : List Char) : List Char × List Char :=
  let stops := [' ', '\t', '\n', '\r', '#', ',', '[', ']', '\x7b', '\x7d', '=', '"', '\'']
  let (w, rest) := breakAt stops cs
  match rest with
  | ' ' :: r =>
    if (date? w) == some [] && r.head?.any Char.isDigit then
      let (v, rest) := breakAt stops r
      (w ++ ' ' :: v, rest)
    else (w, rest)
  | _ => (w, rest)

mutual
/-- A value, in which `depth` lists and inline tables may stand inside each other. -/
def value? : Nat → Nat → List Char → Option (Value × List Char)
  | 0, _, _ => none
  | fuel + 1, depth, cs =>
    match cs with
    | '"' :: _ | '\'' :: _ => (string? (fuel + 1) cs).map fun r => (.text r.1, r.2)
    | '[' :: r =>
      if depth = 0 then none else (items? fuel (depth - 1) r).map fun r => (.list r.1, r.2)
    | '\x7b' :: r =>
      if depth = 0 then none
      else (members? fuel (depth - 1) .empty r).map fun r => (r.1.toValue, r.2)
    | _ =>
      let (w, rest) := word cs
      (scalar? w).map fun v => (v, rest)

/-- The items of a list up to its end. A comma may stand behind the last one. -/
def items? : Nat → Nat → List Char → Option (List Value × List Char)
  | 0, _, _ => none
  | fuel + 1, depth, cs => do
    match ← skipTrivia false cs with
    | ']' :: cs => some ([], cs)
    | cs =>
      let (v, cs) ← value? fuel depth cs
      match ← skipTrivia false cs with
      | ']' :: cs => some ([v], cs)
      | ',' :: cs =>
        let (vs, cs) ← items? fuel depth cs
        some (v :: vs, cs)
      | _ => none

/-- The members of an inline table up to its end. A comma may stand behind the last one. -/
def members? : Nat → Nat → Table → List Char → Option (Table × List Char)
  | 0, _, _, _ => none
  | fuel + 1, depth, t, cs => do
    match ← skipTrivia false cs with
    | '\x7d' :: cs => some (t, cs)
    | cs =>
      let (t, cs) ← member? fuel depth t cs
      match ← skipTrivia false cs with
      | '\x7d' :: cs => some (t, cs)
      | ',' :: cs => members? fuel depth t cs
      | _ => none

/-- A key, an equals sign and a value, added to a table. Lines may end on both sides of the equals
sign. -/
def member? : Nat → Nat → Table → List Char → Option (Table × List Char)
  | 0, _, _, _ => none
  | fuel + 1, depth, t, cs => do
    let (parts, cs) ← key? fuel cs
    match ← skipTrivia false cs with
    | '=' :: cs =>
      let (v, cs) ← value? fuel depth (← skipTrivia false cs)
      let (path, key) ← splitKey? parts
      let t ← t.add path key v
      some (t, cs)
    | _ => none
end

/-! ### Files -/

/-- A file that has been read in part: all tables, and the path of the one that lines now add to. -/
structure Progress where
  root : Table
  current : List String

/-- A header behind its first bracket. -/
def header? (fuel : Nat) (p : Progress) (cs : List Char) : Option (Progress × List Char) := do
  match cs with
  | '[' :: cs =>
    let (parts, cs) ← key? fuel cs
    let (path, key) ← splitKey? parts
    match cs with
    | ']' :: ']' :: cs => some (⟨← p.root.append path key, parts⟩, cs)
    | _ => none
  | cs =>
    let (parts, cs) ← key? fuel cs
    let (path, key) ← splitKey? parts
    match cs with
    | ']' :: cs => some (⟨← p.root.declare path key, parts⟩, cs)
    | _ => none

/-- The lines of a file. -/
def lines? : Nat → Progress → List Char → Option Table
  | 0, _, _ => none
  | fuel + 1, p, cs => do
    match ← skipTrivia false cs with
    | [] => some p.root
    | '[' :: cs =>
      let (p, cs) ← header? fuel p cs
      lines? fuel p (← endOfLine? cs)
    | cs =>
      let (parts, cs) ← key? fuel cs
      match skipSpace cs with
      | '=' :: cs =>
        let (v, cs) ← value? fuel maxDepth (skipSpace cs)
        let (path, key) ← splitKey? parts
        let root ← Table.modify false (Table.add path key v) p.current p.root
        lines? fuel ⟨root, p.current⟩ (← endOfLine? cs)
      | _ => none

/-- The data of a file. A byte order mark in front is skipped. -/
def read? (t : Text) : Option Value :=
  let cs := if t.head? == some (Char.ofNat 0xFEFF) then t.drop 1 else t
  (lines? (2 * cs.length + 4) ⟨.empty, []⟩ cs).map Table.toValue

end RubyLens.Toml
