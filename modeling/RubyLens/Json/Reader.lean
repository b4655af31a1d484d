import RubyLens.Json.Value
import RubyLens.Text.Digit

/-!
Reading JSON. A text is cut into tokens by a machine that takes one character at a time, and the
tokens are put together by a second machine with a stack of unfinished lists and objects. Both are
strict: no byte order mark, no trailing comma, no bare control character in a string, no leading
zero.
-/

namespace RubyLens.Json

inductive Token where
  | openList
  | closeList
  | openObject
  | closeObject
  | comma
  | colon
  /-- A string, or nothing if an escape in it names half of a surrogate pair. -/
  | string (s : Option String)
  /-- A number, a truth value or null. -/
  | scalar (v : Value)

/-! ### Strings -/

/-- One piece of a string: a character, or a 16-bit unit from an escape. -/
inductive Piece where
  | char (c : Char)
  | unit (n : Nat)

/-- The text that pieces spell: a leading half of a surrogate pair needs its trailing half right
behind it, and a trailing half never stands alone. -/
def spell : List Piece → Option (List Char)
  | [] => some []
  | .char c :: ps => (spell ps).map (c :: ·)
  | .unit n :: ps =>
    if 0xD800 ≤ n ∧ n < 0xDC00 then
      match ps with
      | .unit m :: qs =>
        if 0xDC00 ≤ m ∧ m < 0xE000 then
          (spell qs).map (Char.ofNat (0x10000 + (n - 0xD800) * 0x400 + (m - 0xDC00)) :: ·)
        else none
      | _ => none
    else if 0xDC00 ≤ n ∧ n < 0xE000 then none
    else (spell ps).map (Char.ofNat n :: ·)

/-- The character that a one-letter escape stands for. -/
def escapeOf? : Char → Option Char
  | '"' => some '"'
  | '\\' => some '\\'
  | '/' => some '/'
  | 'b' => some (Char.ofNat 8)
  | 'f' => some (Char.ofNat 12)
  | 'n' => some '\n'
  | 'r' => some '\r'
  | 't' => some '\t'
  | _ => none

/-! ### Numbers and words -/

/-- The digits in front, if there are any, and what follows them. -/
def digits? (cs : List Char) : Option (List Char × List Char) :=
  match cs.takeWhile Char.isDigit with
  | [] => none
  | ds => some (ds, cs.dropWhile Char.isDigit)

/-- An exponent or nothing, up to the end. -/
def isExponent (cs : List Char) : Bool :=
  match cs with
  | [] => true
  | 'e' :: '+' :: r | 'e' :: '-' :: r | 'E' :: '+' :: r | 'E' :: '-' :: r | 'e' :: r | 'E' :: r =>
    !r.isEmpty && r.all Char.isDigit
  | _ => false

/-- A fraction and an exponent, each of which may be missing, up to the end. -/
def isTail (cs : List Char) : Bool :=
  match cs with
  | '.' :: r =>
    match digits? r with
    | some (_, r) => isExponent r
    | none => false
  | _ => isExponent cs

/-- The number that a run of characters spells. -/
def number? (cs : List Char) : Option Value :=
  let negative := cs.head? == some '-'
  let body := if negative then cs.drop 1 else cs
  match digits? body with
  | none => none
  | some (ds, tail) =>
    if ds.head? == some '0' && ds.length != 1 then none
    else if !isTail tail then none
    else if !tail.isEmpty then some (.decimal (String.ofList cs))
    else
      let n := digitsValue ds
      if negative then
        if n = 0 ∨ 0x8000000000000000 < n then some (.decimal (String.ofList cs))
        else some (.integer (-(n : Int)))
      else if n < 0x10000000000000000 then some (.integer n)
      else some (.decimal (String.ofList cs))

/-- The value of a run of characters that is no string. -/
def scalar? (cs : List Char) : Option Value :=
  match String.ofList cs with
  | "null" => some .null
  | "true" => some (.bool true)
  | "false" => some (.bool false)
  | _ => number? cs

/-! ### Tokens -/

/-- Where in a token the next character falls. What has been read of it is kept in reverse. -/
inductive Mode where
  | between
  | bare (read : List Char)
  | quoted (read : List Piece)
  | escaped (read : List Piece)
  | escapedUnit (read : List Piece) (left : Nat) (value : Nat)

/-- The tokens read so far, in reverse, and the one being read. -/
structure Lexer where
  tokens : List Token
  mode : Mode

namespace Lexer

/-- One character outside strings. -/
def start (tokens : List Token) (c : Char) : Lexer :=
  match c with
  | ' ' | '\n' | '\t' | '\r' => ⟨tokens, .between⟩
  | '[' => ⟨.openList :: tokens, .between⟩
  | ']' => ⟨.closeList :: tokens, .between⟩
  | '\x7b' => ⟨.openObject :: tokens, .between⟩
  | '\x7d' => ⟨.closeObject :: tokens, .between⟩
  | ',' => ⟨.comma :: tokens, .between⟩
  | ':' => ⟨.colon :: tokens, .between⟩
  | '"' => ⟨tokens, .quoted []⟩
  | c => ⟨tokens, .bare [c]⟩

/-- The characters that end a number or a word. -/
def isDelimiter (c : Char) : Bool :=
  c ∈ [' ', '\n', '\t', '\r', '[', ']', '\x7b', '\x7d', ',', ':', '"']

def step (s : Lexer) (c : Char) : Option Lexer :=
  match s.mode with
  | .between => some (start s.tokens c)
  | .bare read =>
    if isDelimiter c then (scalar? read.reverse).map fun v => start (.scalar v :: s.tokens) c
    else some ⟨s.tokens, .bare (c :: read)⟩
  | .quoted read =>
    if c = '"' then some ⟨.string ((spell read.reverse).map String.ofList) :: s.tokens, .between⟩
    else if c = '\\' then some ⟨s.tokens, .escaped read⟩
    else if c.toNat < 0x20 then none
    else some ⟨s.tokens, .quoted (.char c :: read)⟩
  | .escaped read =>
    if c = 'u' then some ⟨s.tokens, .escapedUnit read 4 0⟩
    else (escapeOf? c).map fun d => ⟨s.tokens, .quoted (.char d :: read)⟩
  | .escapedUnit read left value =>
    (hexDigit? c).map fun d =>
      let value := 16 * value + d
      if left ≤ 1 then ⟨s.tokens, .quoted (.unit value :: read)⟩
      else ⟨s.tokens, .escapedUnit read (left - 1) value⟩

/-- The tokens of a text that ends here. -/
def finish (s : Lexer) : Option (List Token) :=
  match s.mode with
  | .between => some s.tokens.reverse
  | .bare read => (scalar? read.reverse).map fun v => (Token.scalar v :: s.tokens).reverse
  | _ => none

end Lexer

def tokens? (cs : List Char) : Option (List Token) :=
  (cs.foldlM Lexer.step ⟨[], .between⟩).bind Lexer.finish

/-! ### Values -/

/-- A list or an object of which the end has not been read. Its parts are kept in reverse; a member
waits for the value of its key. -/
inductive Frame where
  | list (items : List Value)
  | object (members : List (Option String × Value))
  | member (members : List (Option String × Value)) (key : Option String)

/-- What may come next. -/
inductive Due where
  | value
  | firstItem
  | itemEnd
  | firstKey
  | key
  | colon
  | memberEnd
  | nothing (v : Value)

structure Builder where
  frames : List Frame
  due : Due

namespace Builder

/-- Puts a finished value where it belongs. -/
def place (v : Value) : List Frame → Option Builder
  | [] => some ⟨[], .nothing v⟩
  | .list items :: fs => some ⟨.list (v :: items) :: fs, .itemEnd⟩
  | .member ms key :: fs => some ⟨.object ((key, v) :: ms) :: fs, .memberEnd⟩
  | .object _ :: _ => none

def step (b : Builder) (t : Token) : Option Builder :=
  match b.due, t, b.frames with
  | .value, .openList, fs | .firstItem, .openList, fs => some ⟨.list [] :: fs, .firstItem⟩
  | .value, .openObject, fs | .firstItem, .openObject, fs => some ⟨.object [] :: fs, .firstKey⟩
  | .value, .scalar v, fs | .firstItem, .scalar v, fs => place v fs
  | .value, .string s, fs | .firstItem, .string s, fs =>
    place (match s with | some s => .text s | none => .unpaired) fs
  | .firstItem, .closeList, .list items :: fs | .itemEnd, .closeList, .list items :: fs =>
    place (.list items.reverse) fs
  | .itemEnd, .comma, fs => some ⟨fs, .value⟩
  | .firstKey, .string s, .object ms :: fs | .key, .string s, .object ms :: fs =>
    some ⟨.member ms s :: fs, .colon⟩
  | .colon, .colon, fs => some ⟨fs, .value⟩
  | .memberEnd, .comma, fs => some ⟨fs, .key⟩
  | .firstKey, .closeObject, .object ms :: fs | .memberEnd, .closeObject, .object ms :: fs =>
    place (.object ms.reverse) fs
  | _, _, _ => none

def finish (b : Builder) : Option Value :=
  match b.due with
  | .nothing v => some v
  | _ => none

end Builder

/-- The value that a text spells, if it is JSON and nothing else. -/
def read? (cs : List Char) : Option Value := do
  let tokens ← tokens? cs
  let built ← tokens.foldlM Builder.step ⟨[], .value⟩
  built.finish

end RubyLens.Json
