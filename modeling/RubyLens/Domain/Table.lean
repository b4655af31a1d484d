import RubyLens.Text.Digit
import RubyLens.Text.Encoding

/-!
Tables of characters. A table is written as words with blanks between them, and its numbers are
hexadecimal.
-/

namespace RubyLens.Domain

/-- The words of a table. -/
def words (s : String) : List Text :=
  let add (c : Char) (ws : List Text) : List Text :=
    if c.isWhitespace then [] :: ws
    else
      match ws with
      | [] => [[c]]
      | w :: ws => (c :: w) :: ws
  (s.toList.foldr add []).filter fun w => !w.isEmpty

/-- The number that hexadecimal digits spell. -/
def hexValue (ds : Text) : Nat := ds.foldl (fun n d => 16 * n + (hexDigit? d).getD 0) 0

/-- The text before a character and the text behind it, which is empty if it does not occur. -/
def halves (sep : Char) (w : Text) : Text × Text :=
  (w.takeWhile (· != sep), (w.dropWhile (· != sep)).drop 1)

/-- Characters that follow each other. -/
structure CharRange where
  first : Nat
  last : Nat

/-- Ranges, each written as its first and its last character with a dash between them, or as its
only character. -/
def ranges (s : String) : List CharRange :=
  (words s).map fun w =>
    let (first, last) := halves '-' w
    ⟨hexValue first, hexValue (if last.isEmpty then first else last)⟩

/-- A character is in one of the ranges. -/
def inRanges (rs : List CharRange) (c : Char) : Bool :=
  rs.any fun r => r.first ≤ c.toNat && c.toNat ≤ r.last

def isAscii (c : Char) : Bool := c.toNat < 0x80

end RubyLens.Domain
