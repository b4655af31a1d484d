import RubyLens.Text.Digit
import RubyLens.Text.Utf8

/-!
Character classes of addresses, and bytes written as a percent sign with two hexadecimal digits.
-/

namespace RubyLens.Address

/-- The first character of a scheme is a letter; the others may be digits and signs too. -/
def isSchemeChar (c : Char) : Bool := c.isAlphanum || c == '+' || c == '-' || c == '.'

/-- Digits of a byte in hexadecimal, in upper case. -/
def hexByte (b : UInt8) : List Char :=
  let digit (n : Nat) : Char := Char.ofNat (if n < 10 then '0'.toNat + n else 'A'.toNat + n - 10)
  [digit (b.toNat / 16), digit (b.toNat % 16)]

/-- Writes the bytes of each character that is in the class, or not ASCII, as escapes. -/
def percentEncode (escaped : Char → Bool) (t : Text) : Text :=
  t.flatMap fun c =>
    if escaped c || 0x7f ≤ c.toNat then (Utf8.encode [c]).flatMap fun b => '%' :: hexByte b
    else [c]

/-- Reads escapes back. A percent sign without two digits stands for itself. -/
def percentDecode : Text → Bytes
  | [] => []
  | '%' :: a :: b :: t =>
    match hexDigit? a, hexDigit? b with
    | some x, some y => UInt8.ofNat (16 * x + y) :: percentDecode t
    | _, _ => UInt8.ofNat '%'.toNat :: percentDecode (a :: b :: t)
  | c :: t => Utf8.encode [c] ++ percentDecode t

end RubyLens.Address
