/-!
Texts, and the units in which editors count them. An editor and the server agree on one of
three encodings; a column or an offset is then a number of bytes, of 16-bit units or of
characters.
-/

namespace RubyLens

/-- A source text, character by character. -/
abbrev Text := List Char

/-- The unit in which columns and offsets are counted. -/
inductive Encoding where
  | utf8
  | utf16
  | utf32
deriving DecidableEq, Repr

namespace Encoding

/-- The units one character takes. -/
def charLen : Encoding → Char → Nat
  | utf8, c => c.utf8Size
  | utf16, c => if c.toNat < 0x10000 then 1 else 2
  | utf32, _ => 1

/-- The units a text takes. -/
def len (e : Encoding) (t : Text) : Nat := t.foldr (fun c n => e.charLen c + n) 0

/-- The name under which an encoding is negotiated. -/
def name : Encoding → String
  | utf8 => "utf-8"
  | utf16 => "utf-16"
  | utf32 => "utf-32"

def ofName? : String → Option Encoding
  | "utf-8" => some utf8
  | "utf-16" => some utf16
  | "utf-32" => some utf32
  | _ => none

/-- The first offered encoding that is supported; every client accepts `utf16`, so that is the
answer when none is. -/
def negotiate (offered : List String) : Encoding := (offered.findSome? ofName?).getD utf16

theorem charLen_pos (e : Encoding) (c : Char) : 0 < e.charLen c := by
  cases e with
  | utf8 => exact Char.utf8Size_pos c
  | utf16 => simp only [charLen]; split <;> omega
  | utf32 => exact Nat.one_pos

@[simp] theorem len_nil (e : Encoding) : e.len [] = 0 := rfl

@[simp] theorem len_cons (e : Encoding) (c : Char) (t : Text) :
    e.len (c :: t) = e.charLen c + e.len t := rfl

@[simp] theorem len_append (e : Encoding) (s t : Text) : e.len (s ++ t) = e.len s + e.len t := by
  induction s with
  | nil => simp
  | cons c s ih => simp [ih, Nat.add_assoc]

theorem ofName?_name (e : Encoding) : ofName? e.name = some e := by cases e <;> rfl

end Encoding

end RubyLens
