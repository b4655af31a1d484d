import RubyLens.Text.Encoding

/-!
Bytes as text. A sequence of bytes is read by a machine that knows how many more bytes the character
at hand needs and in which interval the next one has to lie; a byte that does not fit ends the
character at hand as a faulty one and starts afresh.
-/

namespace RubyLens

abbrev Bytes := List UInt8

namespace Utf8

/-- What has been read of a character: nothing, or the bits so far, with the number of bytes still
needed and the bounds of the next one. -/
inductive State where
  | start
  | within (needed low high bits : Nat)

/-- One byte at the start of a character: a finished character or fault, or the state it leads
to. -/
def first (b : Nat) : List (Option Char) × State :=
  if b < 0x80 then ([some (Char.ofNat b)], .start)
  else if 0xC2 ≤ b ∧ b ≤ 0xDF then ([], .within 1 0x80 0xBF (b - 0xC0))
  else if b = 0xE0 then ([], .within 2 0xA0 0xBF 0)
  else if b = 0xED then ([], .within 2 0x80 0x9F 0xD)
  else if 0xE1 ≤ b ∧ b ≤ 0xEF then ([], .within 2 0x80 0xBF (b - 0xE0))
  else if b = 0xF0 then ([], .within 3 0x90 0xBF 0)
  else if b = 0xF4 then ([], .within 3 0x80 0x8F 4)
  else if 0xF1 ≤ b ∧ b ≤ 0xF3 then ([], .within 3 0x80 0xBF (b - 0xF0))
  else ([none], .start)

/-- One byte. What is finished by it is added in reverse. -/
def step (done : List (Option Char) × State) (b : UInt8) : List (Option Char) × State :=
  let n := b.toNat
  match done.2 with
  | .start => ((first n).1 ++ done.1, (first n).2)
  | .within needed low high bits =>
    if low ≤ n ∧ n ≤ high then
      let bits := bits * 64 + (n - 0x80)
      if needed ≤ 1 then (some (Char.ofNat bits) :: done.1, .start)
      else (done.1, .within (needed - 1) 0x80 0xBF bits)
    else ((first n).1 ++ none :: done.1, (first n).2)

/-- The characters of a sequence of bytes; `none` stands for a longest stretch that starts like a
character and is none. -/
def decode (bytes : Bytes) : List (Option Char) :=
  match bytes.foldl step ([], .start) with
  | (done, .start) => done.reverse
  | (done, .within ..) => (none :: done).reverse

/-- The text that bytes spell, if they are well-formed. -/
def strict? (bytes : Bytes) : Option Text := (decode bytes).mapM id

/-- The text that bytes spell, with a replacement character for each fault. -/
def lossy (bytes : Bytes) : Text := (decode bytes).map (·.getD (Char.ofNat 0xFFFD))

/-- The bytes of a text. -/
def encode (t : Text) : Bytes := (String.ofList t).toUTF8.toList

end Utf8

end RubyLens
