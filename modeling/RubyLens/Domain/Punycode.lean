import RubyLens.Domain.Table

/-!
Texts spelled in ASCII. The ASCII characters of a text come first; behind a hyphen the others follow
in the order of their numbers, each as a number that says how far it is from the one before. These
numbers are written in base 36 with the least digit first, and a digit below a threshold ends a
number; the thresholds follow the sizes of the numbers seen so far.
-/

namespace RubyLens.Domain.Punycode

def digitChar (d : Nat) : Char := Char.ofNat (if d < 26 then 'a'.toNat + d else '0'.toNat + d - 26)

def digitValue? (c : Char) : Option Nat :=
  if 'a' ≤ c ∧ c ≤ 'z' then some (c.toNat - 'a'.toNat)
  else if 'A' ≤ c ∧ c ≤ 'Z' then some (c.toNat - 'A'.toNat)
  else if '0' ≤ c ∧ c ≤ '9' then some (c.toNat - '0'.toNat + 26)
  else none

/-- A digit below this ends a number. The place of the first digit is 36, that of the next 72. -/
def threshold (place bias : Nat) : Nat :=
  if place ≤ bias then 1 else if bias + 26 ≤ place then 26 else place - bias

/-- Divides by 35 until at most 455 is left, and counts 36 for each time. -/
def scaleDown : Nat → Nat → Nat → Nat × Nat
  | 0, delta, k => (delta, k)
  | fuel + 1, delta, k => if 455 < delta then scaleDown fuel (delta / 35) (k + 36) else (delta, k)

/-- The bias behind a number, when the text has `length` characters with the new one. -/
def adapt (delta length : Nat) (isFirst : Bool) : Nat :=
  let delta := if isFirst then delta / 700 else delta / 2
  let delta := delta + delta / length
  let (delta, k) := scaleDown delta delta 0
  k + 36 * delta / (delta + 38)

/-! ### Writing -/

/-- The digits of a number from a place on. -/
def digits (bias : Nat) : Nat → Nat → Nat → Text
  | 0, _, _ => []
  | fuel + 1, place, q =>
    let t := threshold place bias
    if q < t then [digitChar q]
    else digitChar (t + (q - t) % (36 - t)) :: digits bias fuel (place + 36) ((q - t) / (36 - t))

/-- What has been written: the digits, the distance from the last number, the bias, and how many
characters are spelled. -/
structure Writing where
  output : Text
  delta : Nat
  bias : Nat
  handled : Nat

/-- Goes past one character of the text on the way to the characters with number `n`. -/
def Writing.pass (basic n : Nat) (w : Writing) (c : Char) : Writing :=
  if c.toNat < n then { w with delta := w.delta + 1 }
  else if c.toNat = n then
    { output := w.output ++ digits w.bias (w.delta + 1) 36 w.delta
      delta := 0
      bias := adapt w.delta (w.handled + 1) (w.handled == basic)
      handled := w.handled + 1 }
  else w

/-- Writes all characters of a text that have one of the given numbers, which increase. -/
def Writing.all (t : Text) (basic : Nat) : Nat → List Nat → Writing → Writing
  | _, [], w => w
  | least, n :: ns, w =>
    let w := { w with delta := w.delta + (n - least) * (w.handled + 1) }
    let w := t.foldl (Writing.pass basic n) w
    all t basic (n + 1) ns { w with delta := w.delta + 1 }

/-- The spelling of a text. -/
def encode (t : Text) : Text :=
  let basic := t.filter isAscii
  let others := (t.filter fun c => !isAscii c).map Char.toNat
  let numbers := (others.mergeSort fun a b => decide (a ≤ b)).eraseDups
  let written := Writing.all t basic.length 0x80 numbers ⟨[], 0, 72, basic.length⟩
  basic ++ (if basic.isEmpty then [] else ['-']) ++ written.output

/-! ### Reading -/

/-- What has been read: the text, the last number, the bias, the place at which the last character
was put, and of the number that is being read its value so far with the weight and the place of the
next digit. -/
structure Reading where
  text : Text
  number : Nat
  bias : Nat
  start : Nat
  value : Nat
  weight : Nat
  place : Nat

/-- Puts the character that a number stands for into the text. -/
def Reading.put? (r : Reading) : Option Reading :=
  let length := r.text.length + 1
  let number := r.number + r.value / length
  let index := r.value % length
  if number.isValidChar then
    some {
      text := r.text.take index ++ Char.ofNat number :: r.text.drop index
      number
      bias := adapt (r.value - r.start) length (r.start == 0)
      start := index + 1
      value := index + 1
      weight := 1
      place := 36 }
  else none

/-- Reads digits. The last one has to end a number. -/
def Reading.all? (r : Reading) : Text → Option Text
  | [] => if r.place = 36 then some r.text else none
  | c :: cs => do
    let d ← digitValue? c
    let t := threshold r.place r.bias
    let value := r.value + d * r.weight
    if d < t then
      let next ← Reading.put? { r with value }
      next.all? cs
    else
      Reading.all? { r with value, weight := r.weight * (36 - t), place := r.place + 36 } cs

/-- The text that is spelled. A hyphen at the very front divides nothing. -/
def decode? (s : Text) : Option Text :=
  let tail := (s.reverse.takeWhile (· != '-')).reverse
  let basic := s.take (s.length - tail.length - 1)
  let start : Reading := ⟨basic, 0x80, 72, 0, 0, 1, 36⟩
  if basic.all isAscii then start.all? (if basic.isEmpty then s else tail) else none

end RubyLens.Domain.Punycode
