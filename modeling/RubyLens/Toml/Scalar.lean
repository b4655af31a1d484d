import RubyLens.Json.Value
import RubyLens.Text.Digit

/-!
Values of a configuration file that are written as one word: truth values, numbers and dates. Their
data is that of the JSON they correspond to; a date is an object without known keys.
-/

namespace RubyLens.Toml

open Json (Value)

/-- Digits of some kind, with single underscores between them allowed. -/
def digitRun? (isDigit : Char → Bool) (cs : List Char) : Option (List Char) :=
  let lone : List Char → Bool := fun cs => cs.head? != some '_' && cs.getLast? != some '_'
  let doubled := (cs.zip (cs.drop 1)).any fun p => p.1 == '_' && p.2 == '_'
  let ds := cs.filter (· != '_')
  if lone cs && !doubled && !ds.isEmpty && ds.all isDigit then some ds else none

/-- The number that digits spell in a base. -/
def valueIn (base : Nat) (ds : List Char) : Nat :=
  ds.foldl (fun n d => base * n + (hexDigit? d).getD 0) 0

/-- An optional sign. -/
def signed (cs : List Char) : Bool × List Char :=
  match cs with
  | '-' :: r => (true, r)
  | '+' :: r => (false, r)
  | _ => (false, cs)

/-- Decimal digits without a leading zero. -/
def decimal? (cs : List Char) : Option (List Char) :=
  (digitRun? Char.isDigit cs).filter fun ds => ds.length == 1 || ds.head? != some '0'

/-- An integer. One that fits into 64 bits is kept; a larger one is a number that no setting takes,
and beyond 128 bits it can only be skipped. -/
def ofInteger (negative : Bool) (n : Nat) : Value :=
  let i : Int := if negative then -(n : Int) else n
  if -0x8000000000000000 ≤ i ∧ i < 0x10000000000000000 then .integer i
  else if -(Nat.pow 2 127 : Int) ≤ i ∧ i < Nat.pow 2 128 then .decimal (toString i)
  else .unpaired

def integer? (cs : List Char) : Option Value :=
  match cs with
  | '0' :: 'x' :: r => (digitRun? isHexDigit r).map fun ds => ofInteger false (valueIn 16 ds)
  | '0' :: 'o' :: r =>
    (digitRun? (fun c => '0' ≤ c && c ≤ '7') r).map fun ds => ofInteger false (valueIn 8 ds)
  | '0' :: 'b' :: r =>
    (digitRun? (fun c => c == '0' || c == '1') r).map fun ds => ofInteger false (valueIn 2 ds)
  | _ =>
    let (negative, body) := signed cs
    (decimal? body).map fun ds => ofInteger negative (valueIn 10 ds)

/-- The text before the first of some characters and what follows, that character included. -/
def breakAt (stops : List Char) (cs : List Char) : List Char × List Char :=
  (cs.takeWhile fun c => !stops.contains c, cs.dropWhile fun c => !stops.contains c)

/-- The decimal is too large for a double: it is at least halfway from the largest one to the next
power of two. Digits are those before and behind the point, `exponent` is written out. -/
def overflows (whole fraction : List Char) (exponent : Int) : Bool :=
  let mantissa := valueIn 10 (whole ++ fraction)
  let power := exponent - fraction.length
  let digits : Int := (Nat.toDigits 10 mantissa).length
  if mantissa = 0 then false
  else if digits + power > 310 then true
  else if digits + power < 300 then false
  else
    let limit := Nat.pow 2 1024 - Nat.pow 2 970
    if 0 ≤ power then limit ≤ mantissa * Nat.pow 10 power.toNat
    else limit * Nat.pow 10 (-power).toNat ≤ mantissa

def float? (cs : List Char) : Option Value :=
  let (_, body) := signed cs
  if body == "inf".toList || body == "nan".toList then some (.decimal (String.ofList cs))
  else
    let (whole, rest) := breakAt ['.', 'e', 'E'] body
    let (fraction, rest) :=
      match rest with
      | '.' :: r => let (f, r) := breakAt ['e', 'E'] r; (some f, r)
      | _ => (none, rest)
    let exponent :=
      match rest with
      | [] => none
      | _ :: r => some (signed r)
    if fraction.isNone && exponent.isNone then none
    else do
      let whole ← decimal? whole
      let fraction ← match fraction with
        | some f => digitRun? Char.isDigit f
        | none => some []
      let exponent ← match exponent with
        | some (negative, ds) =>
          (digitRun? Char.isDigit ds).map fun ds =>
            if negative then -(valueIn 10 ds : Int) else (valueIn 10 ds : Int)
        | none => some 0
      -- a number that is too large can only be skipped
      some (if overflows whole fraction exponent then .unpaired else .decimal (String.ofList cs))

/-! ### Dates -/

/-- Exactly `n` digits in front. -/
def fixedDigits? (n : Nat) (cs : List Char) : Option (Nat × List Char) :=
  let ds := cs.take n
  if ds.length == n && ds.all Char.isDigit then some (valueIn 10 ds, cs.drop n) else none

def expect? (c : Char) (cs : List Char) : Option (List Char) :=
  match cs with
  | d :: r => if c = d then some r else none
  | [] => none

def daysIn (year month : Nat) : Nat :=
  if month = 2 then
    if year % 4 = 0 ∧ (year % 100 ≠ 0 ∨ year % 400 = 0) then 29 else 28
  else if month ∈ [4, 6, 9, 11] then 30
  else 31

/-- A date in front, and what follows it. -/
def date? (cs : List Char) : Option (List Char) := do
  let (year, cs) ← fixedDigits? 4 cs
  let (month, cs) ← fixedDigits? 2 (← expect? '-' cs)
  let (day, cs) ← fixedDigits? 2 (← expect? '-' cs)
  if 1 ≤ month ∧ month ≤ 12 ∧ 1 ≤ day ∧ day ≤ daysIn year month then some cs else none

/-- A time in front, and what follows it. Seconds and their fraction may be missing. -/
def time? (cs : List Char) : Option (List Char) := do
  let (hour, cs) ← fixedDigits? 2 cs
  let (minute, cs) ← fixedDigits? 2 (← expect? ':' cs)
  if hour > 23 ∨ minute > 59 then none
  else
    match cs with
    | ':' :: cs =>
      let (second, cs) ← fixedDigits? 2 cs
      if second > 60 then none
      else
        match cs with
        | '.' :: cs =>
          if cs.head?.any Char.isDigit then some (cs.dropWhile Char.isDigit) else none
        | _ => some cs
    | _ => some cs

/-- The distance from universal time, up to the end. -/
def isZone (cs : List Char) : Bool :=
  match cs with
  | [] | ['Z'] | ['z'] => true
  | sign :: cs =>
    (sign == '+' || sign == '-') &&
      (match fixedDigits? 2 cs with
      | some (hour, ':' :: cs) =>
        match fixedDigits? 2 cs with
        | some (minute, []) => hour ≤ 23 && minute ≤ 59
        | _ => false
      | _ => false)

/-- A date, a time, or both, the latter possibly with a zone. -/
def isMoment (cs : List Char) : Bool :=
  match date? cs with
  | some [] => true
  | some (mark :: cs) =>
    (mark == 'T' || mark == 't' || mark == ' ') && (time? cs).any isZone
  | none => time? cs == some []

/-- The value of one word. -/
def scalar? (cs : List Char) : Option Value :=
  match String.ofList cs with
  | "true" => some (.bool true)
  | "false" => some (.bool false)
  | _ => ((integer? cs).or (float? cs)).or (if isMoment cs then some (.object []) else none)

end RubyLens.Toml
