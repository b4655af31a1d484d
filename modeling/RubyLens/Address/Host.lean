import RubyLens.Address.Uri
import RubyLens.Domain.Name

/-!
Hosts of locators: names, which are written in lower case and in ASCII, and addresses, which are
written in one way only.
-/

namespace RubyLens.Address

/-- Characters that no host contains. -/
def isForbiddenInHost (c : Char) : Bool :=
  c.toNat = 0 ||
    ['\t', '\n', '\r', ' ', '#', '/', ':', '<', '>', '?', '@', '[', '\\', ']', '^', '|'].contains c

/-- Characters that no name contains. -/
def isForbiddenInName (c : Char) : Bool :=
  isForbiddenInHost c || c.toNat < 0x20 || c == '%' || c.toNat = 0x7f

/-! ### Addresses of four octets -/

/-- One part of an address, in decimal, octal or hexadecimal. -/
def addressPart? (t : Text) : Option Nat :=
  let spelled (base : Nat) (ds : Text) : Option Nat :=
    ds.foldlM (fun n d => ((hexDigit? d).filter (· < base)).map fun v => base * n + v) 0
  match t with
  | [] => none
  | '0' :: 'x' :: ds | '0' :: 'X' :: ds => spelled 16 ds
  | ['0'] => some 0
  | '0' :: ds => spelled 8 ds
  | ds => spelled 10 ds

/-- The parts of a name, without an empty one at its end. -/
def nameParts (t : Text) : List Text :=
  let parts := splitAt '.' t
  if 1 < parts.length && parts.getLast? == some [] then parts.dropLast else parts

/-- A name whose last part is a number can only be an address. -/
def endsInNumber (t : Text) : Bool :=
  match (nameParts t).getLast? with
  | none => false
  | some last => !last.isEmpty && (last.all Char.isDigit || (addressPart? last).isSome)

/-- The number of an address. The last part fills all octets that are left. -/
def addressNumber? (t : Text) : Option Nat := do
  let parts := nameParts t
  let numbers ← parts.mapM addressPart?
  let last ← numbers.getLast?
  let init := numbers.dropLast
  if numbers.length ≤ 4 ∧ init.all (· < 256) ∧ last < Nat.pow 256 (5 - numbers.length) then
    some (init.zipIdx.foldl (fun n p => n + p.1 * Nat.pow 256 (3 - p.2)) last)
  else none

def writeOctets (n : Nat) : String :=
  String.intercalate "." ([3, 2, 1, 0].map fun i => toString (n / Nat.pow 256 i % 256))

/-! ### Addresses of eight groups -/

/-- The groups of colon-separated parts, of which the last may be four octets. -/
def groupsOf (parts : List Text) : List Nat :=
  parts.flatMap fun part =>
    if isIpv4 part then
      match (splitAt '.' part).map digitsValue with
      | [a, b, c, d] => [256 * a + b, 256 * c + d]
      | _ => []
    else [part.foldl (fun n d => 16 * n + (hexDigit? d).getD 0) 0]

/-- All eight groups. -/
def eightGroups (t : Text) : List Nat :=
  match cutDoubleColon t with
  | none => groupsOf (splitAt ':' t)
  | some (before, behind) =>
    let side (t : Text) : List Nat := if t.isEmpty then [] else groupsOf (splitAt ':' t)
    side before ++ List.replicate (8 - (side before).length - (side behind).length) 0 ++ side behind

/-- The length of the run of zeros in front. -/
def zeroRun (groups : List Nat) : Nat := (groups.takeWhile (· == 0)).length

/-- Where the first of the longest runs of zeros starts, if it has more than one group. -/
def longestZeroRun (groups : List Nat) : Option (Nat × Nat) :=
  let runs := (List.range groups.length).map fun i => (i, zeroRun (groups.drop i))
  (runs.foldl (fun (best : Option (Nat × Nat)) r =>
    match best with
    | none => some r
    | some b => if b.2 < r.2 then some r else some b) none).filter (1 < ·.2)

def writeGroups (groups : List Nat) : String :=
  let spell (gs : List Nat) : String :=
    String.intercalate ":" (gs.map fun g => String.ofList (Nat.toDigits 16 g))
  match longestZeroRun groups with
  | none => spell groups
  | some (start, length) =>
    spell (groups.take start) ++ "::" ++ spell (groups.drop (start + length))

/-! ### Hosts -/

/-- An address in brackets. -/
def bracketed? (t : Text) : Option String :=
  match t with
  | '[' :: rest =>
    if rest.getLast? == some ']' && isIpv6 rest.dropLast then
      some ("[" ++ writeGroups (eightGroups rest.dropLast) ++ "]")
    else none
  | _ => none

/-- A host of one of the common schemes. -/
def commonHost? (t : Text) : Option String :=
  if t.head? == some '[' then bracketed? t
  else do
    let name ← Domain.toAscii? (Utf8.lossy (percentDecode t))
    if name.isEmpty || name.any isForbiddenInName then none
    else if endsInNumber name then (addressNumber? name).map writeOctets
    else some (String.ofList name)

/-- A host of any other scheme, which is left as it is written. -/
def otherHost? (t : Text) : Option String :=
  if t.head? == some '[' then bracketed? t
  else if t.any isForbiddenInHost then none
  else some (String.ofList (percentEncode (fun c => c.toNat < 0x20) t))

end RubyLens.Address
