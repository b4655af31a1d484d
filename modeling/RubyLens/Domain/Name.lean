import RubyLens.Domain.Direction
import RubyLens.Domain.Joining
import RubyLens.Domain.Mapping
import RubyLens.Domain.Punycode

/-!
Names of computers. A name is a list of labels with dots between them, and each label is written in
ASCII; one with other characters is spelled behind a mark of four characters.
-/

namespace RubyLens.Domain

/-- What stands in front of a label that spells another. -/
def spelledMark : Text := "xn--".toList

/-- The longest label that is spelled, and the longest spelling that is read. -/
def maxSpelled : Nat := 1000
def maxSpelling : Nat := 2000

/-- A label that a name may have: it is in normal form and starts neither with a mark nor with the
sign for a spelled label, and its joiners are in place. -/
def isLabel (label : Text) : Bool :=
  !spelledMark.isPrefixOf label && !label.head?.any isMark &&
    label.all (fun c => Fate.of c == .kept) && normalForm label == label &&
    (label.all isAscii || joinersFit [] label)

/-- The label that a label spells. One that could stand for itself is not spelled. -/
def spelled? (label : Text) : Option Text := do
  let spelling := label.drop spelledMark.length
  if label.all isAscii && spelling.length ≤ maxSpelling then
    let text ← Punycode.decode? spelling
    if !text.all isAscii && isLabel text then some text else none
  else none

/-- A label as it is read and as it is written. -/
def label? (label : Text) : Option (Text × Text) :=
  if spelledMark.isPrefixOf label then (spelled? label).map fun text => (text, label)
  else if !isLabel label then none
  else if label.all isAscii then some (label, label)
  else if label.length ≤ maxSpelled then some (label, spelledMark ++ Punycode.encode label)
  else none

/-- The labels of a text, which may be empty. -/
def labels : Text → List Text
  | [] => [[]]
  | c :: t =>
    match labels t with
    | [] => [[c]]
    | part :: parts => if c = '.' then [] :: part :: parts else (c :: part) :: parts

/-- A name in ASCII. -/
def toAscii? (name : Text) : Option Text := do
  let read ← (labels (normalForm (← mapped? name))).mapM label?
  if Direction.areConsistent (read.map (·.1)) then
    some (List.intercalate ['.'] (read.map (·.2)))
  else none

end RubyLens.Domain
