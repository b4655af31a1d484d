import RubyLens.Text.Lines

/-!
Edits that turn one text into another. A comparison of the two texts is a list of characters
kept, deleted and inserted; characters deleted and inserted side by side make up one edit, and a
filter keeps only the changes that start inside a range.
-/

namespace RubyLens

/-- What becomes of one character when a text is turned into another. -/
inductive Change where
  | keep (c : Char)
  | delete (c : Char)
  | insert (c : Char)
deriving DecidableEq, Repr

/-- The text in `range` is replaced by `text`. -/
structure Edit where
  range : Range
  text : Text
deriving DecidableEq, Repr

namespace Edit

/-- The filter lets an edit that starts at `p` through. -/
def admits (filter : Option Range) (p : Position) : Bool :=
  match filter with
  | none => true
  | some r => r.includes p

/-- One edit for each changed character that starts inside the filter. The changes left begin at
byte `offset` of the text `before`. -/
def single (e : Encoding) (before : Text) (filter : Option Range) : Nat → List Change → List Edit
  | _, [] => []
  | offset, .keep c :: cs => single e before filter (offset + c.utf8Size) cs
  | offset, .insert c :: cs =>
    let range := Text.rangeOf e before ⟨offset, offset⟩
    let rest := single e before filter offset cs
    if admits filter range.start then ⟨range, [c]⟩ :: rest else rest
  | offset, .delete c :: cs =>
    let range := Text.rangeOf e before ⟨offset, offset + c.utf8Size⟩
    let rest := single e before filter (offset + c.utf8Size) cs
    if admits filter range.start then ⟨range, []⟩ :: rest else rest

/-- Edits that touch become one. -/
def join : List Edit → List Edit
  | [] => []
  | a :: edits =>
    match join edits with
    | [] => [a]
    | b :: more =>
      if a.range.stop = b.range.start then
        ⟨⟨a.range.start, b.range.stop⟩, a.text ++ b.text⟩ :: more
      else a :: b :: more

/-- The edits that turn `before` into `after`, given the changes between the two. -/
def between (e : Encoding) (before after : Text) (changes : List Change)
    (filter : Option Range) : List Edit :=
  if before = after then [] else join (single e before filter 0 changes)

end Edit

/-- What a client reports about its copy of a document: the text of a range was replaced, or, when
no range is given, the whole text was. -/
structure ContentChange where
  range : Option Range
  text : Text
deriving DecidableEq, Repr

namespace ContentChange

def apply (e : Encoding) (t : Text) (change : ContentChange) : Text :=
  match change.range with
  | some r => Text.splice t (Text.spanOf e t r) change.text
  | none => change.text

/-- Each change is about the text that the one before it left. -/
def applyAll (e : Encoding) (t : Text) (changes : List ContentChange) : Text :=
  changes.foldl (apply e) t

end ContentChange

end RubyLens
