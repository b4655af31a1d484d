import RubyLens.Text.Span

/-!
What a node of a syntax tree is, with the places of the keywords and delimiters it owns. A keyword
has no place when the construct is written without it, or when the parser made it up. Children that
matter to a construct are named by their slot, the position among the children of the node.
-/

namespace RubyLens

/-- A position among the children of a node. -/
abbrev Slot := Nat

/-- What encloses a construct. -/
structure Delimiters where
  opening : Option Span
  closing : Option Span
deriving DecidableEq, Repr

/-- The part between the delimiters, if there are two and they are in order. -/
def Delimiters.inner (d : Delimiters) : Option Span :=
  match d.opening, d.closing with
  | some o, some c => if o.stop ≤ c.start then some ⟨o.stop, c.start⟩ else none
  | _, _ => none

/-- The keywords of `begin … end`, or of a body with clauses of its own, which acts as one without
being written so. -/
structure Begin where
  beginKeyword : Option Span
  rescueKeywords : List Span
  elseKeyword : Option Span
  ensureKeyword : Option Span
  endKeyword : Option Span
  implicit : Bool
deriving DecidableEq, Repr

/-- A class, a module or a singleton class. Its head is its name, or the object whose singleton
class it is. -/
structure Container where
  keyword : Option Span
  endKeyword : Option Span
  head : Option Slot
  body : Option Slot
deriving DecidableEq, Repr

/-- A method definition, possibly on a receiver. -/
structure Method where
  keyword : Option Span
  endKeyword : Option Span
  receiver : Option Slot
  name : Option Slot
  body : Option Slot
deriving DecidableEq, Repr

/-- `if`, `unless`, `elsif`, or one of the first two behind its statement. The consequent is the
`elsif` or `else` that follows. -/
structure Conditional where
  keyword : Option Span
  thenClause : Option Slot
  endKeyword : Option Span
  consequent : Option Slot
  modifier : Bool
deriving DecidableEq, Repr

inductive Kind where
  | program
  /-- A list literal. The elements reach from the first to the last; `percent` tells `%w` and `%i`
  apart from brackets. -/
  | array (delimiters : Delimiters) (elements : Option Span) (percent : Bool)
  | begin (b : Begin)
  | block (delimiters : Delimiters) (body : Option Slot)
  | call (receiver method arguments block : Option Slot)
  | argumentList (delimiters : Delimiters)
  | caseOf (keyword endKeyword : Option Span) (clauses : List Slot) (elseClause : Option Slot)
  /-- `when` or `in`. -/
  | clause (keyword : Option Span)
  | classDef (c : Container)
  | singletonClass (c : Container)
  | moduleDef (c : Container)
  | constant
  | scopeResolution (scope name : Option Slot)
  | assignment (target value : Option Slot)
  | method (m : Method)
  | elseClause (keyword : Option Span)
  | conditional (c : Conditional)
  /-- `while` or `until`, also behind its statement. -/
  | loop (keyword : Option Span) (body : Option Slot) (modifier : Bool)
  | forLoop (keyword : Option Span) (inClause body : Option Slot)
  | loopBody (doKeyword endKeyword : Option Span)
  | forIn (keyword : Option Span)
  | rescue (keyword : Option Span)
  | ensure (keyword : Option Span)
  | thenClause (keyword : Option Span)
  /-- A string, a quoted symbol, a regular expression or a command. -/
  | stringLike (delimiters : Delimiters) (interpolated : Bool)
  | symbol
  | elementReference (delimiters : Delimiters)
  | identifier
  | selfRef
  | other
deriving DecidableEq, Repr

namespace Kind

/-- The keyword in front, for kinds that have one. -/
def lead : Kind → Option Span
  | begin b => b.beginKeyword
  | caseOf k _ _ _ => k
  | clause k => k
  | classDef c => c.keyword
  | singletonClass c => c.keyword
  | moduleDef c => c.keyword
  | method m => m.keyword
  | elseClause k => k
  | conditional c => c.keyword
  | loop k _ _ => k
  | forLoop k _ _ => k
  | loopBody k _ => k
  | forIn k => k
  | rescue k => k
  | ensure k => k
  | thenClause k => k
  | _ => none

/-- The part between the delimiters, for kinds that have them. -/
def inner : Kind → Option Span
  | array d _ _ => d.inner
  | block d _ => d.inner
  | argumentList d => d.inner
  | stringLike d _ => d.inner
  | elementReference d => d.inner
  | _ => none

/-- Of the keywords of conditionals, only `elsif` has five characters. -/
def isElsif : Kind → Bool
  | conditional c => c.keyword.any (·.len == 5)
  | _ => false

def isConditional : Kind → Bool
  | conditional _ => true
  | _ => false

end Kind

end RubyLens
