import RubyLens.Text.Span

/-!
Concrete syntax trees as a Ruby grammar's parser delivers them: every token is a node, and a token
that the parser had to make up to go on is a node of no width that is marked as missing.
-/

namespace RubyLens

/-- What the parser says about one node. A node without a name is a keyword or a delimiter, and its
type is its spelling. -/
structure Label where
  typeName : String
  named : Bool
  missing : Bool
  span : Span
  /-- The role that the node has in its parent. -/
  field : Option String
deriving DecidableEq, Repr

inductive Concrete where
  | node (label : Label) (children : List Concrete)
deriving Repr

namespace Concrete

def label : Concrete → Label
  | node l _ => l

def children : Concrete → List Concrete
  | node _ cs => cs

/-- This is the token that is spelled `s`. -/
def isToken (s : String) (c : Concrete) : Bool := !c.label.named && c.label.typeName == s

/-- This is a node with one of the given types. -/
def isNamed (types : List String) (c : Concrete) : Bool :=
  c.label.named && types.contains c.label.typeName

/-- Puts one row in front of a list of trees, each with the number of its parent: the trees in front
that have the row as parent become its children. -/
def graft (row : (Option Nat × Label) × Nat) (trees : List (Option Nat × Concrete)) :
    List (Option Nat × Concrete) :=
  (row.1.1, node row.1.2 ((trees.takeWhile (·.1 == some row.2)).map Prod.snd)) ::
    trees.dropWhile (·.1 == some row.2)

/-- The tree whose nodes are given in pre-order, each with the number of its parent. -/
def ofRows? (rows : List (Option Nat × Label)) : Option Concrete :=
  (rows.zipIdx.foldr graft []).head?.map Prod.snd

end Concrete

/-- A parser of Ruby. It gives up on some texts. -/
abbrev Parser := Text → Option Concrete

end RubyLens
