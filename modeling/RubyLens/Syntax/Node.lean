import RubyLens.Syntax.Kind

/-!
Syntax trees. A node knows its children; whoever needs to know what is above a node goes down from
the root and takes the path along. Nodes are numbered in pre-order.
-/

namespace RubyLens

inductive Node where
  | mk (typeName : String) (kind : Kind) (span : Span) (children : List Node)
deriving Repr

namespace Node

def typeName : Node → String
  | mk t _ _ _ => t

def kind : Node → Kind
  | mk _ k _ _ => k

def span : Node → Span
  | mk _ _ s _ => s

def children : Node → List Node
  | mk _ _ _ cs => cs

/-- The child in a slot. -/
def child? (n : Node) (slot : Option Slot) : Option Node := slot.bind fun i => n.children[i]?

/-- Type and span, for messages. -/
def display (n : Node) : String := s!"{n.typeName}@{n.span.start}..{n.span.stop}"

mutual
/-- The number of nodes in a tree. -/
def count : Node → Nat
  | mk _ _ _ cs => countAll cs + 1

/-- The number of nodes in some trees. -/
def countAll : List Node → Nat
  | [] => 0
  | c :: cs => count c + countAll cs
end

end Node

/-- A node and its number in pre-order. -/
structure Place where
  number : Nat
  node : Node

/-- The places of siblings, of which the first has the given number. -/
def Place.siblings : Nat → List Node → List Place
  | _, [] => []
  | i, n :: ns => ⟨i, n⟩ :: siblings (i + n.count) ns

/-- The places of the children. -/
def Place.children (p : Place) : List Place := siblings (p.number + 1) p.node.children

/-- A place in a tree and the places above it, innermost first. -/
structure Cursor where
  here : Place
  above : List Place

namespace Cursor

def node (c : Cursor) : Node := c.here.node

def kind (c : Cursor) : Kind := c.node.kind

def span (c : Cursor) : Span := c.node.span

def parent? (c : Cursor) : Option Cursor :=
  match c.above with
  | [] => none
  | p :: ps => some ⟨p, ps⟩

/-- The places from here up to the root. -/
def path (c : Cursor) : List Place := c.here :: c.above

end Cursor

namespace Node

mutual
/-- All nodes of a tree in pre-order, for a tree whose root has the given number and lies below
`above`. -/
def cursorsFrom (number : Nat) (above : List Place) : Node → List Cursor
  | mk t k s cs =>
    ⟨⟨number, mk t k s cs⟩, above⟩ :: cursorsOf (number + 1) (⟨number, mk t k s cs⟩ :: above) cs

def cursorsOf (number : Nat) (above : List Place) : List Node → List Cursor
  | [] => []
  | c :: cs => cursorsFrom number above c ++ cursorsOf (number + count c) above cs
end

/-- All nodes of a tree in pre-order. -/
def cursors (root : Node) : List Cursor := cursorsFrom 0 [] root

mutual
/-- Looks through a tree for a node that is no larger than the best one so far. Only children that
contain the offset are entered, and of two nodes of one size the later is better. -/
def seek (offset : Nat) (best : Cursor) (number : Nat) (above : List Place) : Node → Cursor
  | mk t k s cs =>
    seekAll offset
      (if s.len ≤ best.span.len then ⟨⟨number, mk t k s cs⟩, above⟩ else best)
      (number + 1) (⟨number, mk t k s cs⟩ :: above) cs

def seekAll (offset : Nat) (best : Cursor) (number : Nat) (above : List Place) :
    List Node → Cursor
  | [] => best
  | c :: cs =>
    seekAll offset
      (if c.span.contains offset then seek offset best number above c else best)
      (number + count c) above cs
end

/-- The most specific node at an offset. An offset past the end of the tree counts as its end. -/
def cursorAt (root : Node) (offset : Nat) : Cursor :=
  seek (min offset root.span.stop) ⟨⟨0, root⟩, []⟩ 0 [] root

end Node

end RubyLens
