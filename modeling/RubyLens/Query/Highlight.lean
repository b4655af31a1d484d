import RubyLens.Syntax.Build
import RubyLens.Text.Lines

/-!
Keywords that belong together. With the cursor on one keyword of a construct, every keyword of that
construct is highlighted: `if` with its `elsif`, `else` and `end`, `begin` with its clauses, `case`
with its branches.
-/

namespace RubyLens.Highlight

/-- The keywords recorded for a `begin`, or for a body that acts as one. -/
def beginKeywords (b : Begin) : List Span :=
  b.beginKeyword.toList ++ b.rescueKeywords ++ b.elseKeyword.toList ++ b.ensureKeyword.toList ++
    b.endKeyword.toList

/-- The keywords of a `begin` below a node of kind `owner`. A body that acts as one belongs to the
`begin` around it, if that is written out; below a method or a block it has the keyword in front of
those too. -/
def beginSpans (b : Begin) (owner : Option Kind) : List Span :=
  if b.implicit then
    match owner with
    | some (.begin outer) => if outer.implicit then beginKeywords b else beginKeywords outer
    | some (.method m) => beginKeywords b ++ m.keyword.toList
    | some (.block d _) => beginKeywords b ++ d.opening.toList
    | _ => beginKeywords b
  else beginKeywords b

/-- The keywords of the `begin` that a clause stands in. -/
def beginSpansAt (c : Cursor) : List Span :=
  match c.kind with
  | .begin b => beginSpans b (c.parent?.map Cursor.kind)
  | _ => []

/-- `case`, its branches and its `end`. -/
def caseSpans (n : Node) : List Span :=
  match n.kind with
  | .caseOf keyword endKeyword clauses _ =>
    keyword.toList ++ endKeyword.toList ++
      clauses.filterMap fun slot => (n.child? (some slot)).bind fun clause => clause.kind.lead
  | _ => []

/-- `case` and all that belongs to it, its `else` included. -/
def wholeCaseSpans (n : Node) : List Span :=
  match n.kind with
  | .caseOf _ _ _ elseClause =>
    caseSpans n ++ ((n.child? elseClause).bind fun clause => clause.kind.lead).toList
  | _ => []

mutual
/-- The keywords of a conditional and of all that follows it. -/
def chainSpans : Node → List Span
  | .mk t k s cs =>
    match k with
    | .conditional c =>
      c.keyword.toList ++
        (((Node.mk t k s cs).child? c.thenClause).bind fun clause => clause.kind.lead).toList ++
        c.endKeyword.toList ++
        (match c.consequent with
        | some slot => chainSpansAt slot cs
        | none => [])
    | _ => []

/-- The keywords of the `elsif` or `else` in a slot, and of all that follows it. -/
def chainSpansAt : Slot → List Node → List Span
  | _, [] => []
  | 0, n :: _ =>
    match n.kind with
    | .elseClause keyword => keyword.toList
    | _ => chainSpans n
  | slot + 1, _ :: ns => chainSpansAt slot ns
end

/-- The conditional with which the chain of a conditional starts. -/
def chainHead (n : Node) : List Place → Node
  | [] => n
  | p :: ps => if n.kind.isElsif && p.node.kind.isConditional then chainHead p.node ps else n

/-- The keywords of the whole chain that a conditional is part of. -/
def conditionalSpans (c : Cursor) : List Span := chainSpans (chainHead c.node c.above)

/-- The keywords of a loop. -/
def loopSpans (n : Node) : List Span :=
  let bodySpans (body : Option Slot) : List Span :=
    match (n.child? body).map Node.kind with
    | some (.loopBody doKeyword endKeyword) => doKeyword.toList ++ endKeyword.toList
    | _ => []
  match n.kind with
  | .loop keyword body _ => keyword.toList ++ bodySpans body
  | .forLoop keyword inClause body =>
    keyword.toList ++ ((n.child? inClause).bind fun clause => clause.kind.lead).toList ++
      bodySpans body
  | _ => []

/-- The keywords that an `else` belongs to. -/
def elseSpans (c : Cursor) : List Span :=
  match c.parent? with
  | none => []
  | some p =>
    match p.kind with
    | .begin _ => beginSpansAt p
    | .caseOf _ _ _ _ => c.kind.lead.toList ++ caseSpans p.node
    | .conditional _ => conditionalSpans p
    | _ => []

/-- The keywords of a method or a block: those of its body, if that acts as a `begin`. -/
def ownerSpans (n : Node) (body : Option Slot) (own : List Span) : List Span :=
  match (n.child? body).map Node.kind with
  | some (.begin b) => if b.implicit then beginSpans b (some n.kind) else own
  | _ => own

/-- The keywords of the construct that a node is, or is a clause of. -/
def constructSpans (c : Cursor) : List Span :=
  match c.kind with
  | .begin _ => beginSpansAt c
  | .block d body => ownerSpans c.node body (d.opening.toList ++ d.closing.toList)
  | .caseOf _ _ _ _ => wholeCaseSpans c.node
  | .classDef k => k.keyword.toList ++ k.endKeyword.toList
  | .singletonClass k => k.keyword.toList ++ k.endKeyword.toList
  | .moduleDef k => k.keyword.toList ++ k.endKeyword.toList
  | .method m => ownerSpans c.node m.body (m.keyword.toList ++ m.endKeyword.toList)
  | .conditional _ => conditionalSpans c
  | .loop _ _ _ => loopSpans c.node
  | .forLoop _ _ _ => loopSpans c.node
  | .elseClause _ => elseSpans c
  | .rescue _ => (c.parent?.map beginSpansAt).getD []
  | .ensure _ => (c.parent?.map beginSpansAt).getD []
  | .clause _ => (c.parent?.map fun p => wholeCaseSpans p.node).getD []
  | .loopBody _ _ => (c.parent?.map fun p => loopSpans p.node).getD []
  | _ => []

/-- The word that leads from a clause to what it is part of: `then`, or the `in` of a loop. -/
def linkWord : Kind → Option (Option Span)
  | .thenClause keyword => some keyword
  | .forIn keyword => some keyword
  | _ => none

/-- The keywords to highlight at a node, for a cursor at `offset`. From a clause with a link word
only a cursor on that word leads on. -/
def spansFrom (offset : Nat) (here : Place) : List Place → List Span
  | [] => constructSpans ⟨here, []⟩
  | p :: ps =>
    match linkWord here.node.kind with
    | some keyword => if keyword.any (·.contains offset) then spansFrom offset p ps else []
    | none => constructSpans ⟨here, p :: ps⟩

/-- The keywords to highlight for a cursor at a byte offset, in order and without repetition. -/
def spansAt (root : Node) (offset : Nat) : List Span :=
  let c := root.cursorAt offset
  ((spansFrom offset c.here c.above).mergeSort Span.before).eraseReps

/-- The ranges to highlight for a cursor at a position. -/
def rangesAt (e : Encoding) (s : Source) (p : Position) : List Range :=
  (spansAt s.root (Text.offsetAt e s.text p)).map (Text.rangeOf e s.text)

end RubyLens.Highlight
