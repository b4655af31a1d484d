import RubyLens.Syntax.Build
import RubyLens.Text.Lines

/-!
Growing selections. The most specific node at a cursor and all nodes above it each offer spans, the
inside of a literal before the literal and the arguments of a call before the call; ordered by size,
those that strictly enclose what was chosen before make up the chain.
-/

namespace RubyLens.Selection

mutual
/-- The spans that a node offers, innermost first. -/
def offers : Node → List Span
  | .mk _ k s cs =>
    match k with
    | .array d elements percent => (if percent then d.inner else elements).toList ++ [s]
    | .call _ _ arguments _ =>
      (match arguments with
      | some slot => offersAt slot cs
      | none => []) ++ [s]
    | .argumentList d => d.inner.toList ++ [s]
    | .stringLike d _ => d.inner.toList ++ [s]
    | .elementReference d =>
      match d.opening, d.closing with
      | some o, some c =>
        if o.stop ≤ c.start then [⟨o.stop, c.start⟩, ⟨o.start, c.stop⟩, s] else [s]
      | _, _ => [s]
    -- The body of a loop without `do` is nothing to select.
    | .loopBody none _ => []
    | _ => [s]

/-- The spans that the child in a slot offers. -/
def offersAt : Slot → List Node → List Span
  | _, [] => []
  | 0, n :: _ => offers n
  | slot + 1, _ :: ns => offersAt slot ns
end

/-- Keeps the spans that strictly enclose the last one kept. -/
def chainFrom : Option Span → List Span → List Span
  | _, [] => []
  | none, s :: ss => s :: chainFrom (some s) ss
  | some last, s :: ss =>
    if s.covers last && s != last then s :: chainFrom (some s) ss else chainFrom (some last) ss

/-- The spans to select around a byte offset, innermost first. -/
def spansAt (s : Source) (offset : Nat) : List Span :=
  let c := s.root.cursorAt offset
  let offered := c.path.flatMap fun p => offers p.node
  let around := offered.filter fun span => span.contains (min offset (Text.size s.text))
  chainFrom none (around.mergeSort Span.smaller)

/-- The ranges to select around a position, innermost first. There is always one. -/
def rangesAt (e : Encoding) (s : Source) (p : Position) : List Range :=
  match (spansAt s (Text.offsetAt e s.text p)).map (Text.rangeOf e s.text) with
  | [] => [⟨⟨0, 0⟩, ⟨0, 0⟩⟩]
  | ranges => ranges

/-- The ranges to select around each of some positions. -/
def chainsAt (e : Encoding) (s : Source) (ps : List Position) : List (List Range) :=
  ps.map (rangesAt e s)

end RubyLens.Selection
