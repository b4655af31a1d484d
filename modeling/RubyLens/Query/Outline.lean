import RubyLens.Syntax.Build
import RubyLens.Text.Lines

/-!
The outline of a source: its classes, modules, methods, constants and accessor fields, nested the
way they are written.
-/

namespace RubyLens

inductive SymbolKind where
  | classDef
  | moduleDef
  | method
  | constant
  | field
deriving DecidableEq, Repr

/-- An entry of an outline and the entries declared inside it. Where it stands is given by spans or
by ranges. -/
inductive Symbol (α : Type) where
  | mk (name : String) (kind : SymbolKind) (extent selection : α) (children : List (Symbol α))
deriving Repr

namespace Symbol

variable {α β : Type}

def name : Symbol α → String
  | mk n _ _ _ _ => n

def kind : Symbol α → SymbolKind
  | mk _ k _ _ _ => k

/-- Where the whole declaration stands. -/
def extent : Symbol α → α
  | mk _ _ e _ _ => e

/-- Where its name stands. -/
def selection : Symbol α → α
  | mk _ _ _ s _ => s

def children : Symbol α → List (Symbol α)
  | mk _ _ _ _ cs => cs

mutual
def map (f : α → β) : Symbol α → Symbol β
  | mk n k e s cs => mk n k (f e) (f s) (mapAll f cs)

def mapAll (f : α → β) : List (Symbol α) → List (Symbol β)
  | [] => []
  | c :: cs => map f c :: mapAll f cs
end

/-- The entry with other entries inside it. -/
def withChildren (cs : List (Symbol α)) : Symbol α → Symbol α
  | mk n k e s _ => mk n k e s cs

end Symbol

namespace Outline

/-- On what a method is defined. -/
inductive Qualifier where
  | selfRef
  | constant (name : String)
  | unknown
deriving DecidableEq, Repr

def qualifierOf (s : Source) (value : Option Node) : Qualifier :=
  match value with
  | none => .unknown
  | some n =>
    match n.kind with
    | .selfRef => .selfRef
    | .constant => .constant (s.textOf n)
    | _ => .unknown

/-- A method as the outline names it: `#name` on instances, `.name` on the class around it. -/
def methodName (qualifier : Option Qualifier) (name : String) : String :=
  match qualifier with
  | some .selfRef => "." ++ name
  | some (.constant c) => c ++ "." ++ name
  | some .unknown => "<unknown>." ++ name
  | none => "#" ++ name

/-- The constant that an assignment sets. -/
def constantTarget? (n : Node) (target : Option Slot) : Option Node :=
  (n.child? target).filter fun t => t.kind == .constant

/-- The name that a class, a module or the assignment of a constant introduces. -/
def segment? (s : Source) (n : Node) : Option String :=
  match n.kind with
  | .classDef c => (n.child? c.head).map s.textOf
  | .moduleDef c => (n.child? c.head).map s.textOf
  | .assignment target _ => (constantTarget? n target).map s.textOf
  | _ => none

/-- The names introduced along a path, outermost first. -/
def qualifiedName (s : Source) (path : List Node) : String :=
  String.intercalate "::" (path.filterMap (segment? s)).reverse

/-- The text that a string literal with backslashes stands for. Between single quotes only a quote
and a backslash can be escaped. -/
def unescape (singleQuoted : Bool) : Text → Text
  | [] => []
  | ['\\'] => ['\\']
  | '\\' :: c :: t =>
    if singleQuoted then
      if c = '\\' ∨ c = '\'' then c :: unescape singleQuoted t
      else '\\' :: c :: unescape singleQuoted t
    else
      (match c with
      | 'n' => '\n'
      | 't' => '\t'
      | 'r' => '\r'
      | 's' => ' '
      | '0' => Char.ofNat 0
      | 'e' => Char.ofNat 0x1b
      | c => c) :: unescape singleQuoted t
  | c :: t => c :: unescape singleQuoted t

/-- The name that a symbol or a string literal spells, unless parts of it are computed. -/
def literalName? (s : Source) (n : Node) : Option String :=
  match n.kind with
  | .symbol =>
    match Text.slice s.text n.span with
    | ':' :: t => some (String.ofList t)
    | _ => none
  | .stringLike d false =>
    if n.typeName == "string" || n.typeName == "delimited_symbol" then
      match d.opening, d.inner with
      | some opening, some inner =>
        let singleQuoted := (Text.slice s.text opening).getLast? == some '\''
        some (String.ofList (unescape singleQuoted (Text.slice s.text inner)))
      | _, _ => none
    else none
  | _ => none

/-- The calls that declare accessor fields. -/
def fieldMethods : List String := ["attr_accessor", "attr_reader", "attr_writer"]

/-- The method that a definition declares. One on a receiver that is neither `self` nor a constant
is left out. -/
def methodEntry (s : Source) (around : Option Qualifier) (n : Node) (m : Method) :
    List (Symbol Span) :=
  match n.child? m.name with
  | none => []
  | some name =>
    match n.child? m.receiver with
    | none => [.mk (methodName around (s.textOf name)) .method n.span name.span []]
    | some receiver =>
      match qualifierOf s (some receiver) with
      | .unknown => []
      | q =>
        [.mk (methodName (some q) (s.textOf name)) .method n.span
          (receiver.span.cover name.span) []]

/-- The fields that a call declares, one for each literal argument. -/
def fieldEntries (s : Source) (call arguments : Node) : List (Symbol Span) :=
  arguments.children.filterMap fun argument =>
    (literalName? s argument).map fun name => .mk name .field call.span argument.span []

/-- What a node itself adds to the outline. The path leads from the node up to the root, and
`around` is the qualifier of the singleton class around it. -/
def entriesFor (s : Source) (around : Option Qualifier) (n : Node) (above : List Node) :
    List (Symbol Span) :=
  let named (kind : SymbolKind) (name : Option Node) : List (Symbol Span) :=
    name.toList.map fun name => .mk (qualifiedName s (n :: above)) kind n.span name.span []
  match n.kind with
  | .classDef c => named .classDef (n.child? c.head)
  | .moduleDef c => named .moduleDef (n.child? c.head)
  | .assignment target _ => named .constant (constantTarget? n target)
  | .method m => methodEntry s around n m
  | .call none method arguments _ =>
    match n.child? method, n.child? arguments with
    | some method, some arguments =>
      if fieldMethods.contains (s.textOf method) then fieldEntries s n arguments else []
    | _, _ => []
  | _ => []

/-- The qualifier that holds inside a node. -/
def qualifierInside (s : Source) (around : Option Qualifier) (n : Node) : Option Qualifier :=
  match n.kind with
  | .singletonClass c => some (qualifierOf s (n.child? c.head))
  | _ => around

mutual
/-- The outline of a tree. What is declared below a node goes into the first entry of that node. -/
def entries (s : Source) (around : Option Qualifier) (above : List Node) :
    Node → List (Symbol Span)
  | .mk t k span cs =>
    let n : Node := .mk t k span cs
    let below := entriesOf s (qualifierInside s around n) (n :: above) cs
    match entriesFor s around n above with
    | [] => below
    | first :: rest => first.withChildren below :: rest

def entriesOf (s : Source) (around : Option Qualifier) (above : List Node) :
    List Node → List (Symbol Span)
  | [] => []
  | c :: cs => entries s around above c ++ entriesOf s around above cs
end

/-- The outline of a source, by spans. -/
def spans (s : Source) : List (Symbol Span) := entries s none [] s.root

/-- The outline of a source, by ranges. -/
def ranges (e : Encoding) (s : Source) : List (Symbol Range) :=
  (spans s).map (Symbol.map (Text.rangeOf e s.text))

end Outline

end RubyLens
