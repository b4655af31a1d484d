import RubyLens.Syntax.Concrete
import RubyLens.Syntax.Node

/-!
From concrete syntax to syntax trees. Nodes with a name become nodes of the tree, tokens go into
the kind of the node that owns them, and what the parser made up is dropped with all below it.
-/

namespace RubyLens

namespace Concrete

mutual
/-- The number of trees that a concrete node turns into. -/
def width : Concrete → Nat
  | node l cs => if l.missing then 0 else if l.named then 1 else widthAll cs

def widthAll : List Concrete → Nat
  | [] => 0
  | c :: cs => width c + widthAll cs
end

end Concrete

/-- A part of a construct and the slot that it has, or would have, among the children. -/
structure Part where
  concrete : Concrete
  slot : Slot

namespace Part

def span (p : Part) : Span := p.concrete.label.span

/-- The parts that are really there, where the first one has the given slot. -/
def listFrom : Slot → List Concrete → List Part
  | _, [] => []
  | i, c :: cs =>
    if c.label.missing then listFrom i cs else ⟨c, i⟩ :: listFrom (i + c.width) cs

end Part

/-- The parts of one construct. -/
abbrev Parts := List Part

namespace Parts

def of (cs : List Concrete) : Parts := Part.listFrom 0 cs

/-- The first token spelled `s`. -/
def token (ps : Parts) (s : String) : Option Span :=
  (ps.find? fun p => p.concrete.isToken s).map Part.span

/-- The last token spelled `s`. -/
def lastToken (ps : Parts) (s : String) : Option Span := token ps.reverse s

/-- The token in front, if it is spelled `s`. -/
def leadToken (ps : Parts) (s : String) : Option Span := token (ps.take 1) s

/-- The child with a role. -/
def field (ps : Parts) (name : String) : Option Slot :=
  (ps.find? fun p => p.concrete.label.named && p.concrete.label.field == some name).map Part.slot

/-- The children of the given types. -/
def named (ps : Parts) (types : List String) : Parts := ps.filter fun p => p.concrete.isNamed types

def firstNamed (ps : Parts) (types : List String) : Option Slot :=
  (named ps types).head?.map Part.slot

/-- From the first child to the last. -/
def namedCover (ps : Parts) : Option Span :=
  let children := ps.filter fun p => p.concrete.label.named
  match children.head?, children.getLast? with
  | some a, some b => some (a.span.cover b.span)
  | _, _ => none

/-- The tokens at both ends. A single token is an opening one. -/
def delimiters (ps : Parts) : Delimiters :=
  let token? (p : Option Part) : Option Span :=
    (p.filter fun p => !p.concrete.label.named).map Part.span
  ⟨token? ps.head?, if ps.length < 2 then none else token? ps.getLast?⟩

/-- The body: the child with that role, or else the first one that looks like a body. -/
def body (ps : Parts) : Option Slot := (field ps "body").or (firstNamed ps ["body_statement"])

end Parts

/-- The first token spelled `s` that stands directly below a node. -/
def Concrete.keyword (s : String) (c : Concrete) : Option Span := (Parts.of c.children).token s

namespace Kind

/-- The clauses found among `ps`, between the given keywords. -/
def ofClauses (ps : Parts) (beginKeyword endKeyword : Option Span) (implicit : Bool) : Kind :=
  let keywordOf (type : String) : Option Span :=
    (ps.named [type]).head?.bind fun p => p.concrete.keyword type
  .begin {
    beginKeyword
    rescueKeywords := (ps.named ["rescue"]).filterMap fun p => p.concrete.keyword "rescue"
    elseKeyword := keywordOf "else"
    ensureKeyword := keywordOf "ensure"
    endKeyword
    implicit }

def ofContainer (ps : Parts) (keyword : String) (head : Option Slot) : Container :=
  ⟨ps.token keyword, ps.token "end", head, ps.body⟩

def ofConditional (ps : Parts) (keyword : String) : Kind :=
  .conditional ⟨ps.token keyword, ps.firstNamed ["then"], ps.token "end",
    ps.firstNamed ["else", "elsif"], false⟩

/-- A conditional behind the statement that it governs. -/
def ofModifier (ps : Parts) (keyword : String) : Kind :=
  .conditional ⟨ps.token keyword, none, none, none, true⟩

/-- What a concrete node is, given its parts and the nodes beside it. -/
def classify (typeName : String) (siblings : List Concrete) (ps : Parts) : Kind :=
  match typeName with
  | "program" => .program
  | "array" => .array ⟨ps.leadToken "[", ps.lastToken "]"⟩ ps.namedCover false
  | "string_array" | "symbol_array" => .array ps.delimiters ps.namedCover true
  | "begin" =>
    -- The clauses stand directly below or below a body of their own.
    let clauses :=
      match (ps.named ["body_statement"]).head? with
      | some p => Parts.of p.concrete.children
      | none => ps
    ofClauses clauses (ps.token "begin") (ps.token "end") false
  | "body_statement" =>
    if (ps.firstNamed ["rescue", "else", "ensure"]).isSome then
      ofClauses ps none ((Parts.of siblings).token "end") true
    else .other
  | "block" => .block ⟨ps.leadToken "\x7b", ps.lastToken "\x7d"⟩ (ps.field "body")
  | "do_block" => .block ⟨ps.leadToken "do", ps.lastToken "end"⟩ ps.body
  | "call" =>
    .call (ps.field "receiver") (ps.field "method") (ps.field "arguments") (ps.field "block")
  | "argument_list" =>
    let opening := ps.leadToken "("
    .argumentList ⟨opening, if opening.isSome then ps.lastToken ")" else none⟩
  | "case" | "case_match" =>
    .caseOf (ps.token "case") (ps.token "end") ((ps.named ["when", "in_clause"]).map Part.slot)
      (ps.firstNamed ["else"])
  | "when" => .clause (ps.token "when")
  | "in_clause" => .clause (ps.token "in")
  | "class" => .classDef (ofContainer ps "class" (ps.field "name"))
  | "singleton_class" =>
    let first := ps.find? fun p =>
      p.concrete.label.named && p.concrete.label.typeName != "comment"
    .singletonClass (ofContainer ps "class" ((ps.field "value").or (first.map Part.slot)))
  | "module" => .moduleDef (ofContainer ps "module" (ps.field "name"))
  | "constant" => .constant
  | "scope_resolution" => .scopeResolution (ps.field "scope") (ps.field "name")
  | "assignment" => .assignment (ps.field "left") (ps.field "right")
  | "method" | "singleton_method" =>
    .method ⟨ps.token "def", ps.token "end", ps.field "object", ps.field "name", ps.body⟩
  | "else" => .elseClause (ps.token "else")
  | "if" => ofConditional ps "if"
  | "unless" => ofConditional ps "unless"
  | "elsif" => ofConditional ps "elsif"
  | "if_modifier" => ofModifier ps "if"
  | "unless_modifier" => ofModifier ps "unless"
  | "while" => .loop (ps.token "while") (ps.firstNamed ["do"]) false
  | "until" => .loop (ps.token "until") (ps.firstNamed ["do"]) false
  | "while_modifier" => .loop (ps.token "while") none true
  | "until_modifier" => .loop (ps.token "until") none true
  | "for" => .forLoop (ps.token "for") (ps.firstNamed ["in"]) (ps.firstNamed ["do"])
  | "do" => .loopBody (ps.leadToken "do") (ps.lastToken "end")
  | "in" => .forIn (ps.token "in")
  | "rescue" => .rescue (ps.token "rescue")
  | "ensure" => .ensure (ps.token "ensure")
  | "then" => .thenClause (ps.token "then")
  | "string" | "delimited_symbol" | "regex" | "subshell" =>
    .stringLike ps.delimiters (ps.firstNamed ["interpolation"]).isSome
  | "simple_symbol" => .symbol
  | "element_reference" => .elementReference ⟨ps.token "[", ps.lastToken "]"⟩
  | "identifier" => .identifier
  | "self" => .selfRef
  | _ => .other

end Kind

namespace Node

mutual
/-- The trees that a concrete node turns into, given the nodes beside it. -/
def ofConcrete (siblings : List Concrete) : Concrete → List Node
  | .node l cs =>
    if l.missing then []
    else if l.named then
      [mk l.typeName (Kind.classify l.typeName siblings (Parts.of cs)) l.span (ofConcretes cs cs)]
    else ofConcretes cs cs

def ofConcretes (siblings : List Concrete) : List Concrete → List Node
  | [] => []
  | c :: cs => ofConcrete siblings c ++ ofConcretes siblings cs
end

/-- The whole of a text as one program, whatever the parser made of its root. -/
def ofRoot (source : Text) (root : Option Concrete) : Node :=
  let whole : Span := ⟨0, Text.size source⟩
  match root.toList.flatMap (ofConcrete []) with
  | mk t _ _ cs :: _ => mk t .program whole cs
  | [] => mk "program" .program whole []

end Node

/-- A text with its syntax tree. -/
structure Source where
  text : Text
  root : Node

namespace Source

/-- Reads a text. What the parser gives up on is a program without parts. -/
def parse (parser : Parser) (text : Text) : Source := ⟨text, Node.ofRoot text (parser text)⟩

/-- The text of a node. -/
def textOf (s : Source) (n : Node) : String := String.ofList (Text.slice s.text n.span)

end Source

end RubyLens
