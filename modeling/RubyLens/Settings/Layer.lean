import RubyLens.Json.Decode

/-!
Settings in layers. A layer sets some values and leaves others to the layers below it; what is set
nowhere has a default.
-/

namespace RubyLens

open Json (Value)

variable {α : Type}

/-- A section of a layer, which holds one value or leaves it unset. -/
structure Section (α : Type) where
  value : Option α
deriving DecidableEq, Repr

namespace Section

/-- The upper section wins where it sets its value. -/
def merge (lower upper : Option (Section α)) : Option (Section α) :=
  match lower, upper with
  | some l, some u => some ⟨u.value.or l.value⟩
  | l, u => u.or l

/-- The value that a section sets, if it is there and does. -/
def get? (s : Option (Section α)) : Option α := s.bind Section.value

end Section

structure Layer where
  diagnostics : Option (Section Bool)
  documentFormatting : Option (Section Bool)
  documentHighlight : Option (Section Bool)
  documentSymbol : Option (Section Bool)
  selectionRanges : Option (Section Bool)
  /-- The time that the linter may take, in milliseconds. -/
  rubocop : Option (Section Nat)
deriving DecidableEq, Repr

/-- The settings that are in force. -/
structure Settings where
  diagnostics : Bool
  documentFormatting : Bool
  documentHighlight : Bool
  documentSymbol : Bool
  selectionRanges : Bool
  rubocopTimeoutMs : Nat
deriving DecidableEq, Repr

def defaultTimeoutMs : Nat := 10000

namespace Layer

/-- Everything is on. -/
def defaults : Layer :=
  let on : Option (Section Bool) := some ⟨some true⟩
  ⟨on, on, on, on, on, some ⟨some defaultTimeoutMs⟩⟩

/-- The layer that sets nothing. -/
def blank : Layer := ⟨none, none, none, none, none, none⟩

def mergeSections (lower upper : Layer) : Layer where
  diagnostics := Section.merge lower.diagnostics upper.diagnostics
  documentFormatting := Section.merge lower.documentFormatting upper.documentFormatting
  documentHighlight := Section.merge lower.documentHighlight upper.documentHighlight
  documentSymbol := Section.merge lower.documentSymbol upper.documentSymbol
  selectionRanges := Section.merge lower.selectionRanges upper.selectionRanges
  rubocop := Section.merge lower.rubocop upper.rubocop

/-- Two layers as one. A layer that is not there changes nothing. -/
def merge (lower upper : Option Layer) : Option Layer :=
  match lower, upper with
  | some l, some u => some (l.mergeSections u)
  | l, u => u.or l

/-- All layers as one, the lowest first. -/
def mergeAll (layers : List (Option Layer)) : Option Layer := layers.foldl merge none

/-- The settings that a layer leads to. -/
def resolve (l : Layer) : Settings where
  diagnostics := (Section.get? l.diagnostics).getD true
  documentFormatting := (Section.get? l.documentFormatting).getD true
  documentHighlight := (Section.get? l.documentHighlight).getD true
  documentSymbol := (Section.get? l.documentSymbol).getD true
  selectionRanges := (Section.get? l.selectionRanges).getD true
  rubocopTimeoutMs := (Section.get? l.rubocop).getD defaultTimeoutMs

/-- Reads a layer. How a record is written is a matter of the format that the data comes from. -/
def ofValue? (record? : List String → Value → Option Json.Record) (v : Value) : Option Layer := do
  let toggle? (v : Value) : Option (Section Bool) := do
    some ⟨← (← record? ["enabled"] v).optional "enabled" Value.bool?⟩
  let timeout? (v : Value) : Option (Section Nat) := do
    some ⟨← (← record? ["timeoutMs"] v).optional "timeoutMs" Value.nat?⟩
  let r ← record? ["diagnostics", "documentFormatting", "documentHighlight", "documentSymbol",
    "selectionRanges", "rubocop"] v
  some {
    diagnostics := ← r.optional "diagnostics" toggle?
    documentFormatting := ← r.optional "documentFormatting" toggle?
    documentHighlight := ← r.optional "documentHighlight" toggle?
    documentSymbol := ← r.optional "documentSymbol" toggle?
    selectionRanges := ← r.optional "selectionRanges" toggle?
    rubocop := ← r.optional "rubocop" timeout? }

/-- A layer that a client sends. -/
def ofJson? : Value → Option Layer := ofValue? Value.record?

def toJson (l : Layer) : Value :=
  let toggle (s : Option (Section Bool)) : Value :=
    match s with
    | none => .null
    | some s => .record [("enabled", (s.value.map .bool).getD .null)]
  let timeout : Value :=
    match l.rubocop with
    | none => .null
    | some s => .record [("timeoutMs", (s.value.map .nat).getD .null)]
  .record [("diagnostics", toggle l.diagnostics),
    ("documentFormatting", toggle l.documentFormatting),
    ("documentHighlight", toggle l.documentHighlight), ("documentSymbol", toggle l.documentSymbol),
    ("selectionRanges", toggle l.selectionRanges), ("rubocop", timeout)]

end Layer

end RubyLens
