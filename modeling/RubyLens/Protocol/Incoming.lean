import RubyLens.Protocol.Capabilities
import RubyLens.Protocol.Method

/-!
What a client sends: the parameters of its requests and notifications, as far as they matter here.
-/

namespace RubyLens

open Json (Value)

/-- What a client tells about itself and its workspace at the start. -/
structure InitializeParams where
  /-- The encodings that it offers, best first. -/
  encodings : List String
  /-- It can be asked for its configuration. -/
  answersConfiguration : Bool
  /-- It can be asked to report changes of its configuration. -/
  registersConfiguration : Bool
  folders : List Uri
  rootUri : Option Uri
  options : Option Value

inductive Request where
  | documentHighlight (uri : Uri) (position : Position)
  | selectionRange (uri : Uri) (positions : List Position)
  | documentSymbol (uri : Uri)
  | formatting (uri : Uri)
  | rangeFormatting (uri : Uri) (range : Range)
  | codeAction (uri : Uri) (diagnostics : List Diagnostic)
  | executeCommand (command : String) (arguments : List Value)

inductive Notification where
  | initialized
  | didOpen (uri : Uri) (text : Text) (version : Int)
  | didChange (uri : Uri) (version : Int) (changes : List ContentChange)
  | didClose (uri : Uri)
  | didChangeConfiguration (settings : Value)

/-! ### Reading -/

/-- The fields of a record that are read, once all of its fields, with those that are mixed into it,
are found to be well-formed. -/
def paramsRecord? (fields : List RecordField) (v : Value) : Option Json.Record :=
  if Shape.mixed fields v then v.objectRecord? (RecordField.names fields) else none

namespace InitializeParams

open RecordField (required optional)
open Shape (any text nat32 uri word listOf record)

def folder : Shape := record [required "uri" uri, required "name" text]

def fields : List RecordField := [
  optional "processId" nat32,
  optional "rootPath" text,
  optional "rootUri" uri,
  optional "initializationOptions" any,
  required "capabilities" (record Capabilities.all),
  optional "trace" (word ["off", "messages", "verbose"]),
  optional "workspaceFolders" (listOf folder),
  optional "clientInfo" (record [required "name" text, optional "version" text]),
  optional "locale" text,
  Method.work]

def folder? (v : Value) : Option Uri := do
  (← v.record? ["uri", "name"]).required "uri" Uri.ofJson?

def ofJson? (v : Value) : Option InitializeParams := do
  let r ← paramsRecord? fields v
  let capabilities ← r.required "capabilities" some
  some {
    encodings := Capabilities.encodings capabilities
    answersConfiguration := Capabilities.answersConfiguration capabilities
    registersConfiguration := Capabilities.registersConfiguration capabilities
    folders := (← r.optional "workspaceFolders" (Value.listOf? folder?)).getD []
    rootUri := ← r.optional "rootUri" Uri.ofJson?
    options := ← r.optional "initializationOptions" some }

end InitializeParams

/-- The identifier in a record that names a document. -/
def documentUri? (v : Value) : Option Uri := do
  (← v.record? ["uri"]).required "uri" Uri.ofJson?

/-- The diagnostics for which actions are asked. -/
def actionContext? (v : Value) : Option (List Diagnostic) := do
  let r ← v.record? ["diagnostics", "only", "triggerKind"]
  let _ ← r.optional "only" (Value.listOf? Value.text?)
  let _ ← r.optional "triggerKind" Value.int32?
  r.required "diagnostics" (Value.listOf? Diagnostic.ofJson?)

def ContentChange.ofJson? (v : Value) : Option ContentChange := do
  let r ← v.record? ["range", "rangeLength", "text"]
  let _ ← r.optional "rangeLength" Value.nat32?
  some ⟨← r.optional "range" Range.ofJson?, (← r.required "text" Value.text?).toList⟩

namespace Request

open RecordField (required defaulted)
open Shape (any text position range listOf)
open Method (document place work part formattingOptions)

/-- The fields of the parameters of requests, by method. -/
def fields : List (String × List RecordField) := [
  ("textDocument/documentHighlight", place ++ [work, part]),
  ("textDocument/selectionRange",
    [document, required "positions" (listOf position), work, part]),
  ("textDocument/documentSymbol", [document, work, part]),
  ("textDocument/formatting", [document, required "options" formattingOptions, work]),
  ("textDocument/rangeFormatting",
    [document, required "range" range, required "options" formattingOptions, work]),
  ("textDocument/codeAction", [document, required "range" range,
    required "context" (fun v => (actionContext? v).isSome), work, part]),
  ("workspace/executeCommand",
    [required "command" text, defaulted "arguments" (listOf any), work])]

/-- The methods of requests. -/
def methods : List String := fields.map (·.1)

def ofJson? (method : String) (v : Value) : Option Request := do
  let r ← paramsRecord? (← fields.lookup method) v
  match method with
  | "textDocument/documentHighlight" =>
    some (.documentHighlight (← r.required "textDocument" documentUri?)
      (← r.required "position" Position.ofJson?))
  | "textDocument/selectionRange" =>
    some (.selectionRange (← r.required "textDocument" documentUri?)
      (← r.required "positions" (Value.listOf? Position.ofJson?)))
  | "textDocument/documentSymbol" =>
    some (.documentSymbol (← r.required "textDocument" documentUri?))
  | "textDocument/formatting" =>
    some (.formatting (← r.required "textDocument" documentUri?))
  | "textDocument/rangeFormatting" =>
    some (.rangeFormatting (← r.required "textDocument" documentUri?)
      (← r.required "range" Range.ofJson?))
  | "textDocument/codeAction" =>
    some (.codeAction (← r.required "textDocument" documentUri?)
      (← r.required "context" actionContext?))
  | "workspace/executeCommand" =>
    some (.executeCommand (← r.required "command" Value.text?)
      (← r.defaulted "arguments" [] (Value.listOf? some)))
  | _ => none

end Request

namespace Notification

/-- The methods of notifications. -/
def methods : List String :=
  ["initialized", "textDocument/didOpen", "textDocument/didChange", "textDocument/didClose",
   "workspace/didChangeConfiguration"]

def ofJson? (method : String) (v : Value) : Option Notification := do
  match method with
  | "initialized" =>
    let _ ← v.record? []
    some .initialized
  | "textDocument/didOpen" =>
    let r ← v.record? ["textDocument"]
    let item ← r.required "textDocument" (Value.record? ["uri", "languageId", "version", "text"])
    let _ ← item.required "languageId" Value.text?
    some (.didOpen (← item.required "uri" Uri.ofJson?) (← item.required "text" Value.text?).toList
      (← item.required "version" Value.int32?))
  | "textDocument/didChange" =>
    let r ← v.record? ["textDocument", "contentChanges"]
    let item ← r.required "textDocument" (Value.record? ["uri", "version"])
    some (.didChange (← item.required "uri" Uri.ofJson?) (← item.required "version" Value.int32?)
      (← r.required "contentChanges" (Value.listOf? ContentChange.ofJson?)))
  | "textDocument/didClose" =>
    some (.didClose (← (← v.record? ["textDocument"]).required "textDocument" documentUri?))
  | "workspace/didChangeConfiguration" =>
    some (.didChangeConfiguration (← (← v.record? ["settings"]).required "settings" some))
  | _ => none

end Notification

end RubyLens
