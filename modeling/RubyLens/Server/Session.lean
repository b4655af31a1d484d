import RubyLens.Query.Highlight
import RubyLens.Query.Selection
import RubyLens.Server.Configuration

/-!
A session with a client, message by message, as far as the service calls on the server.
-/

namespace RubyLens.Server

open Json (Value)

variable {L : Type} [DecidableEq L] [Locator L]

/-! ### Notifications -/

/-- Stores a text under a locator and publishes its diagnostics. -/
def store (env : Environment) (url : L) (text : Text) (version : Int) (t : Turn L) : Turn L :=
  let doc : Document := ⟨Source.parse env.parser text, some version⟩
  lintAndPublish env url (t.setDocuments (t.state.documents.insert url doc))

def notify (env : Environment) (n : Notification) (t : Turn L) : Turn L :=
  match n with
  | .initialized => initialized env t
  | .didOpen uri text version =>
    match (uri.locator? : Option L) with
    | none => t
    | some url => store env url text version t
  | .didChange uri version changes =>
    match (uri.locator? : Option L) with
    | none => t
    | some url =>
      match t.state.documents.get? url with
      | none => t.log .warning (Failure.documentNotFound (Locator.text url)).message
      | some doc =>
        store env url (ContentChange.applyAll t.state.encoding doc.source.text changes) version t
  | .didClose uri =>
    let t :=
      match (uri.locator? : Option L) with
      | none => t
      | some url => t.setDocuments (t.state.documents.erase url)
    t.send (.publishDiagnostics uri [] none)
  | .didChangeConfiguration settings => configurationChanged env settings t

/-! ### Requests -/

/-- The command that corrects one cop. -/
def correctCommand : String := "RubyLight.Autocorrect"

def serverName : String := "ruby-light"

def serverVersion : String := "0.1.0"

/-- What the server can do, for the encoding that was agreed on. -/
def capabilities (e : Encoding) : Value :=
  .record [
    ("capabilities", .record [
      ("codeActionProvider", .bool true),
      ("documentFormattingProvider", .bool true),
      ("documentHighlightProvider", .bool true),
      ("documentRangeFormattingProvider", .bool true),
      ("documentSymbolProvider", .bool true),
      ("executeCommandProvider", .record [("commands", .list [.text correctCommand])]),
      ("positionEncoding", .text e.name),
      ("selectionRangeProvider", .bool true),
      ("textDocumentSync", .nat 2)]),
    ("serverInfo", .record [("name", .text serverName), ("version", .text serverVersion)])]

/-- The source of an open document. -/
def sourceOf? (s : State L) (uri : Uri) : Option Source :=
  uri.locator?.bind fun url : L => (s.documents.get? url).map Document.source

def highlightJson (r : Range) : Value := .record [("range", r.toJson), ("kind", .nat 1)]

/-- A chain of ranges, innermost first, each with the next one as its parent. -/
def chainJson : List Range → Value
  | [] => .null
  | [r] => .record [("range", r.toJson)]
  | r :: rs => .record [("range", r.toJson), ("parent", chainJson rs)]

/-- The offer to correct the offense of a diagnostic, if it can be corrected. -/
def quickFix? (d : Diagnostic) : Option Value := do
  let data ← d.data
  let c ← Correction.ofJson? data
  if c.correctable then
    let title := "Autocorrect " ++ c.copName
    some (.record [
      ("title", .text title),
      ("kind", .text "quickfix"),
      ("diagnostics", .list [d.toJson]),
      ("command", .record [("title", .text title), ("command", .text correctCommand),
        ("arguments", .list [data])]),
      ("isPreferred", .bool true)])
  else none

/-- The edits that correct a document, as an answer. -/
def formatted (env : Environment) (uri : Uri) (range : Option Range) (t : Turn L) : Turn L × Value :=
  if !t.state.settings.documentFormatting then (t, .null)
  else
    let (t, found) := correct env uri none range t
    (t, match found with
      | some (_, edits) => .list (edits.map Edit.toJson)
      | none => .null)

/-- Runs a command. The only one there is corrects a cop and sends the edits to the client. -/
def execute (env : Environment) (command : String) (arguments : List Value) (t : Turn L) : Turn L :=
  if command != correctCommand then t
  else
    match arguments.head?.bind Correction.ofJson? with
    | none => t
    | some c =>
      let (t, found) := correct env c.uri (some c.copName) (some c.range) t
      match found with
      | some (doc, edits) => t.send (.applyEdit c.uri doc.version edits)
      | none => t

/-- Answers a request. -/
def respond (env : Environment) (r : Request) (t : Turn L) : Turn L × Value :=
  let settings := t.state.settings
  let e := t.state.encoding
  let fromSource (enabled : Bool) (uri : Uri) (answer : Source → Value) : Value :=
    if enabled then ((sourceOf? t.state uri).map answer).getD .null else .null
  match r with
  | .documentHighlight uri position =>
    (t, fromSource settings.documentHighlight uri fun s =>
      .list ((Highlight.rangesAt e s position).map highlightJson))
  | .selectionRange uri positions =>
    (t, fromSource settings.selectionRanges uri fun s =>
      .list ((Selection.chainsAt e s positions).map chainJson))
  | .documentSymbol uri =>
    (t, fromSource settings.documentSymbol uri fun s => Outline.toWire (Outline.ranges e s))
  | .formatting uri => formatted env uri none t
  | .rangeFormatting uri range => formatted env uri (some range) t
  | .codeAction uri diagnostics =>
    (t, fromSource true uri fun _ => .list (diagnostics.filterMap quickFix?))
  | .executeCommand command arguments => (execute env command arguments t, .null)

/-! ### Messages -/

/-- The end of a turn: what happened, and the response if one is due. -/
structure Reaction (L : Type := Url) where
  turn : Turn L
  response : Option Response

/-- Takes in one message. -/
def receive (env : Environment) (s : State L) (m : Envelope) : Reaction L :=
  let delivery := env.service.deliver s.phase m
  let t : Turn L := .begin { s with phase := delivery.phase }
  match delivery.call with
  | .introduction p =>
    let t := welcome env p t
    ⟨t, some (.result (capabilities t.state.encoding))⟩
  | .farewell => ⟨t, some (.result .null)⟩
  | .request r =>
    let (t, v) := respond env r t
    ⟨t, some (.result v)⟩
  | .notification n => ⟨notify env n t, none⟩
  | .nothing response => ⟨t, response⟩

end RubyLens.Server
