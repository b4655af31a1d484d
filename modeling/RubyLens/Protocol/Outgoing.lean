import RubyLens.Lint.Diagnostic

/-!
What the server sends to its client.
-/

namespace RubyLens

open Json (Value)

inductive MessageLevel where
  | error
  | warning
  | info
deriving DecidableEq, Repr

def MessageLevel.code : MessageLevel → Nat
  | error => 1
  | warning => 2
  | info => 3

inductive Outgoing where
  | logMessage (level : MessageLevel) (message : String)
  | publishDiagnostics (uri : Uri) (diagnostics : List Diagnostic) (version : Option Int)
  /-- Asks for a part of the client's configuration. -/
  | configuration (part : String)
  | registerCapability (id method : String)
  | applyEdit (uri : Uri) (version : Option Int) (edits : List Edit)

namespace Outgoing

def method : Outgoing → String
  | logMessage _ _ => "window/logMessage"
  | publishDiagnostics _ _ _ => "textDocument/publishDiagnostics"
  | configuration _ => "workspace/configuration"
  | registerCapability _ _ => "client/registerCapability"
  | applyEdit _ _ _ => "workspace/applyEdit"

def params : Outgoing → Value
  | logMessage level message =>
    .record [("type", .nat level.code), ("message", .text message)]
  | publishDiagnostics uri diagnostics version =>
    .present [("uri", some (.text uri.text)),
      ("diagnostics", some (.list (diagnostics.map Diagnostic.toJson))),
      ("version", version.map .integer)]
  | configuration part => .record [("items", .list [.record [("section", .text part)]])]
  | registerCapability id method =>
    .record [("registrations", .list [.record [("id", .text id), ("method", .text method)]])]
  | applyEdit uri version edits =>
    let document : Value :=
      .record [("uri", .text uri.text), ("version", (version.map .integer).getD .null)]
    .record [("edit", .record [("documentChanges",
      .list [.record [("textDocument", document), ("edits", .list (edits.map Edit.toJson))]])])]

end Outgoing

end RubyLens
