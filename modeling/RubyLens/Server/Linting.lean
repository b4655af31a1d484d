import RubyLens.Server.Turn

/-!
Diagnostics and corrections of open documents. The linter runs in the workspace, and only where it
is configured.
-/

namespace RubyLens.Server

variable {L : Type} [DecidableEq L] [Locator L]

/-- The directory in which the linter runs. -/
def workdir (env : Environment) (s : State L) : Path := s.root.getD env.currentDir

/-- The linter, if the workspace is set up for it. -/
def runner? (env : Environment) (s : State L) : Option Lint.Runner :=
  if Lint.isConfigured env.files (workdir env s) then
    some ⟨workdir env s, s.settings.rubocopTimeoutMs⟩
  else none

/-- The diagnostics of a document. A failure is told to the user and leaves none. -/
def diagnose (env : Environment) (url : L) (uri : Uri) (doc : Document) (t : Turn L) :
    Turn L × List Diagnostic :=
  if !t.state.settings.diagnostics then (t, [])
  else
    match runner? env t.state with
    | none => (t, [])
    | some runner =>
      let text := doc.source.text
      let (call, result) := runner.lint env.files env.tool text (Locator.documentPath url) env.report
      let t := t.record call
      match result with
      | .ok offenses => (t, offenses.map (·.toDiagnostic t.state.encoding text uri))
      | .error failure => (t.log .error failure.message, [])

/-- Lints a document and publishes what is found, even if that is nothing. -/
def lintAndPublish (env : Environment) (url : L) (t : Turn L) : Turn L :=
  match Locator.uri? url, t.state.documents.get? url with
  | some uri, some doc =>
    let (t, diagnostics) := diagnose env url uri doc t
    t.send (.publishDiagnostics uri diagnostics doc.version)
  | _, _ => t

/-- Lints all open documents. -/
def lintAll (env : Environment) (t : Turn L) : Turn L :=
  t.state.documents.urls.foldl (fun t url => lintAndPublish env url t) t

/-- The edits that correct an open document, for one cop or for all, and only those that start in a
range if one is given. There are none to speak of when the linter is not set up or fails. -/
def correct (env : Environment) (uri : Uri) (cop : Option String) (range : Option Range)
    (t : Turn L) : Turn L × Option (Document × List Edit) :=
  match (uri.locator? : Option L) with
  | none => (t, none)
  | some url =>
    match runner? env t.state, t.state.documents.get? url with
    | some runner, some doc =>
      let text := doc.source.text
      let (call, result) := runner.fix env.files env.tool text (Locator.documentPath url) cop
      let t := t.record call
      match result with
      | .ok corrected =>
        let changes := env.compare text corrected
        (t, some (doc, Edit.between t.state.encoding text corrected changes range))
      | .error failure => (t.log .error failure.message, none)
    | _, _ => (t, none)

end RubyLens.Server
