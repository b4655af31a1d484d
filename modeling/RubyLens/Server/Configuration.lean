import RubyLens.Server.Linting

/-!
Settings of the running server: they are loaded anew whenever the client may have changed its part
of them, from the files and from what it sends at that time.
-/

namespace RubyLens.Server

open Json (Value)

variable {L : Type} [DecidableEq L] [Locator L]

/-- The part of the client's configuration that is ours. -/
def configurationPart : String := "rubyLight"

def eventLevel : Settings.EventKind → MessageLevel
  | .info => .info
  | .warning => .warning

/-- Loads the settings and tells the user about it. -/
def reload (env : Environment) (sent : Option (Settings.Origin × Value)) (t : Turn L) : Turn L :=
  let (settings, events) :=
    Settings.load env.files env.surroundings t.state.root sent env.decoders
  let t := events.foldl (fun t e => t.log (eventLevel e.kind) e.message) t
  { t with state := { t.state with settings } }

/-- Asks the client for its configuration, if it can be asked. It answers with a list, of which the
first item is the one that was asked for. -/
def askConfiguration (env : Environment) (t : Turn L) : Turn L × Option Value :=
  if !t.state.answersConfiguration then (t, none)
  else
    let request : Outgoing := .configuration configurationPart
    (t.send request,
      match env.reply request.method with
      | some (.list (v :: _)) => some v
      | _ => none)

/-- What a client that pushes its configuration says about us: our part of it, or else all of it. -/
def pushedPart (settings : Value) : Option Value :=
  match settings with
  | .null => none
  | .object _ => some ((settings.member? configurationPart).getD settings)
  | v => some v

/-- Tells that configuration has changed. What the client answers when asked goes before what it
pushes. -/
def configurationChanged (env : Environment) (pushed : Value) (t : Turn L) : Turn L :=
  let (t, answer) := askConfiguration env t
  let value := answer.or (pushedPart pushed)
  lintAll env (reload env (value.map fun v => (.clientConfiguration, v)) t)

/-- The client is ready to be asked and told. -/
def initialized (env : Environment) (t : Turn L) : Turn L :=
  let (t, answer) := askConfiguration env t
  let t :=
    match answer with
    | some v => reload env (some (.clientConfiguration, v)) t
    | none => t
  let t :=
    if t.state.registersConfiguration then
      t.send (.registerCapability "ruby-light-did-change-configuration"
        "workspace/didChangeConfiguration")
    else t
  lintAll env (t.log .info "ruby-light is ready")

/-- The directory of the workspace: the first folder, or the root, if it is a file path, and else
the current directory. -/
def rootPath (L : Type) [Locator L] (env : Environment) (p : InitializeParams) : Path :=
  let folder : Option L := p.folders.head?.bind Uri.locator?
  let url := folder.or (p.rootUri.bind Uri.locator?)
  (url.bind Locator.filePath?).getD env.currentDir

/-- Takes in what the client tells about itself. -/
def welcome (env : Environment) (p : InitializeParams) (t : Turn L) : Turn L :=
  let state := { t.state with
    encoding := Encoding.negotiate p.encodings
    answersConfiguration := p.answersConfiguration
    registersConfiguration := p.registersConfiguration
    root := some (rootPath L env p) }
  reload env (p.options.map fun v => (.initializationOptions, v)) { t with state }

end RubyLens.Server
