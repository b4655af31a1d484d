import RubyLens.Failure
import RubyLens.Files
import RubyLens.Settings.Layer
import RubyLens.Toml.Reader

/-!
Loading settings. From the bottom up the layers are the defaults, the file of the user, the file of
the project and what the client sends. A layer that cannot be read is reported and left out. How
layers are written is not settled here (`Decoders`).
-/

namespace RubyLens

open Json (Value)

def configFileName : String := "ruby-light.toml"

/-- A layer in a configuration file. A record written as a list may go on behind its last field, and
what stands there is not looked at; members with unknown keys are. -/
def Layer.ofToml? (t : Text) : Option Layer :=
  (Toml.read? t).bind (Layer.ofValue? fun names v =>
    match v with
    | .list vs => Value.record? names (.list (vs.take names.length))
    | .object ms =>
      let unknown := ms.filter fun m => m.1.all fun key => !names.contains key
      if unknown.all fun m => m.2.isSound then Value.record? names (.object ms) else none
    | v => Value.record? names v)

/-- Where the system keeps configuration: the variable that names the directory, which may be unset,
the one that names the home directory, and the home directory of the account, which counts if the
latter is empty. Where neither variable is set and the account has no home directory there is no
such place; then there are no surroundings. -/
structure Surroundings where
  configHome : Option String
  home : String
  accountHome : Path

namespace Surroundings

/-- The directory for configuration is `.config` in the home directory, unless it is named. -/
def configDir (s : Surroundings) : Path :=
  match s.configHome.filter (· != "") with
  | some dir => dir
  | none => Path.join (if s.home.isEmpty then s.accountHome else s.home) ".config"

/-- The path of the user's file, whether it is there or not. -/
def userConfigPath (s : Surroundings) : Path :=
  Path.join (Path.join s.configDir "ruby-light") configFileName

end Surroundings

namespace Settings

/-- How layers are read: off the text of a file, and off what a client sends. What is no layer comes
with a word on what is wrong. -/
structure Decoders where
  file : Text → Except String Layer
  client : Value → Except String Layer

/-- Files are tables, clients send objects. -/
def Decoders.standard : Decoders where
  file t := (Layer.ofToml? t).elim (.error "not a table of settings") .ok
  client v := (Layer.ofJson? v).elim (.error "not an object of settings") .ok

inductive EventKind where
  | info
  | warning
deriving DecidableEq, Repr

/-- Something to tell the user about loading. -/
structure Event where
  kind : EventKind
  message : String
deriving DecidableEq, Repr

/-- Where the topmost layer comes from. -/
inductive Origin where
  | initializationOptions
  | clientConfiguration
deriving DecidableEq, Repr

def Origin.description : Origin → String
  | initializationOptions => "initialization options"
  | clientConfiguration => "client configuration"

/-- What came of looking for a layer: the layer, if there is one, and what there is to tell. -/
abbrev Found := Option Layer × List Event

def notTaken (message : String) : Found := (none, [⟨.warning, message⟩])

section Layers

variable (fs : Files) (d : Decoders)

/-- The layer of the user. -/
def userLayer (s : Option Surroundings) : Found :=
  match s with
  | none => (none, [])
  | some s =>
    let path := s.userConfigPath
    let failed (f : Failure) : Found := notTaken ("Failed to load user config: " ++ f.message)
    if !fs.pathExists path then (none, [])
    else
      match fs.readText path with
      | .error e => failed (.io e.message)
      | .ok text =>
        match d.file text with
        | .ok layer => (some layer, [⟨.info, "Loaded user config"⟩])
        | .error e => failed (.config (path ++ ": " ++ e))

/-- The layer of the project. -/
def projectLayer (root : Option Path) : Found :=
  match root with
  | none => (none, [])
  | some root =>
    let path := Path.join root configFileName
    if !fs.pathExists path then (none, [])
    else
      let (layer, events) : Found :=
        match fs.readText path with
        | .error e => notTaken ("Failed to read " ++ configFileName ++ ": " ++ e.message)
        | .ok text =>
          match d.file text with
          | .ok layer => (some layer, [⟨.info, "Successfully loaded " ++ configFileName⟩])
          | .error e => notTaken ("Failed to parse " ++ configFileName ++ ": " ++ e)
      (layer, ⟨.info, "Found config file: " ++ path⟩ :: events)

/-- The layer of the client. Null says that nothing is set. -/
def clientLayer (sent : Option (Origin × Value)) : Found :=
  match sent with
  | none => (none, [])
  | some (_, .null) => (none, [])
  | some (origin, v) =>
    match d.client v with
    | .ok layer => (some layer, [⟨.info, "Parsed " ++ origin.description⟩])
    | .error e => notTaken ("Failed to parse " ++ origin.description ++ ": " ++ e)

end Layers

/-- The settings in force, and what there is to tell about them. -/
def load (fs : Files) (s : Option Surroundings) (root : Option Path)
    (sent : Option (Origin × Value)) (d : Decoders := .standard) : Settings × List Event :=
  let user := userLayer fs d s
  let project := projectLayer fs d root
  let client := clientLayer d sent
  let merged := Layer.mergeAll [some Layer.defaults, user.1, project.1, client.1]
  ((merged.getD Layer.defaults).resolve, user.2 ++ project.2 ++ client.2)

def toJson (s : Settings) : Value :=
  .record [("diagnostics", .bool s.diagnostics), ("documentFormatting", .bool s.documentFormatting),
    ("documentHighlight", .bool s.documentHighlight), ("documentSymbol", .bool s.documentSymbol),
    ("selectionRanges", .bool s.selectionRanges), ("rubocopTimeoutMs", .nat s.rubocopTimeoutMs)]

end Settings

end RubyLens
