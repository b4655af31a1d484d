import RubyLens.Documents
import RubyLens.Lint.Run
import RubyLens.Protocol.Outgoing
import RubyLens.Server.Service
import RubyLens.Settings.Load

/-!
One turn of the server: it starts with a message from the client, and in its course the state
changes, messages are sent and the linter is called.
-/

namespace RubyLens.Server

open Json (Value)

variable {L : Type}

/-- The state of the server, with open documents under locators of some kind. -/
structure State (L : Type := Url) where
  phase : Phase
  encoding : Encoding
  answersConfiguration : Bool
  registersConfiguration : Bool
  /-- The directory of the workspace. -/
  root : Option Path
  settings : Settings
  documents : Documents L

/-- The server before the first message. -/
def State.start : State L where
  phase := .fresh
  encoding := .utf16
  answersConfiguration := false
  registersConfiguration := false
  root := none
  settings := Layer.defaults.resolve
  documents := .empty

/-- What the server finds around it during a turn. All that it leaves to others is in here: the
service that calls on it, the parser, how texts are compared, and how settings and reports are
read. -/
structure Environment where
  service : Service := .standard
  parser : Parser
  /-- The changes that turn one text into another. -/
  compare : Text → Text → List Change
  files : Files
  surroundings : Option Surroundings
  currentDir : Path
  decoders : Settings.Decoders := .standard
  tool : Lint.Tool
  /-- The offenses in a report of the linter. -/
  report : Text → Except Failure (List Offense) := Offense.parse
  /-- What the client answers to a request with a given method; nothing if it answers with an
  error. -/
  reply : String → Option Value

/-- What has happened in a turn so far. -/
structure Turn (L : Type := Url) where
  state : State L
  sent : List Outgoing
  calls : List Lint.Invocation

namespace Turn

/-- A turn in which nothing has happened yet. -/
def begin (s : State L) : Turn L := ⟨s, [], []⟩

def send (m : Outgoing) (t : Turn L) : Turn L := { t with sent := t.sent ++ [m] }

def log (level : MessageLevel) (message : String) (t : Turn L) : Turn L :=
  t.send (.logMessage level message)

def record (call : Lint.Invocation) (t : Turn L) : Turn L := { t with calls := t.calls ++ [call] }

def setDocuments (d : Documents L) (t : Turn L) : Turn L :=
  { t with state := { t.state with documents := d } }

@[simp] theorem state_begin (s : State L) : (begin s).state = s := rfl

@[simp] theorem state_send (m : Outgoing) (t : Turn L) : (t.send m).state = t.state := rfl

@[simp] theorem state_log (l : MessageLevel) (m : String) (t : Turn L) :
    (t.log l m).state = t.state := rfl

@[simp] theorem state_record (c : Lint.Invocation) (t : Turn L) : (t.record c).state = t.state := rfl

end Turn

end RubyLens.Server
