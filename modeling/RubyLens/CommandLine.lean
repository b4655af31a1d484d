import RubyLens.Json.Writer
import RubyLens.Query.Highlight
import RubyLens.Protocol.Wire
import RubyLens.Files

/-!
The command line: the outline of a file, the keywords that belong together at a position of a file,
or, without a command, a session with an editor.
-/

namespace RubyLens.CommandLine

inductive Command where
  | outline (file : Path)
  | highlights (file : Path) (position : Position)
  | serve
  | version
  | help (topic : Option String)
deriving DecidableEq, Repr

/-- What a run leaves behind. -/
structure Outcome where
  exitCode : Nat
  output : String
  errors : String
deriving DecidableEq, Repr

/-! ### Arguments -/

/-- The operands of a command: a file, and for highlights also a line and a column. -/
def operands? : String → Option Nat
  | "outline" => some 1
  | "highlights" => some 3
  | _ => none

/-- A number of 32 bits, which may have a sign. Below zero there is none, but zero itself may have
either sign. -/
def number? (s : String) : Option Nat :=
  let (limit, ds) := match s.toList with
    | '+' :: ds => (0x100000000, ds)
    | '-' :: ds => (1, ds)
    | ds => (0x100000000, ds)
  if !ds.isEmpty && ds.all Char.isDigit && digitsValue ds < limit then some (digitsValue ds)
  else none

/-- An operand that can stand at a place: the first is a path, the others are numbers. -/
def isOperand (place : Nat) (s : String) : Bool :=
  if place = 0 then !s.isEmpty else (number? s).isSome

/-- What has been read of the arguments: the command, its operands, whether the option for logging
has been given at this level, and whether only operands are left. -/
structure Arguments where
  command : Option String
  operands : List String
  logged : Bool
  operandsOnly : Bool

/-- The command that arguments amount to, if they are complete. -/
def Arguments.finish (a : Arguments) : Option Command :=
  match a.command, a.operands with
  | none, _ => some .serve
  | some "outline", [file] => some (.outline file)
  | some "highlights", [file, line, column] =>
    match number? line, number? column with
    | some row, some column => some (.highlights file ⟨row, column⟩)
    | _, _ => none
  | _, _ => none

def startsWith (s start : String) : Bool := start.toList.isPrefixOf s.toList

/-- Takes an argument for a command or an operand. -/
def Arguments.operand? (a : Arguments) (s : String) : Option Arguments :=
  match a.command with
  | none =>
    if !a.operandsOnly && (operands? s).isSome then some ⟨some s, [], false, false⟩ else none
  | some c =>
    if a.operands.length < (operands? c).getD 0 && isOperand a.operands.length s then
      some { a with operands := a.operands ++ [s] }
    else none

/-- Reads arguments from the left. Asking for help or for the version ends the reading. -/
def parseFrom (a : Arguments) : List String → Option Command
  | [] => a.finish
  | s :: rest =>
    if a.operandsOnly then (a.operand? s).bind (parseFrom · rest)
    else if s = "--" then parseFrom { a with operandsOnly := true } rest
    else if s = "--log-level" then
      match rest with
      | value :: rest =>
        if a.logged || (startsWith value "-" && value != "-") then none
        else parseFrom { a with logged := true } rest
      | [] => none
    else if startsWith s "--log-level=" then
      if a.logged then none else parseFrom { a with logged := true } rest
    else if s = "--help" || startsWith s "-h" then some (.help a.command)
    else if a.command.isNone && (s = "--version" || startsWith s "-V") then some .version
    else if startsWith s "-" && s != "-" then none
    else if a.command.isNone && s = "help" then
      match rest with
      | [] => some (.help none)
      | [topic] =>
        if (operands? topic).isSome || topic = "help" then some (.help (some topic)) else none
      | _ => none
    else (a.operand? s).bind (parseFrom · rest)

/-- The command that arguments spell. -/
def parse? (args : List String) : Option Command := parseFrom ⟨none, [], false, false⟩ args

/-! ### Running -/

def logOption : String :=
  "      --log-level <LOG_LEVEL>  Log filter used when RUST_LOG is unset (e.g. debug, " ++
    "ruby_light=trace)\n" ++
  "  -h, --help                   Print help\n"

def helpText (topic : Option String) : String :=
  match topic with
  | some "outline" =>
    "Print the outline of a Ruby file as JSON\n\nUsage: ruby-light outline [OPTIONS] <FILE>\n\n" ++
    "Arguments:\n  <FILE>  \n\nOptions:\n" ++ logOption
  | some "highlights" =>
    "Print the keyword highlights at a position as JSON\n\n" ++
    "Usage: ruby-light highlights [OPTIONS] <FILE> <LINE> <CHARACTER>\n\n" ++
    "Arguments:\n  <FILE>       \n  <LINE>       Zero-based line\n" ++
    "  <CHARACTER>  Zero-based UTF-16 column\n\nOptions:\n" ++ logOption
  | some "help" =>
    "Print this message or the help of the given subcommand(s)\n\n" ++
    "Usage: ruby-light help [COMMAND]...\n\n" ++
    "Arguments:\n  [COMMAND]...  Print help for the subcommand(s)\n"
  | _ =>
    "Ruby language server: keyword highlights, selection ranges, outline and RuboCop\n\n" ++
    "Usage: ruby-light [OPTIONS] [COMMAND]\n\nCommands:\n" ++
    "  outline     Print the outline of a Ruby file as JSON\n" ++
    "  highlights  Print the keyword highlights at a position as JSON\n" ++
    "  help        Print this message or the help of the given subcommand(s)\n\nOptions:\n" ++
    logOption ++ "  -V, --version                Print version\n"

/-- The file that a command is about. -/
def Command.file? : Command → Option Path
  | .outline file | .highlights file _ => some file
  | _ => none

/-- Prints what `answer` finds in a file, or why the file cannot be read. -/
def overFile (read : Path → Except OsError Text) (parser : Parser) (file : Path)
    (answer : Source → Json.Value) : Outcome :=
  match read file with
  | .error e => ⟨1, "", "Error: failed to read " ++ file ++ ": " ++ e.message ++ "\n"⟩
  | .ok text => ⟨0, (answer (Source.parse parser text)).render .pretty ++ "\n", ""⟩

/-- Runs a command. A session in which no message arrives leaves nothing behind. -/
def run (read : Path → Except OsError Text) (parser : Parser) : Command → Outcome
  | .outline file => overFile read parser file fun s => Outline.toJson (Outline.ranges .utf16 s)
  | .highlights file position =>
    overFile read parser file fun s =>
      .list ((Highlight.rangesAt .utf16 s position).map Range.toJson)
  | .serve => ⟨0, "", ""⟩
  | .version => ⟨0, "ruby-light 0.1.0\n", ""⟩
  | .help topic => ⟨0, helpText topic, ""⟩

/-- The end of a run whose arguments cannot be read. -/
def usageError : Outcome := ⟨2, "", "For more information, try '--help'.\n"⟩

/-- A run with the given arguments. -/
def runArgs (read : Path → Except OsError Text) (parser : Parser) (args : List String) : Outcome :=
  match parse? args with
  | some command => run read parser command
  | none => usageError

end RubyLens.CommandLine
