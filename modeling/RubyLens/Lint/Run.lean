import RubyLens.Files
import RubyLens.Lint.Offense
import RubyLens.Text.Blank
import RubyLens.Text.Digit

/-!
Running the linter on a text that is handed to it, and reading what it answers. Whether it is run at
all, and how it is called, depends on files above the directory in which it runs.
-/

namespace RubyLens.Lint

/-- One call of a program: the program with its arguments, where it runs, what it is given to read,
and how long it may take in milliseconds. -/
structure Invocation where
  argv : List String
  workdir : Path
  input : Text
  timeoutMs : Nat

namespace Invocation

/-- The most bytes that an argument may have. -/
def maxArgument : Nat := 131071

/-- Why a call cannot even begin, whatever programs there are. No text that is handed to the
operating system may have a character with the number zero, and that is seen first; the directory is
entered before a program is looked for. -/
def obstacle? (fs : Files) (call : Invocation) : Option OsError :=
  if (call.workdir :: call.argv).any fun s => s.toList.contains (Char.ofNat 0) then some .nulByte
  else fs.workdirError call.workdir

/-- An argument has more bytes than a program can be given. -/
def isTooLong (call : Invocation) : Bool := call.argv.any fun s => maxArgument < s.utf8ByteSize

end Invocation

/-- What becomes of a call. -/
inductive Outcome where
  | notStarted (cause : OsError)
  | timedOut
  /-- The program ended. It may have done so before it was given all of its input. -/
  | finished (inputRead : Bool) (success : Bool) (output errors : Bytes)

/-- The programs that can be called. -/
abbrev Tool := Invocation → Outcome

/-- What becomes of a call that may have an obstacle. The arguments are copied once the program has
been found, and no program ends in no time. -/
def Tool.attempt (fs : Files) (tool : Tool) (call : Invocation) : Outcome :=
  match call.obstacle? fs, tool call with
  | some cause, _ => .notStarted cause
  | none, .notStarted cause => .notStarted cause
  | none, outcome =>
    if call.isTooLong then .notStarted .argumentTooLong
    else if call.timeoutMs = 0 then .timedOut
    else outcome

/-- Where the linter runs, and how long it may take in milliseconds. -/
structure Runner where
  workdir : Path
  timeoutMs : Nat

def toolName : String := "rubocop"

/-- The linter is in use where it is configured. -/
def isConfigured (fs : Files) (dir : Path) : Bool := fs.aboveHas dir [".rubocop.yml"]

/-- Projects that pin their libraries run the linter through `bundle`. -/
def usesBundler (fs : Files) (dir : Path) : Bool := fs.aboveHas dir ["Gemfile", "gems.rb"]

/-- The name under which a text is linted. A buffer that was never saved gets a name that no cop
objects to. -/
def displayPath (path : String) : String :=
  let start := "Untitled-".toList
  if start.isPrefixOf path.toList then
    let number := path.toList.drop start.length
    if !number.isEmpty && number.all isDecimalDigit then "untitled_" ++ String.ofList number
    else path
  else path

def lintArgs (path : String) : List String :=
  ["--force-exclusion", "--format", "json", "--stdin", displayPath path]

/-- The arguments that correct all offenses, or those of one cop. -/
def fixArgs (path : String) (cop : Option String) : List String :=
  ["--force-exclusion", "--autocorrect-all", "--stdin", path] ++
    match cop with
    | some cop => ["--only", cop]
    | none => []

/-- The line between the report and the corrected text. -/
def separator : Text := List.replicate 20 '='

/-- What follows the first separator line. -/
def behindSeparator (atLineStart : Bool) (t : Text) : Option Text :=
  if atLineStart && Text.firstLine t == separator then some (t.drop separator.length)
  else
    match t with
    | [] => none
    | c :: t => behindSeparator (c == '\n') t

/-- The corrected text in what the linter prints. White space in front of it is not part of it. -/
def correctedText? (output : Text) : Option Text :=
  (behindSeparator true output).map Text.trimStart

namespace Runner

def invocation (fs : Files) (r : Runner) (args : List String) (code : Text) : Invocation :=
  let program := if usesBundler fs r.workdir then ["bundle", "exec", toolName] else [toolName]
  ⟨program ++ args, r.workdir, code, r.timeoutMs⟩

/-- What the linter printed. One that finds offenses does not end in success either, so only what it
says on its error channel makes a failure. -/
def output (r : Runner) : Outcome → Except Failure Text
  | .notStarted cause => .error (.externalTool toolName ("failed to spawn: " ++ cause.message))
  | .timedOut => .error (.timeout toolName (r.timeoutMs * 1000))
  | .finished inputRead success out err =>
    let errors := Text.trim (Utf8.lossy err)
    if !inputRead && errors.isEmpty then .error (.io OsError.brokenPipe.message)
    else if (!inputRead || !success) && !errors.isEmpty then
      .error (.externalTool toolName (String.ofList errors))
    else .ok (Utf8.lossy out)

/-- The offenses in a text that stands for the file at `path`, as they are read off a report. -/
def lint (fs : Files) (tool : Tool) (r : Runner) (code : Text) (path : String)
    (report : Text → Except Failure (List Offense) := Offense.parse) :
    Invocation × Except Failure (List Offense) :=
  let call := r.invocation fs (lintArgs path) code
  (call, (r.output (tool.attempt fs call)).bind report)

/-- A text with its offenses corrected. -/
def fix (fs : Files) (tool : Tool) (r : Runner) (code : Text) (path : String)
    (cop : Option String) : Invocation × Except Failure Text :=
  let call := r.invocation fs (fixArgs path cop) code
  (call, (r.output (tool.attempt fs call)).bind fun out =>
    match correctedText? out with
    | some text => .ok text
    | none => .error (.externalTool toolName "corrected source missing from output"))

end Runner

end RubyLens.Lint
