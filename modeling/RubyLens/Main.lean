import RubyLens.CommandLine
import RubyLens.Json.Reader
import RubyLens.Syntax.Rows

/-!
The program. The concrete syntax of a file is taken from a file beside it, which a parser has left
there; a file without one is a program without parts.
-/

namespace RubyLens

open CommandLine

/-- Why the operating system refuses, as far as it matters here. -/
def OsError.ofIOError : IO.Error → OsError
  | .inappropriateType .. => .isDirectory
  | _ => .notFound

def readBytes (file : Path) : IO (Except OsError Bytes) := do
  try
    let bytes ← IO.FS.readBinFile file
    return .ok bytes.toList
  catch e => return .error (.ofIOError e)

def readFile (file : Path) : IO (Except OsError Text) := do
  return (← readBytes file).bind Files.decode

/-- The file in which a parser leaves the concrete syntax of another file. -/
def concretePath (file : Path) : Path := file ++ ".syntax.json"

def readConcrete (file : Path) : IO (Option Concrete) := do
  match ← readFile (concretePath file) with
  | .ok text => return (Json.read? text).bind Concrete.ofJson?
  | .error _ => return none

/-- Reads a stream to its end. -/
partial def drain (stream : IO.FS.Stream) : IO Unit := do
  let line ← stream.getLine
  if line.isEmpty then return
  drain stream

def runCommand (command : Command) : IO Outcome := do
  match command.file? with
  | some file =>
    let contents ← readFile file
    let root ← readConcrete file
    return run (fun _ => contents) (fun _ => root) command
  | none =>
    if command = .serve then drain (← IO.getStdin)
    return run (fun _ => .error .notFound) (fun _ => none) command

end RubyLens

def main (args : List String) : IO UInt32 := do
  let outcome ← match RubyLens.CommandLine.parse? args with
    | some command => RubyLens.runCommand command
    | none => pure RubyLens.CommandLine.usageError
  IO.print outcome.output
  IO.eprint outcome.errors
  return outcome.exitCode.toUInt32
