import RubyLens.Text.Utf8

/-!
A file system as far as the program looks at it: a list of files and directories, and paths that are
resolved component by component. A component below something that is no directory, or that is not
there, cannot be resolved, even if `..` leads away from it again.
-/

namespace RubyLens

/-- Why the operating system refuses. -/
inductive OsError where
  | notFound
  | argumentTooLong
  | notDirectory
  | isDirectory
  | brokenPipe
  | nameTooLong
  | nulByte
  | invalidText
deriving DecidableEq, Repr

def OsError.message : OsError → String
  | notFound => "No such file or directory (os error 2)"
  | argumentTooLong => "Argument list too long (os error 7)"
  | notDirectory => "Not a directory (os error 20)"
  | isDirectory => "Is a directory (os error 21)"
  | brokenPipe => "Broken pipe (os error 32)"
  | nameTooLong => "File name too long (os error 36)"
  | nulByte => "nul byte found in provided data"
  | invalidText => "stream did not contain valid UTF-8"

/-- A path as it is written. -/
abbrev Path := String

namespace Path

def isAbsolute (p : Path) : Bool := p.toList.head? == some '/'

/-- Empty components and single dots stay where they are. -/
def isStay (c : String) : Bool := c == "" || c == "."

/-- The most bytes that a component may have. -/
def maxComponent : Nat := 255

/-- The most bytes that a path may have. -/
def maxSize : Nat := 4095

/-- The components as they are written, with those that are empty. -/
def parts (p : Path) : List String := (p.toList.splitOn '/').map String.ofList

/-- The components that lead somewhere. -/
def components (p : Path) : List String := (parts p).filter fun c => !isStay c

/-- A path below another. An absolute path stays what it is. -/
def join (base p : Path) : Path :=
  if isAbsolute p then p
  else if base.toList.getLast? == some '/' || base.isEmpty then base ++ p
  else base ++ "/" ++ p

end Path

/-- A component list from the root of the file system. -/
abbrev Trail := List String

/-- What is stored: files with their bytes, and directories. The directories above these, and above
the working directory, exist too. -/
structure Files where
  workdir : Trail
  entries : List (Trail × Option Bytes)

namespace Files

/-- The directories that something stored lies in, and the working directory. -/
def isDirTrail (fs : Files) (t : Trail) : Bool :=
  t.isPrefixOf fs.workdir ||
    fs.entries.any fun e => t.isPrefixOf e.1 && (e.1.length != t.length || e.2.isNone)

def bytes? (fs : Files) (t : Trail) : Option Bytes := (fs.entries.lookup t).join

/-- Follows components from a trail. -/
def follow (fs : Files) : Trail → List String → Except OsError Trail
  | t, [] => .ok t
  | t, c :: cs =>
    if !fs.isDirTrail t then .error .notDirectory
    else if Path.isStay c then follow fs t cs
    else if Path.maxComponent < c.utf8ByteSize then .error .nameTooLong
    else
      let next := if c = ".." then t.dropLast else t ++ [c]
      if fs.isDirTrail next || (fs.bytes? next).isSome then follow fs next cs
      else .error .notFound

/-- The trail of something that exists. -/
def resolve (fs : Files) (p : Path) : Except OsError Trail :=
  if p.isEmpty then .error .notFound
  else if Path.maxSize < p.utf8ByteSize then .error .nameTooLong
  else follow fs (if Path.isAbsolute p then [] else fs.workdir) (Path.parts p)

def pathExists (fs : Files) (p : Path) : Bool := (fs.resolve p).toOption.isSome

def isFile (fs : Files) (p : Path) : Bool :=
  (fs.resolve p).toOption.any fun t => (fs.bytes? t).isSome

/-- The text that bytes spell. -/
def decode (bytes : Bytes) : Except OsError Text :=
  match Utf8.strict? bytes with
  | some text => .ok text
  | none => .error .invalidText

/-- The text of a file. -/
def readText (fs : Files) (p : Path) : Except OsError Text := do
  let t ← fs.resolve p
  match fs.bytes? t with
  | none => .error .isDirectory
  | some bytes => decode bytes

/-- Why a program cannot be started in a directory, if it cannot. -/
def workdirError (fs : Files) (p : Path) : Option OsError :=
  match fs.resolve p with
  | .error e => some e
  | .ok t => if fs.isDirTrail t then none else some .notDirectory

/-- One of the given files stands in a directory or in one above it. The directories above are found
by taking components off the path as it is written. -/
def aboveHas (fs : Files) (dir : Path) (names : List String) : Bool :=
  let root := if Path.isAbsolute dir then "/" else ""
  let components := Path.components dir
  (List.range (components.length + 1)).any fun n =>
    names.any fun name => fs.isFile (root ++ String.intercalate "/" (components.take n ++ [name]))

end Files

end RubyLens
