import RubyLens.Address.Host
import RubyLens.Address.Locator

/-!
Locators of the web, in their normal form: scheme and host in lower case, no default port, dot
segments resolved, and characters that have no place in a part written as escapes.
-/

namespace RubyLens

/-- Where below its host a locator points: a list of segments, or a text without structure. -/
inductive UrlPath where
  | bare (text : String)
  | segments (parts : List String)
deriving DecidableEq, Repr

structure Url where
  scheme : String
  username : String
  password : String
  /-- A locator may have no host, or an empty one. -/
  host : Option String
  port : Option Nat
  path : UrlPath
  query : Option String
  fragment : Option String
deriving DecidableEq, Repr

namespace Url

/-! ### Writing -/

/-- The path as it is written. -/
def pathText (u : Url) : String :=
  match u.path with
  | .bare t => t
  | .segments parts => String.join (parts.map ("/" ++ ·))

def credentials (u : Url) : String :=
  if u.username.isEmpty && u.password.isEmpty then ""
  else if u.password.isEmpty then u.username ++ "@"
  else u.username ++ ":" ++ u.password ++ "@"

/-- Host and port with the slashes in front. A path that starts with two slashes and has no host in
front gets a dot, so that it is not taken for a host. -/
def authority (u : Url) : String :=
  match u.host with
  | some host => "//" ++ u.credentials ++ host ++
    (match u.port with
    | some port => ":" ++ toString port
    | none => "")
  | none =>
    match u.path with
    | .segments ("" :: _ :: _) => "/."
    | _ => ""

def text (u : Url) : String :=
  u.scheme ++ ":" ++ u.authority ++ u.pathText ++
    (match u.query with
    | some q => "?" ++ q
    | none => "") ++
    (match u.fragment with
    | some f => "#" ++ f
    | none => "")

/-! ### Reading -/

open Address

/-- The schemes whose hosts are names of computers, with their usual port. -/
def usualPort? : String → Option (Option Nat)
  | "http" => some (some 80)
  | "https" => some (some 443)
  | "ws" => some (some 80)
  | "wss" => some (some 443)
  | "ftp" => some (some 21)
  | "file" => some none
  | _ => none

def isCommon (scheme : String) : Bool := (usualPort? scheme).isSome

/-- Characters that are escaped in a fragment, in a path and in credentials. -/
def escapedInFragment (c : Char) : Bool :=
  c.toNat ≤ 0x20 || ['"', '<', '>', '\x60'].contains c

def escapedInPath (c : Char) : Bool :=
  escapedInFragment c || ['#', '?', '\x7b', '\x7d'].contains c

def escapedInCredentials (c : Char) : Bool :=
  escapedInPath c || ['/', ':', ';', '=', '@', '[', '\\', ']', '^', '|'].contains c

def escapedInQuery (common : Bool) (c : Char) : Bool :=
  c.toNat ≤ 0x20 || ['"', '#', '<', '>'].contains c || (common && c == '\'')

def escaped (cls : Char → Bool) (t : Text) : String := String.ofList (percentEncode cls t)

/-- What separates segments. In common schemes a backslash counts as a slash. -/
def isSlash (common : Bool) (c : Char) : Bool := c == '/' || (common && c == '\\')

/-- The text between slashes. -/
def splitSlashes (common : Bool) : Text → List Text
  | [] => [[]]
  | c :: t =>
    match splitSlashes common t with
    | [] => [[c]]
    | part :: parts => if isSlash common c then [] :: part :: parts else (c :: part) :: parts

def isSingleDot (t : Text) : Bool := [".", "%2e"].contains (String.ofList (t.map Char.toLower))

def isDoubleDot (t : Text) : Bool :=
  ["..", ".%2e", "%2e.", "%2e%2e"].contains (String.ofList (t.map Char.toLower))

/-- A letter and a colon, or a bar in place of the colon. -/
def isDriveLetter (t : Text) : Bool :=
  match t with
  | [letter, mark] => letter.isAlpha && (mark == ':' || mark == '|')
  | _ => false

/-- Characters that are skipped wherever they stand. -/
def isSkipped (c : Char) : Bool := ['\t', '\n', '\r'].contains c

/-- A text without the characters that are skipped. -/
def visible (t : Text) : Text := t.filter fun c => !isSkipped c

/-- A drive and what follows it without a slash, where something was skipped between the two. -/
def cutDrive? (t : Text) : Option (Text × Text) :=
  match t.dropWhile isSkipped with
  | [] => none
  | letter :: t =>
    match t.dropWhile isSkipped with
    | ':' :: rest =>
      if letter.isAlpha && rest.head?.any isSkipped && !(visible rest).isEmpty then
        some ([letter, ':'], visible rest)
      else none
    | _ => none

/-- Segments without the last one. A drive stays. -/
def shorten (parts : List String) : List String :=
  if parts.getLast?.any fun part => isDriveLetter part.toList then parts else parts.dropLast

/-- A path that is being read: its segments, and whether it starts with a drive. -/
structure Walk where
  segments : List String
  onDrive : Bool

namespace Walk

/-- Where every path starts. -/
def start : Walk := ⟨[], false⟩

/-- Adds a segment. Dots are resolved, and the last segment may be empty. In a file path a drive
that comes first is written with a colon; a drive with skipped characters behind it is a segment of
its own, and dots behind it are not resolved. -/
def add (file last : Bool) (w : Walk) (t : Text) : Walk :=
  let part := visible t
  let leads := file && w.segments.isEmpty
  match if leads then cutDrive? t else none with
  | some (drive, rest) =>
    { w with segments := [String.ofList drive, escaped escapedInPath rest] }
  | none =>
    let closing := if last then [""] else []
    if isDoubleDot part then { w with segments := shorten w.segments ++ closing }
    else if isSingleDot part then { w with segments := w.segments ++ closing }
    else if leads && isDriveLetter part then ⟨[String.ofList (part.take 1 ++ [':'])], true⟩
    else { w with segments := w.segments ++ [escaped escapedInPath part] }

/-- Adds segments one by one. -/
def addAll (file : Bool) (w : Walk) : List Text → Walk
  | [] => w
  | part :: parts => addAll file (w.add file parts.isEmpty part) parts

end Walk

/-- The text behind the slash in front, if there is one. -/
def withoutSlash (common : Bool) (t : Text) : Text :=
  if t.head?.any (isSlash common) then t.drop 1 else t

/-- The segments of a path that is not one of a file. -/
def segmentsOf (scheme : String) (t : Text) : List String :=
  let common := isCommon scheme
  (Walk.start.addAll false (splitSlashes common (withoutSlash common t))).segments

/-- Host, port and what follows the port. A backslash ends a port even where it is no slash. -/
def hostPort? (scheme : String) (t : Text) : Option (String × Option Nat × Text) := do
  let inBrackets := if t.head? == some '[' then (t.takeWhile (· != ']')).length else 0
  let name := t.take inBrackets ++ (t.drop inBrackets).takeWhile (· != ':')
  let behind := ((t.drop inBrackets).dropWhile (· != ':')).drop 1
  let host ← if isCommon scheme then commonHost? name else otherHost? name
  let digits := behind.takeWhile (· != '\\')
  let rest := behind.dropWhile (· != '\\')
  if !digits.all Char.isDigit || 65535 < digitsValue digits then none
  else if digits.isEmpty then some (host, none, rest)
  else
    let port := digitsValue digits
    some (host, if usualPort? scheme == some (some port) then none else some port, rest)

/-- The text before the last `@`, if there is one, and the text behind it. -/
def cutCredentials (t : Text) : Option Text × Text :=
  match (t.reverse).dropWhile (· != '@') with
  | [] => (none, t)
  | _ :: before => (some before.reverse, (t.reverse.takeWhile (· != '@')).reverse)

/-- These credentials need no host behind them: there are none at all, or just a colon, or there is
nothing but an `@` where the locator ends. -/
def mayLackHost (userinfo : Option Text) (ends : Bool) : Bool :=
  match userinfo with
  | none => true
  | some [] => ends
  | some t => t == [':']

/-- A locator whose host stands in front of the path. The locator may end behind `body`. -/
def withAuthority? (scheme : String) (body : Text) (ends : Bool) : Option Url := do
  let common := isCommon scheme
  let authority := body.takeWhile fun c => !isSlash common c
  let path := body.dropWhile fun c => !isSlash common c
  let (userinfo, hostText) := cutCredentials authority
  if hostText.isEmpty && (common || !mayLackHost userinfo (ends && path.isEmpty)) then none
  else
    let (host, port, rest) ← hostPort? scheme hostText
    if host.isEmpty && (hostText.contains ':') then none
    else
      let (username, password) := cutAt ':' (userinfo.getD [])
      let path := rest ++ path
      some {
        scheme
        username := escaped escapedInCredentials username
        password := escaped escapedInCredentials (password.getD [])
        host := some host
        port
        path := .segments (if path.isEmpty && !common then [] else segmentsOf scheme path)
        query := none
        fragment := none }

/-- A locator without credentials and port. -/
def plain (scheme : String) (host : Option String) (path : UrlPath) : Url :=
  ⟨scheme, "", "", host, none, path, none, none⟩

/-- A locator of a file on a host. The path does not start with an empty segment, and a drive has no
host. -/
def ofFileWalk (host : String) (w : Walk) : Url :=
  let parts := w.segments.dropWhile (· == "")
  plain "file" (some (if w.onDrive then "" else host))
    (.segments (if parts.isEmpty then [""] else parts))

/-- The path of a file, slash by slash. -/
def fileWalk (t : Text) : Walk := Walk.start.addAll true (splitSlashes true t)

/-- A locator of a file. The local host is the same as none; behind either, a drive does not come
first, since the slash in front of it counts. -/
def ofFileBody? (body : Text) : Option Url :=
  match body.dropWhile isSkipped with
  | [] => some (ofFileWalk "" (fileWalk []))
  | a :: rest =>
    if !isSlash true a then some (ofFileWalk "" (fileWalk body))
    else
      match rest.dropWhile isSkipped with
      | [] => some (ofFileWalk "" (fileWalk rest))
      | b :: rest' =>
        if !isSlash true b then some (ofFileWalk "" (fileWalk rest))
        else
          let hostText := visible (rest'.takeWhile fun c => !isSlash true c)
          let behind := rest'.dropWhile fun c => !isSlash true c
          if isDriveLetter hostText then some (ofFileWalk "" (fileWalk rest'))
          else if hostText.isEmpty then some (ofFileWalk "" (fileWalk behind))
          else
            (commonHost? hostText).map fun host =>
              if host == "localhost" then ofFileWalk "" (fileWalk behind)
              else ofFileWalk host (fileWalk (withoutSlash true behind))

/-- A locator up to its query. -/
def ofBody? (scheme : String) (body : Text) (ends : Bool) : Option Url :=
  let seen := visible body
  if scheme == "file" then ofFileBody? body
  else if isCommon scheme then withAuthority? scheme (seen.dropWhile (isSlash true)) ends
  else
    match seen with
    | '/' :: '/' :: rest => withAuthority? scheme rest ends
    | '/' :: _ => some (plain scheme none (.segments (segmentsOf scheme seen)))
    | _ => some (plain scheme none (.bare (escaped (fun c => c.toNat < 0x20) seen)))

/-- The text without blanks and control characters at its ends. -/
def trimmed (t : Text) : Text :=
  let strip (t : Text) : Text := t.dropWhile fun c => c.toNat ≤ 0x20
  (strip (strip t).reverse).reverse

/-- Reads a locator, which has to name its scheme. -/
def parse? (s : String) : Option Url := do
  let (beforeFragment, fragment) := cutAt '#' (trimmed s.toList)
  let (beforeQuery, query) := cutAt '?' beforeFragment
  match cutAt ':' beforeQuery with
  | (front, some body) =>
    let scheme := visible front
    if scheme.head?.any Char.isAlpha && scheme.all isSchemeChar then
      let scheme := String.ofList (scheme.map Char.toLower)
      let url ← ofBody? scheme body (query.isNone && fragment.isNone)
      some { url with
        query := query.map fun q => escaped (escapedInQuery (isCommon scheme)) (visible q)
        fragment := fragment.map fun f => escaped escapedInFragment (visible f) }
    else none
  | _ => none

/-! ### Files -/

/-- The path of the file that a locator names, if it names one on this computer. -/
def filePath? (u : Url) : Option Path :=
  match u.path with
  | .bare _ => none
  | .segments [] => none
  | .segments parts =>
    if u.host.all fun host => host == "" || host == "localhost" then
      let bytes := parts.flatMap fun part => 0x2f :: percentDecode part.toList
      let path := Utf8.lossy bytes
      let drive := isDriveLetter (path.drop (path.length - 2)) && 2 < path.length
      some (String.ofList (if drive then path ++ ['/'] else path))
    else none

instance : Locator Url where
  parse? := parse?
  text := text
  filePath? := filePath?
  pathText := pathText

end Url

end RubyLens
