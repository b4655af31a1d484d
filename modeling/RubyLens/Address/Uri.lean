import RubyLens.Address.Percent

/-!
Generic resource identifiers, the form in which a client names documents: a scheme, then an
authority and a path, a query and a fragment, all in ASCII.
-/

namespace RubyLens.Address

def isUnreserved (c : Char) : Bool := c.isAlphanum || ['-', '.', '_', '~'].contains c

def isSubDelim (c : Char) : Bool :=
  ['!', '$', '&', '\'', '(', ')', '*', '+', ',', ';', '='].contains c

/-- Only characters of a class and complete escapes. -/
def allOf (cls : Char → Bool) : Text → Bool
  | [] => true
  | '%' :: a :: b :: t => isHexDigit a && isHexDigit b && allOf cls t
  | c :: t => cls c && allOf cls t

def isUserinfoChar (c : Char) : Bool := isUnreserved c || isSubDelim c || c == ':'

def isNameChar (c : Char) : Bool := isUnreserved c || isSubDelim c

def isPathChar (c : Char) : Bool := isUserinfoChar c || c == '@' || c == '/'

def isQueryChar (c : Char) : Bool := isPathChar c || c == '?'

/-- The text before a character and, if it occurs, the text behind it. -/
def cutAt (c : Char) (t : Text) : Text × Option Text :=
  match t.dropWhile (· != c) with
  | [] => (t, none)
  | _ :: rest => (t.takeWhile (· != c), some rest)

/-- A number below 256 without leading zeros. -/
def isOctet (t : Text) : Bool :=
  !t.isEmpty && t.length ≤ 3 && t.all Char.isDigit && (t.length == 1 || t.head? != some '0') &&
    digitsValue t < 256

/-- The parts between separators. -/
def splitAt (sep : Char) : Text → List Text
  | [] => [[]]
  | c :: t =>
    match splitAt sep t with
    | [] => [[c]]
    | part :: parts => if c = sep then [] :: part :: parts else (c :: part) :: parts

def isIpv4 (t : Text) : Bool := (splitAt '.' t).length == 4 && (splitAt '.' t).all isOctet

/-- The number of 16-bit groups that colon-separated parts make up; the last part may be four
octets, which count as two. -/
def groups? : List Text → Option Nat
  | [] => some 0
  | [part] =>
    if isIpv4 part then some 2
    else if !part.isEmpty && part.length ≤ 4 && part.all isHexDigit then some 1
    else none
  | part :: parts =>
    if !part.isEmpty && part.length ≤ 4 && part.all isHexDigit then (groups? parts).map (· + 1)
    else none

/-- The groups on one side of a double colon, which may be none. -/
def sideGroups? (t : Text) : Option Nat := if t.isEmpty then some 0 else groups? (splitAt ':' t)

/-- The text before and behind the first double colon. -/
def cutDoubleColon : Text → Option (Text × Text)
  | [] => none
  | ':' :: ':' :: t => some ([], t)
  | c :: t => (cutDoubleColon t).map fun p => (c :: p.1, p.2)

/-- Eight groups, or fewer with one double colon in place of one or more of them. -/
def isIpv6 (t : Text) : Bool :=
  match cutDoubleColon t with
  | none => groups? (splitAt ':' t) == some 8
  | some (before, behind) =>
    match sideGroups? before, sideGroups? behind with
    | some a, some b => a + b ≤ 7 && !(splitAt ':' before).any isIpv4
    | _, _ => false

/-- `v`, a version in hexadecimal, a dot and some more. -/
def isFutureAddress (t : Text) : Bool :=
  match t with
  | 'v' :: rest | 'V' :: rest =>
    match cutAt '.' rest with
    | (version, some address) =>
      !version.isEmpty && version.all isHexDigit && !address.isEmpty &&
        address.all isUserinfoChar
    | _ => false
  | _ => false

/-- A name, an address, or an address in brackets, with an optional port. -/
def isHostPort (t : Text) : Bool :=
  match t with
  | '[' :: rest =>
    match cutAt ']' rest with
    | (address, some port) =>
      (isIpv6 address || isFutureAddress address) &&
        (match port with
        | [] => true
        | ':' :: digits => digits.all Char.isDigit
        | _ => false)
    | _ => false
  | _ =>
    match cutAt ':' t with
    | (name, none) => allOf isNameChar name
    | (name, some digits) => allOf isNameChar name && digits.all Char.isDigit

def isAuthority (t : Text) : Bool :=
  match cutAt '@' t with
  | (host, none) => isHostPort host
  | (userinfo, some host) => allOf isUserinfoChar userinfo && isHostPort host

/-- What stands between the scheme and the query. -/
def isHierarchy (t : Text) : Bool :=
  match t with
  | '/' :: '/' :: rest =>
    isAuthority (rest.takeWhile (· != '/')) && allOf isPathChar (rest.dropWhile (· != '/'))
  | _ => allOf isPathChar t

/-- A resource identifier with a scheme. -/
def isUri (t : Text) : Bool :=
  let (body, fragment) := cutAt '#' t
  let (body, query) := cutAt '?' body
  match cutAt ':' body with
  | (scheme, some rest) =>
    scheme.head?.any Char.isAlpha && scheme.all isSchemeChar && isHierarchy rest &&
      query.all (allOf isQueryChar) && fragment.all (allOf isQueryChar)
  | _ => false

end RubyLens.Address

namespace RubyLens

/-- A resource identifier as a client writes it. -/
structure Uri where
  text : String
  valid : Address.isUri text.toList = true
deriving DecidableEq

end RubyLens

namespace RubyLens.Uri

def ofString? (s : String) : Option Uri :=
  if h : Address.isUri s.toList = true then some ⟨s, h⟩ else none

theorem ofString?_text (u : Uri) : ofString? u.text = some u := by simp [ofString?, u.valid]

end RubyLens.Uri
