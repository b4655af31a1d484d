import RubyLens.Domain.Mark

/-!
Writing from the right to the left. In a name with letters that are written so, every part has to
keep to one direction, or else it could be shown like another name. The tables are about characters
that a name can contain.
-/

namespace RubyLens.Domain

/-- What a character means for the direction of a text. -/
inductive Direction where
  | left
  | right
  | arabicNumber
  | number
  | mark
  | neutral
deriving DecidableEq, Repr

def rightChars : List CharRange := ranges "
5BE-5F4 608 60B 60D 61B-64A 66D-6D5 6E5-6E6 6EE-6EF 6FA-7F5 7FA-8C9 FBB2-FBC2 FE73 10800-1091B
10920-10B35 10B40-10D23 10D40-10D4F 10D6F-10D8F 10E80-10EC7 10F00-10FF6 1E800-1ED3D"

def arabicNumberChars : List CharRange := ranges "660-669 66B-66C 10D30-10D39 10E60-10E7E"

def numberChars : List CharRange := ranges "6F0-6F9 102E1-102FB"

def neutralChars : List CharRange := ranges "
A1-D7 F7 2B9-2BA 2C2-2CF 2D2-2ED 2EF-2FF 375 3F6 58A-58F 606-607 609-60A 60C 60E-60F 66A 6DE 6E9
7F6-7F9 9F2-9F3 9FB AF1 BF3-BFA C78-C7E E3F F3A-F3D 1390-1399 1400 169B-169C 17DB 17F0-180A
1940-1945 19DE-19FF 200C-214D 218A-2335 237B-2394 2396-26AB 26AD-27FF 2900-2BFF 2CE5-2CEA
2CF9-2CFF 2E00-3004 3008-3020 3030 3037 303D-303F 30A0 30FB 31C0-31E5 4DC0-4DFF A490-A4C6
A60D-A60F A673-A67F A700-A721 A788 A828-A82B A838-A839 A874-A877 AB6A-AB6B FBC3-FE46 10101
10140-1018C 10190-101A0 1091F 10B39-10B3F 10D6E 10ED0-10ED8 11052-11065 11660-1166C 11FD5-11FF1
16FE2 1CC00-1CEF0 1D1E9-1D245 1D300-1D356 1E2FF 1EEF0-1F12F 1F16D-1F16F 1F1AD 1F260-1FBFA"

/-- Marks that have the direction of a letter. -/
def leftMarks : List CharRange := ranges "CBF CC6 11A07-11A08 11C3F"

namespace Direction

def of (c : Char) : Direction :=
  if isAscii c then if c.isAlpha then .left else if c.isDigit then .number else .neutral
  else if isNonspacingMark c then if inRanges leftMarks c then .left else .mark
  else if inRanges rightChars c then .right
  else if inRanges arabicNumberChars c then .arabicNumber
  else if inRanges numberChars c then .number
  else if inRanges neutralChars c then .neutral
  else .left

/-- What shows that a name is written from the right to the left. -/
def isRight (d : Direction) : Bool := d == .right || d == .arabicNumber

/-- A part of a name keeps to one direction. Its first character says which, and it ends with a
letter of this direction or with a number; marks behind that do not count. Numbers are of one kind
only. -/
def isConsistent (label : Text) : Bool :=
  let ds := label.map of
  let last := (ds.reverse.dropWhile (· == .mark)).head?
  match ds with
  | [] => true
  | .left :: _ =>
    ds.all (fun d => !d.isRight) && last.any fun d => d == .left || d == .number
  | .right :: _ =>
    !ds.contains .left && !(ds.contains .number && ds.contains .arabicNumber) &&
      last.any fun d => d == .right || d == .number || d == .arabicNumber
  | _ => false

/-- The parts of a name can be read without doubt. -/
def areConsistent (labels : List Text) : Bool :=
  !labels.any (·.any fun c => (of c).isRight) || labels.all isConsistent

end Direction

end RubyLens.Domain
