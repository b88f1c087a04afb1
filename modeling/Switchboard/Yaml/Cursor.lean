import Switchboard.Fault

/-!
# Places in a document

A stored document is a text of lines. A cursor holds what is left of it, with the line and the
column that this starts at. A mark of three hyphens or three dots at the start of a line ends a
document.
-/
namespace Switchboard.Yaml

def tokenFault : Fault := .document .token

/-- The characters that a document may hold. -/
def isAllowed (c : Char) : Bool :=
  let n := c.toNat
  c = '\t' || c = '\n' || c = '\r' || (0x20 ≤ n && n ≤ 0x7e) || n = 0x85 ||
    (0xa0 ≤ n && n ≤ 0xd7ff) || (0xe000 ≤ n && n ≤ 0xfffd) || 0x10000 ≤ n

/-- The text with every line ended by a line feed alone. -/
def unifyLines : List Char → List Char
  | '\r' :: '\n' :: cs => '\n' :: unifyLines cs
  | '\r' :: cs => '\n' :: unifyLines cs
  | c :: cs => c :: unifyLines cs
  | [] => []

def isBreak (c : Char) : Bool := c = '\n' || c = '\x85' || c = '\u2028' || c = '\u2029'

/-- A line break as it is read: the next-line character is a line feed. -/
def lineBreak (c : Char) : Char := if c = '\x85' then '\n' else c

def isBlank (c : Char) : Bool := c = ' ' || c = '\t'

def atLineEnd : List Char → Bool
  | [] => true
  | c :: _ => isBreak c

def atSpace : List Char → Bool
  | [] => true
  | c :: _ => c = ' ' || isBreak c

/-- Whether a blank or an end of line stands here. -/
def atGap : List Char → Bool
  | [] => true
  | c :: _ => isBlank c || isBreak c

def atStartMark : List Char → Bool
  | '-' :: '-' :: '-' :: cs => atGap cs
  | _ => false

def atEndMark : List Char → Bool
  | '.' :: '.' :: '.' :: cs => atGap cs
  | _ => false

def atMark (cs : List Char) : Bool := atStartMark cs || atEndMark cs

structure Cursor where
  rest : List Char
  index : Nat := 0
  line : Nat := 0
  column : Nat := 0

namespace Cursor

/-- One character on. A byte order mark takes no column. -/
def next (c : Cursor) : Cursor :=
  match c.rest with
  | [] => c
  | ch :: r =>
    if isBreak ch then ⟨r, c.index + 1, c.line + 1, 0⟩
    else ⟨r, c.index + 1, c.line, if ch = '\ufeff' then c.column else c.column + 1⟩

def skip (c : Cursor) : Nat → Cursor
  | 0 => c
  | n + 1 => c.next.skip n

/-- The cursor at the start of what is left then. -/
def skipTo (c : Cursor) (rest : List Char) : Cursor := c.skip (c.rest.length - rest.length)

end Cursor

end Switchboard.Yaml
