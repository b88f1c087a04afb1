import Switchboard.Value.Text
import Switchboard.Yaml.Cursor

/-!
# Documents read back

A value is written as a document from which the same value is read, but for one thing: in a text
that is put in single quotes a next-line character counts as any line break, and so is read back
as a line feed, or alone as a space. A text is put in double quotes, where nothing is lost, when
it has a character that is not written as it is, or a space beside a line break.
-/
namespace Switchboard.Yaml

/-- Whether a character is never written as it is. -/
def isEscaped (c : Char) : Bool :=
  let n := c.toNat
  !(c = '\n' || (0x20 ≤ n && n ≤ 0x7e) || n = 0x85 || (0xa0 ≤ n && n ≤ 0xd7ff) ||
    (0xe000 ≤ n && n ≤ 0xfffd && n != 0xfeff) || (0x10000 ≤ n && n < 0x10ffff))

/-- Whether a space stands beside a line break. -/
def hasLooseSpace : List Char → Bool
  | c :: d :: r => (c = ' ' && isBreak d) || (isBreak c && d = ' ') || hasLooseSpace (d :: r)
  | _ => false

/-- The text that is read back from single quotes; `within` after a line break. -/
def rejoined (within : Bool) : List Char → List Char
  | [] => []
  | c :: r =>
    if c = '\x85' then
      if within then '\n' :: rejoined true r
      else if !r.isEmpty && atLineEnd r then rejoined true r
      else ' ' :: rejoined false r
    else c :: rejoined (isBreak c) r

def readBackChars (cs : List Char) : List Char :=
  if cs.any isEscaped || hasLooseSpace cs then cs else rejoined false cs

def readBackText (s : String) : String := String.ofList (readBackChars s.toList)

/-- How many levels a document may have. Its writer takes three calls for each. -/
def nestingLimit : Nat := Value.levelLimit 3

mutual

/-- The value that is read back from its document, with room for some values within each other. The
absent value cannot be written, and an integer only within the digit limit. -/
def readBackWithin : Nat → Value → Except Fault Value
  | 0, _ => .error .nestedTooDeep
  | _ + 1, .absent => .error (.document .content)
  | _ + 1, .int n => do
    let _ ← intText n
    return .int n
  | _ + 1, .text s => .ok (.text (readBackText s))
  | room + 1, .list items => do return .list (← readBackItems room items)
  | room + 1, .record fields => do return .record (← readBackFields room fields)
  | room + 1, .table entries => do return .table (← readBackEntries room entries)
  | _ + 1, v => .ok v

def readBackItems (room : Nat) : List Value → Except Fault (List Value)
  | [] => .ok []
  | item :: items => do
    let v ← readBackWithin room item
    return v :: (← readBackItems room items)

def readBackFields (room : Nat) : List (String × Value) → Except Fault (List (String × Value))
  | [] => .ok []
  | (key, value) :: fields => do
    let v ← readBackWithin room value
    return (readBackText key, v) :: (← readBackFields room fields)

def readBackEntries (room : Nat) : List (Value × Value) → Except Fault (List (Value × Value))
  | [] => .ok []
  | (key, value) :: entries => do
    let k ← readBackWithin room key
    let v ← readBackWithin room value
    return (k, v) :: (← readBackEntries room entries)

end

def readBack (v : Value) : Except Fault Value := readBackWithin nestingLimit v

end Switchboard.Yaml
