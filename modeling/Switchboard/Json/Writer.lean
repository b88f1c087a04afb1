import Switchboard.Value.Text

/-!
# Writing JSON

A value is written on one line without blanks, and characters outside ASCII stand as they are.
The three doubles that JSON has no numerals for are written by name, and a value of a kind that
JSON does not have is written as the text it has.
-/
namespace Switchboard.Json

open Text

def escapedChar (c : Char) : List Char :=
  if c = '"' ∨ c = '\\' then ['\\', c]
  else if c = '\n' then ['\\', 'n']
  else if c = '\r' then ['\\', 'r']
  else if c = '\t' then ['\\', 't']
  else if c = '\x08' then ['\\', 'b']
  else if c = '\x0c' then ['\\', 'f']
  else if c.toNat < 0x20 then '\\' :: 'u' :: hexDigits 4 c.toNat
  else [c]

def escaped (s : String) : String :=
  String.ofList ('"' :: (s.toList.flatMap escapedChar ++ ['"']))

def doubleText (x : Double) : String := x.text "NaN" "Infinity"

/-- The text of a value as the key of a table. -/
def keyText : Value → Except Fault String
  | .text s => .ok s
  | .null => .ok "null"
  | .bool b => .ok (if b then "true" else "false")
  | .int n => intText n
  | .double x => .ok (doubleText x)
  | _ => .error .unhashableKey

mutual

/-- The JSON of a value, with room for some levels. -/
def writeWithin : Nat → Value → Except Fault String
  | 0, _ => .error .nestedTooDeep
  | _ + 1, .null => .ok "null"
  | _ + 1, .bool b => .ok (if b then "true" else "false")
  | _ + 1, .int n => intText n
  | _ + 1, .double x => .ok (doubleText x)
  | _ + 1, .text s => .ok (escaped s)
  | room + 1, .list items => do
    return "[" ++ ",".intercalate (← writeItems room items) ++ "]"
  | room + 1, .record fields => do
    return "\x7b" ++ ",".intercalate (← writeFields room fields) ++ "\x7d"
  | room + 1, .table entries => do
    return "\x7b" ++ ",".intercalate (← writeEntries room entries) ++ "\x7d"
  | _ + 1, v => do return escaped (← v.plain)

def writeItems (room : Nat) : List Value → Except Fault (List String)
  | [] => .ok []
  | item :: items => do
    let text ← writeWithin room item
    return text :: (← writeItems room items)

def writeFields (room : Nat) : List (String × Value) → Except Fault (List String)
  | [] => .ok []
  | (key, value) :: fields => do
    let text ← writeWithin room value
    return (escaped key ++ ":" ++ text) :: (← writeFields room fields)

def writeEntries (room : Nat) : List (Value × Value) → Except Fault (List String)
  | [] => .ok []
  | (key, value) :: entries => do
    let name ← keyText key
    let text ← writeWithin room value
    return (escaped name ++ ":" ++ text) :: (← writeEntries room entries)

end

/-- Writing takes one call for each level. -/
def write (v : Value) : Except Fault String := writeWithin (Value.levelLimit 1) v

@[simp] theorem write_text (s : String) : write (.text s) = .ok (escaped s) := by
  simp [write, writeWithin]

end Switchboard.Json
