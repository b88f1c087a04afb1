import Switchboard.Fault
import Switchboard.Number.Literal
import Switchboard.Number.Shortest
import Switchboard.Text.Quoted
import Switchboard.Value.Nesting

/-!
# The text of a value

A value has three texts. Its *display* is what a condition compares: lists are joined by commas
and a number with no fraction is written without a point. Its *plain* text is a text as it is and
any other value as it stands in a printed list, where texts are in quotes; that is its *literal*.
-/
namespace Switchboard

/-- The decimal text of an integer, which is refused past the digit limit. -/
def intText (n : Int) : Except Fault String :=
  let ds := Nat.toDigits 10 n.natAbs
  if ds.length ≤ Number.digitLimit then
    .ok (String.ofList (if n < 0 then '-' :: ds else ds))
  else .error .numeralTooLong

namespace Value

mutual

/-- The display of a value, with room for some levels. -/
def displayWithin : Nat → Value → Except Fault String
  | 0, _ => .error .nestedTooDeep
  | _ + 1, .absent => .ok "undefined"
  | _ + 1, .null => .ok "null"
  | _ + 1, .bool b => .ok (if b then "true" else "false")
  | _ + 1, .int n => intText n
  | _ + 1, .double x =>
    match x.toInt? with
    | some n => intText n
    | none => .ok (x.text "NaN" "Infinity")
  | _ + 1, .text s => .ok s
  | room + 1, .list items => do return ",".intercalate (← displayItems room items)
  | _ + 1, .record _ => .ok "[object Object]"
  | _ + 1, .table _ => .ok "[object Object]"
  | _ + 1, .octets bytes => .ok (Text.quotedOctets bytes)
  | _ + 1, .stamp written => .ok written

/-- The texts of the items of a list; null and absent items have none. -/
def displayItems (room : Nat) : List Value → Except Fault (List String)
  | [] => .ok []
  | .null :: items => do return "" :: (← displayItems room items)
  | .absent :: items => do return "" :: (← displayItems room items)
  | item :: items => do
    let text ← displayWithin room item
    return text :: (← displayItems room items)

end

/-- The display of a value takes three calls for each level. -/
def display (v : Value) : Except Fault String := displayWithin (levelLimit 3) v

mutual

def literalWithin : Nat → Value → Except Fault String
  | 0, _ => .error .nestedTooDeep
  | _ + 1, .absent => .ok "MISSING"
  | _ + 1, .null => .ok "None"
  | _ + 1, .bool b => .ok (if b then "True" else "False")
  | _ + 1, .int n => intText n
  | _ + 1, .double x => .ok (x.text "nan" "inf")
  | _ + 1, .text s => .ok (Text.quoted s)
  | room + 1, .list items => do
    return "[" ++ ", ".intercalate (← literalItems room items) ++ "]"
  | room + 1, .record fields => do
    return "\x7b" ++ ", ".intercalate (← literalFields room fields) ++ "\x7d"
  | room + 1, .table entries => do
    return "\x7b" ++ ", ".intercalate (← literalEntries room entries) ++ "\x7d"
  | _ + 1, .octets bytes => .ok (Text.quotedOctets bytes)
  | _ + 1, .stamp written => .ok written

def literalItems (room : Nat) : List Value → Except Fault (List String)
  | [] => .ok []
  | item :: items => do
    let text ← literalWithin room item
    return text :: (← literalItems room items)

def literalFields (room : Nat) : List (String × Value) → Except Fault (List String)
  | [] => .ok []
  | (key, value) :: fields => do
    let text ← literalWithin room value
    return (Text.quoted key ++ ": " ++ text) :: (← literalFields room fields)

def literalEntries (room : Nat) : List (Value × Value) → Except Fault (List String)
  | [] => .ok []
  | (key, value) :: entries => do
    let keyText ← literalWithin room key
    let text ← literalWithin room value
    return (keyText ++ ": " ++ text) :: (← literalEntries room entries)

end

/-- The literal of a value takes one call for each level. -/
def literal (v : Value) : Except Fault String := literalWithin (levelLimit 1) v

/-- A text as it is, and any other value as its literal. -/
def plain : Value → Except Fault String
  | .text s => .ok s
  | v => literal v

@[simp] theorem display_null : display .null = .ok "null" := by simp [display, displayWithin]

@[simp] theorem display_int (n : Int) : display (.int n) = intText n := by
  simp [display, displayWithin]

theorem display_double (x : Double) : display (.double x) =
    match x.toInt? with
    | some n => intText n
    | none => .ok (x.text "NaN" "Infinity") := by
  simp [display, displayWithin]

@[simp] theorem display_text (s : String) : display (.text s) = .ok s := by
  simp [display, displayWithin]

@[simp] theorem plain_text (s : String) : plain (.text s) = .ok s := rfl

end Value

end Switchboard
