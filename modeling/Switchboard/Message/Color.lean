import Switchboard.Message.Markup
import Switchboard.Number.Literal

/-!
# Colours

A colour is written as `rgba(230,33,23,1)` somewhere in a text. Where none is written, magenta
stands for it.
-/
namespace Switchboard.Color

open Number

def magenta : Record Value := [("r", .int 255), ("g", .int 0), ("b", .int 255), ("a", .int 1)]

def component? (mark : Char) (cs : List Char) : Option (List Char × List Char) :=
  match spanDigits cs with
  | ([], _) => none
  | (ds, c :: r) => if c = mark then some (ds, r) else none
  | (_, []) => none

/-- The opacity up to the closing parenthesis: digits, or at most one digit, a point and digits. -/
def opacity? (cs : List Char) : Option (List Char) :=
  match spanDigits cs with
  | (ds, ')' :: _) => some ds
  | (ds, '.' :: r) =>
    match spanDigits r with
    | (fs, ')' :: _) => if ds.length ≤ 1 then some (ds ++ '.' :: fs) else none
    | _ => none
  | _ => none

def here? (cs : List Char) : Option (List Char × List Char × List Char × List Char) := do
  let cs ← dropWord? "rgba(".toList cs
  let (r, cs) ← component? ',' cs
  let (g, cs) ← component? ',' cs
  let (b, cs) ← component? ',' cs
  let a ← opacity? cs
  return (r, g, b, a)

def find? : List Char → Option (List Char × List Char × List Char × List Char)
  | [] => none
  | c :: cs =>
    match here? (c :: cs) with
    | some found => some found
    | none => find? cs

def componentValue (ds : List Char) : Except Fault Value :=
  if ds.length ≤ digitLimit then .ok (.int (digitsValue ds)) else .error .notANumeral

/-- The opacity as a number, an integer where it has no fraction; null for no number. -/
def opacityValue (cs : List Char) : Value :=
  match readDouble? cs with
  | none => .null
  | some x =>
    match x.toInt? with
    | some n => .int n
    | none => .double x

def ofText (cs : List Char) : Except Fault (Record Value) :=
  match find? cs with
  | none => .ok magenta
  | some (r, g, b, a) => do
    return [("r", ← componentValue r), ("g", ← componentValue g), ("b", ← componentValue b),
      ("a", opacityValue a)]

def ofValue (v : Value) : Except Fault (Record Value) := do ofText (← Markup.textOf v).toList

end Switchboard.Color
