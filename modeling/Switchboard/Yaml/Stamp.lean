import Switchboard.Calendar
import Switchboard.Fault
import Switchboard.Number.Literal

/-!
# Stamps

A stamp is a date, or a date with a time of day and perhaps the offset of a zone. It is written
with a space before the time and with the offset in hours and minutes.
-/
namespace Switchboard.Yaml

open Calendar

structure Stamp where
  year : Nat
  month : Nat
  day : Nat
  /-- Hour, minute and second, with the digits of a fraction. -/
  time : Option (Nat × Nat × Nat × List Char) := none
  /-- Minutes east of Universal Time. -/
  offset : Option Int := none

namespace Stamp

/-- Between `least` and `most` digits at the start, as many as there are. -/
def digits? (least most : Nat) (cs : List Char) : Option (Nat × List Char) :=
  let ds := (cs.take most).takeWhile Char.isDigit
  if ds.length < least then none else some (Number.digitsValue ds, cs.drop ds.length)

def char? (c : Char) : List Char → Option (List Char)
  | d :: r => if d = c then some r else none
  | [] => none

def isBlank (c : Char) : Bool := c = ' ' || c = '\t'

def offset? (cs : List Char) : Option (Option Int) :=
  match cs.dropWhile isBlank with
  | [] => if cs.isEmpty then some none else none
  | ['Z'] => some (some 0)
  | sign :: r =>
    if sign = '+' || sign = '-' then do
      let (hours, r) ← digits? 1 2 r
      let minutes ← match r with
        | [] => some 0
        | r => do
          let (m, r) ← digits? 2 2 (← char? ':' r)
          if r.isEmpty then some m else none
      let n : Int := hours * 60 + minutes
      some (some (if sign = '-' then -n else n))
    else none

def read? (cs : List Char) : Option Stamp := do
  let (year, r) ← digits? 4 4 cs
  let (month, r) ← digits? 1 2 (← char? '-' r)
  let (day, r) ← digits? 1 2 (← char? '-' r)
  let r ← match r with
    | [] => return ⟨year, month, day, none, none⟩
    | c :: rest =>
      if c = 'T' || c = 't' then some rest
      else if isBlank c then some (r.dropWhile isBlank)
      else none
  let (hour, r) ← digits? 1 2 r
  let (minute, r) ← digits? 2 2 (← char? ':' r)
  let (second, r) ← digits? 2 2 (← char? ':' r)
  let (fraction, r) := match r with
    | '.' :: r => (r.takeWhile Char.isDigit, r.dropWhile Char.isDigit)
    | r => ([], r)
  let offset ← offset? r
  return ⟨year, month, day, some (hour, minute, second, fraction), offset⟩

/-- Whether a plain text is a stamp: without a time of day its month and its day have two digits
each. -/
def isPlain (cs : List Char) : Bool :=
  match read? cs with
  | some s => s.time.isSome || cs.length = 10
  | none => false

def micros (ds : List Char) : Nat := Number.digitsValue ((ds ++ List.replicate 6 '0').take 6)

def offsetText (minutes : Int) : String :=
  (if minutes < 0 then "-" else "+") ++ padded 2 (minutes.natAbs / 60) ++ ":" ++
    padded 2 (minutes.natAbs % 60)

def text (s : Stamp) : Except Fault String :=
  let date : Date := ⟨s.year, s.month, s.day⟩
  match s.time with
  | none => if date.isValid then .ok date.text else .error .noSuchDate
  | some (hour, minute, second, fraction) =>
    let m : Moment := ⟨date, hour, minute, second, micros fraction⟩
    if m.isValid && s.offset.all (·.natAbs < 1440) then
      .ok (date.text ++ " " ++ m.timeText ++ (s.offset.map offsetText).getD "")
    else .error .noSuchDate

end Stamp

end Switchboard.Yaml
