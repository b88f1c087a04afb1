import Switchboard.Calendar
import Switchboard.Number.Literal
import Switchboard.Value.Basic

/-!
# Timestamps

A timestamp is a number of milliseconds or a date with an optional time of day and zone. Dates are
written by month and day or by week and weekday, with or without dashes; the time is written with
or without colons, and its last part may have a fraction. Any one character stands between them.
-/
namespace Switchboard.Timestamp

open Calendar

/-- A position in a text is read as this character when it lies past the end. -/
def terminator : Char := '\x00'

def charAt (cs : List Char) (i : Nat) : Char := cs.getD i terminator

def isDigitChar (c : Char) : Bool := '0' ≤ c && c ≤ '9'

/-- The number that exactly `n` digits at the start stand for, and what follows them. -/
def digits? (n : Nat) (cs : List Char) : Option (Nat × List Char) :=
  let ds := cs.take n
  if ds.length = n && ds.all isDigitChar then some (Number.digitsValue ds, cs.drop n) else none

/-- Where the date ends, by its first characters and the length of the text. -/
def dateLength (cs : List Char) : Nat :=
  let digitsFrom7 := ((cs.drop 7).takeWhile isDigitChar).length + 7
  if cs.length = 7 then 7
  else if charAt cs 4 = '-' then
    if charAt cs 5 = 'W' then
      if 8 < cs.length && charAt cs 8 = '-' then
        if 10 < cs.length && isDigitChar (charAt cs 10) then 8 else 10
      else 8
    else 10
  else if charAt cs 4 = 'W' then
    if digitsFrom7 < 9 then digitsFrom7 else if digitsFrom7 % 2 = 0 then 7 else 8
  else 8

/-- The Monday of the first week of a year: the week that has the year's first Thursday. -/
def firstMonday (year : Int) : Int :=
  let newYear : Date := ⟨year, 1, 1⟩
  let monday := newYear.number - newYear.weekday
  if newYear.weekday ≤ 3 then monday else monday + 7

/-- Whether a year has 53 weeks: it starts with a Thursday, or in a leap year with a Wednesday. -/
def hasLongYear (year : Int) : Bool :=
  let w := (⟨year, 1, 1⟩ : Date).weekday
  w = 3 || (w = 2 && isLeap year)

def dateOfWeek? (year : Int) (week day : Nat) : Option Date :=
  if isYear year && 1 ≤ week && (week ≤ 52 || (week = 53 && hasLongYear year)) &&
      1 ≤ day && day ≤ 7 then
    some (ofNumber (firstMonday year + ((week - 1) * 7 + (day - 1) : Nat)))
  else none

def dash? (inUse : Bool) (cs : List Char) : Option (List Char) :=
  if inUse then (if charAt cs 0 = '-' then some (cs.drop 1) else none) else some cs

def date? (cs : List Char) : Option Date := do
  let (year, r) ← digits? 4 cs
  let dashes := charAt r 0 = '-'
  let r := if dashes then r.drop 1 else r
  if charAt r 0 = 'W' then
    let (week, r) ← digits? 2 (r.drop 1)
    if r.isEmpty then dateOfWeek? year week 1
    else
      let r ← dash? dashes r
      let (day, _) ← digits? 1 r
      dateOfWeek? year week day
  else
    let (month, r) ← digits? 2 r
    let r ← dash? dashes r
    let (day, _) ← digits? 2 r
    return ⟨year, month, day⟩

structure Clock where
  hour : Nat := 0
  minute : Nat := 0
  second : Nat := 0
  microsecond : Nat := 0

/-- The microseconds that up to six digits stand for; further digits are passed over. The flag
tells whether anything else follows. -/
def fraction? (c : Clock) (cs : List Char) (size : Nat) : Option (Clock × Bool) := do
  let n := min size 6
  let (value, r) ← digits? n cs
  let r := r.dropWhile isDigitChar
  return ({ c with microsecond := value * 10 ^ (6 - n) }, charAt r 0 != terminator)

/-- The parts of a time of day from the one of the given index on; `size` characters belong to the
time. The flag tells whether anything stands after the time. -/
def clock? : Nat → Nat → Bool → Clock → List Char → Nat → Option (Clock × Bool)
  | 0, _, _, c, cs, size => fraction? c cs size
  | parts + 1, index, colons, c, cs, size => do
    let (value, r) ← digits? 2 cs
    let c := match index with
      | 0 => { c with hour := value }
      | 1 => { c with minute := value }
      | _ => { c with second := value }
    let next := charAt r 0
    let colons := if index = 0 then next = ':' else colons
    if size ≤ 3 then return (c, next != terminator)
    else if colons && next = ':' then clock? parts (index + 1) colons c (r.drop 1) (size - 3)
    else if next = '.' || next = ',' then fraction? c (r.drop 1) (size - 3)
    else if colons then none
    else clock? parts (index + 1) colons c r (size - 2)

def readClock? (cs : List Char) (size : Nat) : Option (Clock × Bool) :=
  clock? 3 0 true {} cs size

def startsZone (c : Char) : Bool := c = '+' || c = '-' || c = 'Z'

def timeAndZone? (cs : List Char) : Option (Clock × Int) := do
  let size := if cs.isEmpty then 1 else (cs.takeWhile fun c => !startsZone c).length
  let (time, more) ← readClock? cs size
  match cs.drop size with
  | [] => if more then none else return (time, 0)
  | 'Z' :: r => if charAt r 0 = terminator then return (time, 0) else none
  | sign :: r =>
    let (zone, more) ← readClock? r r.length
    if more then none
    let seconds := zone.hour * 3600 + zone.minute * 60 + zone.second
    let micros : Int := if seconds = 0 then 0 else seconds * 1000000 + zone.microsecond
    if microsPerDay ≤ micros then none
    return (time, if sign = '-' then -micros else micros)

def ofText? (s : String) : Option Moment := do
  let cs := s.toList
  if cs.length < 7 then none
  let n := dateLength cs
  let date ← date? (cs.take n)
  let (time, zone) ← if cs.length ≤ n then pure (({} : Clock), (0 : Int))
    else timeAndZone? (cs.drop (n + 1))
  let moment : Moment := ⟨date, time.hour, time.minute, time.second, time.microsecond⟩
  if !moment.isValid then none
  let shifted := ofMicros (moment.micros - zone)
  if isYear shifted.date.year then return shifted else none

/-- The instant of a number of seconds, to the nearest microsecond, a half going to the even one.
The fraction is brought to microseconds as a double. -/
def ofSeconds? (x : Double) : Option Moment := do
  let whole ← x.truncate?
  let micros ← (x.fraction.mul (.ofNat 1000000)).nearestInt?
  let moment := ofMicros (whole * 1000000 + micros)
  if isYear moment.date.year then return moment else none

def spellZones (s : String) : String :=
  String.ofList (s.toList.flatMap fun c => if c = 'Z' then "+00:00".toList else [c])

/-- The instant that a value stands for: a number of milliseconds or a text. -/
def ofValue? : Value → Option Moment
  | .int n =>
    match Double.ofRatio (n < 0) n.natAbs 1000 with
    | .infinite _ => none
    | x => ofSeconds? x
  | .double x => ofSeconds? (x.divNat 1000)
  | .text s => if s = "" then none else ofText? (spellZones s)
  | _ => none

def parts (m : Moment) : Record Value :=
  [("year", .int m.date.year), ("month", .int m.date.month), ("day", .int m.date.day),
   ("hour", .int m.hour), ("minute", .int m.minute), ("second", .int m.second),
   ("ms", .int (m.microsecond / 1000 : Nat))]

/-- The parts of the instant that a value stands for, and null where it stands for none. -/
def read (v : Value) : Value :=
  match ofValue? v with
  | some m => .record (parts m)
  | none => .null

end Switchboard.Timestamp
