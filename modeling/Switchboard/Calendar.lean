/-!
# The calendar

Days and instants of the proleptic Gregorian calendar, in Universal Time. Days are counted from
1970-01-01, and instants in microseconds from the midnight that starts that day.
-/
namespace Switchboard.Calendar

structure Date where
  year : Int
  month : Nat
  day : Nat
  deriving DecidableEq

def isLeap (year : Int) : Bool := year % 4 = 0 && (year % 100 != 0 || year % 400 = 0)

def daysInMonth (year : Int) (month : Nat) : Nat :=
  if month = 2 then (if isLeap year then 29 else 28)
  else if month = 4 ∨ month = 6 ∨ month = 9 ∨ month = 11 then 30
  else 31

def isYear (year : Int) : Bool := 1 ≤ year && year ≤ 9999

def Date.isValid (d : Date) : Bool :=
  isYear d.year && 1 ≤ d.month && d.month ≤ 12 && 1 ≤ d.day && d.day ≤ daysInMonth d.year d.month

/-- The number of days in the years before a year, counted from the year 1. -/
def daysBeforeYear (year : Int) : Int :=
  let y := year - 1
  y * 365 + y / 4 - y / 100 + y / 400

def daysBeforeMonth (year : Int) (month : Nat) : Nat :=
  (List.range' 1 (month - 1)).foldl (fun days m => days + daysInMonth year m) 0

/-- The days from 0001-01-01 to 1970-01-01. -/
def epochDay : Int := 719162

def Date.number (d : Date) : Int :=
  daysBeforeYear d.year + daysBeforeMonth d.year d.month + d.day - 1 - epochDay

/-- The month and the day of the month, from the day of the year counted from zero. -/
def monthAndDay (year : Int) : Nat → Nat → Nat → Nat × Nat
  | 0, month, day => (month, day + 1)
  | n + 1, month, day =>
    let length := daysInMonth year month
    if day < length then (month, day + 1) else monthAndDay year n (month + 1) (day - length)

/-- The date of a day. The year is found from the cycles of 400, 100, 4 and 1 years that lie
between it and the year 1. -/
def ofNumber (number : Int) : Date :=
  let n := number + epochDay
  let cycles := n / 146097
  let inCycle := n % 146097
  let centuries := min (inCycle / 36524) 3
  let inCentury := inCycle - centuries * 36524
  let fours := inCentury / 1461
  let inFour := inCentury % 1461
  let years := min (inFour / 365) 3
  let inYear := inFour - years * 365
  let year := cycles * 400 + centuries * 100 + fours * 4 + years + 1
  let (month, day) := monthAndDay year 11 1 inYear.toNat
  ⟨year, month, day⟩

/-- The day of the week, from zero on Monday. -/
def Date.weekday (d : Date) : Int := (d.number + 3) % 7

structure Moment where
  date : Date
  hour : Nat
  minute : Nat
  second : Nat
  microsecond : Nat
  deriving DecidableEq

def microsPerDay : Int := 86400000000

def ofMicros (t : Int) : Moment :=
  let inDay := (t % microsPerDay).toNat
  { date := ofNumber (t / microsPerDay)
    hour := inDay / 3600000000
    minute := inDay / 60000000 % 60
    second := inDay / 1000000 % 60
    microsecond := inDay % 1000000 }

def Moment.micros (m : Moment) : Int :=
  m.date.number * microsPerDay + (((m.hour * 60 + m.minute) * 60 + m.second : Nat) : Int) * 1000000 +
    m.microsecond

def Moment.isValid (m : Moment) : Bool :=
  m.date.isValid && m.hour < 24 && m.minute < 60 && m.second < 60 && m.microsecond < 1000000

/-- The digits of a natural, at least `width` of them. -/
def padded (width n : Nat) : String :=
  let ds := Nat.toDigits 10 n
  String.ofList (List.replicate (width - ds.length) '0' ++ ds)

def Date.text (d : Date) : String :=
  padded 4 d.year.toNat ++ "-" ++ padded 2 d.month ++ "-" ++ padded 2 d.day

/-- The time of day; microseconds are written when there are any. -/
def Moment.timeText (m : Moment) : String :=
  padded 2 m.hour ++ ":" ++ padded 2 m.minute ++ ":" ++ padded 2 m.second ++
    (if m.microsecond = 0 then "" else "." ++ padded 6 m.microsecond)

/-- The text of an instant, given in milliseconds, with its zone. -/
def instantText (ms : Int) : String :=
  let m := ofMicros (ms * 1000)
  m.date.text ++ "T" ++ m.timeText ++ "+00:00"

example : ofNumber 0 = ⟨1970, 1, 1⟩ := by decide +kernel

example : (⟨2024, 2, 29⟩ : Date).number = 19782 := by decide +kernel

end Switchboard.Calendar
