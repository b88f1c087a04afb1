import Switchboard.Fault
import Switchboard.Number.Literal
import Switchboard.Value.Key

/-!
# Dotted paths

A path names a place in a nested record by the segments between its dots. A segment selects a
field of a record, or an item of a list by its position. Reading a place that is not there gives
the absent value. Writing makes the records on the way to the place that are missing.
-/
namespace Switchboard

/-- The segments of a dotted path. There is always at least one. -/
structure Path where
  first : String
  rest : List String
  deriving DecidableEq

namespace Path

def splitDots : List Char → List Char × List (List Char)
  | [] => ([], [])
  | c :: cs =>
    let (segment, segments) := splitDots cs
    if c = '.' then ([], segment :: segments) else (c :: segment, segments)

def ofText (s : String) : Path :=
  let (segment, segments) := splitDots s.toList
  ⟨String.ofList segment, segments.map String.ofList⟩

def segments (p : Path) : List String := p.first :: p.rest

/-- The position that a segment selects in a list. A segment of digits that are not all decimal
digits, or of too many, stands for no position and is refused. -/
def position (segment : String) : Except Fault (Option Nat) :=
  let cs := segment.toList
  if cs.isEmpty || !cs.all Text.isDigit then .ok none
  else if cs.all Text.isDecimal && cs.length ≤ Number.digitLimit then
    .ok (some (Number.digitsValue cs))
  else .error .notANumeral

def select (v : Value) (segment : String) : Except Fault Value :=
  match v with
  | .record fields => .ok (Value.lookupOrAbsent fields segment)
  | .table entries =>
    .ok (((entries.find? fun e => e.1.isText segment).map Prod.snd).getD .absent)
  | .list items => do
    match ← position segment with
    | some n => return items.getD n .absent
    | none => return .absent
  | _ => .ok .absent

/-- Follows segments until one leads nowhere. -/
def follow : List String → Value → Except Fault Value
  | [], v => .ok v
  | s :: ss, v => do
    match ← select v s with
    | .absent => return .absent
    | w => follow ss w

def read (v : Value) (p : Path) : Except Fault Value := follow p.segments v

/-- The value under a key of a record or a table, and the absent value where there is none. -/
def under (v : Value) (key : String) : Value :=
  match v with
  | .record fields => Value.lookupOrAbsent fields key
  | .table entries => ((entries.find? fun e => e.1.isText key).map Prod.snd).getD .absent
  | _ => .absent

/-- A value put under a key of a record or a table. Any other value gives way to a record. -/
def putUnder (v : Value) (key : String) (value : Value) : Value :=
  match v with
  | .record fields => .record (Record.put key value fields)
  | .table entries => .table (Value.putEntry (.text key) value entries)
  | _ => .record [(key, value)]

def writeAt : List String → Value → Value → Value
  | [], _, value => value
  | s :: ss, v, value => putUnder v s (writeAt ss (under v s) value)

/-- The record or table with a value written at a path. A value on the way that is neither is
replaced. -/
def writeIn (v : Value) (p : Path) (value : Value) : Value := writeAt p.segments v value

def write (fields : Record Value) (p : Path) (value : Value) : Record Value :=
  Record.put p.first (writeAt p.rest (Value.lookupOrAbsent fields p.first) value) fields

theorem writeIn_record (fields : Record Value) (p : Path) (value : Value) :
    writeIn (.record fields) p value = .record (write fields p value) := rfl

@[simp] theorem follow_nil (v : Value) : follow [] v = .ok v := rfl

/-- A segment selects in a list by its position, and in any other value as a key. -/
theorem select_eq_under {v : Value} (h : ∀ items, v ≠ .list items) (segment : String) :
    select v segment = .ok (under v segment) := by
  cases v with
  | list items => exact absurd rfl (h items)
  | _ => rfl

theorem isTable_putUnder (v : Value) (key : String) (value : Value) :
    (putUnder v key value).isTable = true := by
  cases v <;> rfl

@[simp] theorem under_putUnder_self (v : Value) (key : String) (value : Value) :
    under (putUnder v key value) key = value := by
  cases v with
  | record fields => simp [putUnder, under, Value.lookupOrAbsent]
  | table entries => simp [putUnder, under, Value.find?_putEntry_self]
  | _ => simp [putUnder, under, Value.lookupOrAbsent, Record.get?_cons]

theorem under_putUnder_of_ne {key other : String} (h : other ≠ key) (v value : Value) :
    under (putUnder v key value) other = under v other := by
  cases v with
  | record fields => simp [putUnder, under, Value.lookupOrAbsent, Record.get?_put_of_ne h]
  | table entries => simp [putUnder, under, Value.find?_putEntry_of_ne h]
  | _ => simp [putUnder, under, Value.lookupOrAbsent, Record.get?_cons, h]

@[simp] theorem putUnder_putUnder (v : Value) (key : String) (a b : Value) :
    putUnder (putUnder v key a) key b = putUnder v key b := by
  cases v with
  | record fields => simp [putUnder, Record.put_put]
  | table entries => simp [putUnder, Value.putEntry_putEntry]
  | _ => simp [putUnder, Record.put]

end Path

end Switchboard
