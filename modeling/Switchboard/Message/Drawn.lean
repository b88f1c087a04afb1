import Switchboard.Value.Basic

/-!
# Values drawn from raw data

Most fields of a message are drawn from the raw data of a comment, and some are made. A drawn
value knows the place that it was drawn from, since it stays the same value there.
-/
namespace Switchboard

/-- A value with the keys that lead to it in the raw data; a made value has none. -/
structure Drawn where
  value : Value
  origin : List String := []

namespace Drawn

def made (v : Value) : Drawn := ⟨v, []⟩

def absent : Drawn := made .absent

/-- The value of a key, or the absent value. -/
def field (place : List String) (r : Record Value) (key : String) : Drawn :=
  match Record.get? r key with
  | some v => ⟨v, place ++ [key]⟩
  | none => absent

/-- The value of the first of several keys that has one that counts as true. -/
def firstOf (place : List String) (r : Record Value) (keys : List String) (default : Drawn) :
    Drawn :=
  match keys with
  | [] => default
  | key :: keys =>
    let d := field place r key
    if d.value.truthy then d else firstOf place r keys default

def copied (r : Record Value) (keys : List String) : Record Drawn :=
  keys.filterMap fun key => (Record.get? r key).map fun v => (key, ⟨v, [key]⟩)

end Drawn

end Switchboard
