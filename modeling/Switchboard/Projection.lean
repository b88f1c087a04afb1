import Switchboard.Rule.Action
import Switchboard.Shared

/-!
# Projection

A projection holds the selected fields of a message at the paths that they have in it. The parts
of it are the message's own: where one selected path leads into another, the write of the second
may also change the message. A projection on no fields is the message itself.
-/
namespace Switchboard.Projection

/-- What is in view while a message is projected: the message, the projection so far, and what
else shares records with them. -/
structure View where
  message : Shared
  projected : Shared
  others : List Shared
  next : Nat

def View.apply (view : View) (w : Shared.Write) (next : Nat) : View where
  message := view.message.apply w
  projected := view.projected.apply w
  others := view.others.map (Shared.apply w)
  next := next

def View.write (view : View) (p : Path) (value : Shared) : View :=
  match view.projected with
  | .record l fields =>
    let (w, next) := Shared.writeAt l fields p.first p.rest value view.next
    view.apply w next
  | _ => view

/-- Adds one selected field. A field that is turned off, or that the message does not have, adds
nothing. -/
def addField (view : View) (spec : FieldSpec) : Except Fault View := do
  if !spec.enabled then return view
  let p := Path.ofText spec.path
  let value ← view.message.read p
  if value.isAbsent then return view else return view.write p value

def start (message : Shared) (others : List Shared) (next : Nat) : View :=
  ⟨message, .record next [], others, next + 1⟩

/-- Adds fields one after the other; a fault ends the projection, with the view as it is then. -/
def addFields (view : View) : List (Except Fault FieldSpec) → View × Option Fault
  | [] => (view, none)
  | spec :: specs =>
    match spec.bind (addField view) with
    | .ok view => addFields view specs
    | .error f => (view, some f)

def specsOf (fields : Value) : Except Fault (List (Except Fault FieldSpec)) := do
  return (← iterated fields).map fun v => (FieldSpec.readOrPath v).run "FieldSpec"

/-- The projection of a message on the fields that a value stands for; none for no fields, where
the message itself is meant. -/
def ofValue (message fields : Value) : Except Fault (Option Value) :=
  if fields.given then do
    let specs ← specsOf fields
    let (shared, next) := Shared.label message 0
    match addFields (start shared [] next) specs with
    | (view, none) => return some view.projected.plain
    | (_, some f) => .error f
  else .ok none

@[simp] theorem addFields_nil (view : View) : addFields view [] = (view, none) := rfl

end Switchboard.Projection
