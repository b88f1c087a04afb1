import Switchboard.Rule.Condition

/-!
# Actions

An action sends a message to an endpoint, reduced to the fields that it selects.
-/
namespace Switchboard

/-- A selected field, which may be turned off. -/
structure FieldSpec where
  path : String
  enabled : Bool := true
  extras : Record Value := []

namespace FieldSpec

def names : List (String × String) := [("path", "path"), ("enabled", "enabled")]

def ofRecord (r : Record Value) : Check FieldSpec :=
  FieldSpec.mk
    <$> Check.required r "path" "path" Check.text
    <*> Check.optional r "enabled" "enabled" true Check.flag
    <*> .ok (Check.others r names)

def read : Value → Check FieldSpec := Check.onRecord ofRecord

/-- A field selected by its path alone, or by a record. -/
def readOrPath : Value → Check FieldSpec
  | .text s => .ok { path := s }
  | v => read v

def toRecord (f : FieldSpec) : Record Value :=
  dropNulls ([("path", .text f.path), ("enabled", .bool f.enabled)] ++ f.extras)

def toValue (f : FieldSpec) : Value := .record f.toRecord

end FieldSpec

/-- The items of a value that is gone through: the keys of a record, the characters of a text. -/
def iterated : Value → Except Fault (List Value)
  | .list items => .ok items
  | .record fields => .ok (fields.map fun p => .text p.1)
  | .table entries => .ok (entries.map Prod.fst)
  | .text s => .ok (s.toList.map fun c => .text c.toString)
  | .octets bytes => .ok (bytes.map fun b => .int b.toNat)
  | _ => .error .notIterable

/-- The selected fields of an action. -/
def readFields (v : Value) : Check (List FieldSpec) :=
  if v.given then
    (Check.ofExcept (iterated v)).andThen (Check.items FieldSpec.readOrPath 0)
  else .ok []

/-- The type of the actions that send a message on. -/
def routeToEndpoint : String := "route_to_endpoint"

structure Action where
  type : String := routeToEndpoint
  endpoint : String := ""
  fields : List FieldSpec := []
  extras : Record Value := []

namespace Action

def names : List (String × String) :=
  [("type", "type"), ("endpoint", "endpoint"), ("fields", "fields")]

def ofRecord (r : Record Value) : Check Action :=
  Action.mk
    <$> Check.optional r "type" "type" routeToEndpoint Check.text
    <*> Check.optional r "endpoint" "endpoint" "" Check.text
    <*> Check.optional r "fields" "fields" [] readFields
    <*> .ok (Check.others r names)

def read : Value → Check Action := Check.onRecord ofRecord

def toRecord (a : Action) : Record Value :=
  dropNulls ([("type", .text a.type), ("endpoint", .text a.endpoint),
    ("fields", .list (a.fields.map FieldSpec.toValue))] ++ a.extras)

def toValue (a : Action) : Value := .record a.toRecord

end Action

end Switchboard
