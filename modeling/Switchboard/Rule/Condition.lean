import Switchboard.Check
import Switchboard.Value.Text

/-!
# Conditions

A condition compares one field of a message with a value, and a group of conditions also selects
messages by their source and kind. On the wire both are records; keys that are none of theirs are
kept, and what is null is left out.
-/
namespace Switchboard

/-- The comparisons that a condition may ask for. -/
inductive Operator
  | equals
  | notEquals
  | greaterThan
  | greaterThanOrEqual
  | lessThan
  | lessThanOrEqual
  | contains
  | notContains
  | startsWith
  | endsWith
  | regex
  deriving DecidableEq

namespace Operator

def name : Operator → String
  | .equals => "equals"
  | .notEquals => "not_equals"
  | .greaterThan => "greater_than"
  | .greaterThanOrEqual => "greater_than_or_equal"
  | .lessThan => "less_than"
  | .lessThanOrEqual => "less_than_or_equal"
  | .contains => "contains"
  | .notContains => "not_contains"
  | .startsWith => "starts_with"
  | .endsWith => "ends_with"
  | .regex => "regex"

def all : List Operator :=
  [.equals, .notEquals, .greaterThan, .greaterThanOrEqual, .lessThan, .lessThanOrEqual,
   .contains, .notContains, .startsWith, .endsWith, .regex]

def ofName? (s : String) : Option Operator := all.find? (·.name == s)

@[simp] theorem ofName?_name (o : Operator) : ofName? o.name = some o := by cases o <;> rfl

end Operator

/-- The fields of a record whose value is not null. -/
def dropNulls (r : Record Value) : Record Value := r.filter fun p => !p.2.isNull

/-- Whether several answers are joined by "or"; any other name joins them by "and". -/
def isOr (logic : String) : Bool := logic == "OR"

def combine (logic : String) (answers : List Bool) : Bool :=
  if isOr logic then answers.any id else answers.all id

/-- The name of a joining logic: a default for what is not given, and the plain text of a value
that is no text. -/
def readLogic (default : String) (v : Value) : Check String :=
  if v.given then Check.plainText v else .ok default

/-- What is not given counts as an empty list. -/
def listIfGiven {α : Type} (item : Value → Check α) (v : Value) : Check (List α) :=
  if v.given then Check.listOf item v else .ok []

/-- A comparison of one field. The operator is kept as it is named, known or not. -/
structure Condition where
  field : String
  operator : String := Operator.equals.name
  value : Value := .null
  dataType : String := "string"
  extras : Record Value := []

namespace Condition

def names : List (String × String) :=
  [("field", "field"), ("operator", "operator"), ("value", "value"), ("dataType", "data_type")]

def ofRecord (r : Record Value) : Check Condition :=
  Condition.mk
    <$> Check.required r "field" "field" Check.text
    <*> Check.optional r "operator" "operator" Operator.equals.name Check.text
    <*> Check.optional r "value" "value" .null .ok
    <*> Check.optional r "dataType" "data_type" "string"
      (fun v => if v.given then Check.text v else .ok "string")
    <*> .ok (Check.others r names)

def read : Value → Check Condition := Check.onRecord ofRecord

def toRecord (c : Condition) : Record Value :=
  dropNulls ([("field", .text c.field), ("operator", .text c.operator), ("value", c.value),
    ("dataType", .text c.dataType)] ++ c.extras)

def toValue (c : Condition) : Value := .record c.toRecord

end Condition

/-- Conditions with a selector for the messages that they are about. -/
structure ConditionGroup where
  source : Option String := none
  messageType : Option String := none
  conditions : List Condition := []
  logic : String := "AND"
  extras : Record Value := []

/-- A text, or null for none. -/
def textOrNullValue : Option String → Value
  | some s => .text s
  | none => .null

namespace ConditionGroup

def names : List (String × String) :=
  [("source", "source"), ("messageType", "message_type"), ("conditions", "conditions"),
   ("conditionLogic", "condition_logic")]

def ofRecord (r : Record Value) : Check ConditionGroup :=
  ConditionGroup.mk
    <$> Check.optional r "source" "source" none Check.textOrNull
    <*> Check.optional r "messageType" "message_type" none Check.textOrNull
    <*> Check.optional r "conditions" "conditions" [] (listIfGiven Condition.read)
    <*> Check.optional r "conditionLogic" "condition_logic" "AND" (readLogic "AND")
    <*> .ok (Check.others r names)

def read : Value → Check ConditionGroup := Check.onRecord ofRecord

def toRecord (g : ConditionGroup) : Record Value :=
  dropNulls ([("source", textOrNullValue g.source), ("messageType", textOrNullValue g.messageType),
    ("conditions", .list (g.conditions.map Condition.toValue)),
    ("conditionLogic", .text g.logic)] ++ g.extras)

def toValue (g : ConditionGroup) : Value := .record g.toRecord

end ConditionGroup

end Switchboard
