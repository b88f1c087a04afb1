import Switchboard.Rule.Action

/-!
# Rules

A rule has one of two shapes: groups of conditions, each with its own selector, or a flat list of
conditions. Groups that are given take precedence. A record is read as a rule once, and a rule is
written back as a record from which the same rule is read.
-/
namespace Switchboard

/-- What decides whether a rule matches. -/
inductive Rule.Shape
  | grouped (groups : List ConditionGroup) (logic : String)
  | flat (conditions : List Condition) (logic : String)

structure Rule where
  id : Option String := none
  name : String := ""
  enabled : Bool := true
  blockDefault : Bool := false
  actions : List Action := []
  shape : Rule.Shape := .flat [] "AND"
  extras : Record Value := []

namespace Rule

/-- The plain text of an identifier, and none for null. -/
def readId : Value → Check (Option String)
  | .null => .ok none
  | v => (Check.plainText v).map some

/-- A value that null stands for a default of. -/
def unlessNull {α : Type} (default : α) (read : Value → Check α) : Value → Check α
  | .null => .ok default
  | v => read v

def commonNames : List (String × String) :=
  [("id", "id"), ("name", "name"), ("enabled", "enabled"), ("blockDefault", "block_default"),
   ("actions", "actions")]

def groupedNames : List (String × String) :=
  commonNames ++ [("conditionGroups", "condition_groups"), ("groupLogic", "group_logic")]

def flatNames : List (String × String) :=
  commonNames ++ [("conditions", "conditions"), ("conditionLogic", "condition_logic")]

/-- A rule with the shape and the further fields given. -/
def ofRecordWith (r : Record Value) (shape : Check Shape) (extras : Record Value) : Check Rule :=
  Rule.mk
    <$> Check.optional r "id" "id" none readId
    <*> Check.optional r "name" "name" "" (unlessNull "" Check.text)
    <*> Check.optional r "enabled" "enabled" true (unlessNull true Check.flag)
    <*> Check.optional r "blockDefault" "block_default" false (unlessNull false Check.flag)
    <*> Check.optional r "actions" "actions" [] (listIfGiven Action.read)
    <*> shape
    <*> .ok extras

def readGrouped (r : Record Value) : Check Rule :=
  ofRecordWith r
    (Shape.grouped
      <$> Check.required r "conditionGroups" "condition_groups"
        (Check.listOf ConditionGroup.read)
      <*> Check.optional r "groupLogic" "group_logic" "OR" (readLogic "OR"))
    (Check.others r groupedNames)

def readFlat (r : Record Value) : Check Rule :=
  ofRecordWith r
    (Shape.flat
      <$> Check.optional r "conditions" "conditions" [] (listIfGiven Condition.read)
      <*> Check.optional r "conditionLogic" "condition_logic" "AND" (readLogic "AND"))
    (Check.others r flatNames)

/-- The groups of a record, by whichever name it has for them. -/
def groupsOf (r : Record Value) : Value :=
  match Record.get? r "conditionGroups" with
  | some v => v
  | none => Value.lookup r "condition_groups"

/-- The check of a record as a rule, with the name of the form that it is read as. -/
def check (fields : Record Value) : String × Check Rule :=
  let r := Record.erase fields "shape"
  if (groupsOf r).given then ("GroupedRule", readGrouped r)
  else
    ("LegacyRule", readFlat (Record.erase (Record.erase r "conditionGroups") "condition_groups"))

def ofRecord (fields : Record Value) : Except Fault Rule := (check fields).2.run (check fields).1

def ofValue : Value → Except Fault Rule
  | .record r => ofRecord r
  | .table entries =>
    let (form, c) := check (Check.textFields entries)
    ((c.both (Check.keysAreTexts entries)).map Prod.fst).run form
  | v => .error (.ruleNotARecord v.kindName)

def Shape.toRecord : Shape → Record Value
  | .grouped groups logic =>
    [("conditionGroups", .list (groups.map ConditionGroup.toValue)), ("groupLogic", .text logic)]
  | .flat conditions logic =>
    [("conditions", .list (conditions.map Condition.toValue)), ("conditionLogic", .text logic)]

def Shape.name : Shape → String
  | .grouped _ _ => "grouped"
  | .flat _ _ => "legacy"

def toRecord (r : Rule) : Record Value :=
  dropNulls ([("id", textOrNullValue r.id), ("name", .text r.name), ("enabled", .bool r.enabled),
    ("blockDefault", .bool r.blockDefault),
    ("actions", .list (r.actions.map Action.toValue))] ++ r.shape.toRecord ++ r.extras)

def toValue (r : Rule) : Value := .record r.toRecord

end Rule

end Switchboard
