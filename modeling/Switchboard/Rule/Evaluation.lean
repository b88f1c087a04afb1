import Switchboard.Path
import Switchboard.Rule.Basic
import Switchboard.Rule.Comparison
import Switchboard.Source

/-!
# Evaluating rules

Whether a message satisfies a condition, a group and a rule. All conditions of a group are
evaluated, and all groups of a rule, before their answers are joined. A fault in a comparison is
an answer of no; one in reading the message or in bringing a value to its type of data is not.
-/
namespace Switchboard

/-- What is at fault itself is answered by no. Any other fault stays one. -/
def unlessOfInput (f : Fault) : Except Fault Bool := if f.isOfInput then .ok false else .error f

namespace Condition

def holds (c : Condition) (message : Value) : Except Fault Bool :=
  match Operator.ofName? c.operator with
  | none => .ok false
  | some o => do
    let found ← (Path.ofText c.field).read message
    let left ← Value.coerce c.dataType found
    let right ← Value.coerce c.dataType c.value
    match o.holds left right with
    | .ok answer => return answer
    | .error _ => return false

/-- Whether the condition that a value stands for holds; a value that is none never does. -/
def holdsRaw (raw message : Value) : Except Fault Bool :=
  match (read raw).run "Condition" with
  | .ok c => c.holds message
  | .error f => unlessOfInput f

end Condition

def answers {α : Type} (test : α → Except Fault Bool) : List α → Except Fault (List Bool)
  | [] => .ok []
  | a :: as => do
    let answer ← test a
    return answer :: (← answers test as)

namespace ConditionGroup

/-- A selector that is not given, or an empty one, selects every source. -/
def selectsSource (g : ConditionGroup) (message : Value) : Except Fault Bool :=
  match g.source with
  | none => .ok true
  | some s => if s == "" then .ok true else do return (← Source.detect message) == s

def selectsKind (g : ConditionGroup) (message : Value) : Except Fault Bool :=
  match g.messageType with
  | none => .ok true
  | some k => if k == "" then .ok true else Source.matchesKind (.text k) message

def holds (g : ConditionGroup) (message : Value) : Except Fault Bool := do
  if !(← g.selectsSource message) then return false
  if !(← g.selectsKind message) then return false
  if g.conditions.isEmpty then return true
  return combine g.logic (← answers (Condition.holds · message) g.conditions)

def holdsRaw (raw message : Value) : Except Fault Bool :=
  match (read raw).run "ConditionGroup" with
  | .ok g => g.holds message
  | .error f => unlessOfInput f

end ConditionGroup

namespace Rule

/-- Whether the conditions of a rule hold. A flat rule without conditions always matches. -/
def Shape.holds (message : Value) : Shape → Except Fault Bool
  | .grouped groups logic => do
    return combine logic (← answers (ConditionGroup.holds · message) groups)
  | .flat conditions logic =>
    if conditions.isEmpty then .ok true
    else do return combine logic (← answers (Condition.holds · message) conditions)

/-- Whether a rule matches a message. A rule that is turned off never does. -/
def holds (r : Rule) (message : Value) : Except Fault Bool :=
  if r.enabled then r.shape.holds message else .ok false

def holdsRaw (raw message : Value) : Except Fault Bool :=
  match ofValue raw with
  | .ok r => r.holds message
  | .error f => unlessOfInput f

end Rule

end Switchboard
