import Switchboard.Rule.Evaluation
import Switchboard.Rule.File

/-!
# The rule book

The rules in their order, with the file that changes are written to. Every rule that matches a
message adds its actions, and the message goes to the default endpoints unless all of those that
match block that. An identifier that is given out is larger than all given out before.
-/
namespace Switchboard

structure Verdict where
  matched : List Rule
  deriving Inhabited

namespace Verdict

def actions (v : Verdict) : List Action := v.matched.flatMap (·.actions)

/-- Whether the message also goes to the default endpoints. -/
def passes (v : Verdict) : Bool := v.matched.isEmpty || v.matched.any fun r => !r.blockDefault

def toRecord (v : Verdict) : Record Value :=
  [("matchedRules", .list (v.matched.map Rule.toValue)),
   ("actions", .list (v.actions.map Action.toValue)), ("shouldProcess", .bool v.passes)]

end Verdict

structure RuleBook where
  rules : List Rule := []
  file : Option RuleFile := none
  /-- The last identifier that was given out. -/
  lastId : Int := 0

namespace RuleBook

def readAll : List Value → Except Fault (List Rule)
  | [] => .ok []
  | v :: vs => do
    let r ← Rule.ofValue v
    return r :: (← readAll vs)

/-- A rule book of the rules given, or else of those in the file. -/
def start (given : Option (List Value)) (file : Option RuleFile) : Except Fault RuleBook := do
  let rules ← match given, file with
    | some values, _ => readAll values
    | none, some f => f.load
    | none, none => .ok []
  return { rules := rules, file := file }

def matching (message : Value) : List Rule → Except Fault (List Rule)
  | [] => .ok []
  | r :: rs => do
    let answer ← r.holds message
    let rest ← matching message rs
    return if answer then r :: rest else rest

def process (b : RuleBook) (message : Value) : Except Fault Verdict := do
  return ⟨← matching message b.rules⟩

def test (rule message : Value) : Except Fault Bool := do (← Rule.ofValue rule).holds message

def find? (b : RuleBook) (id : String) : Option Rule := b.rules.find? (·.id = some id)

def hasId (b : RuleBook) (id : String) : Bool := b.rules.any (·.id = some id)

/-- The first number from a candidate on that is no identifier, within some steps. -/
def freeFrom (b : RuleBook) : Nat → Int → Int
  | 0, n => n
  | steps + 1, n => if b.hasId (toString n) then freeFrom b steps (n + 1) else n

/-- The next identifier: the time in milliseconds, unless it has been passed. -/
def nextId (b : RuleBook) (now : Int) : Int := b.freeFrom b.rules.length (max now (b.lastId + 1))

/-- Writes the rules to the file, if there is one. What is not written stays in the book. -/
def persist (b : RuleBook) (now : Int) : RuleBook × Option Fault :=
  match b.file with
  | none => (b, none)
  | some f =>
    match f.save b.rules now with
    | (f, .ok _) => ({ b with file := some f }, none)
    | (f, .error e) => ({ b with file := some f }, some e)

def after {α : Type} (a : α) : RuleBook × Option Fault → RuleBook × Except Fault α
  | (b, none) => (b, .ok a)
  | (b, some e) => (b, .error e)

/-- Puts a rule at the end. It gets an identifier if it has none, or one that is taken. -/
def insert (b : RuleBook) (r : Rule) (now : Int) : Rule × RuleBook :=
  match r.id with
  | some id =>
    if id = "" || b.hasId id then named else (r, { b with rules := b.rules ++ [r] })
  | none => named
where
  named : Rule × RuleBook :=
    let n := b.nextId now
    let r := { r with id := some (toString n) }
    (r, { b with rules := b.rules ++ [r], lastId := n })

def add (b : RuleBook) (v : Value) (now : Int) : RuleBook × Except Fault Rule :=
  match Rule.ofValue v with
  | .ok r =>
    let (r, b) := b.insert r now
    after r (b.persist now)
  | .error e => (b, .error e)

def pairOf (item : Value) : Except Fault (Value × Value) := do
  match ← iterated item with
  | [key, value] => if key.isKey then return (key, value) else throw .unhashableKey
  | _ => throw .notAPair

/-- The changes that a value stands for: a table, or a list of pairs. -/
def changesOf : Value → Except Fault (List (Value × Value))
  | .record r => .ok (r.map fun p => (.text p.1, p.2))
  | .table entries => .ok entries
  | v => do (← iterated v).mapM pairOf

/-- The table of a rule with changes put into it. The identifier stays. -/
def merged (r : Rule) (id : String) (changes : List (Value × Value)) : Value :=
  let own := r.toRecord.map fun p => (Value.text p.1, p.2)
  .ofEntries (Value.putEntry (.text "id") (.text id)
    (changes.foldl (fun es c => Value.putEntry c.1 c.2 es) own))

def replace (id : String) (new : Rule) : List Rule → List Rule
  | [] => []
  | r :: rs => if r.id = some id then new :: rs else r :: replace id new rs

/-- Changes the rule of an identifier; none when there is none. -/
def update (b : RuleBook) (id : String) (changes : Value) (now : Int) :
    RuleBook × Except Fault (Option Rule) :=
  match b.find? id with
  | none => (b, .ok none)
  | some r =>
    match (changesOf changes).bind fun c => Rule.ofValue (merged r id c) with
    | .ok new => after (some new) ({ b with rules := replace id new b.rules }.persist now)
    | .error e => (b, .error e)

/-- Takes the rules of an identifier away and says whether there were any. -/
def delete (b : RuleBook) (id : String) (now : Int) : RuleBook × Except Fault Bool :=
  if b.hasId id then
    after true ({ b with rules := b.rules.filter (·.id != some id) }.persist now)
  else (b, .ok false)

def reload (b : RuleBook) : RuleBook × Except Fault Nat :=
  match b.file with
  | none => (b, .ok b.rules.length)
  | some f =>
    match f.load with
    | .ok rules => ({ b with rules := rules }, .ok rules.length)
    | .error e => (b, .error e)

end RuleBook

end Switchboard
