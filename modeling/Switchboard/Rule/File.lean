import Switchboard.Rule.Basic
import Switchboard.Settings

/-!
# The rules file

Rules are kept in a file in their order, and what the file held before it was last written is
kept as a backup. An entry that is no rule is left out when the rules are read.
-/
namespace Switchboard

structure RuleFile where
  file : File := {}
  backup : Option Content := none

namespace RuleFile

/-- The rules of some entries. An entry that is no record, or that is refused as a rule, is left
out. -/
def rulesOf : List Value → Except Fault (List Rule)
  | [] => .ok []
  | entry :: entries =>
    if !entry.isTable then rulesOf entries
    else
      match Rule.ofValue entry with
      | .ok r => do return r :: (← rulesOf entries)
      | .error (.rejected _) => rulesOf entries
      | .error f => .error f

/-- The entries of a document: it is a list of them, or has one under the key for rules. -/
def entriesOf (document : Value) : List Value :=
  let found := match document with
    | .record r => Value.lookup r "rules"
    | .table entries => Value.lookup (Check.textFields entries) "rules"
    | v => v
  match found with
  | .list entries => entries
  | _ => []

/-- The rules of the file. A file that holds no document holds no rules. -/
def load (f : RuleFile) : Except Fault (List Rule) :=
  match f.file.value with
  | .ok document => rulesOf (entriesOf document)
  | .error e => if e.isOfDocument then .ok [] else .error e

def document (rules : List Rule) (now : Int) : Value :=
  .record [("version", .text documentVersion),
    ("lastUpdated", .text (Calendar.instantText now)),
    ("rules", .list (rules.map Rule.toValue))]

/-- Writes the rules and says whether that could be done. The file is opened, and so emptied,
before it turns out that the rules cannot be written. -/
def save (f : RuleFile) (rules : List Rule) (now : Int) : RuleFile × Except Fault Bool :=
  if !f.file.writable then (f, .ok false)
  else
    let put (c : Content) : RuleFile :=
      { file := f.file.put c, backup := f.file.content.or f.backup }
    match Yaml.readBack (document rules now) with
    | .ok v => (put (.document v), .ok true)
    | .error e => (put (.text ""), if e.isOfDocument then .ok false else .error e)

end RuleFile

end Switchboard
