import Switchboard.Proofs.JsonReading
import Switchboard.Proofs.RuleFaults
import Switchboard.Rule.File

/-!
# Reading the rules of a file

A rules file lists entries. What is read of it is, in their order, the entries that are rules, and
an entry that is refused is left out whatever is wrong with it. So each entry is read on its own,
unless the reading of some entry is ended by a fault, and no rule of the file is read then.
-/
namespace Switchboard

/-- A text is read by its tokens and the tree that they make up. -/
theorem Yaml.read_eq_ok {s : String} (ts : List Token) {n : Node} {v : Value}
    (allowed : (unifyLines s.toList).all isAllowed = true)
    (lexed : tokens (unifyLines s.toList) = (ts, none))
    (arranged : Tree.ofTokens ts none = .ok (some n)) (valued : valueOf n = .ok v) :
    read s = .ok v := by
  unfold read
  simp [allowed, lexed, arranged, valued, bind, Except.bind]

namespace RuleFile

/-- The rules of some entries: those that are rules, unless the reading of an entry is ended. -/
theorem rulesOf_eq (entries : List Value) :
    rulesOf entries =
      match entries.findSome? Rule.stop? with
      | some fault => .error fault
      | none => .ok (entries.filterMap fun entry => (Rule.ofValue entry).toOption) := by
  induction entries with
  | nil => rfl
  | cons entry entries ih =>
    unfold rulesOf
    rw [ih, List.findSome?_cons]
    cases htable : entry.isTable with
    | false =>
      simp [Rule.ofValue_not_table htable, Rule.stop?_eq_none_of_not_table htable, Except.toOption]
    | true =>
      cases hstop : Rule.stop? entry with
      | some fault =>
        rcases Rule.eq_of_stop? hstop with rfl | rfl <;> simp [Rule.ofValue_stopped hstop]
      | none =>
        rcases Rule.ofValue_cases htable hstop with ⟨r, hr⟩ | ⟨j, hj⟩
        · cases entries.findSome? Rule.stop? <;>
            simp [hr, Except.toOption, bind, Except.bind, pure, Except.pure]
        · simp [hj, Except.toOption]

theorem rulesOf_append (before after : List Value) :
    rulesOf (before ++ after) = do return (← rulesOf before) ++ (← rulesOf after) := by
  rw [rulesOf_eq, rulesOf_eq before, rulesOf_eq after, List.findSome?_append, List.filterMap_append]
  cases before.findSome? Rule.stop? <;> cases after.findSome? Rule.stop? <;> rfl

/-- The file is a document that lists the entries, or that has such a list under the key for
rules. -/
def Lists (f : RuleFile) (entries : List Value) : Prop :=
  f.file.value = .ok (.list entries) ∨
    ∃ document r, f.file.value = .ok document ∧ document.keyed? = some r ∧
      Record.get? r "rules" = some (.list entries)

theorem load_eq_rulesOf {f : RuleFile} {entries : List Value} (h : f.Lists entries) :
    f.load = rulesOf entries := by
  unfold load
  rcases h with h | ⟨document, r, h, hr, hrules⟩
  · simp [h, entriesOf]
  · cases document with
    | record fields =>
      obtain rfl := Option.some.inj hr
      simp [h, entriesOf, Value.lookup, hrules]
    | table _ =>
      obtain rfl := Option.some.inj hr
      simp [h, entriesOf, Value.lookup, hrules]
    | _ => cases hr

/-- A rule, a number, an entry whose conditions are a text, and another rule. -/
def withStrays : RuleFile :=
  { file := .ofText "- id: a\n- 5\n- id: b\n  conditions: nope\n- id: c\n" }

theorem read_strays :
    Yaml.read "- id: a\n- 5\n- id: b\n  conditions: nope\n- id: c\n" =
      .ok (.list [.record [("id", .text "a")], .int 5,
        .record [("id", .text "b"), ("conditions", .text "nope")], .record [("id", .text "c")]]) :=
  Yaml.read_eq_ok
    [.blockSequenceStart,
     .blockEntry, .blockMappingStart, .key, .scalar true "id", .value, .scalar true "a", .blockEnd,
     .blockEntry, .scalar true "5",
     .blockEntry, .blockMappingStart, .key, .scalar true "id", .value, .scalar true "b",
     .key, .scalar true "conditions", .value, .scalar true "nope", .blockEnd,
     .blockEntry, .blockMappingStart, .key, .scalar true "id", .value, .scalar true "c", .blockEnd,
     .blockEnd, .streamEnd]
    rfl (by decide +kernel) rfl rfl

/-- A file of an action whose fields are a number, and a rule. -/
def withEndless : RuleFile := { file := .ofText "- actions:\n  - fields: 5\n- id: b\n" }

theorem read_endless :
    Yaml.read "- actions:\n  - fields: 5\n- id: b\n" =
      .ok (.list [.record [("actions", .list [.record [("fields", .int 5)]])],
        .record [("id", .text "b")]]) :=
  Yaml.read_eq_ok
    [.blockSequenceStart,
     .blockEntry, .blockMappingStart, .key, .scalar true "actions", .value,
     .blockEntry, .blockMappingStart, .key, .scalar true "fields", .value, .scalar true "5",
     .blockEnd, .blockEnd,
     .blockEntry, .blockMappingStart, .key, .scalar true "id", .value, .scalar true "b", .blockEnd,
     .blockEnd, .streamEnd]
    rfl (by decide +kernel) rfl rfl

theorem isJson_endless : ∀ entry ∈ [Value.record
    [("actions", .list [.record [("fields", .int 5)]])], .record [("id", .text "b")]],
    entry.IsJson := by
  have hnumber : (Value.int 5).OfJson := .int (by unfold IsOverlong; decide +kernel)
  have haction : (Value.record [("fields", .int 5)]).OfJson := .record (by simpa using hnumber)
  have hactions : (Value.list [.record [("fields", .int 5)]]).OfJson :=
    .list (by simpa using haction)
  have hfirst : (Value.record [("actions", .list [.record [("fields", .int 5)]])]).OfJson :=
    .record (by simpa using hactions)
  have hsecond : (Value.record [("id", .text "b")]).OfJson := .record (by simp [Value.OfJson.text])
  simpa using And.intro ⟨hfirst, by decide⟩ ⟨hsecond, by decide⟩

end RuleFile

end Switchboard
