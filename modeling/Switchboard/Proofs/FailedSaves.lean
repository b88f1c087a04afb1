import Switchboard.Proofs.Documents
import Switchboard.Proofs.RuleChanges
import Switchboard.Proofs.RuleLoading

/-!
# Saves that fail

A save of rules fails when the file cannot be written, and then nothing has happened. It also fails
when something absent is come to in the rules, and then the file has been emptied before: no rules
are read from it any more. What the file held is left in its backup alone.
-/
namespace Switchboard

namespace RuleFile

/-- Something is absent in the rules, and writing them comes to it. -/
def HoldAbsent (rules : List Rule) : Prop :=
  (∃ p ∈ nodesOf rules, p.value = .absent) ∧ ¬ Value.BreaksOff (nodesOf rules)

theorem holdAbsent_iff (rules : List Rule) (now : Int) :
    HoldAbsent rules ↔
      ∃ e, Yaml.readBack (document rules now) = .error e ∧ e.isOfDocument = true := by
  have hfault := Yaml.faultOf_readBackWithin Yaml.nestingLimit (document rules now)
  rw [writeFault?_document] at hfault
  unfold HoldAbsent
  rw [← Value.writeFault?_ofDocument, ← hfault]
  change (∃ e, faultOf (Yaml.readBack (document rules now)) = some e ∧ _) ↔ _
  cases Yaml.readBack (document rules now) <;> simp [faultOf]

/-- A save fails when the file cannot be written, or the rules cannot. -/
theorem save_eq_false_iff (f : RuleFile) (rules : List Rule) (now : Int) :
    (f.save rules now).2 = .ok false ↔ f.file.writable = false ∨ HoldAbsent rules := by
  rw [holdAbsent_iff rules now]
  cases hw : f.file.writable with
  | false => simp [save_of_not_writable hw]
  | true =>
    cases hr : Yaml.readBack (document rules now) with
    | ok v => simp [save_of_readBack hw hr]
    | error e => cases he : e.isOfDocument <;> simp [save_of_fault hw hr, he]

/-- A save that fails has left the file as it is, or has emptied it. -/
theorem save_cases {f : RuleFile} {rules : List Rule} {now : Int}
    (h : (f.save rules now).2 = .ok false) :
    f.file.writable = false ∧ (f.save rules now).1 = f ∨
      f.file.writable = true ∧ (f.save rules now).1 = f.rewritten (.text "") := by
  cases hw : f.file.writable with
  | false => exact Or.inl ⟨rfl, by rw [save_of_not_writable hw]⟩
  | true =>
    have hrules := ((save_eq_false_iff f rules now).mp h).resolve_left (by simp [hw])
    obtain ⟨e, he, -⟩ := (holdAbsent_iff rules now).mp hrules
    exact Or.inr ⟨rfl, by rw [save_of_fault hw he]⟩

theorem load_congr {f g : RuleFile} (h : f.file.content = g.file.content) : f.load = g.load := by
  simp only [load, File.value, h]

/-- No rules are read from a file that was emptied. -/
theorem load_rewritten_empty {f : RuleFile} (h : f.file.writable = true) :
    (f.rewritten (.text "")).load = .ok [] := by
  have hempty : (f.rewritten (.text "")).file.content = some (.text "") := File.put_content h _
  exact load_congr (g := { file := .ofText "" }) hempty

/-- The file with what it held before it was last written. -/
def recovered (f : RuleFile) : RuleFile := { f with file := { f.file with content := f.backup } }

/-- What an emptied file held is recovered from its backup. -/
theorem load_recovered {f : RuleFile} {c : Content} (h : f.file.content = some c) (d : Content) :
    (f.rewritten d).recovered.load = f.load := by
  apply load_congr
  simp [recovered, rewritten, h]

/-- A save fails when the file cannot be written, or when something is absent in the rules and
writing comes to it. The rules that are read after it are those that were read before it where the
file could not be written or there were none. Otherwise no rules are read any more, and those that
the file held are read from its backup. -/
theorem load_failed_save (f : RuleFile) (rules : List Rule) (now : Int) :
    ((f.save rules now).2 = .ok false ↔ f.file.writable = false ∨ HoldAbsent rules) ∧
    ((f.save rules now).2 = .ok false →
      ((f.save rules now).1.load = f.load ↔ f.file.writable = false ∨ f.load = .ok []) ∧
      ((f.save rules now).1.load = f.load ∨
        (f.save rules now).1.load = .ok [] ∧ (f.save rules now).1.recovered.load = f.load)) := by
  refine ⟨save_eq_false_iff f rules now, ?_⟩
  intro hfailed
  rcases save_cases hfailed with ⟨hw, hsave⟩ | ⟨hw, hsave⟩
  · rw [hsave]
    exact ⟨by simp [hw], Or.inl rfl⟩
  · have hempty := load_rewritten_empty hw
    rw [hsave, hempty]
    refine ⟨by simp [hw, eq_comm], ?_⟩
    cases hc : f.file.content with
    | none =>
      have hnone : f.load = .ok [] := load_congr (g := {}) hc
      exact Or.inl hnone.symm
    | some c => exact Or.inr ⟨rfl, load_recovered hc _⟩

/-- A rule that compares a field with the absent value. -/
def absentRule : Rule := { shape := .flat [{ field := "x", value := .absent }] "AND" }

/-- A file of one rule. -/
def ofOneRule : RuleFile := { file := .ofText "- id: a\n" }

theorem load_ofOneRule : ofOneRule.load = .ok [{ id := some "a" }] := by
  have hread : Yaml.read "- id: a\n" = .ok (.list [.record [("id", .text "a")]]) :=
    Yaml.read_eq_ok
      [.blockSequenceStart, .blockEntry, .blockMappingStart, .key, .scalar true "id", .value,
       .scalar true "a", .blockEnd, .blockEnd, .streamEnd]
      rfl (by decide +kernel) rfl rfl
  have hlists : ofOneRule.Lists [.record [("id", .text "a")]] := Or.inl hread
  rw [load_eq_rulesOf hlists]
  rfl

theorem load_failed_save_absent :
    (ofOneRule.save [absentRule] 0).2 = .ok false ∧
    (ofOneRule.save [absentRule] 0).1.load ≠ ofOneRule.load ∧
    (ofOneRule.save [absentRule] 0).1.recovered.load = ofOneRule.load := by
  have hfailed : (ofOneRule.save [absentRule] 0).2 = .ok false := rfl
  obtain ⟨hkept, hrecovered⟩ := (load_failed_save ofOneRule [absentRule] 0).2 hfailed
  have hlost : (ofOneRule.save [absentRule] 0).1.load ≠ ofOneRule.load := by
    rw [ne_eq, hkept, load_ofOneRule]
    rintro (h | h) <;> cases h
  exact ⟨hfailed, hlost, (hrecovered.resolve_left hlost).2⟩

/-- A save of a rule with the absent value takes the rules of the file with it. -/
theorem not_load_failed_save_kept :
    ¬ ∀ (f : RuleFile) (rules : List Rule) (now : Int),
      (∀ r ∈ rules, ∃ entry, Rule.ofValue entry = .ok r) →
        (f.save rules now).2 = .ok false → (f.save rules now).1.load = f.load := by
  intro h
  have hparsed : Rule.ofValue (.record [("conditions",
      .list [.record [("field", .text "x"), ("value", .absent)]])]) = .ok absentRule := rfl
  have hkept := h ofOneRule [absentRule] 0 (by simpa using ⟨_, hparsed⟩) rfl
  have hempty : (ofOneRule.save [absentRule] 0).1.load = .ok [] := rfl
  rw [hempty, load_ofOneRule] at hkept
  cases hkept

end RuleFile

end Switchboard
