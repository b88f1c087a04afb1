import Switchboard.Proofs.RuleChanges
import Switchboard.Proofs.RuleForms

/-!
# The rules in memory and in the file

A rule without its null further keys is written as the same record, and matches the same messages.
So when every change is written in full, the file always holds the rules of the book, and reading
it again changes nothing that a caller can tell.
-/
namespace Switchboard

theorem answers_map {α β : Type} (test : β → Except Fault Bool) (f : α → β) (as : List α) :
    answers test (as.map f) = answers (fun a => test (f a)) as := by
  induction as with
  | nil => rfl
  | cons a as ih => simp only [List.map_cons, answers, ih]

@[simp] theorem Condition.holds_settled (c : Condition) (message : Value) :
    c.settled.holds message = c.holds message := rfl

@[simp] theorem ConditionGroup.holds_settled (g : ConditionGroup) (message : Value) :
    g.settled.holds message = g.holds message := by
  have hanswers : answers (Condition.holds · message) g.settled.conditions =
      answers (Condition.holds · message) g.conditions := answers_map _ _ _
  have hempty : g.settled.conditions.isEmpty = g.conditions.isEmpty := List.isEmpty_map
  unfold ConditionGroup.holds
  rw [hanswers, hempty]
  rfl

namespace Rule

@[simp] theorem Shape.holds_settled (s : Shape) (message : Value) :
    s.settled.holds message = s.holds message := by
  cases s with
  | grouped groups logic => simp [settled, holds, answers_map]
  | flat conditions logic => simp [settled, holds, answers_map]

@[simp] theorem holds_settled (r : Rule) (message : Value) :
    r.settled.holds message = r.holds message := by
  unfold holds
  rw [show r.settled.shape = r.shape.settled from rfl, Shape.holds_settled]
  rfl

end Rule

/-- The rules of two lists are the same but for further keys that are null. -/
def SameRules (rs ss : List Rule) : Prop := rs.map Rule.settled = ss.map Rule.settled

namespace SameRules

variable {rs ss : List Rule}

theorem map_eq {α : Type} {f : Rule → α} (hf : ∀ r, f r.settled = f r) (h : SameRules rs ss) :
    rs.map f = ss.map f := by
  have hmap : ∀ ts : List Rule, ts.map f = (ts.map Rule.settled).map f := by
    intro ts
    rw [List.map_map]
    exact List.map_congr_left fun r _ => (hf r).symm
  rw [hmap rs, hmap ss, h]

theorem matching_settled (message : Value) (ts : List Rule) :
    RuleBook.matching message (ts.map Rule.settled) =
      (RuleBook.matching message ts).map (List.map Rule.settled) := by
  induction ts with
  | nil => rfl
  | cons r ts ih =>
    simp only [List.map_cons, RuleBook.matching, Rule.holds_settled, ih]
    cases r.holds message with
    | error e => rfl
    | ok answer =>
      cases RuleBook.matching message ts with
      | error e => rfl
      | ok rest => cases answer <;> rfl

theorem verdict_toRecord_settled (rs : List Rule) :
    Verdict.toRecord ⟨rs.map Rule.settled⟩ = Verdict.toRecord ⟨rs⟩ := by
  have hvalue : ∀ r : Rule, r.settled.toValue = r.toValue := fun r => by simp [Rule.toValue]
  have hactions : ∀ r : Rule, r.settled.actions.map Action.toValue = r.actions.map Action.toValue :=
    fun r => by simp [Rule.settled, Function.comp_def]
  have hblock : ∀ r : Rule, r.settled.blockDefault = r.blockDefault := fun r => rfl
  simp [Verdict.toRecord, Verdict.actions, Verdict.passes, List.map_flatMap, List.flatMap_map,
    Function.comp_def, hvalue, hactions, hblock]

/-- The same rules have the same verdict on every message, or the same fault. -/
theorem process_eq {b c : RuleBook} (h : SameRules b.rules c.rules) (message : Value) :
    (b.process message).map Verdict.toRecord = (c.process message).map Verdict.toRecord := by
  have hprocess : ∀ d : RuleBook, (d.process message).map Verdict.toRecord =
      (RuleBook.matching message (d.rules.map Rule.settled)).map fun rs =>
        Verdict.toRecord ⟨rs⟩ := by
    intro d
    rw [matching_settled]
    unfold RuleBook.process
    cases RuleBook.matching message d.rules with
    | error e => rfl
    | ok rs => exact congrArg Except.ok (verdict_toRecord_settled rs).symm
  rw [hprocess b, hprocess c, h]

end SameRules

namespace RuleFile

theorem regular_of_rulesOf {entries : List Value} {rules : List Rule}
    (h : rulesOf entries = .ok rules) : ∀ r ∈ rules, r.Regular := by
  induction entries generalizing rules with
  | nil =>
    simp only [rulesOf, Except.ok.injEq] at h
    simp [← h]
  | cons entry entries ih =>
    unfold rulesOf at h
    split at h
    · exact ih h
    · cases hr : Rule.ofValue entry with
      | error e =>
        cases e <;> simp only [hr] at h <;> first | exact ih h | cases h
      | ok r =>
        simp only [hr] at h
        cases hrest : rulesOf entries with
        | error e => simp [hrest, bind, Except.bind] at h
        | ok rest =>
          simp only [hrest, bind, Except.bind, pure, Except.pure, Except.ok.injEq] at h
          intro s hs
          rcases List.mem_cons.mp (h ▸ hs) with rfl | hs
          · exact Rule.regular_of_ofValue hr
          · exact ih hrest s hs

theorem regular_of_load {f : RuleFile} {rules : List Rule} (h : f.load = .ok rules) :
    ∀ r ∈ rules, r.Regular := by
  unfold load at h
  split at h
  · exact regular_of_rulesOf h
  · split at h
    · simp only [Except.ok.injEq] at h
      simp [← h]
    · cases h

theorem rulesOf_map_toValue {rules : List Rule} (regular : ∀ r ∈ rules, r.Regular)
    (once : ∀ r ∈ rules, r.SpelledOnce) :
    rulesOf (rules.map Rule.toValue) = .ok (rules.map Rule.settled) := by
  induction rules with
  | nil => rfl
  | cons r rs ih =>
    have hr := Rule.ofValue_toValue (regular r List.mem_cons_self)
      fun g hg => (once r List.mem_cons_self g hg).not_shadowed
    have hrs := ih (fun s hs => regular s (List.mem_cons_of_mem _ hs))
      (fun s hs => once s (List.mem_cons_of_mem _ hs))
    have htable : r.toValue.isTable = true := rfl
    simp only [List.map_cons, rulesOf, htable, hr, hrs]
    rfl

theorem entriesOf_document (rules : List Rule) (now : Int) :
    entriesOf (document rules now) = rules.map Rule.toValue := by
  simp [entriesOf, document, Value.lookup, Record.get?_cons]

end RuleFile

namespace RuleBook

/-- A save writes the rules of the book, and the document is read back as it was written. -/
structure WrittenInFull (b : RuleBook) (now : Int) : Prop where
  saved : ∀ f, b.file = some f → (f.save b.rules now).2 = .ok true
  kept : ∀ v, Yaml.readBack (RuleFile.document b.rules now) = .ok v →
    v = RuleFile.document b.rules now

def SpelledOnce (b : RuleBook) : Prop := ∀ r ∈ b.rules, r.SpelledOnce

theorem load_save {f : RuleFile} {rules : List Rule} {now : Int}
    (saved : (f.save rules now).2 = .ok true)
    (kept : ∀ v, Yaml.readBack (RuleFile.document rules now) = .ok v →
      v = RuleFile.document rules now) :
    (f.save rules now).1.load = RuleFile.rulesOf (rules.map Rule.toValue) := by
  cases hw : f.file.writable with
  | false => simp [RuleFile.save_of_not_writable hw] at saved
  | true =>
    cases hv : Yaml.readBack (RuleFile.document rules now) with
    | error e =>
      rw [RuleFile.save_of_fault hw hv] at saved
      cases he : e.isOfDocument <;> simp [he] at saved
    | ok v =>
      rw [RuleFile.save_of_readBack hw hv]
      simp [RuleFile.load, RuleFile.rewritten, File.value, hw, Content.value, kept v hv,
        RuleFile.entriesOf_document]

/-- The file gives the rules of the book. -/
structure Mirrored (b : RuleBook) : Prop where
  regular : ∀ r ∈ b.rules, r.Regular
  stored : ∃ f rules, b.file = some f ∧ f.load = .ok rules ∧ SameRules rules b.rules

theorem mirrored_of_start {f : RuleFile} {b : RuleBook} (h : start none (some f) = .ok b) :
    b.Mirrored := by
  unfold start at h
  cases hl : f.load with
  | error e => simp [hl, bind, Except.bind] at h
  | ok rules =>
    simp only [hl, bind, Except.bind, pure, Except.pure, Except.ok.injEq] at h
    subst h
    exact ⟨RuleFile.regular_of_load hl, f, rules, rfl, hl, rfl⟩

theorem Mirrored.changed {b : RuleBook} (h : b.Mirrored) {now : Int} {c : Change}
    (written : ∀ p, b.planned now c = some p → p.WrittenInFull now)
    (once : (b.changed now c).SpelledOnce) : (b.changed now c).Mirrored := by
  rw [changed_eq] at once ⊢
  cases hp : b.planned now c with
  | none => exact h
  | some p =>
    simp only [hp] at once ⊢
    have hw := written p hp
    have hregular : ∀ r ∈ p.rules, r.Regular := by
      intro r hr
      rcases mem_planned hp hr with hr | ⟨v, s, id, hs, rfl⟩
      · exact h.regular r hr
      · exact (Rule.regular_of_ofValue hs).withId id
    obtain ⟨f, rules, hf, -, -⟩ := h.stored
    have hpf : p.file = some f := (planned_file hp).trans hf
    have honce : ∀ r ∈ p.rules, r.SpelledOnce := by
      intro r hr
      refine once r ?_
      rw [persist_rules]
      exact hr
    refine ⟨by simpa using hregular, (f.save p.rules now).1, p.rules.map Rule.settled, ?_, ?_, ?_⟩
    · rw [persist_file, hpf, Option.map_some]
    · rw [load_save (hw.saved f hpf) hw.kept]
      exact RuleFile.rulesOf_map_toValue hregular honce
    · rw [persist_rules]
      simp [SameRules, Function.comp_def]

theorem reload_eq {b : RuleBook} {f : RuleFile} {rules : List Rule} (hf : b.file = some f)
    (hl : f.load = .ok rules) : b.reload = ({ b with rules := rules }, .ok rules.length) := by
  unfold reload
  simp only [hf, hl]

theorem Mirrored.reload {b : RuleBook} (h : b.Mirrored) : b.reload.1.Mirrored := by
  obtain ⟨f, rules, hf, hl, -⟩ := h.stored
  rw [reload_eq hf hl]
  exact ⟨RuleFile.regular_of_load hl, f, rules, hf, hl, rfl⟩

/-- The books that a book of the rules in a file comes to by changes that are written in full and
by reloads, as long as no group gives its kind of messages a second time. -/
inductive Kept (f : RuleFile) : RuleBook → Prop
  | start {b : RuleBook} (loaded : start none (some f) = .ok b) (once : b.SpelledOnce) : Kept f b
  | change {b : RuleBook} (now : Int) (c : Change) (before : Kept f b)
      (written : ∀ p, b.planned now c = some p → p.WrittenInFull now)
      (once : (b.changed now c).SpelledOnce) : Kept f (b.changed now c)
  | reload {b : RuleBook} (before : Kept f b) (once : b.reload.1.SpelledOnce) : Kept f b.reload.1

theorem Kept.mirrored {f : RuleFile} {b : RuleBook} (h : Kept f b) : b.Mirrored := by
  induction h with
  | start loaded _ => exact mirrored_of_start loaded
  | change now c _ written once ih => exact ih.changed written once
  | reload _ _ ih => exact ih.reload

/-- After every step of a run that is written in full the file gives the rules of the book: the
same shapes, the same records and the same answers to every message, in the same order. Reading
them again changes no verdict. -/
theorem Kept.stored_eq {f : RuleFile} {b : RuleBook} (h : Kept f b) :
    ∃ file stored, b.file = some file ∧ file.load = .ok stored ∧
      stored.map (·.shape.name) = b.rules.map (·.shape.name) ∧
      stored.map Rule.toRecord = b.rules.map Rule.toRecord ∧
      b.reload = ({ b with rules := stored }, .ok b.rules.length) ∧
      ∀ message, stored.map (·.holds message) = b.rules.map (·.holds message) ∧
        (b.reload.1.process message).map Verdict.toRecord =
          (b.process message).map Verdict.toRecord := by
  obtain ⟨file, stored, hf, hl, hsame⟩ := h.mirrored.stored
  have hreload := reload_eq hf hl
  have hlength : stored.length = b.rules.length := by
    simpa using congrArg List.length hsame
  refine ⟨file, stored, hf, hl, ?_, ?_, ?_, ?_⟩
  · exact hsame.map_eq fun r => by simp [Rule.settled]
  · exact hsame.map_eq Rule.toRecord_settled
  · rw [hreload, hlength]
  · intro message
    refine ⟨hsame.map_eq fun r => r.holds_settled message, ?_⟩
    rw [hreload]
    exact SameRules.process_eq hsame message

/-- A book without rules and with an empty file, after a rule with a null key was added. -/
def withGreeting : RuleBook :=
  changed { file := some {} } 0 (.add (.record [("name", .text "greeting"), ("note", .null),
    ("conditions", .list [.record [("field", .text "comment"), ("value", .text "hello")]])]))

theorem kept_withGreeting : Kept {} withGreeting := by
  have hbefore : Kept {} { file := some {} } := .start rfl (by simp [SpelledOnce])
  refine .change 0 _ hbefore ?_ ?_
  · rintro p ⟨⟩
    constructor
    · rintro f ⟨⟩
      rfl
    · rintro v ⟨⟩
      rfl
  · intro r hr g hg
    obtain rfl := List.mem_singleton.mp hr
    cases hg

theorem stored_eq_greeting :
    ∃ file stored, withGreeting.file = some file ∧ file.load = .ok stored ∧ stored.length = 1 ∧
      stored.map (·.shape.name) = withGreeting.rules.map (·.shape.name) ∧
      stored.map Rule.toRecord = withGreeting.rules.map Rule.toRecord ∧
      ∀ message, stored.map (·.holds message) = withGreeting.rules.map (·.holds message) := by
  obtain ⟨file, stored, hf, hl, hname, hrecord, -, hmessage⟩ := kept_withGreeting.stored_eq
  have hlength : stored.length = withGreeting.rules.length := by
    simpa using congrArg List.length hname
  exact ⟨file, stored, hf, hl, hlength.trans rfl, hname, hrecord, fun message => (hmessage message).1⟩

end RuleBook

end Switchboard
