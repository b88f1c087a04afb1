import Mathlib.Data.List.Forall2
import Switchboard.Proofs.EvaluationFaults

/-!
# The two shapes of a rule

A flat rule is a rule of one group that selects every message, whatever joins the groups, and a rule
of groups is made of the rules that have one of its groups each: joined by "or" it matches what some
of them match, and joined by anything else what all of them match.
-/
namespace Switchboard

theorem combine_singleton (logic : String) (answer : Bool) : combine logic [answer] = answer := by
  unfold combine
  split <;> simp

section Answers

variable {α : Type} {test : α → Except Fault Bool} {as : List α} {found : List Bool}

/-- The answers to some tests are what the tests say, in their order. -/
theorem answers_eq_ok_iff :
    answers test as = .ok found ↔ List.Forall₂ (fun a answer => test a = .ok answer) as found := by
  induction as generalizing found with
  | nil => simp [answers, eq_comm]
  | cons a as ih =>
    rw [answers, bind_eq_ok_iff, List.forall₂_cons_left_iff]
    simp only [bind_eq_ok_iff, pure, Except.pure, Except.ok.injEq, ih]
    constructor
    · rintro ⟨answer, ha, rest, hrest, rfl⟩
      exact ⟨answer, rest, ha, hrest, rfl⟩
    · rintro ⟨answer, rest, ha, hrest, rfl⟩
      exact ⟨answer, ha, rest, hrest, rfl⟩

/-- Answers that are joined by "or" say yes if some test does. -/
theorem combine_or (h : answers test as = .ok found) :
    combine "OR" found = true ↔ ∃ a ∈ as, test a = .ok true := by
  have hforall := answers_eq_ok_iff.mp h
  clear h
  change found.any id = true ↔ _
  induction hforall with
  | nil => simp
  | cons ha _ ih => simp [ha, ih]

/-- Answers that are joined by anything else say yes if all tests do. -/
theorem combine_and {logic : String} (hlogic : logic ≠ "OR") (h : answers test as = .ok found) :
    combine logic found = true ↔ ∀ a ∈ as, test a = .ok true := by
  have hforall := answers_eq_ok_iff.mp h
  clear h
  have hor : isOr logic = false := by simpa [isOr] using hlogic
  rw [combine, hor, if_neg Bool.false_ne_true]
  induction hforall with
  | nil => simp
  | cons ha _ ih => simp [ha, ih]

end Answers

/-- The group selects every message: none of its selectors is given. -/
structure ConditionGroup.SelectsAll (g : ConditionGroup) : Prop where
  source : g.source = none ∨ g.source = some ""
  messageType : g.messageType = none ∨ g.messageType = some ""

namespace Rule

variable {message : Value} {g : ConditionGroup} {groups : List ConditionGroup} {logic : String}
  {r s : Rule}

theorem Shape.holds_singleton (message : Value) (g : ConditionGroup) (logic : String) :
    (Shape.grouped [g] logic).holds message = g.holds message := by
  rw [Shape.holds, answers]
  cases g.holds message with
  | error f => rfl
  | ok answer => exact congrArg Except.ok (combine_singleton logic answer)

/-- A group that selects every message asks what its conditions ask in a flat rule. -/
theorem Shape.holds_of_selectsAll (h : g.SelectsAll) (message : Value) :
    g.holds message = (Shape.flat g.conditions g.logic).holds message := by
  have hsource : g.selectsSource message = .ok true := by
    rcases h.source with hs | hs <;> simp [ConditionGroup.selectsSource, hs]
  have hkind : g.selectsKind message = .ok true := by
    rcases h.messageType with hk | hk <;> simp [ConditionGroup.selectsKind, hk]
  rw [ConditionGroup.holds, hsource, hkind]
  rfl

/-- The rule of groups has one group, which selects every message and has the conditions of the flat
rule. -/
structure Regroups (s r : Rule) : Prop where
  enabled : s.enabled = r.enabled
  shape : ∃ g logic, g.SelectsAll ∧ s.shape = .grouped [g] logic ∧
    r.shape = .flat g.conditions g.logic

theorem Regroups.holds_eq (h : s.Regroups r) (message : Value) :
    s.holds message = r.holds message := by
  obtain ⟨g, logic, hg, hs, hr⟩ := h.shape
  rw [holds, holds, h.enabled, hs, hr, Shape.holds_singleton, Shape.holds_of_selectsAll hg]

/-- The rule with one of its groups only. -/
def keeping (r : Rule) (g : ConditionGroup) : Rule :=
  match r.shape with
  | .grouped _ logic => { r with shape := .grouped [g] logic }
  | .flat _ _ => r

theorem holds_keeping (enabled : r.enabled = true) (shape : r.shape = .grouped groups logic)
    (g : ConditionGroup) (message : Value) : (r.keeping g).holds message = g.holds message := by
  simp only [keeping, shape, holds, enabled, if_true, Shape.holds_singleton]

/-- A rule of groups that says yes or no does so by joining the answers of its groups. -/
theorem exists_answers (enabled : r.enabled = true) (shape : r.shape = .grouped groups logic)
    (decides : ¬ Switchboard.Faults (r.holds message)) :
    ∃ found, answers (fun g => (r.keeping g).holds message) groups = .ok found ∧
      r.holds message = .ok (combine logic found) := by
  have hkeeping : (fun g => (r.keeping g).holds message) = (ConditionGroup.holds · message) :=
    funext fun g => holds_keeping enabled shape g message
  have hholds : r.holds message = (do
      return combine logic (← answers (ConditionGroup.holds · message) groups)) := by
    rw [holds, enabled, if_pos rfl, shape, Shape.holds]
  rw [hholds, faults_bind_pure] at decides
  obtain ⟨found, hfound⟩ := not_faults_iff.mp decides
  refine ⟨found, by rw [hkeeping, hfound], ?_⟩
  rw [hholds, hfound]
  rfl

/-- A flat rule answers every message as the rule of groups does whose one group has its conditions
and selects every message, be the answer yes, no or a fault. A rule of groups that is turned on
and answers a message says yes, if its groups are joined by "or", exactly if one of the rules says
yes that have one of its groups each, and if they are joined by anything else, exactly if all these
rules do. -/
theorem shapes_agree (message : Value) :
    (∀ s r : Rule, s.Regroups r → s.holds message = r.holds message) ∧
    ∀ (r : Rule) (groups : List ConditionGroup) (logic : String),
      r.enabled = true → r.shape = .grouped groups logic → ¬ Switchboard.Faults (r.holds message) →
        (logic = "OR" → (r.holds message = .ok true ↔
          ∃ g ∈ groups, (r.keeping g).holds message = .ok true)) ∧
        (logic ≠ "OR" → (r.holds message = .ok true ↔
          ∀ g ∈ groups, (r.keeping g).holds message = .ok true)) := by
  constructor
  · intro s r h
    exact h.holds_eq message
  · intro r groups logic enabled shape decides
    obtain ⟨found, hfound, hholds⟩ := exists_answers enabled shape decides
    rw [hholds, Except.ok.injEq]
    constructor
    · rintro rfl
      exact combine_or hfound
    · intro hlogic
      exact combine_and hlogic hfound

/-- Two conditions of which the second one asks for nothing that is known. -/
def greetings : List Condition := [{ field := "comment", value := .text "hi" },
  { field := "comment", operator := "resembles", value := .text "hi" }]

/-- Two groups of which the first one selects other messages than comments. -/
def greetingGroups : List ConditionGroup :=
  [{ messageType := some "gift" }, { source := some "", conditions := greetings, logic := "OR" }]

def greetingRule (logic : String) : Rule where
  shape := .grouped greetingGroups logic

/-- A message that greets. -/
def greetingMessage : Value := .record [("type", .text "niconico"), ("comment", .text "hi")]

theorem shapes_agree_greeting :
    Rule.holds
        { shape := .grouped [{ source := some "", conditions := greetings, logic := "or" }] "" }
        greetingMessage =
      Rule.holds { shape := .flat greetings "or" } greetingMessage ∧
    ((greetingRule "OR").holds greetingMessage = .ok true ∧
      ∃ g ∈ greetingGroups, ((greetingRule "OR").keeping g).holds greetingMessage = .ok true) ∧
    ((greetingRule "or").holds greetingMessage = .ok false ∧
      ¬ ∀ g ∈ greetingGroups, ((greetingRule "or").keeping g).holds greetingMessage = .ok true) := by
  obtain ⟨hflat, hgrouped⟩ := shapes_agree greetingMessage
  have hor : (greetingRule "OR").holds greetingMessage = .ok true := by decide +kernel
  have hand : (greetingRule "or").holds greetingMessage = .ok false := by decide +kernel
  have hsome := (hgrouped (greetingRule "OR") _ _ rfl rfl (by simp [hor])).1 rfl
  have hevery := (hgrouped (greetingRule "or") _ _ rfl rfl (by simp [hand])).2 (by decide)
  refine ⟨?_, ⟨hor, hsome.mp hor⟩, hand, ?_⟩
  · apply hflat
    exact ⟨rfl, { source := some "", conditions := greetings, logic := "or" }, "",
      ⟨Or.inr rfl, Or.inl rfl⟩, rfl, rfl⟩
  · intro hall
    have hyes := hevery.mpr hall
    rw [hand] at hyes
    cases hyes

end Rule

end Switchboard
