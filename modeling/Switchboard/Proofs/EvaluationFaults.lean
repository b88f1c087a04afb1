import Switchboard.Proofs.RuleFaults
import Switchboard.Rule.Evaluation

/-!
# Where an evaluation faults

A comparison never faults, but what comes before it may: a path that numbers the items of a list by
a segment that is no numeral, a value that is to be a number and is beyond the doubles or has no
display, as one that is nested too deep, and a service whose text is asked for and that has none. An
evaluation faults exactly where it meets one of these, or where the reading of what is evaluated
ends at a value that is nested too deep.
-/
namespace Switchboard

namespace Path

/-- The segment consists of digits and is still no numeral: some digit is not decimal, or there are
too many. -/
def IsRefused (segment : String) : Prop :=
  segment ≠ "" ∧ segment.toList.all Text.isDigit = true ∧
    (segment.toList.all Text.isDecimal = false ∨ Number.digitLimit < segment.length)

/-- The segments lead to a list whose items the next segment numbers by no numeral. -/
def Blocked (segments : List String) (v : Value) : Prop :=
  ∃ before s rest items, segments = before ++ s :: rest ∧ follow before v = .ok (.list items) ∧
    IsRefused s

theorem faults_position (s : String) : Faults (position s) ↔ IsRefused s := by
  have hempty : s.toList.isEmpty = true ↔ s = "" := by
    rw [List.isEmpty_iff, String.toList_eq_nil_iff]
  have hlength : s.toList.length = s.length := String.length_toList
  unfold position IsRefused
  dsimp only
  rw [hlength]
  cases he : s.toList.isEmpty with
  | true => simp [hempty.mp he]
  | false =>
    have hs : s ≠ "" := fun h => by simp [hempty.mpr h] at he
    cases hdigit : s.toList.all Text.isDigit with
    | false => simp
    | true =>
      cases hdecimal : s.toList.all Text.isDecimal with
      | false => simp [hs]
      | true =>
        by_cases hl : s.length ≤ Number.digitLimit
        · simp [hl, Nat.not_lt.mpr hl]
        · simp [hs, hl, Nat.lt_of_not_le hl]

theorem faults_select (v : Value) (s : String) :
    Faults (select v s) ↔ (∃ items, v = .list items) ∧ IsRefused s := by
  cases v with
  | list items =>
    rw [← faults_position]
    unfold select
    simp only [faults_bind, Value.list.injEq, exists_eq', true_and]
    constructor
    · rintro (h | ⟨position, -, h⟩)
      · exact h
      · cases position <;> simp at h
    · exact Or.inl
  | _ => simp [select]

/-- A list is reached by way of a value that is there. -/
theorem follow_cons_eq_list {s : String} {ss : List String} {v : Value} {items : List Value} :
    follow (s :: ss) v = .ok (.list items) ↔
      ∃ w, select v s = .ok w ∧ w ≠ .absent ∧ follow ss w = .ok (.list items) := by
  rw [follow]
  cases select v s with
  | error e => simp [bind, Except.bind]
  | ok w => cases w <;> simp [bind, Except.bind, pure, Except.pure]

/-- Following segments faults exactly where the way is blocked. -/
theorem faults_follow (segments : List String) (v : Value) :
    Faults (follow segments v) ↔ Blocked segments v := by
  induction segments generalizing v with
  | nil => simp [Blocked]
  | cons s ss ih =>
    have hstep : Faults (follow (s :: ss) v) ↔
        Faults (select v s) ∨ ∃ w, select v s = .ok w ∧ w ≠ .absent ∧ Faults (follow ss w) := by
      rw [follow, faults_bind]
      refine or_congr_right (exists_congr fun w => and_congr_right fun _ => ?_)
      cases w <;> simp
    rw [hstep, faults_select]
    constructor
    · rintro (⟨⟨items, rfl⟩, hs⟩ | ⟨w, hw, hne, h⟩)
      · exact ⟨[], s, ss, items, rfl, rfl, hs⟩
      · obtain ⟨before, t, rest, items, rfl, hf, ht⟩ := (ih w).mp h
        exact ⟨s :: before, t, rest, items, rfl, follow_cons_eq_list.mpr ⟨w, hw, hne, hf⟩, ht⟩
    · rintro ⟨before, t, rest, items, he, hf, ht⟩
      cases before with
      | nil =>
        obtain ⟨rfl, rfl⟩ := List.cons.inj he
        exact Or.inl ⟨⟨items, Except.ok.inj hf⟩, ht⟩
      | cons u before =>
        obtain ⟨rfl, rfl⟩ := List.cons.inj he
        obtain ⟨w, hw, hne, hf⟩ := follow_cons_eq_list.mp hf
        exact Or.inr ⟨w, hw, hne, (ih w).mpr ⟨before, t, rest, items, rfl, hf, ht⟩⟩

theorem faults_read (v : Value) (p : Path) : Faults (read v p) ↔ Blocked p.segments v :=
  faults_follow p.segments v

end Path

theorem Value.faults_coerce (dataType : String) (v : Value) :
    Faults (coerce dataType v) ↔ dataType = "number" ∧ v.LacksNumber := by
  unfold coerce
  by_cases h : dataType = "number"
  · subst h
    simp only [beq_self_eq_true, if_true, faults_bind_pure, faults_leadingNumberOrZero, true_and]
  · have hne : (dataType == "number") = false := by simpa using h
    simp only [hne, h, false_and, iff_false, Bool.false_eq_true, if_false]
    split <;> exact not_faults_ok _

/-- Two values that are brought to a type of data fault where a number is asked and one has none. -/
theorem Value.faults_coerce_coerce (dataType : String) (v w : Value)
    {next : Value → Value → Except Fault Bool} (never : ∀ a b, ¬ Faults (next a b)) :
    Faults (coerce dataType v >>= fun a => coerce dataType w >>= fun b => next a b) ↔
      dataType = "number" ∧ (w.LacksNumber ∨ v.LacksNumber) := by
  have hnext : ∀ a, Faults (coerce dataType w >>= fun b => next a b) ↔
      dataType = "number" ∧ w.LacksNumber := by
    intro a
    rw [faults_bind_of_never (never a), faults_coerce]
  rw [faults_bind, faults_coerce]
  simp only [hnext]
  constructor
  · rintro (⟨ht, h⟩ | ⟨a, -, ht, h⟩)
    · exact ⟨ht, Or.inr h⟩
    · exact ⟨ht, Or.inl h⟩
  · rintro ⟨ht, h⟩
    cases ha : coerce dataType v with
    | error e => exact Or.inl ((faults_coerce _ _).mp ⟨e, ha⟩)
    | ok a => exact h.symm.imp (fun h => ⟨ht, h⟩) fun h => ⟨a, rfl, ht, h⟩

theorem faults_answers {α : Type} (test : α → Except Fault Bool) (as : List α) :
    Faults (answers test as) ↔ ∃ a ∈ as, Faults (test a) := by
  induction as with
  | nil => simp [answers]
  | cons a as ih =>
    rw [answers, faults_bind_bind_pure, ih]
    simp

namespace Condition

/-- An evaluation of the condition meets what it cannot read: its operator is known, and the path
is blocked, or a number is asked of a value on either side that has none. -/
def Faults (c : Condition) (message : Value) : Prop :=
  (Operator.ofName? c.operator).isSome ∧
    (Path.Blocked (Path.ofText c.field).segments message ∨
      c.dataType = "number" ∧
        (c.value.LacksNumber ∨
          ∃ found, Path.read message (Path.ofText c.field) = .ok found ∧ found.LacksNumber))

theorem faults_holds (c : Condition) (message : Value) :
    Switchboard.Faults (c.holds message) ↔ c.Faults message := by
  unfold holds Condition.Faults
  cases ho : Operator.ofName? c.operator with
  | none => simp
  | some o =>
    cases hr : Path.read message (Path.ofText c.field) with
    | error e =>
      have hb := (Path.faults_read _ _).mp ⟨e, hr⟩
      simp [hb, bind, Except.bind]
    | ok found =>
      have hb : ¬ Path.Blocked (Path.ofText c.field).segments message := by
        rw [← Path.faults_read, hr]
        exact not_faults_ok found
      -- The comparison itself never faults, so the faults are those of the two coercions.
      refine (Value.faults_coerce_coerce c.dataType found c.value ?_).trans ?_
      · intro left right
        split <;> exact not_faults_pure _
      · simp [hb]

end Condition

namespace Source

/-- The source of the record is told by its service, and the service has no text. -/
def IsUnreadable (r : Record Value) : Prop :=
  (Value.lookup r "type").text?.bind ofTag? = none ∧ (Value.lookup r "service").given = true ∧
    (Value.lookup r "service").LacksLiteral

theorem faults_detect (r : Record Value) : Faults (detect (.record r)) ↔ IsUnreadable r := by
  unfold detect ofRecord IsUnreadable
  dsimp only
  cases hp : (Value.lookup r "type").text?.bind ofTag? with
  | some p => simp
  | none =>
    cases hg : (Value.lookup r "service").given with
    | true => simp only [if_true, faults_bind_pure, Value.faults_plain, true_and]
    | false =>
      simp only [Bool.false_eq_true, if_false, false_and, and_false, iff_false]
      repeat' split
      all_goals exact not_faults_pure _

end Source

namespace ConditionGroup

/-- An evaluation of the group meets what it cannot read: the source of the message, where the
group asks for one, or else what one of its conditions meets, where the group selects the
message. -/
def Faults (g : ConditionGroup) (r : Record Value) : Prop :=
  ((∃ s, g.source = some s ∧ s ≠ "") ∧ Source.IsUnreadable r) ∨
    (g.selectsSource (.record r) = .ok true ∧ g.selectsKind (.record r) = .ok true ∧
      ∃ c ∈ g.conditions, c.Faults (.record r))

theorem faults_selectsSource (g : ConditionGroup) (r : Record Value) :
    Switchboard.Faults (g.selectsSource (.record r)) ↔
      (∃ s, g.source = some s ∧ s ≠ "") ∧ Source.IsUnreadable r := by
  unfold selectsSource
  cases g.source with
  | none => simp
  | some s =>
    by_cases hs : s = ""
    · simp [hs]
    · have hne : (s == "") = false := by simpa using hs
      simp only [hne, Bool.false_eq_true, if_false, faults_bind_pure, Source.faults_detect]
      simp [hs]

theorem exists_selectsKind (g : ConditionGroup) (r : Record Value) :
    ∃ b, g.selectsKind (.record r) = .ok b := by
  unfold selectsKind
  cases g.messageType with
  | none => exact ⟨true, rfl⟩
  | some k =>
    dsimp only
    split
    · exact ⟨true, rfl⟩
    · exact ⟨_, rfl⟩

theorem faults_holds (g : ConditionGroup) (r : Record Value) :
    Switchboard.Faults (g.holds (.record r)) ↔ g.Faults r := by
  obtain ⟨kind, hk⟩ := g.exists_selectsKind r
  have hconditions : Switchboard.Faults (if g.conditions.isEmpty then pure true else
      answers (Condition.holds · (.record r)) g.conditions >>= fun as =>
        pure (combine g.logic as)) ↔ ∃ c ∈ g.conditions, c.Faults (.record r) := by
    cases he : g.conditions with
    | nil => simp
    | cons c cs =>
      simp only [List.isEmpty_cons, Bool.false_eq_true, if_false, faults_bind_pure, faults_answers,
        Condition.faults_holds]
  unfold holds ConditionGroup.Faults
  rw [← faults_selectsSource]
  cases hs : g.selectsSource (.record r) with
  | error e => simp [bind, Except.bind]
  | ok source =>
    cases source with
    | false => simp [bind, Except.bind]
    | true =>
      cases kind with
      | false => simp [hk, bind, Except.bind]
      | true =>
        simp only [hk, not_faults_ok, false_or, true_and]
        exact hconditions

end ConditionGroup

namespace Rule

/-- An evaluation of the rule meets what it cannot read: it is turned on, and one of its groups or
conditions meets it. -/
def Faults (r : Rule) (message : Record Value) : Prop :=
  r.enabled = true ∧
    match r.shape with
    | .grouped groups _ => ∃ g ∈ groups, g.Faults message
    | .flat conditions _ => ∃ c ∈ conditions, c.Faults (.record message)

theorem faults_holds (r : Rule) (message : Record Value) :
    Switchboard.Faults (r.holds (.record message)) ↔ r.Faults message := by
  unfold holds Rule.Faults
  cases r.enabled with
  | false => simp
  | true =>
    simp only [if_true, true_and]
    cases r.shape with
    | grouped groups logic =>
      simp only [Shape.holds, faults_bind_pure, faults_answers, ConditionGroup.faults_holds]
    | flat conditions logic =>
      cases conditions with
      | nil => simp [Shape.holds]
      | cons c cs =>
        simp only [Shape.holds, List.isEmpty_cons, Bool.false_eq_true, if_false, faults_bind_pure,
          faults_answers, Condition.faults_holds]

end Rule

/-- What is read and then evaluated has an answer if the reading faults with the input only, and
the evaluation of what is read does not fault. -/
theorem exists_answer_iff {α : Type} {read : Except Fault α} {holds : α → Except Fault Bool}
    {answer : Except Fault Bool} (hok : ∀ a, read = .ok a → answer = holds a)
    (herror : ∀ f, read = .error f → answer = unlessOfInput f) :
    (∃ b, answer = .ok b) ↔
      FaultsOnly (·.isOfInput = true) read ∧ ∀ a, read = .ok a → ¬ Faults (holds a) := by
  cases read with
  | ok a =>
    rw [hok a rfl, ← not_faults_iff]
    simp
  | error f =>
    rw [herror f rfl, unlessOfInput, FaultsOnly.error_iff]
    split <;> simp [*]

theorem Check.ofInput_run_iff {α : Type} (c : Check α) (form : String) :
    FaultsOnly (·.isOfInput = true) (c.run form) ↔
      ∀ f, c.fault? = some f → f.isOfInput = true := by
  cases c with
  | ok a => simp
  | issues found => simp [run, Fault.isOfInput, Fault.family]
  | broken f => simp [run, fault?]

/-- Of the two faults that end the reading of an entry one lies in the input. -/
theorem ofInput_stop_iff {stop : Option Fault}
    (h : ∀ f, stop = some f → f = .notIterable ∨ f = .nestedTooDeep) :
    (∀ f, stop = some f → f.isOfInput = true) ↔ stop ≠ some .nestedTooDeep := by
  constructor
  · rintro hinput rfl
    cases hinput _ rfl
  · rintro hne f rfl
    rcases h f rfl with rfl | rfl
    · rfl
    · exact absurd rfl hne

theorem Rule.ofInput_ofValue_iff (v : Value) :
    FaultsOnly (·.isOfInput = true) (ofValue v) ↔ stop? v ≠ some .nestedTooDeep := by
  cases htable : v.isTable with
  | true =>
    obtain ⟨form, c, hrun, hc⟩ := exists_run htable
    rw [hrun, Check.ofInput_run_iff, hc, ofInput_stop_iff fun f hf => eq_of_stop? hf]
  | false =>
    rw [ofValue_not_table htable, stop?_eq_none_of_not_table htable, FaultsOnly.error_iff]
    exact iff_of_true rfl nofun

/-- A value is evaluated as a condition, as a group and as a rule on any record: there is an answer
exactly where the evaluation meets nothing that it cannot read, and the value itself can be gone
through. What is none of the three form is answered by no. -/
theorem holdsRaw_total_iff (raw : Value) (message : Record Value) :
    ((∃ b, Condition.holdsRaw raw (.record message) = .ok b) ↔
      ∀ c, Condition.read raw = .ok c → ¬ c.Faults (.record message)) ∧
    ((∃ b, ConditionGroup.holdsRaw raw (.record message) = .ok b) ↔
      ConditionGroup.stop? raw ≠ some .nestedTooDeep ∧
        ∀ g, ConditionGroup.read raw = .ok g → ¬ g.Faults message) ∧
    ((∃ b, Rule.holdsRaw raw (.record message) = .ok b) ↔
      Rule.stop? raw ≠ some .nestedTooDeep ∧
        ∀ r, Rule.ofValue raw = .ok r → ¬ r.Faults message) := by
  refine ⟨?_, ?_, ?_⟩
  · have hok : ∀ c, (Condition.read raw).run "Condition" = .ok c →
        Condition.holdsRaw raw (.record message) = c.holds (.record message) := fun c h => by
      rw [Condition.holdsRaw, h]
    rw [exists_answer_iff hok fun f h => by rw [Condition.holdsRaw, h], Check.ofInput_run_iff]
    simp [Check.run_eq_ok, Condition.faults_holds]
  · have hok : ∀ g, (ConditionGroup.read raw).run "ConditionGroup" = .ok g →
        ConditionGroup.holdsRaw raw (.record message) = g.holds (.record message) := fun g h => by
      rw [ConditionGroup.holdsRaw, h]
    rw [exists_answer_iff hok fun f h => by rw [ConditionGroup.holdsRaw, h], Check.ofInput_run_iff,
      ConditionGroup.fault?_read,
      ofInput_stop_iff fun f hf => Or.inr (ConditionGroup.eq_of_stop? hf)]
    simp only [Check.run_eq_ok, ConditionGroup.faults_holds]
  · have hok : ∀ r, Rule.ofValue raw = .ok r →
        Rule.holdsRaw raw (.record message) = r.holds (.record message) := fun r h => by
      rw [Rule.holdsRaw, h]
    rw [exists_answer_iff hok fun f h => by rw [Rule.holdsRaw, h], Rule.ofInput_ofValue_iff]
    simp only [Rule.faults_holds]

/-- A condition that asks for a number has no answer where the field is an integer beyond the
doubles. -/
theorem not_total_beyond_doubles :
    ¬ ∃ b, Condition.holdsRaw
      (.record [("field", .text "amount"), ("operator", .text "equals"), ("value", .int 5),
        ("dataType", .text "number")])
      (.record [("amount", .int (10 ^ 400))]) = .ok b := by
  have hbound : Value.LacksNumber (.int (10 ^ 400)) := by
    change (2 ^ 54 - 1) * 2 ^ 970 ≤ ((10 : Int) ^ 400).natAbs
    rw [Int.natAbs_pow]
    decide +kernel
  generalize (10 : Int) ^ 400 = n at hbound ⊢
  change ¬ ∃ b, Condition.holds { field := "amount", value := .int 5, dataType := "number" } _ = _
  rw [← not_faults_iff, not_not, Condition.faults_holds]
  exact ⟨rfl, Or.inr ⟨rfl, Or.inr ⟨.int n, rfl, hbound⟩⟩⟩

end Switchboard
