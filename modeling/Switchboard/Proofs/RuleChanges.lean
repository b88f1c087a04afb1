import Switchboard.Rule.Book

/-!
# Changes of a rule book

A change is planned first, without regard to the file, and a change that is planned is then
written. What a change does to the rules is what its plan says, whether or not the rules could be
written.
-/
namespace Switchboard

namespace RuleFile

/-- The file with a new content, and what it held before as its backup. -/
def rewritten (f : RuleFile) (c : Content) : RuleFile :=
  { file := f.file.put c, backup := f.file.content.or f.backup }

theorem save_of_not_writable {f : RuleFile} (h : f.file.writable = false) (rules : List Rule)
    (now : Int) : f.save rules now = (f, .ok false) := by simp [save, h]

theorem save_of_readBack {f : RuleFile} (h : f.file.writable = true) {rules : List Rule}
    {now : Int} {v : Value} (hv : Yaml.readBack (document rules now) = .ok v) :
    f.save rules now = (f.rewritten (.document v), .ok true) := by simp [save, h, hv, rewritten]

theorem save_of_fault {f : RuleFile} (h : f.file.writable = true) {rules : List Rule} {now : Int}
    {e : Fault} (he : Yaml.readBack (document rules now) = .error e) :
    f.save rules now =
      (f.rewritten (.text ""), if e.isOfDocument then .ok false else .error e) := by
  simp [save, h, he, rewritten]

end RuleFile

namespace RuleBook

/-- A change of the rules that is asked for. -/
inductive Change
  | add (rule : Value)
  | update (id : String) (changes : Value)
  | delete (id : String)

/-- The book after a change that was asked for at a time. -/
def changed (b : RuleBook) (now : Int) : Change → RuleBook
  | .add rule => (b.add rule now).1
  | .update id changes => (b.update id changes now).1
  | .delete id => (b.delete id now).1

/-- The change is answered by the rule, or by "true" for a rule that was taken away. -/
def Succeeds (b : RuleBook) (now : Int) : Change → Prop
  | .add rule => ∃ r, (b.add rule now).2 = .ok r
  | .update id changes => ∃ r, (b.update id changes now).2 = .ok (some r)
  | .delete id => (b.delete id now).2 = .ok true

/-- The rule that an update makes of a rule. -/
def revised (r : Rule) (id : String) (changes : Value) : Except Fault Rule :=
  (changesOf changes).bind fun c => Rule.ofValue (merged r id c)

/-- The book that a change leads to, if it is not refused and finds its rule. -/
def planned (b : RuleBook) (now : Int) : Change → Option RuleBook
  | .add rule => (Rule.ofValue rule).toOption.map fun r => (b.insert r now).2
  | .update id changes =>
    (b.find? id).bind fun r =>
      (revised r id changes).toOption.map fun new => { b with rules := replace id new b.rules }
  | .delete id =>
    if b.hasId id then some { b with rules := b.rules.filter (·.id != some id) } else none

/-- The rules are given to a file whose save raises a fault. -/
def WriteFaults (b : RuleBook) (now : Int) : Prop :=
  ∃ f e, b.file = some f ∧ (f.save b.rules now).2 = .error e

variable {b : RuleBook} {now : Int}

theorem toOption_eq_some {α : Type} {e : Except Fault α} {a : α} :
    e.toOption = some a ↔ e = .ok a := by
  cases e <;> simp [Except.toOption]

theorem planned_add {rule : Value} {p : RuleBook} :
    b.planned now (.add rule) = some p ↔
      ∃ r, Rule.ofValue rule = .ok r ∧ (b.insert r now).2 = p := by
  simp [planned, toOption_eq_some]

theorem planned_update {id : String} {changes : Value} {p : RuleBook} :
    b.planned now (.update id changes) = some p ↔
      ∃ r, b.find? id = some r ∧ ∃ new, revised r id changes = .ok new ∧
        { b with rules := replace id new b.rules } = p := by
  unfold planned
  simp only [Option.bind_eq_some_iff, Option.map_eq_some_iff, toOption_eq_some]

theorem planned_delete {id : String} {p : RuleBook} :
    b.planned now (.delete id) = some p ↔
      b.hasId id = true ∧ { b with rules := b.rules.filter (·.id != some id) } = p := by
  cases h : b.hasId id <;> simp [planned, h]

/-- A rule that is put in keeps an identifier that is not empty and not taken, and is named anew
in any other case. -/
theorem insert_cases (b : RuleBook) (r : Rule) (now : Int) :
    (∃ id, r.id = some id ∧ id ≠ "" ∧ b.hasId id = false ∧
      b.insert r now = (r, { b with rules := b.rules ++ [r] })) ∨
    ((∀ id, r.id = some id → id = "" ∨ b.hasId id = true) ∧
      b.insert r now = ({ r with id := some (toString (b.nextId now)) },
        { b with
          rules := b.rules ++ [{ r with id := some (toString (b.nextId now)) }]
          lastId := b.nextId now })) := by
  unfold insert
  cases hr : r.id with
  | none => exact Or.inr ⟨by simp, rfl⟩
  | some id =>
    by_cases hid : id = "" ∨ b.hasId id = true
    · refine Or.inr ⟨?_, by simp [hid, insert.named]⟩
      rintro _ ⟨⟩
      exact hid
    · rw [not_or, Bool.not_eq_true] at hid
      exact Or.inl ⟨id, rfl, hid.1, hid.2, by simp [hid]⟩

@[simp] theorem persist_rules (b : RuleBook) (now : Int) : (b.persist now).1.rules = b.rules := by
  unfold persist
  split
  · rfl
  · split <;> rfl

@[simp] theorem persist_lastId (b : RuleBook) (now : Int) :
    (b.persist now).1.lastId = b.lastId := by
  unfold persist
  split
  · rfl
  · split <;> rfl

@[simp] theorem persist_file (b : RuleBook) (now : Int) :
    (b.persist now).1.file = b.file.map fun f => (f.save b.rules now).1 := by
  unfold persist
  cases hf : b.file with
  | none => simpa using hf
  | some f =>
    rcases hs : f.save b.rules now with ⟨saved, answer⟩
    cases answer <;> simp [hs]

theorem persist_fault_iff : (b.persist now).2 = none ↔ ¬ b.WriteFaults now := by
  unfold persist WriteFaults
  cases b.file with
  | none => simp
  | some f =>
    rcases hs : f.save b.rules now with ⟨saved, answer⟩
    cases answer <;> simp [hs]

theorem after_fst {α : Type} (a : α) (p : RuleBook × Option Fault) : (after a p).1 = p.1 := by
  obtain ⟨b, e⟩ := p
  cases e <;> rfl

theorem after_snd_eq_ok {α : Type} {a x : α} {p : RuleBook × Option Fault} :
    (after a p).2 = .ok x ↔ p.2 = none ∧ x = a := by
  obtain ⟨b, e⟩ := p
  cases e <;> simp [after, eq_comm]

/-- A change that is planned is written, and any other leaves the book as it is. -/
theorem changed_eq (b : RuleBook) (now : Int) (c : Change) :
    b.changed now c = match b.planned now c with
      | none => b
      | some p => (p.persist now).1 := by
  cases c with
  | add rule =>
    cases h : Rule.ofValue rule <;> simp [changed, planned, add, h, Except.toOption, after_fst]
  | update id changes =>
    cases hf : b.find? id with
    | none => simp [changed, planned, update, hf]
    | some r =>
      cases h : (changesOf changes).bind fun c => Rule.ofValue (merged r id c) <;>
        simp [changed, planned, update, revised, hf, h, Except.toOption, after_fst]
  | delete id =>
    cases h : b.hasId id <;> simp [changed, planned, delete, h, after_fst]

/-- A change succeeds when it is planned and no fault comes after that. -/
theorem succeeds_iff (b : RuleBook) (now : Int) (c : Change) :
    b.Succeeds now c ↔ ∃ p, b.planned now c = some p ∧ ¬ p.WriteFaults now := by
  cases c with
  | add rule =>
    cases h : Rule.ofValue rule <;>
      simp [Succeeds, planned, add, h, Except.toOption, after_snd_eq_ok, persist_fault_iff]
  | update id changes =>
    cases hf : b.find? id with
    | none => simp [Succeeds, planned, update, hf]
    | some r =>
      cases h : (changesOf changes).bind fun c => Rule.ofValue (merged r id c) <;>
        simp [Succeeds, planned, update, revised, hf, h, Except.toOption, after_snd_eq_ok,
          persist_fault_iff]
  | delete id =>
    cases h : b.hasId id <;>
      simp [Succeeds, planned, delete, h, after_snd_eq_ok, persist_fault_iff]

theorem planned_file {c : Change} {p : RuleBook} (h : b.planned now c = some p) :
    p.file = b.file := by
  cases c with
  | add rule =>
    obtain ⟨r, -, rfl⟩ := planned_add.mp h
    rcases insert_cases b r now with ⟨-, -, -, -, he⟩ | ⟨-, he⟩ <;> rw [he]
  | update id changes =>
    obtain ⟨r, -, new, -, rfl⟩ := planned_update.mp h
    rfl
  | delete id =>
    obtain ⟨-, rfl⟩ := planned_delete.mp h
    rfl

theorem mem_replace {id : String} {new r : Rule} {rules : List Rule}
    (h : r ∈ replace id new rules) : r = new ∨ r ∈ rules := by
  induction rules with
  | nil => cases h
  | cons s rs ih =>
    unfold replace at h
    split at h
    · rcases List.mem_cons.mp h with rfl | hr
      · exact Or.inl rfl
      · exact Or.inr (List.mem_cons_of_mem _ hr)
    · rcases List.mem_cons.mp h with rfl | hr
      · exact Or.inr List.mem_cons_self
      · exact (ih hr).imp_right (List.mem_cons_of_mem _)

/-- A rule of the planned book was there before or was read from a value, but for its
identifier. -/
theorem mem_planned {c : Change} {p : RuleBook} (h : b.planned now c = some p) {r : Rule}
    (hr : r ∈ p.rules) :
    r ∈ b.rules ∨ ∃ v s id, Rule.ofValue v = .ok s ∧ r = { s with id := id } := by
  cases c with
  | add rule =>
    obtain ⟨s, hs, rfl⟩ := planned_add.mp h
    rcases insert_cases b s now with ⟨-, -, -, -, he⟩ | ⟨-, he⟩
    · rw [he] at hr
      rcases List.mem_append.mp hr with hr | hr
      · exact Or.inl hr
      · exact Or.inr ⟨rule, s, s.id, hs, List.mem_singleton.mp hr⟩
    · rw [he] at hr
      rcases List.mem_append.mp hr with hr | hr
      · exact Or.inl hr
      · exact Or.inr ⟨rule, s, _, hs, List.mem_singleton.mp hr⟩
  | update id changes =>
    obtain ⟨s, -, new, hn, rfl⟩ := planned_update.mp h
    rcases mem_replace hr with rfl | hr
    · unfold revised at hn
      cases hc : changesOf changes with
      | error e => simp [hc, Except.bind] at hn
      | ok entries =>
        rw [hc] at hn
        exact Or.inr ⟨_, r, r.id, hn, rfl⟩
    · exact Or.inl hr
  | delete id =>
    obtain ⟨-, rfl⟩ := planned_delete.mp h
    exact Or.inl (List.mem_filter.mp hr).1

end RuleBook

end Switchboard
