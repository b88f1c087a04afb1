import Switchboard.Proofs.CheckFaults
import Switchboard.Proofs.Forms
import Switchboard.Rule.Basic

/-!
# What ends the reading of a rule

An entry that is no rule is refused with a list of its issues. Only two things end the reading at
once: the fields of an action are given by a value that has no items, and a value that is to be
taken as a plain text, an identifier or the name of a logic, is nested too deep.
-/
namespace Switchboard

@[simp] theorem fault?_readLogic (default : String) (v : Value) :
    (readLogic default v).fault? = v.plainFault? := by
  unfold readLogic
  cases hv : v.given with
  | false => exact (Value.plainFault?_of_not_given hv).symm
  | true => exact Check.fault?_plainText v

@[simp] theorem fault?_listIfGiven {α : Type} (item : Value → Check α) (v : Value) :
    (listIfGiven item v).fault? = v.listed.findSome? fun w => (item w).fault? := by
  unfold listIfGiven
  cases v with
  | list items => cases items <;> simp [Value.given, Value.listed, Check.listOf]
  | _ => split <;> rfl

/-- No condition ends a check, whatever it is made of. -/
@[simp] theorem Condition.fault?_read (v : Value) : (read v).fault? = none := by
  have hdataType : ∀ w : Value,
      (if w.given then Check.text w else .ok "string").fault? = none := by
    intro w
    split <;> simp
  simp [read, ofRecord, hdataType]

@[simp high] theorem fault?_conditions (v : Value) : (listIfGiven Condition.read v).fault? = none := by
  rw [fault?_listIfGiven]
  simp

@[simp] theorem FieldSpec.fault?_readOrPath (v : Value) : (readOrPath v).fault? = none := by
  cases v <;> simp [readOrPath, read, ofRecord]

/-- The fault for which the value of a field has no plain text. -/
def plainFaultOf (r : Record Value) (wire plain : String) : Option Fault :=
  (Check.find? r wire plain).bind fun p => p.2.plainFault?

theorem eq_of_plainFaultOf {r : Record Value} {wire plain : String} {f : Fault}
    (h : plainFaultOf r wire plain = some f) : f = .nestedTooDeep := by
  obtain ⟨p, -, hp⟩ := Option.bind_eq_some_iff.mp h
  exact Value.eq_of_plainFault? hp

namespace ConditionGroup

/-- The fault that ends the reading of a group: that of the name of its logic. -/
def stop? (v : Value) : Option Fault :=
  v.keyed?.bind fun r => plainFaultOf r "conditionLogic" "condition_logic"

@[simp] theorem fault?_read (v : Value) : (read v).fault? = stop? v := by
  simp [read, ofRecord, stop?, plainFaultOf]

theorem eq_of_stop? {v : Value} {f : Fault} (h : stop? v = some f) : f = .nestedTooDeep := by
  obtain ⟨r, -, hr⟩ := Option.bind_eq_some_iff.mp h
  exact eq_of_plainFaultOf hr

end ConditionGroup

namespace Value

/-- Whether the value has items that can be gone through. -/
def hasItems : Value → Bool
  | .list _ | .record _ | .table _ | .text _ | .octets _ => true
  | _ => false

end Value

theorem fault?_readFields (v : Value) :
    (readFields v).fault? = if v.given && !v.hasItems then some .notIterable else none := by
  unfold readFields
  cases v.given with
  | false => rfl
  | true =>
    have hitems : ∀ items, (Check.items FieldSpec.readOrPath 0 items).fault? = none := by simp
    rw [if_pos rfl, Check.fault?_andThen hitems]
    cases v <;> rfl

namespace Action

/-- The fields of the action are given by a value that has no items. -/
def isEndless (v : Value) : Bool :=
  v.keyed?.any fun r => (Record.get? r "fields").any fun w => w.given && !w.hasItems

/-- The fault that ends the reading of an action. -/
def stop? (v : Value) : Option Fault := if isEndless v then some .notIterable else none

@[simp] theorem fault?_read (v : Value) : (read v).fault? = stop? v := by
  unfold stop? isEndless
  rw [read, Check.fault?_onRecord]
  cases v.keyed? with
  | none => rfl
  | some r =>
    cases h : Record.get? r "fields" <;> simp [ofRecord, fault?_readFields, h]

theorem eq_of_stop? {v : Value} {f : Fault} (h : stop? v = some f) : f = .notIterable := by
  unfold stop? at h
  split at h
  · exact (Option.some.inj h).symm
  · cases h

end Action

namespace Rule

/-- The fault that ends the reading of what both shapes of a rule have: that of the identifier, or
of one of the actions. -/
def commonStop? (r : Record Value) : Option Fault :=
  (plainFaultOf r "id" "id").or ((Value.lookup r "actions").listed.findSome? Action.stop?)

/-- The fault that ends the reading of what decides whether a rule matches: that of one of its
groups, or of the name of its logic. -/
def shapeStop? (r : Record Value) : Option Fault :=
  if (groupsOf r).given then
    ((groupsOf r).listed.findSome? ConditionGroup.stop?).or
      (plainFaultOf r "groupLogic" "group_logic")
  else plainFaultOf r "conditionLogic" "condition_logic"

/-- The fault that ends the reading of an entry as a rule. -/
def stop? (entry : Value) : Option Fault :=
  entry.keyed?.bind fun r => (commonStop? r).or (shapeStop? r)

theorem fault?_unlessNull {α : Type} (default : α) {read : Value → Check α}
    (never : ∀ v, (read v).fault? = none) (v : Value) :
    (unlessNull default read v).fault? = none := by
  cases v <;> simp [unlessNull, never]

@[simp] theorem fault?_readId (v : Value) : (readId v).fault? = v.plainFault? := by
  cases v with
  | null => exact (Value.plainFault?_of_not_given rfl).symm
  | _ => simp [readId]

theorem fault?_ofRecordWith (r extras : Record Value) (shape : Check Shape) :
    (ofRecordWith r shape extras).fault? = (commonStop? r).or shape.fault? := by
  cases h : Record.get? r "actions" <;>
    simp [ofRecordWith, fault?_unlessNull, commonStop?, plainFaultOf, Value.lookup, Value.listed, h]

section

variable {key : String} (r : Record Value)

theorem plainFaultOf_erase {wire plain : String} (hwire : wire ≠ key) (hplain : plain ≠ key) :
    plainFaultOf (Record.erase r key) wire plain = plainFaultOf r wire plain := by
  unfold plainFaultOf Check.find?
  rw [Record.get?_erase_of_ne hwire, Record.get?_erase_of_ne hplain]

theorem lookup_erase {name : String} (h : name ≠ key) :
    Value.lookup (Record.erase r key) name = Value.lookup r name := by
  unfold Value.lookup
  rw [Record.get?_erase_of_ne h]

theorem groupsOf_erase (hwire : "conditionGroups" ≠ key) (hplain : "condition_groups" ≠ key) :
    groupsOf (Record.erase r key) = groupsOf r := by
  unfold groupsOf
  rw [Record.get?_erase_of_ne hwire, lookup_erase r hplain]

theorem commonStop?_erase (hid : "id" ≠ key) (hactions : "actions" ≠ key) :
    commonStop? (Record.erase r key) = commonStop? r := by
  rw [commonStop?, plainFaultOf_erase r hid hid, lookup_erase r hactions]
  rfl

end

theorem fault?_groups (r : Record Value) :
    (Check.required r "conditionGroups" "condition_groups"
      (Check.listOf ConditionGroup.read)).fault? =
        (groupsOf r).listed.findSome? ConditionGroup.stop? := by
  rw [Check.fault?_required]
  unfold Check.find? groupsOf Value.lookup
  cases Record.get? r "conditionGroups" with
  | some v => simp
  | none => cases Record.get? r "condition_groups" <;> simp [Value.listed]

theorem fault?_readGrouped (r : Record Value) : (readGrouped r).fault? =
    (commonStop? r).or (((groupsOf r).listed.findSome? ConditionGroup.stop?).or
      (plainFaultOf r "groupLogic" "group_logic")) := by
  have hlogic : (Check.optional r "groupLogic" "group_logic" "OR" (readLogic "OR")).fault? =
      plainFaultOf r "groupLogic" "group_logic" := by
    simp [plainFaultOf]
  rw [readGrouped, fault?_ofRecordWith, Check.fault?_seq, Check.fault?_map, fault?_groups, hlogic]

theorem fault?_readFlat (r : Record Value) : (readFlat r).fault? =
    (commonStop? r).or (plainFaultOf r "conditionLogic" "condition_logic") := by
  rw [readFlat, fault?_ofRecordWith]
  simp [plainFaultOf]

/-- What is erased before a record is read are keys whose fields end no reading. -/
theorem fault?_check (fields : Record Value) :
    (check fields).2.fault? = stop? (.record fields) := by
  unfold check
  dsimp only [stop?, Value.keyed?, Option.bind_some]
  rw [groupsOf_erase fields (by decide) (by decide), shapeStop?]
  split
  · rw [fault?_readGrouped, groupsOf_erase fields (by decide) (by decide)]
    simp (disch := decide) only [commonStop?_erase, plainFaultOf_erase]
  · rw [fault?_readFlat]
    simp (disch := decide) only [commonStop?_erase, plainFaultOf_erase]

theorem exists_run {entry : Value} (h : entry.isTable = true) :
    ∃ form c, ofValue entry = Check.run form c ∧ c.fault? = stop? entry := by
  cases entry with
  | record r => exact ⟨_, _, rfl, fault?_check r⟩
  | table entries =>
    let c := check (Check.textFields entries)
    refine ⟨c.1, (c.2.both (Check.keysAreTexts entries)).map Prod.fst, rfl, ?_⟩
    rw [Check.fault?_map', Check.fault?_both, Check.fault?_keysAreTexts, Option.or_none,
      fault?_check]
    rfl
  | _ => cases h

/-- Nothing else ends the reading of an entry. -/
theorem eq_of_stop? {entry : Value} {f : Fault} (h : stop? entry = some f) :
    f = .notIterable ∨ f = .nestedTooDeep := by
  obtain ⟨r, -, hr⟩ := Option.bind_eq_some_iff.mp h
  rcases Option.or_eq_some_iff.mp hr with hr | ⟨-, hr⟩
  · rcases Option.or_eq_some_iff.mp hr with hr | ⟨-, hr⟩
    · exact Or.inr (eq_of_plainFaultOf hr)
    · obtain ⟨action, -, haction⟩ := List.exists_of_findSome?_eq_some hr
      exact Or.inl (Action.eq_of_stop? haction)
  · unfold shapeStop? at hr
    split at hr
    · rcases Option.or_eq_some_iff.mp hr with hr | ⟨-, hr⟩
      · obtain ⟨group, -, hgroup⟩ := List.exists_of_findSome?_eq_some hr
        exact Or.inr (ConditionGroup.eq_of_stop? hgroup)
      · exact Or.inr (eq_of_plainFaultOf hr)
    · exact Or.inr (eq_of_plainFaultOf hr)

theorem stop?_eq_none_of_not_table {entry : Value} (h : entry.isTable = false) :
    stop? entry = none := by
  cases entry with
  | record _ | table _ => cases h
  | _ => rfl

theorem isTable_of_stop? {entry : Value} {f : Fault} (h : stop? entry = some f) :
    entry.isTable = true := by
  cases entry with
  | record _ | table _ => rfl
  | _ => cases h

theorem ofValue_stopped {entry : Value} {f : Fault} (h : stop? entry = some f) :
    ofValue entry = .error f := by
  obtain ⟨form, c, hrun, hc⟩ := exists_run (isTable_of_stop? h)
  rw [hrun, Check.run_of_fault? (hc.trans h)]

/-- An entry whose reading is not ended is a rule, or it is refused. -/
theorem ofValue_cases {entry : Value} (htable : entry.isTable = true) (h : stop? entry = none) :
    (∃ r, ofValue entry = .ok r) ∨ ∃ j, ofValue entry = .error (.rejected j) := by
  obtain ⟨form, c, hrun, hc⟩ := exists_run htable
  rw [hrun]
  exact Check.run_cases (hc.trans h)

/-- What is neither a record nor a table is no rule. -/
theorem ofValue_not_table {entry : Value} (h : entry.isTable = false) :
    ofValue entry = .error (.ruleNotARecord entry.kindName) := by
  cases entry with
  | record _ | table _ => cases h
  | _ => rfl

end Rule

end Switchboard
