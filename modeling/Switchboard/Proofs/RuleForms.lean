import Switchboard.Proofs.Forms
import Switchboard.Proofs.Texts
import Switchboard.Rule.Basic

/-!
# Rules that are written and read again

What is read as a condition, a group, a selected field, an action or a rule is regular: no further
key has the wire name of a field, and a text that a default stands for when it is empty is not
empty. A regular one is written as a record from which it is read again, without the further keys
that were null. Only a group whose kind is null while its further keys still name one is read as
something else.
-/
namespace Switchboard

/-- No further key has the wire name of a field. -/
def Unwired (names : List (String × String)) (extras : Record Value) : Prop :=
  ∀ n ∈ names, Record.get? extras n.1 = none

theorem unwired_others (r : Record Value) (names : List (String × String)) :
    Unwired names (Check.others r names) := fun _ hn => Check.get?_others_wire r hn

theorem readLogic_text {default s : String} (h : s ≠ "") : readLogic default (.text s) = .ok s := by
  have hg : (Value.text s).given = true := by simpa [Value.given] using h
  rw [readLogic, if_pos hg]
  rfl

theorem readLogic_ne_empty {default s : String} {v : Value} (hd : default ≠ "")
    (h : readLogic default v = .ok s) : s ≠ "" := by
  unfold readLogic at h
  split at h
  · rename_i hv
    exact Check.plainText_ne_empty h hv
  · simp only [Check.ok.injEq] at h
    exact h ▸ hd

theorem optional_readLogic_ne_empty {r : Record Value} {wire plain default s : String}
    (hd : default ≠ "")
    (h : Check.optional r wire plain default (readLogic default) = .ok s) : s ≠ "" := by
  rcases Check.optional_eq_ok h with rfl | ⟨v, hv⟩
  · exact hd
  · exact readLogic_ne_empty hd hv

theorem listIfGiven_map {α β : Type} {item : Value → Check β} {write : α → Value} {back : α → β}
    {as : List α} (h : ∀ a ∈ as, item (write a) = .ok (back a)) :
    listIfGiven item (.list (as.map write)) = .ok (as.map back) := by
  cases as with
  | nil => rfl
  | cons a as =>
    rw [listIfGiven, if_pos (by rfl)]
    exact Check.items_map h 0

theorem mem_listIfGiven {α : Type} {item : Value → Check α} {v : Value} {as : List α}
    (h : listIfGiven item v = .ok as) : ∀ a ∈ as, ∃ w, item w = .ok a := by
  unfold listIfGiven at h
  split at h
  · unfold Check.listOf at h
    split at h
    · exact Check.mem_items h
    · cases h
  · simp only [Check.ok.injEq] at h
    simp [← h]

theorem mem_optional_listIfGiven {α : Type} {r : Record Value} {wire plain : String}
    {item : Value → Check α} {as : List α}
    (h : Check.optional r wire plain [] (listIfGiven item) = .ok as) :
    ∀ a ∈ as, ∃ w, item w = .ok a := by
  rcases Check.optional_eq_ok h with rfl | ⟨v, hv⟩
  · simp
  · exact mem_listIfGiven hv

namespace Condition

/-- The condition without the further keys that are null. -/
def settled (c : Condition) : Condition := { c with extras := dropNulls c.extras }

structure Regular (c : Condition) : Prop where
  typed : c.dataType ≠ ""
  apart : Unwired names c.extras

@[simp] theorem settled_settled (c : Condition) : c.settled.settled = c.settled := by
  simp [settled]

@[simp] theorem toRecord_settled (c : Condition) : c.settled.toRecord = c.toRecord := by
  simp only [toRecord, settled, dropNulls_append, dropNulls_dropNulls]

@[simp] theorem toValue_settled (c : Condition) : c.settled.toValue = c.toValue := by
  simp [toValue]

theorem regular_of_ofRecord {r : Record Value} {c : Condition} (h : ofRecord r = .ok c) :
    c.Regular := by
  simp only [ofRecord, Check.seq_eq_ok, Check.map_eq_ok] at h
  obtain ⟨_, ⟨_, ⟨_, ⟨_, ⟨field, -, rfl⟩, operator, -, rfl⟩, value, -, rfl⟩, dataType, ht, rfl⟩,
    extras, he, rfl⟩ := h
  simp only [Check.ok.injEq] at he
  subst he
  refine ⟨?_, unwired_others r names⟩
  rcases Check.optional_eq_ok ht with rfl | ⟨v, hv⟩
  · simp
  · change dataType ≠ ""
    split at hv
    · rename_i hg
      exact Check.text_ne_empty hv hg
    · simp only [Check.ok.injEq] at hv
      simp [← hv]

theorem regular_of_read {v : Value} {c : Condition} (h : read v = .ok c) : c.Regular := by
  obtain ⟨r, hr⟩ := Check.onRecord_eq_ok h
  exact regular_of_ofRecord hr

theorem ofRecord_toRecord {c : Condition} (h : c.Regular) : ofRecord c.toRecord = .ok c.settled := by
  have s : Check.Separate names [("field", .text c.field), ("operator", .text c.operator),
      ("value", c.value), ("dataType", .text c.dataType)] c.extras := by
    refine ⟨rfl, by simp [names], by simp [names], h.apart, ?_⟩
    intro n hn hv
    have hw := Record.get?_filter_eq_none (h.apart n hn) fun p => !p.2.isNull
    simp only [names, List.mem_cons, List.not_mem_nil, or_false] at hn
    rcases hn with rfl | rfl | rfl | rfl
    · exact hw
    · exact hw
    · exact hw
    · simp [Record.get?_cons] at hv
  have hfield := s.required_eq (n := ("field", "field")) (by simp [names]) rfl rfl Check.text
  have hoperator := s.optional_eq (n := ("operator", "operator")) (by simp [names]) rfl
    Operator.equals.name Check.text
  have hvalue := s.optional_eq (n := ("value", "value")) (by simp [names]) rfl Value.null .ok
  have htype := s.optional_eq (n := ("dataType", "data_type")) (by simp [names]) rfl "string"
    fun v => if v.given then Check.text v else .ok "string"
  have hgiven : (Value.text c.dataType).given = true := by simpa [Value.given] using h.typed
  have hnull : (if c.value.isNull then Check.ok .null else (Check.ok c.value).under (.key "value")) =
      .ok c.value := by
    cases c.value <;> rfl
  unfold ofRecord toRecord
  rw [hfield, hoperator, hvalue, htype, s.others_eq, hnull]
  simp [Value.isNull, hgiven, Check.text, settled]

theorem read_toValue {c : Condition} (h : c.Regular) : read c.toValue = .ok c.settled :=
  ofRecord_toRecord h

end Condition

namespace ConditionGroup

/-- The group without the further keys that are null, in itself and in its conditions. -/
def settled (g : ConditionGroup) : ConditionGroup :=
  { g with conditions := g.conditions.map Condition.settled, extras := dropNulls g.extras }

structure Regular (g : ConditionGroup) : Prop where
  joined : g.logic ≠ ""
  conditions : ∀ c ∈ g.conditions, c.Regular
  apart : Unwired names g.extras

/-- No further key gives the kind of messages a second time. -/
def SpelledOnce (g : ConditionGroup) : Prop := Record.get? g.extras "message_type" = none

/-- The kind of messages is null, and a further key that is not null gives one. -/
def Shadowed (g : ConditionGroup) : Prop :=
  g.messageType = none ∧ Record.get? (dropNulls g.extras) "message_type" ≠ none

theorem SpelledOnce.not_shadowed {g : ConditionGroup} (h : g.SpelledOnce) : ¬ g.Shadowed :=
  fun hs => hs.2 (Record.get?_filter_eq_none h _)

@[simp] theorem settled_settled (g : ConditionGroup) : g.settled.settled = g.settled := by
  simp [settled]

@[simp] theorem toRecord_settled (g : ConditionGroup) : g.settled.toRecord = g.toRecord := by
  simp only [toRecord, settled, dropNulls_append, dropNulls_dropNulls, List.map_map]
  simp [Function.comp_def]

@[simp] theorem toValue_settled (g : ConditionGroup) : g.settled.toValue = g.toValue := by
  simp [toValue]

theorem regular_of_ofRecord {r : Record Value} {g : ConditionGroup} (h : ofRecord r = .ok g) :
    g.Regular := by
  simp only [ofRecord, Check.seq_eq_ok, Check.map_eq_ok] at h
  obtain ⟨_, ⟨_, ⟨_, ⟨_, ⟨source, -, rfl⟩, kind, -, rfl⟩, conditions, hc, rfl⟩, logic, hl, rfl⟩,
    extras, he, rfl⟩ := h
  simp only [Check.ok.injEq] at he
  subst he
  refine ⟨optional_readLogic_ne_empty (by simp) hl, ?_, unwired_others r names⟩
  intro c hm
  obtain ⟨v, hv⟩ := mem_optional_listIfGiven hc c hm
  exact Condition.regular_of_read hv

theorem regular_of_read {v : Value} {g : ConditionGroup} (h : read v = .ok g) : g.Regular := by
  obtain ⟨r, hr⟩ := Check.onRecord_eq_ok h
  exact regular_of_ofRecord hr

/-- A group names its kind a second time when the record that it is read from has both names. -/
theorem spelledOnce_iff {r : Record Value} {g : ConditionGroup} (h : ofRecord r = .ok g) :
    g.SpelledOnce ↔ ¬ (Record.has r "messageType" = true ∧ Record.has r "message_type" = true) := by
  simp only [ofRecord, Check.seq_eq_ok, Check.map_eq_ok] at h
  obtain ⟨_, ⟨_, ⟨_, ⟨_, ⟨source, -, rfl⟩, kind, -, rfl⟩, conditions, -, rfl⟩, logic, -, rfl⟩,
    extras, he, rfl⟩ := h
  simp only [Check.ok.injEq] at he
  subst he
  refine Check.get?_others_plain (n := ("messageType", "message_type")) r (by simp [names])
    (by simp) ?_
  intro m hm
  simp only [names, List.mem_cons, List.not_mem_nil, or_false] at hm
  rcases hm with rfl | rfl | rfl | rfl <;> simp

theorem ofRecord_toRecord {g : ConditionGroup} (h : g.Regular) (shown : ¬ g.Shadowed) :
    ofRecord g.toRecord = .ok g.settled := by
  have s : Check.Separate names [("source", textOrNullValue g.source),
      ("messageType", textOrNullValue g.messageType),
      ("conditions", .list (g.conditions.map Condition.toValue)),
      ("conditionLogic", .text g.logic)] g.extras := by
    refine ⟨rfl, by simp [names], by simp [names], h.apart, ?_⟩
    intro n hn hv
    have hw := Record.get?_filter_eq_none (h.apart n hn) fun p => !p.2.isNull
    simp only [names, List.mem_cons, List.not_mem_nil, or_false] at hn
    rcases hn with rfl | rfl | rfl | rfl
    · exact hw
    · by_contra hplain
      refine shown ⟨?_, hplain⟩
      cases hk : g.messageType with
      | none => rfl
      | some k => simp [Record.get?_cons, textOrNullValue, hk] at hv
    · exact hw
    · simp [Record.get?_cons] at hv
  have hsource := s.optional_eq (n := ("source", "source")) (by simp [names]) rfl none
    Check.textOrNull
  have hkind := s.optional_eq (n := ("messageType", "message_type")) (by simp [names]) rfl none
    Check.textOrNull
  have hconditions := s.optional_eq (n := ("conditions", "conditions")) (by simp [names]) rfl []
    (listIfGiven Condition.read)
  have hlogic := s.optional_eq (n := ("conditionLogic", "condition_logic")) (by simp [names]) rfl
    "AND" (readLogic "AND")
  rw [listIfGiven_map fun c hc => Condition.read_toValue (h.conditions c hc)] at hconditions
  rw [readLogic_text h.joined] at hlogic
  unfold ofRecord toRecord
  rw [hsource, hkind, hconditions, hlogic, s.others_eq]
  cases hs : g.source <;> cases hk : g.messageType <;>
    simp [textOrNullValue, Value.isNull, Check.textOrNull, Check.text, Check.map, settled, hs, hk]

theorem read_toValue {g : ConditionGroup} (h : g.Regular) (shown : ¬ g.Shadowed) :
    read g.toValue = .ok g.settled := ofRecord_toRecord h shown

end ConditionGroup

namespace FieldSpec

/-- The field without the further keys that are null. -/
def settled (f : FieldSpec) : FieldSpec := { f with extras := dropNulls f.extras }

def Regular (f : FieldSpec) : Prop := Unwired names f.extras

@[simp] theorem settled_settled (f : FieldSpec) : f.settled.settled = f.settled := by
  simp [settled]

@[simp] theorem toValue_settled (f : FieldSpec) : f.settled.toValue = f.toValue := by
  simp only [toValue, toRecord, settled, dropNulls_append, dropNulls_dropNulls]

theorem regular_of_ofRecord {r : Record Value} {f : FieldSpec} (h : ofRecord r = .ok f) :
    f.Regular := by
  simp only [ofRecord, Check.seq_eq_ok, Check.map_eq_ok] at h
  obtain ⟨_, ⟨_, ⟨path, -, rfl⟩, enabled, -, rfl⟩, extras, he, rfl⟩ := h
  simp only [Check.ok.injEq] at he
  subst he
  exact unwired_others r names

theorem regular_of_readOrPath {v : Value} {f : FieldSpec} (h : readOrPath v = .ok f) :
    f.Regular := by
  unfold readOrPath at h
  split at h
  · simp only [Check.ok.injEq] at h
    subst h
    exact fun n _ => rfl
  · obtain ⟨r, hr⟩ := Check.onRecord_eq_ok h
    exact regular_of_ofRecord hr

theorem readOrPath_toValue {f : FieldSpec} (h : f.Regular) :
    readOrPath f.toValue = .ok f.settled := by
  have s : Check.Separate names [("path", .text f.path), ("enabled", .bool f.enabled)]
      f.extras := by
    refine ⟨rfl, by simp [names], by simp [names], h, ?_⟩
    intro n hn hv
    simp only [names, List.mem_cons, List.not_mem_nil, or_false] at hn
    rcases hn with rfl | rfl <;> simp [Record.get?_cons] at hv
  have hpath := s.required_eq (n := ("path", "path")) (by simp [names]) rfl rfl Check.text
  have henabled := s.optional_eq (n := ("enabled", "enabled")) (by simp [names]) rfl true Check.flag
  change ofRecord f.toRecord = _
  unfold ofRecord toRecord
  rw [hpath, henabled, s.others_eq]
  simp [Value.isNull, Check.text, Check.flag, settled]

end FieldSpec

theorem readFields_map {fields : List FieldSpec} (h : ∀ f ∈ fields, f.Regular) :
    readFields (.list (fields.map FieldSpec.toValue)) = .ok (fields.map FieldSpec.settled) := by
  cases fields with
  | nil => rfl
  | cons f fs =>
    rw [readFields, if_pos (by rfl)]
    exact Check.items_map (fun f hf => FieldSpec.readOrPath_toValue (h f hf)) 0

theorem regular_of_readFields {v : Value} {fields : List FieldSpec} (h : readFields v = .ok fields) :
    ∀ f ∈ fields, f.Regular := by
  unfold readFields at h
  split at h
  · obtain ⟨vs, -, hvs⟩ := Check.andThen_eq_ok.mp h
    intro f hf
    obtain ⟨w, hw⟩ := Check.mem_items hvs f hf
    exact FieldSpec.regular_of_readOrPath hw
  · simp only [Check.ok.injEq] at h
    simp [← h]

namespace Action

/-- The action without the further keys that are null, in itself and in its fields. -/
def settled (a : Action) : Action :=
  { a with fields := a.fields.map FieldSpec.settled, extras := dropNulls a.extras }

structure Regular (a : Action) : Prop where
  fields : ∀ f ∈ a.fields, f.Regular
  apart : Unwired names a.extras

@[simp] theorem settled_settled (a : Action) : a.settled.settled = a.settled := by
  simp [settled]

@[simp] theorem toValue_settled (a : Action) : a.settled.toValue = a.toValue := by
  simp only [toValue, toRecord, settled, dropNulls_append, dropNulls_dropNulls, List.map_map]
  simp [Function.comp_def]

theorem regular_of_ofRecord {r : Record Value} {a : Action} (h : ofRecord r = .ok a) :
    a.Regular := by
  simp only [ofRecord, Check.seq_eq_ok, Check.map_eq_ok] at h
  obtain ⟨_, ⟨_, ⟨_, ⟨type, -, rfl⟩, endpoint, -, rfl⟩, fields, hf, rfl⟩, extras, he, rfl⟩ := h
  simp only [Check.ok.injEq] at he
  subst he
  refine ⟨?_, unwired_others r names⟩
  rcases Check.optional_eq_ok hf with rfl | ⟨v, hv⟩
  · simp
  · exact regular_of_readFields hv

theorem regular_of_read {v : Value} {a : Action} (h : read v = .ok a) : a.Regular := by
  obtain ⟨r, hr⟩ := Check.onRecord_eq_ok h
  exact regular_of_ofRecord hr

theorem read_toValue {a : Action} (h : a.Regular) : read a.toValue = .ok a.settled := by
  have s : Check.Separate names [("type", .text a.type), ("endpoint", .text a.endpoint),
      ("fields", .list (a.fields.map FieldSpec.toValue))] a.extras := by
    refine ⟨rfl, by simp [names], by simp [names], h.apart, ?_⟩
    intro n hn hv
    simp only [names, List.mem_cons, List.not_mem_nil, or_false] at hn
    rcases hn with rfl | rfl | rfl <;> simp [Record.get?_cons] at hv
  have htype := s.optional_eq (n := ("type", "type")) (by simp [names]) rfl routeToEndpoint
    Check.text
  have hendpoint := s.optional_eq (n := ("endpoint", "endpoint")) (by simp [names]) rfl ""
    Check.text
  have hfields := s.optional_eq (n := ("fields", "fields")) (by simp [names]) rfl [] readFields
  rw [readFields_map h.fields] at hfields
  change ofRecord a.toRecord = _
  unfold ofRecord toRecord
  rw [htype, hendpoint, hfields, s.others_eq]
  simp [Value.isNull, Check.text, settled]

end Action

namespace Rule

namespace Shape

def names : Shape → List (String × String)
  | .grouped _ _ => groupedNames
  | .flat _ _ => flatNames

/-- The keys that are taken out of a record before a shape is read from it. -/
def removed : Shape → List String
  | .grouped _ _ => ["shape"]
  | .flat _ _ => ["shape", "conditionGroups", "condition_groups"]

def groups : Shape → List ConditionGroup
  | .grouped groups _ => groups
  | .flat _ _ => []

def settled : Shape → Shape
  | .grouped groups logic => .grouped (groups.map ConditionGroup.settled) logic
  | .flat conditions logic => .flat (conditions.map Condition.settled) logic

def Regular : Shape → Prop
  | .grouped groups logic => groups ≠ [] ∧ logic ≠ "" ∧ ∀ g ∈ groups, g.Regular
  | .flat conditions logic => logic ≠ "" ∧ ∀ c ∈ conditions, c.Regular

@[simp] theorem settled_settled (s : Shape) : s.settled.settled = s.settled := by
  cases s <;> simp [settled]

@[simp] theorem toRecord_settled (s : Shape) : s.settled.toRecord = s.toRecord := by
  cases s <;> simp [settled, toRecord, Function.comp_def]

@[simp] theorem name_settled (s : Shape) : s.settled.name = s.name := by
  cases s <;> rfl

theorem keys_toRecord (s : Shape) : Rule.commonNames.map Prod.fst ++ Record.keys s.toRecord =
    s.names.map Prod.fst := by
  cases s <;> rfl

end Shape

/-- The rule without the further keys that are null, in itself and in all its parts. -/
def settled (r : Rule) : Rule :=
  { r with
    actions := r.actions.map Action.settled
    shape := r.shape.settled
    extras := dropNulls r.extras }

structure Regular (r : Rule) : Prop where
  actions : ∀ a ∈ r.actions, a.Regular
  shape : r.shape.Regular
  apart : Unwired r.shape.names r.extras
  removed : ∀ key ∈ r.shape.removed, Record.get? r.extras key = none

/-- No group of the rule gives its kind of messages a second time. -/
def SpelledOnce (r : Rule) : Prop := ∀ g ∈ r.shape.groups, g.SpelledOnce

/-- The fields of a rule on the wire, apart from the further keys. -/
def own (r : Rule) : Record Value :=
  [("id", textOrNullValue r.id), ("name", .text r.name), ("enabled", .bool r.enabled),
    ("blockDefault", .bool r.blockDefault), ("actions", .list (r.actions.map Action.toValue))] ++
    r.shape.toRecord

theorem toRecord_eq (r : Rule) : r.toRecord = dropNulls (r.own ++ r.extras) := rfl

@[simp] theorem settled_settled (r : Rule) : r.settled.settled = r.settled := by
  simp [settled]

@[simp] theorem toRecord_settled (r : Rule) : r.settled.toRecord = r.toRecord := by
  have hown : r.settled.own = r.own := by simp [own, settled, Function.comp_def]
  rw [toRecord_eq, toRecord_eq, hown]
  simp only [settled, dropNulls_append, dropNulls_dropNulls]

theorem Regular.withId {r : Rule} (h : r.Regular) (id : Option String) :
    Regular { r with id := id } := ⟨h.actions, h.shape, h.apart, h.removed⟩

theorem ofRecordWith_eq_ok {fields : Record Value} {shape : Check Shape} {extras : Record Value}
    {r : Rule} (h : ofRecordWith fields shape extras = .ok r) :
    (∀ a ∈ r.actions, a.Regular) ∧ shape = .ok r.shape ∧ r.extras = extras := by
  simp only [ofRecordWith, Check.seq_eq_ok, Check.map_eq_ok] at h
  obtain ⟨_, ⟨_, ⟨_, ⟨_, ⟨_, ⟨_, ⟨id, -, rfl⟩, name, -, rfl⟩, enabled, -, rfl⟩, block, -, rfl⟩,
    actions, ha, rfl⟩, s, hs, rfl⟩, further, he, rfl⟩ := h
  simp only [Check.ok.injEq] at he
  refine ⟨?_, hs, he.symm⟩
  intro a hm
  obtain ⟨v, hv⟩ := mem_optional_listIfGiven ha a hm
  exact Action.regular_of_read hv

theorem groupsOf_eq (fields : Record Value) :
    groupsOf fields =
      ((Check.find? fields "conditionGroups" "condition_groups").map Prod.snd).getD .null := by
  unfold groupsOf Check.find? Value.lookup
  cases Record.get? fields "conditionGroups" <;> cases Record.get? fields "condition_groups" <;> rfl

/-- Groups that are given are read as a list that is not empty. -/
theorem regular_of_required {fields : Record Value} {groups : List ConditionGroup}
    (given : (groupsOf fields).given = true)
    (h : Check.required fields "conditionGroups" "condition_groups"
      (Check.listOf ConditionGroup.read) = .ok groups) :
    groups ≠ [] ∧ ∀ g ∈ groups, g.Regular := by
  rw [groupsOf_eq] at given
  unfold Check.required at h
  cases hf : Check.find? fields "conditionGroups" "condition_groups" with
  | none =>
    rw [hf] at h
    cases h
  | some p =>
    obtain ⟨key, v⟩ := p
    simp only [hf, Check.under_eq_ok] at h
    simp only [hf, Option.map_some, Option.getD_some] at given
    unfold Check.listOf at h
    split at h
    · constructor
      · rintro rfl
        have hlen := Check.length_items h
        rw [List.eq_nil_of_length_eq_zero hlen.symm] at given
        cases given
      · intro g hm
        obtain ⟨w, hw⟩ := Check.mem_items h g hm
        exact ConditionGroup.regular_of_read hw
    · cases h

theorem regular_of_readGrouped {fields : Record Value} {r : Rule}
    (given : (groupsOf fields).given = true) (shape : Record.get? fields "shape" = none)
    (h : readGrouped fields = .ok r) : r.Regular := by
  obtain ⟨ha, hs, he⟩ := ofRecordWith_eq_ok h
  simp only [Check.seq_eq_ok, Check.map_eq_ok] at hs
  obtain ⟨_, ⟨groups, hg, rfl⟩, logic, hl, hs⟩ := hs
  obtain ⟨hne, hregular⟩ := regular_of_required given hg
  refine ⟨ha, ?_, ?_, ?_⟩
  · rw [← hs]
    exact ⟨hne, optional_readLogic_ne_empty (by simp) hl, hregular⟩
  · rw [← hs, he]
    exact unwired_others _ _
  · rw [← hs, he]
    intro key hk
    obtain rfl := List.mem_singleton.mp hk
    exact Record.get?_filter_eq_none shape _

theorem regular_of_readFlat {fields : Record Value} {r : Rule}
    (absent : ∀ key ∈ ["shape", "conditionGroups", "condition_groups"],
      Record.get? fields key = none)
    (h : readFlat fields = .ok r) : r.Regular := by
  obtain ⟨ha, hs, he⟩ := ofRecordWith_eq_ok h
  simp only [Check.seq_eq_ok, Check.map_eq_ok] at hs
  obtain ⟨_, ⟨conditions, hc, rfl⟩, logic, hl, hs⟩ := hs
  refine ⟨ha, ?_, ?_, ?_⟩
  · rw [← hs]
    refine ⟨optional_readLogic_ne_empty (by simp) hl, ?_⟩
    intro c hm
    obtain ⟨v, hv⟩ := mem_optional_listIfGiven hc c hm
    exact Condition.regular_of_read hv
  · rw [← hs, he]
    exact unwired_others _ _
  · rw [← hs, he]
    intro key hk
    exact Record.get?_filter_eq_none (absent key hk) _

theorem regular_of_check {fields : Record Value} {r : Rule} (h : (check fields).2 = .ok r) :
    r.Regular := by
  have hshape := Record.get?_erase_self fields "shape"
  unfold check at h
  dsimp only at h
  split at h
  · rename_i hg
    exact regular_of_readGrouped hg hshape h
  · refine regular_of_readFlat ?_ h
    intro key hk
    simp only [List.mem_cons, List.not_mem_nil, or_false] at hk
    rcases hk with rfl | rfl | rfl
    · exact Record.get?_filter_eq_none (Record.get?_filter_eq_none hshape _) _
    · exact Record.get?_filter_eq_none (Record.get?_erase_self _ _) _
    · exact Record.get?_erase_self _ _

/-- Every value that is read as a rule gives a regular one. -/
theorem regular_of_ofValue {v : Value} {r : Rule} (h : ofValue v = .ok r) : r.Regular := by
  unfold ofValue at h
  split at h
  · exact regular_of_check (Check.run_eq_ok.mp h)
  · obtain ⟨p, hp, rfl⟩ := Check.map'_eq_ok.mp (Check.run_eq_ok.mp h)
    exact regular_of_check (Check.both_eq_ok.mp hp).1
  · cases h

theorem separate_own {r : Rule} (h : r.Regular) :
    Check.Separate r.shape.names r.own r.extras := by
  refine ⟨r.shape.keys_toRecord, ?_, ?_, h.apart, ?_⟩
  · cases r.shape <;> simp [Shape.names, groupedNames, flatNames, commonNames]
  · cases r.shape <;> simp [Shape.names, groupedNames, flatNames, commonNames]
  · intro n hn hv
    have hw := Record.get?_filter_eq_none (h.apart n hn) fun p => !p.2.isNull
    -- Only the identifier can be null, and it has one name.
    have hid : n = ("id", "id") := by
      cases hs : r.shape <;>
        simp only [hs, Shape.names, groupedNames, flatNames, commonNames, List.cons_append,
          List.nil_append, List.mem_cons, List.not_mem_nil, or_false] at hn <;>
        rcases hn with rfl | rfl | rfl | rfl | rfl | rfl | rfl <;>
        first
        | rfl
        | simp [own, hs, Shape.toRecord, Record.get?_cons] at hv
    exact hid ▸ hw

theorem readId_text (id : String) : readId (.text id) = .ok (some id) := rfl

/-- The fields that both shapes share are read as they were written. -/
theorem ofRecordWith_toRecord {r : Rule} (h : r.Regular) (shape : Shape) (extras : Record Value) :
    ofRecordWith r.toRecord (.ok shape) extras =
      .ok { r with actions := r.actions.map Action.settled, shape := shape, extras := extras } := by
  have s := separate_own h
  have hn : ∀ n ∈ commonNames, n ∈ r.shape.names := by
    intro n hn
    cases r.shape <;> exact List.mem_append_left _ hn
  have hid := s.optional_eq (n := ("id", "id")) (hn _ (by simp [commonNames])) rfl none readId
  have hname := s.optional_eq (n := ("name", "name")) (hn _ (by simp [commonNames])) rfl ""
    (unlessNull "" Check.text)
  have henabled := s.optional_eq (n := ("enabled", "enabled")) (hn _ (by simp [commonNames])) rfl
    true (unlessNull true Check.flag)
  have hblock := s.optional_eq (n := ("blockDefault", "block_default"))
    (hn _ (by simp [commonNames])) rfl false (unlessNull false Check.flag)
  have hactions := s.optional_eq (n := ("actions", "actions")) (hn _ (by simp [commonNames])) rfl []
    (listIfGiven Action.read)
  rw [listIfGiven_map fun a ha => Action.read_toValue (h.actions a ha)] at hactions
  unfold ofRecordWith
  rw [toRecord_eq, hid, hname, henabled, hblock, hactions]
  cases hr : r.id with
  | none => simp [textOrNullValue, Value.isNull, unlessNull, Check.text, Check.flag]
  | some id =>
    simp [textOrNullValue, Value.isNull, unlessNull, Check.text, Check.flag, readId_text]

theorem get?_toRecord_eq_none {r : Rule} {key : String} (hown : key ∉ Record.keys r.own)
    (hextras : Record.get? r.extras key = none) : Record.get? r.toRecord key = none := by
  refine Record.get?_filter_eq_none ?_ _
  change Record.get? (r.own ++ r.extras) key = none
  rw [Record.get?_append, Record.get?_eq_none_iff.mpr hown, hextras, Option.or_none]

theorem keys_own (r : Rule) : Record.keys r.own = r.shape.names.map Prod.fst := r.shape.keys_toRecord

theorem readGrouped_toRecord {r : Rule} (h : r.Regular)
    (shown : ∀ g ∈ r.shape.groups, ¬ g.Shadowed)
    {groups : List ConditionGroup} {logic : String} (hs : r.shape = .grouped groups logic) :
    readGrouped r.toRecord = .ok r.settled := by
  have hr : r.shape.Regular := h.shape
  have s := separate_own h
  rw [hs] at hr s
  have hgroups := s.required_eq (n := ("conditionGroups", "condition_groups"))
    (v := .list (groups.map ConditionGroup.toValue)) (by simp [Shape.names, groupedNames])
    (by simp [own, hs, Shape.toRecord, Record.get?_cons]) rfl (Check.listOf ConditionGroup.read)
  have hlogic := s.optional_eq (n := ("groupLogic", "group_logic")) (v := .text logic)
    (by simp [Shape.names, groupedNames])
    (by simp [own, hs, Shape.toRecord, Record.get?_cons]) "OR" (readLogic "OR")
  have hitems : Check.listOf ConditionGroup.read (.list (groups.map ConditionGroup.toValue)) =
      .ok (groups.map ConditionGroup.settled) := by
    refine Check.items_map (fun g hg => ?_) 0
    have hg' : g ∈ r.shape.groups := by rw [hs]; exact hg
    exact ConditionGroup.read_toValue (hr.2.2 g hg) (shown g hg')
  rw [hitems] at hgroups
  rw [readLogic_text hr.2.1] at hlogic
  unfold readGrouped
  rw [toRecord_eq, hgroups, hlogic, show groupedNames = (Shape.grouped groups logic).names from rfl,
    s.others_eq, ← toRecord_eq]
  have hshape : (Shape.grouped <$> (Check.ok (groups.map ConditionGroup.settled)).under
      (.key "conditionGroups") <*> (if (Value.text logic).isNull then Check.ok "OR" else
        (Check.ok logic).under (.key "groupLogic"))) = .ok r.shape.settled := by
    rw [hs]
    rfl
  rw [hshape, ofRecordWith_toRecord h]
  rfl

theorem readFlat_toRecord {r : Rule} (h : r.Regular) {conditions : List Condition} {logic : String}
    (hs : r.shape = .flat conditions logic) : readFlat r.toRecord = .ok r.settled := by
  have hr : r.shape.Regular := h.shape
  have s := separate_own h
  rw [hs] at hr s
  have hconditions := s.optional_eq (n := ("conditions", "conditions"))
    (v := .list (conditions.map Condition.toValue)) (by simp [Shape.names, flatNames])
    (by simp [own, hs, Shape.toRecord, Record.get?_cons]) [] (listIfGiven Condition.read)
  have hlogic := s.optional_eq (n := ("conditionLogic", "condition_logic")) (v := .text logic)
    (by simp [Shape.names, flatNames])
    (by simp [own, hs, Shape.toRecord, Record.get?_cons]) "AND" (readLogic "AND")
  rw [listIfGiven_map fun c hc => Condition.read_toValue (hr.2 c hc)] at hconditions
  rw [readLogic_text hr.1] at hlogic
  unfold readFlat
  rw [toRecord_eq, hconditions, hlogic, show flatNames = (Shape.flat conditions logic).names from rfl,
    s.others_eq, ← toRecord_eq]
  have hshape : (Shape.flat <$> (if (Value.list (conditions.map Condition.toValue)).isNull then
      Check.ok [] else (Check.ok (conditions.map Condition.settled)).under (.key "conditions")) <*>
      (if (Value.text logic).isNull then Check.ok "AND" else
        (Check.ok logic).under (.key "conditionLogic"))) = .ok r.shape.settled := by
    rw [hs]
    rfl
  rw [hshape, ofRecordWith_toRecord h]
  rfl

theorem get?_toRecord_of_removed {r : Rule} (h : r.Regular) {key : String}
    (hk : key ∈ r.shape.removed) : Record.get? r.toRecord key = none := by
  refine get?_toRecord_eq_none ?_ (h.removed key hk)
  rw [keys_own]
  cases hs : r.shape <;>
    simp only [hs, Shape.removed, List.mem_cons, List.not_mem_nil, or_false] at hk
  · subst hk
    simp [Shape.names, groupedNames, commonNames]
  · rcases hk with rfl | rfl | rfl <;> simp [Shape.names, flatNames, commonNames]

theorem given_groupsOf_toRecord {r : Rule} (h : r.Regular) {groups : List ConditionGroup}
    {logic : String} (hs : r.shape = .grouped groups logic) :
    (groupsOf r.toRecord).given = true := by
  have s := separate_own h
  have hr := h.shape
  rw [hs] at s hr
  have hf := s.find?_eq (n := ("conditionGroups", "condition_groups"))
    (v := .list (groups.map ConditionGroup.toValue)) (by simp [Shape.names, groupedNames])
    (by simp [own, hs, Shape.toRecord, Record.get?_cons])
  rw [groupsOf_eq, toRecord_eq, hf]
  simpa [Value.isNull, Value.given] using hr.1

/-- A regular rule is read again in the shape that it was written in. -/
theorem check_toRecord {r : Rule} (h : r.Regular) :
    (check r.toRecord).2 = match r.shape with
      | .grouped _ _ => readGrouped r.toRecord
      | .flat _ _ => readFlat r.toRecord := by
  have hshape : Record.erase r.toRecord "shape" = r.toRecord := by
    refine Record.erase_eq_self (get?_toRecord_of_removed h ?_)
    cases r.shape <;> simp [Shape.removed]
  unfold check
  dsimp only
  rw [hshape]
  cases hs : r.shape with
  | grouped groups logic => rw [if_pos (given_groupsOf_toRecord h hs)]
  | flat conditions logic =>
    have hwire : Record.get? r.toRecord "conditionGroups" = none :=
      get?_toRecord_of_removed h (by simp [hs, Shape.removed])
    have hplain : Record.get? r.toRecord "condition_groups" = none :=
      get?_toRecord_of_removed h (by simp [hs, Shape.removed])
    have hgiven : (groupsOf r.toRecord).given = false := by
      rw [groupsOf_eq, Check.find?, hwire, hplain]
      rfl
    rw [hgiven, Record.erase_eq_self hwire, Record.erase_eq_self hplain]
    rfl

theorem ofValue_toValue_eq_ok {r again : Rule} :
    ofValue r.toValue = .ok again ↔ (check r.toRecord).2 = .ok again := Check.run_eq_ok

/-- What a regular rule is written as is read as the same rule. -/
theorem ofValue_toValue {r : Rule} (h : r.Regular) (shown : ∀ g ∈ r.shape.groups, ¬ g.Shadowed) :
    ofValue r.toValue = .ok r.settled := by
  rw [ofValue_toValue_eq_ok, check_toRecord h]
  cases hs : r.shape with
  | grouped groups logic => exact readGrouped_toRecord h shown hs
  | flat conditions logic => exact readFlat_toRecord h hs

end Rule

end Switchboard
