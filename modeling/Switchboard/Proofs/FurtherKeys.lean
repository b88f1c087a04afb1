import Switchboard.Proofs.CheckFaults
import Switchboard.Proofs.RuleForms

/-!
# Further keys of rules

A rule may hold keys that are none of its fields, and so may its groups, conditions, actions and
selected fields. What stands under such a key is written back as it was read, unless it is null, and
the lists of a rule are written item by item in their order. A key that is a field of one shape is a
further key of the other.
-/
namespace Switchboard

namespace Check

variable {α : Type}

theorem keyed_of_onRecord {read : Record Value → Check α} {v : Value} {a : α}
    (h : onRecord read v = .ok a) : ∃ r, v.keyed? = some r ∧ read r = .ok a := by
  unfold onRecord at h
  split at h
  · exact ⟨_, rfl, h⟩
  · obtain ⟨p, hp, rfl⟩ := map'_eq_ok.mp h
    exact ⟨_, rfl, (both_eq_ok.mp hp).1⟩
  · cases h

/-- A field that has to be given is read from the value that is found for it. -/
theorem required_of_find? {r : Record Value} {wire plain key : String} {read : Value → Check α}
    {a : α} {v : Value} (h : required r wire plain read = .ok a)
    (hfind : find? r wire plain = some (key, v)) : read v = .ok a := by
  rw [required, hfind] at h
  exact under_eq_ok.mp h

end Check

/-- Every key that is no name of a field is written with the value that it was read with, unless
that is null. -/
def KeepsFurther (names : List (String × String)) (raw written : Record Value) : Prop :=
  ∀ key, (∀ n ∈ names, key ≠ n.1 ∧ key ≠ n.2) → ∀ v, Record.get? raw key = some v →
    v.isNull = false → Record.get? written key = some v

/-- A list that a field holds is written as a list of the same length, and each of its items is what
was read of the item in the same place. -/
def KeepsList {α : Type} (keeps : Value → α → Prop) (write : α → Value) (n : String × String)
    (raw written : Record Value) : Prop :=
  ∀ key vs, Check.find? raw n.1 n.2 = some (key, .list vs) →
    ∃ as, List.Forall₂ keeps vs as ∧ Record.get? written n.1 = some (.list (as.map write))

section Forms

variable {names : List (String × String)} {own raw : Record Value}

/-- The further keys of a form are those that are not among the names of its fields. -/
theorem keepsFurther_others (wires : Record.keys own = names.map Prod.fst) :
    KeepsFurther names raw (dropNulls (own ++ Check.others raw names)) := by
  intro key hkey v hv hnull
  have hown : Record.get? own key = none := by
    rw [Record.get?_eq_none_iff, wires]
    intro hm
    obtain ⟨n, hn, he⟩ := List.mem_map.mp hm
    exact (hkey n hn).1 he.symm
  have hothers : Record.get? (Check.others raw names) key = some v := by
    rw [Check.get?_others, if_neg, hv]
    intro hused
    obtain ⟨n, hn, ⟨he, -⟩ | ⟨he, -⟩⟩ := Check.mem_usedKeys.mp hused
    · exact (hkey n hn).1 he
    · exact (hkey n hn).2 he
  refine Record.get?_filter_of_eq_some ?_ (by simp [hnull])
  rw [Record.get?_append, hown, hothers, Option.none_or]

/-- A field that holds a list is read from that list. -/
theorem keepsList_optional {α : Type} {keeps : Value → α → Prop} {write : α → Value}
    {read : Value → Check (List α)} {n : String × String} {as : List α} {written : Record Value}
    (h : Check.optional raw n.1 n.2 [] read = .ok as)
    (hread : ∀ {vs}, read (.list vs) = .ok as → List.Forall₂ keeps vs as)
    (hwritten : Record.get? written n.1 = some (.list (as.map write))) :
    KeepsList keeps write n raw written := by
  intro key vs hfind
  rw [Check.optional, hfind] at h
  exact ⟨as, hread (Check.under_eq_ok.mp h), hwritten⟩

theorem forall₂_listOf {α : Type} {item : Value → Check α} {keeps : Value → α → Prop}
    (hitem : ∀ {v a}, item v = .ok a → keeps v a) {vs : List Value} {as : List α}
    (h : Check.listOf item (.list vs) = .ok as) : List.Forall₂ keeps vs as :=
  (Check.forall₂_items h).imp fun _ _ ha => hitem ha

theorem forall₂_listIfGiven {α : Type} {item : Value → Check α} {keeps : Value → α → Prop}
    (hitem : ∀ {v a}, item v = .ok a → keeps v a) {vs : List Value} {as : List α}
    (h : listIfGiven item (.list vs) = .ok as) : List.Forall₂ keeps vs as := by
  cases vs with
  | nil =>
    obtain rfl := Check.ok.inj h
    exact .nil
  | cons v vs => exact forall₂_listOf hitem h

theorem forall₂_readFields {keeps : Value → FieldSpec → Prop}
    (hitem : ∀ {v f}, FieldSpec.readOrPath v = .ok f → keeps v f) {vs : List Value}
    {fields : List FieldSpec} (h : readFields (.list vs) = .ok fields) :
    List.Forall₂ keeps vs fields := by
  cases vs with
  | nil =>
    obtain rfl := Check.ok.inj h
    exact .nil
  | cons v vs =>
    have hitems : Check.items FieldSpec.readOrPath 0 (v :: vs) = .ok fields := h
    exact (Check.forall₂_items hitems).imp fun _ _ hf => hitem hf

/-- A key that was taken out before is one more name. -/
theorem KeepsFurther.of_erase {written : Record Value} {out : String}
    (h : KeepsFurther names (Record.erase raw out) written) :
    KeepsFurther ((out, out) :: names) raw written := by
  intro key hkey v hv
  have hne : key ≠ out := (hkey (out, out) List.mem_cons_self).1
  refine h key (fun n hn => hkey n (List.mem_cons_of_mem _ hn)) v ?_
  rw [Record.get?_erase_of_ne hne, hv]

theorem KeepsList.of_erase {α : Type} {keeps : Value → α → Prop} {write : α → Value}
    {n : String × String} {written : Record Value} {out : String}
    (h : KeepsList keeps write n (Record.erase raw out) written) (hwire : n.1 ≠ out)
    (hplain : n.2 ≠ out) : KeepsList keeps write n raw written := by
  intro key vs hfind
  refine h key vs ?_
  rw [Check.find?, Record.get?_erase_of_ne hwire, Record.get?_erase_of_ne hplain]
  exact hfind

end Forms

/-! ## The parts of a rule -/

/-- The condition is what was read of the value, and keeps its further keys. -/
structure Condition.Keeps (v : Value) (c : Condition) : Prop where
  read : Condition.read v = .ok c
  further : ∃ raw, v.keyed? = some raw ∧ KeepsFurther Condition.names raw c.toRecord

theorem Condition.keeps_of_read {v : Value} {c : Condition} (h : Condition.read v = .ok c) :
    c.Keeps v := by
  obtain ⟨raw, hraw, hread⟩ := Check.keyed_of_onRecord h
  simp only [ofRecord, Check.seq_eq_ok, Check.map_eq_ok, Check.ok.injEq] at hread
  obtain ⟨_, ⟨_, ⟨_, ⟨_, ⟨field, -, rfl⟩, operator, -, rfl⟩, value, -, rfl⟩, dataType, -, rfl⟩,
    _, rfl, rfl⟩ := hread
  exact ⟨h, raw, hraw, keepsFurther_others rfl⟩

/-- The group is what was read of the value, and keeps its further keys and its conditions. -/
structure ConditionGroup.Keeps (v : Value) (g : ConditionGroup) : Prop where
  read : ConditionGroup.read v = .ok g
  further : ∃ raw, v.keyed? = some raw ∧
    KeepsFurther ConditionGroup.names raw g.toRecord ∧
    KeepsList Condition.Keeps Condition.toValue ("conditions", "conditions") raw g.toRecord

theorem ConditionGroup.keeps_of_read {v : Value} {g : ConditionGroup}
    (h : ConditionGroup.read v = .ok g) : g.Keeps v := by
  obtain ⟨raw, hraw, hread⟩ := Check.keyed_of_onRecord h
  simp only [ofRecord, Check.seq_eq_ok, Check.map_eq_ok, Check.ok.injEq] at hread
  obtain ⟨_, ⟨_, ⟨_, ⟨_, ⟨source, -, rfl⟩, kind, -, rfl⟩, conditions, hconditions, rfl⟩, logic, -,
    rfl⟩, _, rfl, rfl⟩ := hread
  refine ⟨h, raw, hraw, keepsFurther_others rfl, ?_⟩
  refine keepsList_optional hconditions (forall₂_listIfGiven Condition.keeps_of_read) ?_
  exact Record.get?_filter_of_eq_some (by simp [Record.get?_cons]) rfl

/-- The selected field is what was read of the value, and keeps its further keys where it was
selected by more than its path. -/
structure FieldSpec.Keeps (v : Value) (f : FieldSpec) : Prop where
  read : FieldSpec.readOrPath v = .ok f
  further : ∀ raw, v.keyed? = some raw → KeepsFurther FieldSpec.names raw f.toRecord

theorem FieldSpec.keeps_of_readOrPath {v : Value} {f : FieldSpec}
    (h : FieldSpec.readOrPath v = .ok f) : f.Keeps v := by
  refine ⟨h, ?_⟩
  intro raw hraw
  unfold readOrPath at h
  split at h
  · cases hraw
  · obtain ⟨raw', hraw', hread⟩ := Check.keyed_of_onRecord h
    obtain rfl := Option.some.inj (hraw.symm.trans hraw')
    simp only [ofRecord, Check.seq_eq_ok, Check.map_eq_ok, Check.ok.injEq] at hread
    obtain ⟨_, ⟨_, ⟨path, -, rfl⟩, enabled, -, rfl⟩, _, rfl, rfl⟩ := hread
    exact keepsFurther_others rfl

/-- The action is what was read of the value, and keeps its further keys and its selected fields. -/
structure Action.Keeps (v : Value) (a : Action) : Prop where
  read : Action.read v = .ok a
  further : ∃ raw, v.keyed? = some raw ∧ KeepsFurther Action.names raw a.toRecord ∧
    KeepsList FieldSpec.Keeps FieldSpec.toValue ("fields", "fields") raw a.toRecord

theorem Action.keeps_of_read {v : Value} {a : Action} (h : Action.read v = .ok a) : a.Keeps v := by
  obtain ⟨raw, hraw, hread⟩ := Check.keyed_of_onRecord h
  simp only [ofRecord, Check.seq_eq_ok, Check.map_eq_ok, Check.ok.injEq] at hread
  obtain ⟨_, ⟨_, ⟨_, ⟨type, -, rfl⟩, endpoint, -, rfl⟩, fields, hfields, rfl⟩, _, rfl, rfl⟩ := hread
  refine ⟨h, raw, hraw, keepsFurther_others rfl, ?_⟩
  refine keepsList_optional hfields (forall₂_readFields FieldSpec.keeps_of_readOrPath) ?_
  exact Record.get?_filter_of_eq_some (by simp [Record.get?_cons]) rfl

/-! ## Rules -/

namespace Rule

namespace Shape

/-- The names of the list that decides whether a rule of the shape matches. -/
def listNames : Shape → String × String
  | .grouped _ _ => ("conditionGroups", "condition_groups")
  | .flat _ _ => ("conditions", "conditions")

/-- The groups of a shape, or its conditions, are those of a record. -/
def KeepsTests (s : Shape) (raw written : Record Value) : Prop :=
  match s with
  | .grouped _ _ => KeepsList ConditionGroup.Keeps ConditionGroup.toValue s.listNames raw written
  | .flat _ _ => KeepsList Condition.Keeps Condition.toValue s.listNames raw written

theorem KeepsTests.of_erase {s : Shape} {raw written : Record Value} {key : String}
    (h : s.KeepsTests (Record.erase raw key) written) (hwire : s.listNames.1 ≠ key)
    (hplain : s.listNames.2 ≠ key) : s.KeepsTests raw written := by
  cases s with
  | grouped groups logic => exact KeepsList.of_erase h hwire hplain
  | flat conditions logic => exact KeepsList.of_erase h hwire hplain

end Shape

/-- The rule keeps what a record holds under other keys than the names of its fields and those that
are taken out of the record, and the items of its lists are those of the record. -/
structure Keeps (out : List String) (raw : Record Value) (r : Rule) : Prop where
  further : KeepsFurther (out.map (fun key => (key, key)) ++ r.shape.names) raw r.toRecord
  actions : KeepsList Action.Keeps Action.toValue ("actions", "actions") raw r.toRecord
  tests : r.shape.KeepsTests raw r.toRecord

theorem Keeps.of_erase {out : List String} {raw : Record Value} {r : Rule} {key : String}
    (h : r.Keeps out (Record.erase raw key)) (hactions : key ≠ "actions")
    (hwire : r.shape.listNames.1 ≠ key) (hplain : r.shape.listNames.2 ≠ key) :
    r.Keeps (key :: out) raw where
  further := h.further.of_erase
  actions := h.actions.of_erase hactions.symm hactions.symm
  tests := h.tests.of_erase hwire hplain

theorem keeps_of_ofRecordWith {raw : Record Value} {shape : Check Shape} {r : Rule}
    (h : ofRecordWith raw shape (Check.others raw r.shape.names) = .ok r)
    (tests : r.shape.KeepsTests raw r.toRecord) : r.Keeps [] raw := by
  obtain ⟨-, -, hextras⟩ := ofRecordWith_eq_ok h
  refine ⟨?_, ?_, tests⟩
  · rw [toRecord_eq, hextras]
    exact keepsFurther_others r.keys_own
  · simp only [ofRecordWith, Check.seq_eq_ok, Check.map_eq_ok] at h
    obtain ⟨_, ⟨_, ⟨_, ⟨_, ⟨_, ⟨_, ⟨id, -, hid⟩, name, -, rfl⟩, enabled, -, rfl⟩, block, -, rfl⟩,
      actions, hactions, rfl⟩, s, -, rfl⟩, further, -, hr⟩ := h
    subst hid
    have hwritten : actions = r.actions := congrArg Rule.actions hr
    refine keepsList_optional hactions (forall₂_listIfGiven Action.keeps_of_read) ?_
    rw [hwritten]
    exact Record.get?_filter_of_eq_some (by simp [Record.get?_cons]) rfl

theorem keeps_of_readGrouped {raw : Record Value} {r : Rule} (h : readGrouped raw = .ok r) :
    (∃ groups logic, r.shape = .grouped groups logic) ∧ r.Keeps [] raw := by
  obtain ⟨-, hshape, -⟩ := ofRecordWith_eq_ok h
  simp only [Check.seq_eq_ok, Check.map_eq_ok] at hshape
  obtain ⟨_, ⟨groups, hgroups, rfl⟩, logic, -, hshape⟩ := hshape
  refine ⟨⟨groups, logic, hshape.symm⟩, keeps_of_ofRecordWith (by rw [← hshape]; exact h) ?_⟩
  rw [← hshape]
  intro key vs hfind
  have hlist := Check.required_of_find? hgroups hfind
  refine ⟨groups, forall₂_listOf ConditionGroup.keeps_of_read hlist, ?_⟩
  rw [toRecord_eq, own, ← hshape]
  exact Record.get?_filter_of_eq_some
    (by simp [Shape.listNames, Shape.toRecord, Record.get?_cons]) rfl

theorem keeps_of_readFlat {raw : Record Value} {r : Rule} (h : readFlat raw = .ok r) :
    (∃ conditions logic, r.shape = .flat conditions logic) ∧ r.Keeps [] raw := by
  obtain ⟨-, hshape, -⟩ := ofRecordWith_eq_ok h
  simp only [Check.seq_eq_ok, Check.map_eq_ok] at hshape
  obtain ⟨_, ⟨conditions, hconditions, rfl⟩, logic, -, hshape⟩ := hshape
  refine ⟨⟨conditions, logic, hshape.symm⟩, keeps_of_ofRecordWith (by rw [← hshape]; exact h) ?_⟩
  rw [← hshape]
  refine keepsList_optional hconditions (forall₂_listIfGiven Condition.keeps_of_read) ?_
  rw [toRecord_eq, own, ← hshape]
  exact Record.get?_filter_of_eq_some
    (by simp [Shape.listNames, Shape.toRecord, Record.get?_cons]) rfl

theorem keeps_of_check {raw : Record Value} {r : Rule} (h : (check raw).2 = .ok r) :
    r.Keeps r.shape.removed raw := by
  unfold check at h
  dsimp only at h
  split at h
  · obtain ⟨⟨groups, logic, hs⟩, hkeeps⟩ := keeps_of_readGrouped h
    have hremoved : r.shape.removed = ["shape"] := by rw [hs]; rfl
    rw [hremoved]
    exact hkeeps.of_erase (by decide) (by simp [hs, Shape.listNames]) (by simp [hs, Shape.listNames])
  · obtain ⟨⟨conditions, logic, hs⟩, hkeeps⟩ := keeps_of_readFlat h
    have hremoved : r.shape.removed = ["shape", "conditionGroups", "condition_groups"] := by
      rw [hs]
      rfl
    have hlist : r.shape.listNames = ("conditions", "conditions") := by rw [hs]; rfl
    rw [hremoved]
    refine Keeps.of_erase (Keeps.of_erase (Keeps.of_erase hkeeps ?_ ?_ ?_) ?_ ?_ ?_) ?_ ?_ ?_ <;>
      first
      | decide
      | rw [hlist]; decide

/-- A rule that is read from a value keeps every key that is no field of its shape and does not tell
the shape, with its value unless that is null, and so does each of its groups, conditions, actions
and selected fields. Their lists are written in the order in which they were read, item by item. -/
theorem keeps_of_ofValue {v : Value} {r : Rule} (h : ofValue v = .ok r) :
    ∃ raw, v.keyed? = some raw ∧ r.Keeps r.shape.removed raw := by
  unfold ofValue at h
  split at h
  · exact ⟨_, rfl, keeps_of_check (Check.run_eq_ok.mp h)⟩
  · obtain ⟨p, hp, rfl⟩ := Check.map'_eq_ok.mp (Check.run_eq_ok.mp h)
    exact ⟨_, rfl, keeps_of_check (Check.both_eq_ok.mp hp).1⟩
  · cases h

/-- A rule with a further key in each of its parts. Without groups its conditions are no field. -/
def annotated : Value :=
  .record [("note", .text "a"), ("conditions", .int 1),
    ("actions", .list [.record [("note", .text "b"),
      ("fields", .list [.text "comment", .record [("path", .text "name"), ("note", .text "c")]])]]),
    ("conditionGroups", .list [.record [("note", .text "d")],
      .record [("conditions", .list [.record [("field", .text "name"), ("note", .list [.null])]])]])]

theorem keeps_of_ofValue_annotated : ∃ r fields, ofValue annotated = .ok r ∧
    annotated = .record fields ∧ r.Keeps ["shape"] fields ∧
    Record.get? r.toRecord "conditions" = some (.int 1) := by
  have hread : ofValue annotated = .ok _ := rfl
  obtain ⟨raw, hraw, hkeeps⟩ := keeps_of_ofValue hread
  obtain rfl := Option.some.inj hraw
  refine ⟨_, _, hread, rfl, hkeeps, ?_⟩
  exact hkeeps.further "conditions" (by decide) _ rfl rfl

end Rule

end Switchboard
