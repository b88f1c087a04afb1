import Switchboard.Proofs.StoredRules

/-!
# Rules that survive being written

A rule that is written as a record and read again should be the rule that it was. It is, unless one
of its groups is shadowed: such a group selects every kind of messages, the null that says so is
left out when it is written, and then the kind among its further keys is read instead.
-/
namespace Switchboard

namespace Check

theorem textOrNull_eq_of_not_null {v : Value} (h : v.isNull = false) :
    textOrNull v = (text v).map some := by
  cases v <;> first | rfl | cases h

theorem find?_eq_some_of_plain {r : Record Value} {wire plain : String} {v : Value}
    (absent : Record.get? r wire = none) (h : Record.get? r plain = some v) :
    find? r wire plain = some (plain, v) := by
  simp [find?, absent, h]

end Check

namespace ConditionGroup

theorem get?_toRecord_messageType {g : ConditionGroup} (h : g.Regular) :
    Record.get? g.toRecord "messageType" = g.messageType.map .text := by
  have hextras : Record.get? (dropNulls g.extras) "messageType" = none :=
    Record.get?_filter_eq_none (h.apart ("messageType", "message_type") (by simp [names])) _
  unfold toRecord
  rw [dropNulls_append, Record.get?_append, hextras, Option.or_none,
    get?_dropNulls (by simp [Record.keys])]
  cases hk : g.messageType <;>
    simp [Record.get?_cons, textOrNullValue, Option.filter, Value.isNull]

theorem get?_toRecord_message_type (g : ConditionGroup) :
    Record.get? g.toRecord "message_type" = Record.get? (dropNulls g.extras) "message_type" := by
  unfold toRecord
  rw [dropNulls_append, Record.get?_append, get?_dropNulls (by simp [Record.keys])]
  simp [Record.get?_cons]

/-- A shadowed group is not read again as a group that is written in the same way. -/
theorem Shadowed.toRecord_ne {g again : ConditionGroup} (h : g.Shadowed) (regular : g.Regular)
    (read : ofRecord g.toRecord = .ok again) : again.toRecord ≠ g.toRecord := by
  obtain ⟨hkind, hplain⟩ := h
  have hwire : Record.get? g.toRecord "messageType" = none := by
    rw [get?_toRecord_messageType regular, hkind, Option.map_none]
  obtain ⟨v, hv⟩ := Option.ne_none_iff_exists'.mp hplain
  have hnull : v.isNull = false := by
    have hm := (List.mem_filter.mp (Record.mem_of_get?_eq_some hv)).2
    simpa using hm
  have hfind := Check.find?_eq_some_of_plain hwire ((get?_toRecord_message_type g).trans hv)
  have hagain : again.Regular := regular_of_ofRecord read
  -- The kind of the group that is read is the value under the plain name, which is not null.
  simp only [ofRecord, Check.seq_eq_ok, Check.map_eq_ok] at read
  obtain ⟨_, ⟨_, ⟨_, ⟨_, ⟨source, -, rfl⟩, kind, hk, rfl⟩, conditions, -, rfl⟩, logic, -, rfl⟩,
    extras, -, rfl⟩ := read
  rw [Check.optional, hfind] at hk
  obtain ⟨k, rfl⟩ : ∃ k, kind = some k := by
    have hk := Check.under_eq_ok.mp hk
    rw [Check.textOrNull_eq_of_not_null hnull, Check.map'_eq_ok] at hk
    exact hk.imp fun k hk => hk.2.symm
  intro he
  have hget := get?_toRecord_messageType hagain
  rw [he, hwire] at hget
  cases hget

theorem not_shadowed_of_forall₂ {groups groups' : List ConditionGroup}
    (regular : ∀ g ∈ groups, g.Regular)
    (read : List.Forall₂ (fun g g' => ConditionGroup.read g.toValue = .ok g') groups groups')
    (written : groups'.map toValue = groups.map toValue) : ∀ g ∈ groups, ¬ g.Shadowed := by
  induction read with
  | nil => simp
  | @cons g g' groups groups' hread _ ih =>
    simp only [List.map_cons, List.cons.injEq, toValue, Value.record.injEq] at written
    intro h hm hshadowed
    rcases List.mem_cons.mp hm with rfl | hm
    · exact hshadowed.toRecord_ne (regular _ List.mem_cons_self) hread written.1
    · exact ih (fun g hg => regular g (List.mem_cons_of_mem _ hg)) written.2 h hm hshadowed

end ConditionGroup

namespace Rule

/-- What the rule is written as is read as a rule of the same shape that is written in the same way
and gives the same answer to every message. -/
def RoundTrips (r : Rule) : Prop :=
  ∃ again, ofValue r.toValue = .ok again ∧ again.shape.name = r.shape.name ∧
    again.toRecord = r.toRecord ∧ ∀ message, again.holds message = r.holds message

theorem get?_toRecord_conditionGroups {r : Rule} (h : r.Regular) {groups : List ConditionGroup}
    {logic : String} (hs : r.shape = .grouped groups logic) :
    Record.get? r.toRecord "conditionGroups" =
      some (.list (groups.map ConditionGroup.toValue)) := by
  have s := separate_own h
  rw [hs] at s
  have hextras : Record.get? (dropNulls r.extras) "conditionGroups" = none :=
    Record.get?_filter_eq_none
      (s.apart ("conditionGroups", "condition_groups") (by simp [Shape.names, groupedNames])) _
  rw [toRecord_eq, dropNulls_append, Record.get?_append, hextras, get?_dropNulls s.keys_nodup]
  simp [own, hs, Shape.toRecord, Record.get?_cons, Option.filter, Value.isNull]

/-- The groups of a rule that is read again come one by one from the groups that were written. -/
theorem forall₂_groups {r again : Rule} (h : r.Regular) {groups : List ConditionGroup}
    {logic : String} (hs : r.shape = .grouped groups logic)
    (read : ofValue r.toValue = .ok again) :
    ∃ groups' logic', again.shape = .grouped groups' logic' ∧
      List.Forall₂ (fun g g' => ConditionGroup.read g.toValue = .ok g') groups groups' := by
  rw [ofValue_toValue_eq_ok, check_toRecord h, hs] at read
  obtain ⟨-, hshape, -⟩ := ofRecordWith_eq_ok read
  simp only [Check.seq_eq_ok, Check.map_eq_ok] at hshape
  obtain ⟨_, ⟨groups', hgroups, rfl⟩, logic', -, hshape⟩ := hshape
  have hfind : Check.find? r.toRecord "conditionGroups" "condition_groups" =
      some ("conditionGroups", .list (groups.map ConditionGroup.toValue)) := by
    rw [Check.find?, get?_toRecord_conditionGroups h hs]
  rw [Check.required, hfind] at hgroups
  have hitems := Check.forall₂_items (Check.under_eq_ok.mp hgroups)
  exact ⟨groups', logic', hshape.symm, List.forall₂_map_left_iff.mp hitems⟩

/-- A shadowed group is not written again as it was. -/
theorem RoundTrips.not_shadowed {r : Rule} (regular : r.Regular) (h : r.RoundTrips) :
    ∀ g ∈ r.shape.groups, ¬ g.Shadowed := by
  obtain ⟨again, hread, -, hrecord, -⟩ := h
  cases hs : r.shape with
  | flat conditions logic => simp [Shape.groups]
  | grouped groups logic =>
    obtain ⟨groups', logic', hs', hgroups⟩ := forall₂_groups regular hs hread
    have hwritten : groups'.map ConditionGroup.toValue = groups.map ConditionGroup.toValue := by
      have hget := congrArg (Record.get? · "conditionGroups") hrecord
      simpa [get?_toRecord_conditionGroups (regular_of_ofValue hread) hs',
        get?_toRecord_conditionGroups regular hs] using hget
    have hregular := regular.shape
    rw [hs] at hregular
    exact ConditionGroup.not_shadowed_of_forall₂ hregular.2.2 hgroups hwritten

theorem roundTrips_of_not_shadowed {r : Rule} (regular : r.Regular)
    (shown : ∀ g ∈ r.shape.groups, ¬ g.Shadowed) : r.RoundTrips :=
  ⟨r.settled, ofValue_toValue regular shown, r.shape.name_settled, r.toRecord_settled,
    r.holds_settled⟩

/-- Every rule that is read survives being written, exactly if none of its groups is shadowed. -/
theorem roundTrips_iff {raw : Value} {r : Rule} (h : ofValue raw = .ok r) :
    r.RoundTrips ↔ ∀ g ∈ r.shape.groups, ¬ g.Shadowed :=
  ⟨RoundTrips.not_shadowed (regular_of_ofValue h), roundTrips_of_not_shadowed (regular_of_ofValue h)⟩

/-- A rule of one group, which gives its kind of messages under both names. -/
def kindTwice (wire plain : Value) : Value :=
  .record [("note", .null), ("conditionGroups", .list [.record [("messageType", wire),
    ("message_type", plain), ("memo", .null)]])]

theorem roundTrips_kindTwice :
    ∃ r, ofValue (kindTwice (.text "comment") (.text "gift")) = .ok r ∧ r.RoundTrips := by
  have hread : ofValue (kindTwice (.text "comment") (.text "gift")) = .ok _ := rfl
  refine ⟨_, hread, (roundTrips_iff hread).mpr ?_⟩
  intro g hg hshadowed
  obtain rfl := List.mem_singleton.mp hg
  cases hshadowed.1

/-- The null of the wire name hides the other kind only until the rule is written. -/
theorem not_roundTrips_kindTwice :
    ∃ r again, ofValue (kindTwice .null (.text "gift")) = .ok r ∧ ofValue r.toValue = .ok again ∧
      r.holds (.record [("type", .text "comment")]) = .ok true ∧
      again.holds (.record [("type", .text "comment")]) = .ok false ∧ ¬ r.RoundTrips := by
  refine ⟨_, _, rfl, rfl, rfl, rfl, ?_⟩
  rintro ⟨again, hread, -, -, hholds⟩
  cases hread
  cases hholds (.record [("type", .text "comment")])

end Rule

end Switchboard
