import Switchboard.Proofs.JsonReading
import Switchboard.Proofs.JsonTexts
import Switchboard.Rule.Basic

/-!
# Rules that come from JSON

All that a rule keeps comes from the value that it was read from, or is a text or a boolean. So a
rule that was read from a value of the kinds of JSON is written as one, and has a JSON text.
-/
namespace Switchboard

/-- A value of the kinds of JSON is written unless there is no room for all its levels. -/
theorem Value.OfJson.faults_writeWithin {v : Value} (h : v.OfJson) (room : Nat) :
    Faults (Json.writeWithin room v) ↔ room < v.levels := by
  induction h generalizing room with
  | list _ ih =>
    cases room with
    | zero => simp [Json.writeWithin, levels_pos]
    | succ room =>
      rw [Json.faults_writeWithin_list, lt_levels_list]
      exact exists_congr fun v => and_congr_right fun hv => ih v hv room
  | record _ ih =>
    cases room with
    | zero => simp [Json.writeWithin, levels_pos]
    | succ room =>
      rw [Json.faults_writeWithin_record, lt_levels_record]
      exact exists_congr fun f => and_congr_right fun hf => ih f hf room
  | int h => cases room <;> simp [Json.writeWithin, faults_intText, h, levels]
  | _ => cases room <;> simp [Json.writeWithin, levels]

/-- The values of the record are of the kinds of JSON. -/
def Record.OfJson (r : Record Value) : Prop := ∀ f ∈ r, f.2.OfJson

theorem Value.OfJson.fields {r : Record Value} (h : (Value.record r).OfJson) :
    Record.OfJson r := by
  cases h with
  | record h => exact h

theorem ofJson_textOrNullValue (s : Option String) : (textOrNullValue s).OfJson := by
  cases s with
  | none => exact .null
  | some s => exact .text s

namespace Record

variable {r s : Record Value}

theorem OfJson.filter (h : OfJson r) (keep : String × Value → Bool) :
    OfJson (r.filter keep) := fun f hf => h f (List.mem_filter.mp hf).1

theorem OfJson.append (hr : OfJson r) (hs : OfJson s) :
    OfJson (r ++ s) := fun f hf =>
  (List.mem_append.mp hf).elim (hr f) (hs f)

/-- What is written from own fields and further keys. -/
theorem OfJson.written (hr : OfJson r) (hs : OfJson s) :
    (Value.record (dropNulls (r ++ s))).OfJson := .record ((hr.append hs).filter _)

end Record

section Lists

variable {α : Type} {item : Value → Check α} {write : α → Value}

theorem ofJson_of_items (hitem : ∀ {v a}, v.OfJson → item v = .ok a → (write a).OfJson)
    {vs : List Value} (hvs : ∀ v ∈ vs, v.OfJson) {n : Nat} {as : List α}
    (h : Check.items item n vs = .ok as) : (Value.list (as.map write)).OfJson := by
  refine .list fun w hw => ?_
  obtain ⟨a, ha, rfl⟩ := List.mem_map.mp hw
  obtain ⟨v, hv, hread⟩ := Check.items_source h a ha
  exact hitem (hvs v hv) hread

theorem ofJson_of_listOf (hitem : ∀ {v a}, v.OfJson → item v = .ok a → (write a).OfJson)
    {v : Value} (hv : v.OfJson) {as : List α} (h : Check.listOf item v = .ok as) :
    (Value.list (as.map write)).OfJson := by
  cases hv with
  | list hvs => exact ofJson_of_items hitem hvs h
  | _ => cases h

/-- The items of a field that may be left out. -/
theorem ofJson_of_listIfGiven (hitem : ∀ {v a}, v.OfJson → item v = .ok a → (write a).OfJson)
    {r : Record Value} (hr : r.OfJson) {wire plain : String} {as : List α}
    (h : Check.optional r wire plain [] (listIfGiven item) = .ok as) :
    (Value.list (as.map write)).OfJson := by
  rcases Check.optional_source h with rfl | ⟨p, hp, hread⟩
  · exact .list (by simp)
  · unfold listIfGiven at hread
    split at hread
    · exact ofJson_of_listOf hitem (hr p hp) hread
    · obtain rfl := Check.ok.inj hread
      exact .list (by simp)

theorem onRecord_source {read : Record Value → Check α} {v : Value} {a : α} (hv : v.OfJson)
    (h : Check.onRecord read v = .ok a) : ∃ r : Record Value, r.OfJson ∧ read r = .ok a := by
  cases hv with
  | record hr => exact ⟨_, hr, h⟩
  | _ => cases h

end Lists

variable {v : Value}

theorem Condition.ofJson_of_read {c : Condition} (hv : v.OfJson) (h : read v = .ok c) :
    c.toValue.OfJson := by
  obtain ⟨r, hr, h⟩ := onRecord_source hv h
  simp only [ofRecord, Check.seq_eq_ok, Check.map_eq_ok, Check.ok.injEq] at h
  obtain ⟨_, ⟨_, ⟨_, ⟨_, ⟨field, -, rfl⟩, operator, -, rfl⟩, value, hvalue, rfl⟩, dataType, -, rfl⟩,
    _, rfl, rfl⟩ := h
  have hvalue : value.OfJson := by
    rcases Check.optional_source hvalue with rfl | ⟨p, hp, he⟩
    · exact .null
    · exact Check.ok.inj he ▸ hr p hp
  refine Record.OfJson.written ?_ (hr.filter _)
  simp [Record.OfJson, hvalue, Value.OfJson.text]

theorem ConditionGroup.ofJson_of_read {g : ConditionGroup} (hv : v.OfJson) (h : read v = .ok g) :
    g.toValue.OfJson := by
  obtain ⟨r, hr, h⟩ := onRecord_source hv h
  simp only [ofRecord, Check.seq_eq_ok, Check.map_eq_ok, Check.ok.injEq] at h
  obtain ⟨_, ⟨_, ⟨_, ⟨_, ⟨source, -, rfl⟩, kind, -, rfl⟩, conditions, hc, rfl⟩, logic, -, rfl⟩,
    _, rfl, rfl⟩ := h
  have hconditions := ofJson_of_listIfGiven Condition.ofJson_of_read hr hc
  refine Record.OfJson.written ?_ (hr.filter _)
  simp [Record.OfJson, hconditions, ofJson_textOrNullValue, Value.OfJson.text]

theorem FieldSpec.ofJson_of_read {f : FieldSpec} (hv : v.OfJson) (h : read v = .ok f) :
    f.toValue.OfJson := by
  obtain ⟨r, hr, h⟩ := onRecord_source hv h
  simp only [ofRecord, Check.seq_eq_ok, Check.map_eq_ok, Check.ok.injEq] at h
  obtain ⟨_, ⟨_, ⟨path, -, rfl⟩, enabled, -, rfl⟩, _, rfl, rfl⟩ := h
  refine Record.OfJson.written ?_ (hr.filter _)
  simp [Record.OfJson, Value.OfJson.text, Value.OfJson.bool]

theorem FieldSpec.ofJson_of_readOrPath {f : FieldSpec} (hv : v.OfJson)
    (h : readOrPath v = .ok f) : f.toValue.OfJson := by
  cases v with
  | text path =>
    obtain rfl := Check.ok.inj h
    refine Record.OfJson.written ?_ nofun
    simp [Record.OfJson, Value.OfJson.text, Value.OfJson.bool]
  | _ => exact ofJson_of_read hv h

theorem ofJson_of_iterated {items : List Value} (hv : v.OfJson) (h : iterated v = .ok items) :
    ∀ w ∈ items, w.OfJson := by
  cases hv with
  | list hitems => exact Except.ok.inj h ▸ hitems
  | text _ | record _ =>
    obtain rfl := Except.ok.inj h
    intro w hw
    obtain ⟨_, -, rfl⟩ := List.mem_map.mp hw
    exact .text _
  | _ => cases h

theorem Action.ofJson_of_read {a : Action} (hv : v.OfJson) (h : read v = .ok a) :
    a.toValue.OfJson := by
  obtain ⟨r, hr, h⟩ := onRecord_source hv h
  simp only [ofRecord, Check.seq_eq_ok, Check.map_eq_ok, Check.ok.injEq] at h
  obtain ⟨_, ⟨_, ⟨_, ⟨type, -, rfl⟩, endpoint, -, rfl⟩, fields, hf, rfl⟩, _, rfl, rfl⟩ := h
  have hfields : (Value.list (fields.map FieldSpec.toValue)).OfJson := by
    rcases Check.optional_source hf with rfl | ⟨p, hp, hread⟩
    · exact .list (by simp)
    · unfold readFields at hread
      split at hread
      · obtain ⟨items, hitems, hread⟩ := Check.andThen_eq_ok.mp hread
        have hiterated : iterated p.2 = .ok items := by
          cases hi : iterated p.2 <;> simp_all [Check.ofExcept]
        exact ofJson_of_items FieldSpec.ofJson_of_readOrPath
          (ofJson_of_iterated (hr p hp) hiterated) hread
      · obtain rfl := Check.ok.inj hread
        exact .list (by simp)
  refine Record.OfJson.written ?_ (hr.filter _)
  simp [Record.OfJson, hfields, Value.OfJson.text]

namespace Rule

theorem ofJson_of_ofRecordWith {fields extras : Record Value} {shape : Check Shape} {r : Rule}
    (hfields : fields.OfJson) (hextras : extras.OfJson)
    (hshape : ∀ s, shape = .ok s → Record.OfJson s.toRecord)
    (h : ofRecordWith fields shape extras = .ok r) : r.toValue.OfJson := by
  simp only [ofRecordWith, Check.seq_eq_ok, Check.map_eq_ok, Check.ok.injEq] at h
  obtain ⟨_, ⟨_, ⟨_, ⟨_, ⟨_, ⟨_, ⟨id, -, rfl⟩, name, -, rfl⟩, enabled, -, rfl⟩, block, -, rfl⟩,
    actions, ha, rfl⟩, s, hs, rfl⟩, _, rfl, rfl⟩ := h
  have hactions := ofJson_of_listIfGiven Action.ofJson_of_read hfields ha
  refine Record.OfJson.written (Record.OfJson.append ?_ (hshape s hs)) hextras
  simp [Record.OfJson, hactions, ofJson_textOrNullValue, Value.OfJson.text, Value.OfJson.bool]

theorem ofJson_of_check {fields : Record Value} {r : Rule} (hfields : fields.OfJson)
    (h : (check fields).2 = .ok r) : r.toValue.OfJson := by
  have herase : ∀ {s : Record Value}, s.OfJson → ∀ key, (Record.erase s key).OfJson :=
    fun hs _ => hs.filter _
  unfold check at h
  dsimp only at h
  split at h
  · have hr := herase hfields "shape"
    refine ofJson_of_ofRecordWith hr (hr.filter _) ?_ h
    intro s hs
    simp only [Check.seq_eq_ok, Check.map_eq_ok] at hs
    obtain ⟨_, ⟨groups, hg, rfl⟩, logic, -, rfl⟩ := hs
    obtain ⟨p, hp, hg⟩ := Check.required_source hg
    have hgroups := ofJson_of_listOf ConditionGroup.ofJson_of_read (hr p hp) hg
    simp [Shape.toRecord, Record.OfJson, hgroups, Value.OfJson.text]
  · have hr := herase (herase (herase hfields "shape") "conditionGroups") "condition_groups"
    refine ofJson_of_ofRecordWith hr (hr.filter _) ?_ h
    intro s hs
    simp only [Check.seq_eq_ok, Check.map_eq_ok] at hs
    obtain ⟨_, ⟨conditions, hc, rfl⟩, logic, -, rfl⟩ := hs
    have hconditions := ofJson_of_listIfGiven Condition.ofJson_of_read hr hc
    simp [Shape.toRecord, Record.OfJson, hconditions, Value.OfJson.text]

/-- A rule that was read from JSON is written as JSON. -/
theorem ofJson_of_ofValue {r : Rule} (hv : v.OfJson) (h : ofValue v = .ok r) :
    r.toValue.OfJson := by
  cases hv with
  | record hfields => exact ofJson_of_check hfields (Check.run_eq_ok.mp h)
  | _ => cases h

/-- Another identifier is written in the place of the old one. -/
theorem ofJson_withId {r : Rule} (h : r.toValue.OfJson) (id : Option String) :
    (toValue { r with id := id }).OfJson := by
  refine .record fun f hf => ?_
  obtain ⟨hm, hnull⟩ := List.mem_filter.mp hf
  simp only [List.cons_append, List.mem_cons] at hm
  rcases hm with rfl | hm
  · exact ofJson_textOrNullValue id
  · refine h.fields f (List.mem_filter.mpr ⟨?_, hnull⟩)
    simp only [List.cons_append, List.mem_cons]
    exact Or.inr hm

end Rule

end Switchboard
