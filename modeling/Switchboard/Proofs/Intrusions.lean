import Switchboard.Proofs.Projections

/-!
# Projections that write into the message

A path that leads on from a selected record through something that is no record does change the
message: where that was, a record is afterwards.
-/
namespace Switchboard

namespace Shared

variable {contents : List (Record Shared)}

/-- A write of a record over something that is no record. -/
structure Write.Intrudes (w : Write) (fields : Record Shared) : Prop where
  replaces : ∃ s, Record.get? fields w.key = some s ∧ s.plain.fields? = none
  record : ∃ l made, w.value = .record l made

theorem Write.Intrudes.plain_ne {w : Write} {fields : Record Shared} (h : w.Intrudes fields) :
    (apply w (.record w.label fields)).plain ≠ plain (.record w.label fields) := by
  obtain ⟨⟨s, hs, hnone⟩, l, made, hvalue⟩ := h
  intro hsame
  rw [apply_record, if_pos rfl, plain_record, plain_record] at hsame
  have hget := congrArg (Record.get? · w.key) (Value.record.inj hsame)
  simp only [Record.get?_map, Record.get?_put_self, hs, Option.map_some, Option.some.injEq] at hget
  rw [← hget, hvalue, plain_record] at hnone
  cases hnone

/-- A label that comes twice in a value stands for the same record. -/
theorem IsPart.fields_eq {l : Nat} {fields found : Record Shared}
    (h : IsPart contents (.record l fields)) (hfound : IsPart contents (.record l found)) :
    fields = found := by
  have hhere : ∀ own, IsPart contents (.record l own) → contents[l]? = some own := by
    intro own h
    rcases h with h | ⟨v, hv⟩
    · cases h with
      | record here _ => exact here
    · cases hv
  exact Option.some.inj ((hhere fields h).symm.trans (hhere found hfound))

/-- A write to a record that stands somewhere in a value shows in the plain value. -/
theorem IsPart.plain_apply_ne {w : Write} {ks : List String} {s : Shared} {fields : Record Shared}
    (hs : IsPart contents s) (hread : Shared.follow ks s = .ok (.record w.label fields))
    (hw : w.Intrudes fields) : (s.apply w).plain ≠ s.plain := by
  induction ks generalizing s with
  | nil =>
    obtain rfl := Except.ok.inj hread
    exact hw.plain_ne
  | cons k ks ih =>
    by_cases hlabel : ∃ own, s = .record w.label own
    · obtain ⟨own, rfl⟩ := hlabel
      rw [hs.fields_eq (hs.follow hread)]
      exact hw.plain_ne
    · obtain ⟨u, hselect, -, hrest⟩ := follow_cons_eq_ok hread rfl
      intro hsame
      have hplain := plain_select (s.apply w) k
      rw [hsame, ← plain_select s k, select_apply (fun own h => hlabel ⟨own, h⟩) k, hselect] at hplain
      exact ih (hs.select hselect) hrest (Except.ok.inj hplain)

end Shared

namespace Projection

open Shared

variable {contents : List (Record Shared)}

/-- A way that leads on from a record through something that is no record ends in a write over
that. -/
theorem writeAt_intrudes {l : Nat} {fields : Record Shared} {first : String} {rest : List String}
    {value : Shared} (hfits : Fits contents (.record l fields))
    (hleaves : Path.staysInRecords (first :: rest) (plain (.record l fields)) = false)
    (hread : follow (first :: rest) (.record l fields) = .ok value)
    (hthere : value.isAbsent = false) (next : Nat) :
    ∃ ks found, follow ks (.record l fields) =
        .ok (.record (writeAt l fields first rest value next).1.label found) ∧
      (writeAt l fields first rest value next).1.Intrudes found := by
  induction rest generalizing l fields first with
  | nil =>
    rw [plain_record] at hleaves
    cases hleaves
  | cons k ks ih =>
    obtain ⟨s, hget, hs⟩ := get?_of_follow hread hthere
    have hfirst := hfits.get? hget
    rw [plain_record, Path.staysInRecords, Value.lookupOrAbsent, Record.get?_map, hget,
      Option.map_some, Option.getD_some] at hleaves
    have hover : s.plain.fields? = none → ∃ way found,
        follow way (.record l fields) = .ok (.record l found) ∧
          Write.Intrudes ⟨l, first, (chain (k :: ks) value next).1⟩ found := by
      intro hnone
      exact ⟨[], fields, rfl, ⟨s, hget, hnone⟩, next, _, rfl⟩
    rw [writeAt, hget]
    cases s with
    | leaf v =>
      dsimp only
      apply hover
      cases hfirst with
      | leaf hatom => cases v <;> first | exact hatom.elim | simp [Value.fields?]
    | list items =>
      dsimp only
      apply hover
      rw [plain_list]
      rfl
    | record l' inner =>
      obtain ⟨way, found, hway, hintrudes⟩ := ih hfirst hleaves hs
      refine ⟨first :: way, found, ?_, hintrudes⟩
      have hselect : select (.record l fields) first = .ok (.record l' inner) := by
        rw [select, hget]
        rfl
      rw [follow, hselect]
      exact hway

theorem addField_eq_write {view : View} {spec : FieldSpec} {value : Shared}
    (henabled : spec.enabled = true) (hread : view.message.read (Path.ofText spec.path) = .ok value)
    (hthere : value.isAbsent = false) :
    addField view spec = .ok (view.write (Path.ofText spec.path) value) := by
  simp [addField, henabled, hread, hthere, bind, Except.bind, pure, Except.pure]

end Projection

end Switchboard
