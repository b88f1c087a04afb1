import Switchboard.Proofs.Dispatch
import Switchboard.Proofs.SharedRecords

/-!
# Labels are names

A projection does not depend on which labels are free, only on that they are. Moving all labels from
the free ones on up by some amount moves them in all that follows, and the plain values stay.
-/
namespace Switchboard

namespace Shared

mutual

/-- The value with other labels. -/
def relabel (f : Nat → Nat) : Shared → Shared
  | .leaf v => .leaf v
  | .list items => .list (relabelItems f items)
  | .record l fields => .record (f l) (relabelFields f fields)

def relabelItems (f : Nat → Nat) : List Shared → List Shared
  | [] => []
  | s :: ss => relabel f s :: relabelItems f ss

def relabelFields (f : Nat → Nat) : List (String × Shared) → List (String × Shared)
  | [] => []
  | (key, s) :: ss => (key, relabel f s) :: relabelFields f ss

end

variable {f : Nat → Nat}

theorem relabelItems_eq (f : Nat → Nat) (items : List Shared) :
    relabelItems f items = items.map (relabel f) := by
  induction items with
  | nil => rw [relabelItems, List.map_nil]
  | cons s ss ih => rw [relabelItems, ih, List.map_cons]

theorem relabelFields_eq (f : Nat → Nat) (fields : List (String × Shared)) :
    relabelFields f fields = fields.map fun p => (p.1, p.2.relabel f) := by
  induction fields with
  | nil => rw [relabelFields, List.map_nil]
  | cons p ps ih => rw [relabelFields, ih, List.map_cons]

@[simp] theorem relabel_leaf (f : Nat → Nat) (v : Value) : relabel f (.leaf v) = .leaf v := by
  rw [relabel]

@[simp] theorem relabel_list (f : Nat → Nat) (items : List Shared) :
    relabel f (.list items) = .list (items.map (relabel f)) := by rw [relabel, relabelItems_eq]

@[simp] theorem relabel_record (f : Nat → Nat) (l : Nat) (fields : Record Shared) :
    relabel f (.record l fields) = .record (f l) (fields.map fun p => (p.1, p.2.relabel f)) := by
  rw [relabel, relabelFields_eq]

@[simp] theorem isAbsent_relabel (f : Nat → Nat) (s : Shared) :
    (s.relabel f).isAbsent = s.isAbsent := by
  cases s <;> simp [isAbsent]

mutual

@[simp] theorem plain_relabel (f : Nat → Nat) : ∀ s : Shared, (s.relabel f).plain = s.plain
  | .leaf v => by rw [relabel_leaf]
  | .list items => by
    rw [relabel_list, plain_list, plain_list, List.map_map]
    exact congrArg Value.list (plain_relabelItems f items)
  | .record l fields => by
    rw [relabel_record, plain_record, plain_record, List.map_map]
    exact congrArg Value.record (plain_relabelFields f fields)

theorem plain_relabelItems (f : Nat → Nat) : ∀ items : List Shared,
    items.map (plain ∘ relabel f) = items.map plain
  | [] => rfl
  | s :: items => by
    rw [List.map_cons, List.map_cons, plain_relabelItems f items, Function.comp_apply,
      plain_relabel f s]

theorem plain_relabelFields (f : Nat → Nat) : ∀ fields : List (String × Shared),
    fields.map ((fun p => (p.1, p.2.plain)) ∘ fun p => (p.1, p.2.relabel f)) =
      fields.map fun p => (p.1, p.2.plain)
  | [] => rfl
  | (key, s) :: fields => by
    rw [List.map_cons, List.map_cons, plain_relabelFields f fields, Function.comp_apply,
      plain_relabel f s]

end

/-- Labels that stay as they are leave a value as it is. -/
theorem Fits.relabel_eq_self {contents : List (Record Shared)} {s : Shared} (h : Fits contents s)
    (hf : ∀ l < contents.length, f l = l) : s.relabel f = s := by
  induction h with
  | leaf _ => exact relabel_leaf f _
  | list _ ih => rw [relabel_list, List.map_congr_left ih, List.map_id']
  | @record l fields here _ ih =>
    have hsame : ∀ p ∈ fields, (p.1, p.2.relabel f) = p := by
      intro p hp
      rw [ih p hp]
    rw [relabel_record, List.map_congr_left hsame, List.map_id',
      hf l (List.getElem?_eq_some_iff.mp here).1]

theorem relabel_select (f : Nat → Nat) (s : Shared) (segment : String) :
    select (s.relabel f) segment = (select s segment).map (relabel f) := by
  cases s with
  | leaf v =>
    rw [relabel_leaf, select]
    cases Path.select v segment <;> simp [bind, Except.bind, pure, Except.pure, Except.map]
  | list items =>
    rw [relabel_list, select, select]
    cases Path.position segment with
    | error f => rfl
    | ok position =>
      cases position with
      | none => exact congrArg Except.ok (relabel_leaf f _).symm
      | some n =>
        apply congrArg Except.ok
        rw [List.getD_eq_getElem?_getD, List.getD_eq_getElem?_getD, List.getElem?_map]
        cases items[n]? with
        | none => exact (relabel_leaf f _).symm
        | some t => rfl
  | record l fields =>
    rw [relabel_record, select, select]
    apply congrArg Except.ok
    rw [Record.get?_map]
    cases Record.get? fields segment with
    | none => exact (relabel_leaf f _).symm
    | some t => rfl

theorem relabel_follow (f : Nat → Nat) (ks : List String) (s : Shared) :
    follow ks (s.relabel f) = (follow ks s).map (relabel f) := by
  induction ks generalizing s with
  | nil => rfl
  | cons k ks ih =>
    rw [follow, follow, relabel_select]
    cases select s k with
    | error e => rfl
    | ok t =>
      simp only [Except.map, bind, Except.bind, isAbsent_relabel]
      split
      · exact congrArg Except.ok (relabel_leaf f _).symm
      · exact ih t

def Write.relabel (f : Nat → Nat) (w : Write) : Write := ⟨f w.label, w.key, w.value.relabel f⟩

mutual

theorem relabel_apply (hf : f.Injective) (w : Write) : ∀ s : Shared,
    (s.apply w).relabel f = (s.relabel f).apply (w.relabel f)
  | .leaf v => by rw [apply_leaf, relabel_leaf, apply_leaf]
  | .list items => by
    rw [apply_list, relabel_list, relabel_list, apply_list, List.map_map, List.map_map]
    exact congrArg Shared.list (relabel_applyItems hf w items)
  | .record l fields => by
    have hfields := relabel_applyFields hf w fields
    have hlabel : (f l = (w.relabel f).label) = (l = w.label) := propext hf.eq_iff
    rw [apply_record, relabel_record, relabel_record, apply_record, List.map_map, ← hfields]
    congr 1
    simp only [hlabel]
    split
    · rw [Record.put_map, List.map_map]
      rfl
    · rw [List.map_map]

theorem relabel_applyItems (hf : f.Injective) (w : Write) : ∀ items : List Shared,
    items.map (relabel f ∘ apply w) = items.map (apply (w.relabel f) ∘ relabel f)
  | [] => rfl
  | s :: items => by
    rw [List.map_cons, List.map_cons, relabel_applyItems hf w items, Function.comp_apply,
      Function.comp_apply, relabel_apply hf w s]

theorem relabel_applyFields (hf : f.Injective) (w : Write) : ∀ fields : List (String × Shared),
    fields.map ((fun p => (p.1, p.2.relabel f)) ∘ fun p => (p.1, p.2.apply w)) =
      fields.map ((fun p => (p.1, p.2.apply (w.relabel f))) ∘ fun p => (p.1, p.2.relabel f))
  | [] => rfl
  | (key, s) :: fields => by
    rw [List.map_cons, List.map_cons, relabel_applyFields hf w fields, Function.comp_apply,
      Function.comp_apply, relabel_apply hf w s]

end

/-- The labels from a base on are moved up by some amount, and those below stay as they are. -/
def shift (base d l : Nat) : Nat := if l < base then l else l + d

theorem shift_injective (base d : Nat) : (shift base d).Injective := by
  intro l k h
  unfold shift at h
  split at h <;> split at h <;> omega

theorem shift_of_le {base l : Nat} (d : Nat) (h : base ≤ l) : shift base d l = l + d :=
  if_neg (Nat.not_lt.mpr h)

variable {base next : Nat}

theorem relabel_chain (d : Nat) (h : base ≤ next) (ks : List String) (value : Shared) :
    chain ks (value.relabel (shift base d)) (next + d) =
      ((chain ks value next).1.relabel (shift base d), (chain ks value next).2 + d) := by
  induction ks generalizing next with
  | nil => rfl
  | cons k ks ih =>
    have hnext : next + d + 1 = next + 1 + d := by omega
    rw [chain, hnext, ih (Nat.le_succ_of_le h), chain]
    simp [shift_of_le d h]

theorem relabel_writeAt (d : Nat) (h : base ≤ next) (l : Nat) (fields : Record Shared)
    (first : String) (rest : List String) (value : Shared) :
    writeAt (shift base d l) (fields.map fun p => (p.1, p.2.relabel (shift base d))) first rest
        (value.relabel (shift base d)) (next + d) =
      ((writeAt l fields first rest value next).1.relabel (shift base d),
        (writeAt l fields first rest value next).2 + d) := by
  induction rest generalizing l fields first with
  | nil => rfl
  | cons k ks ih =>
    have hchain := relabel_chain d h (k :: ks) value
    rw [writeAt, writeAt, Record.get?_map]
    cases Record.get? fields first with
    | none => simp [hchain, Write.relabel]
    | some s =>
      cases s with
      | leaf v => simp [hchain, Write.relabel]
      | list items => simp [hchain, Write.relabel]
      | record l' inner =>
        rw [Option.map_some, relabel_record]
        exact ih l' inner k

theorem le_chain (ks : List String) (value : Shared) (next : Nat) :
    next ≤ (chain ks value next).2 := by
  induction ks generalizing next with
  | nil => exact Nat.le_refl next
  | cons k ks ih => exact Nat.le_trans (Nat.le_succ next) (ih (next + 1))

theorem le_writeAt (l : Nat) (fields : Record Shared) (first : String) (rest : List String)
    (value : Shared) (next : Nat) : next ≤ (writeAt l fields first rest value next).2 := by
  induction rest generalizing l fields first with
  | nil => exact Nat.le_refl next
  | cons k ks ih =>
    unfold writeAt
    split
    · exact ih _ _ k
    · exact le_chain (k :: ks) value next

end Shared

namespace Projection

open Shared

/-- The view with the labels from a base on moved up. -/
def View.shift (base d : Nat) (view : View) : View where
  message := view.message.relabel (Shared.shift base d)
  projected := view.projected.relabel (Shared.shift base d)
  others := view.others.map (relabel (Shared.shift base d))
  next := view.next + d

theorem View.shift_apply (base d : Nat) (view : View) (w : Write) (next : Nat) :
    (view.apply w next).shift base d =
      (view.shift base d).apply (w.relabel (Shared.shift base d)) (next + d) := by
  have happly := relabel_apply (shift_injective base d) w
  have hothers : (view.others.map (Shared.apply w)).map (relabel (Shared.shift base d)) =
      (view.others.map (relabel (Shared.shift base d))).map
        (Shared.apply (w.relabel (Shared.shift base d))) := by
    rw [List.map_map, List.map_map]
    exact List.map_congr_left fun s _ => happly s
  unfold View.apply View.shift
  simp only [happly, hothers]

theorem View.shift_write {base : Nat} {view : View} (h : base ≤ view.next) (d : Nat) (p : Path)
    (value : Shared) :
    (view.write p value).shift base d =
      (view.shift base d).write p (value.relabel (Shared.shift base d)) := by
  cases hp : view.projected with
  | leaf v => simp [View.write, View.shift, hp]
  | list items => simp [View.write, View.shift, hp]
  | record l fields =>
    have hshifted : (view.shift base d).projected = .record (Shared.shift base d l)
        (fields.map fun p => (p.1, p.2.relabel (Shared.shift base d))) := by
      rw [View.shift, hp, relabel_record]
    have hwrite := relabel_writeAt d h l fields p.first p.rest value
    rw [View.write, View.write, hp, hshifted]
    dsimp only
    rw [View.shift_apply]
    exact congrArg (fun r : Write × Nat => (view.shift base d).apply r.1 r.2) hwrite.symm

theorem View.le_write (view : View) (p : Path) (value : Shared) :
    view.next ≤ (view.write p value).next := by
  unfold View.write
  split
  · exact le_writeAt ..
  · exact Nat.le_refl _

theorem le_addField {view after : View} {spec : FieldSpec} (h : addField view spec = .ok after) :
    view.next ≤ after.next := by
  rcases addField_cases h with rfl | ⟨value, -, -, -, rfl⟩
  · exact Nat.le_refl _
  · exact view.le_write _ value

theorem shift_addField {base : Nat} {view : View} (h : base ≤ view.next) (d : Nat)
    (spec : FieldSpec) :
    addField (view.shift base d) spec = (addField view spec).map (View.shift base d) := by
  have hread : (view.shift base d).message.read (Path.ofText spec.path) =
      (view.message.read (Path.ofText spec.path)).map (relabel (Shared.shift base d)) :=
    relabel_follow _ _ _
  unfold addField
  cases spec.enabled with
  | false => rfl
  | true =>
    dsimp only
    rw [hread]
    cases view.message.read (Path.ofText spec.path) with
    | error f => rfl
    | ok value =>
      have hwrite := View.shift_write h d (Path.ofText spec.path) value
      cases hv : value.isAbsent <;>
        simp [Except.map, bind, Except.bind, pure, Except.pure, hv, hwrite]

theorem shift_addFields {base : Nat} {view : View} (h : base ≤ view.next) (d : Nat)
    (specs : List (Except Fault FieldSpec)) :
    addFields (view.shift base d) specs =
      ((addFields view specs).1.shift base d, (addFields view specs).2) := by
  induction specs generalizing view with
  | nil => rfl
  | cons spec specs ih =>
    cases spec with
    | error f => rfl
    | ok spec =>
      rw [addFields, addFields]
      simp only [Except.bind, shift_addField h d spec]
      cases hadd : addField view spec with
      | error f => rfl
      | ok after => exact ih (Nat.le_trans h (le_addField hadd))

end Projection

namespace Course

/-- What is projected of a message does not depend on which labels are free. -/
theorem project_of_message {contents : List (Record Shared)} {c c' : Course}
    (hmessage : Shared.Fits contents c.message) (hsame : c'.message = c.message)
    (hnext : contents.length ≤ c.next) (hle : c.next ≤ c'.next) (specs : List FieldSpec) :
    (c'.project specs).2.map Shared.plain = (c.project specs).2.map Shared.plain := by
  have hbare := congrArg Prod.snd (project_bare c specs)
  have hbare' := congrArg Prod.snd (project_bare c' specs)
  obtain ⟨d, hd⟩ := Nat.exists_eq_add_of_le hle
  have hlabels : ∀ l < contents.length, Shared.shift c.next d l = l := by
    intro l hl
    exact if_pos (Nat.lt_of_lt_of_le hl hnext)
  have hstart : Projection.start c'.message [] c'.next =
      (Projection.start c.message [] c.next).shift c.next d := by
    have hrelabel := hmessage.relabel_eq_self hlabels
    simp [Projection.start, Projection.View.shift, hrelabel, hsame, hd, Nat.add_right_comm,
      Shared.shift_of_le d (Nat.le_refl c.next)]
  have hadd := @Projection.shift_addFields c.next (Projection.start c.message [] c.next)
    (Nat.le_succ c.next) d (specs.map .ok)
  rw [← hstart] at hadd
  rw [← hbare, ← hbare']
  unfold project
  cases specs with
  | nil => simp [hsame]
  | cons spec specs =>
    simp only [List.isEmpty_cons, Bool.false_eq_true, if_false, bare, List.map_nil] at hadd ⊢
    rw [hadd]
    cases (Projection.addFields (Projection.start c.message [] c.next)
      ((spec :: specs).map Except.ok)).2 with
    | some f => rfl
    | none => simp [Except.map, Projection.View.shift]

end Course

end Switchboard
