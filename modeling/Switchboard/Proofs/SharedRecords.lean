import Mathlib.Tactic.SplitIfs
import Switchboard.Projection
import Switchboard.Proofs.Forms

/-!
# Labelled records

A shared value has the parts that its plain value has. In what a comment is made into, a label
stands for one record wherever it is, so a write changes nothing if it puts into a record the value
that the record has there already, or goes to a record that is elsewhere.
-/
namespace Switchboard

namespace Record

variable {α β : Type}

theorem get?_map (f : α → β) (r : Record α) (key : String) :
    get? (r.map fun p => (p.1, f p.2)) key = (get? r key).map f := by
  induction r with
  | nil => rfl
  | cons p r ih =>
    obtain ⟨k, v⟩ := p
    rw [List.map_cons, get?_cons, get?_cons, ih]
    split_ifs <;> rfl

theorem put_map (f : α → β) (key : String) (value : α) (r : Record α) :
    (put key value r).map (fun p => (p.1, f p.2)) =
      put key (f value) (r.map fun p => (p.1, f p.2)) := by
  induction r with
  | nil => rfl
  | cons p r ih =>
    obtain ⟨k, v⟩ := p
    by_cases h : k = key
    · simp [put, h]
    · simp [put, h, ih]

/-- The value that a key has already is put where it stands. -/
theorem put_of_get? {key : String} {value : α} {r : Record α} (h : get? r key = some value) :
    put key value r = r := by
  induction r with
  | nil => cases h
  | cons p r ih =>
    obtain ⟨k, v⟩ := p
    rw [get?_cons] at h
    by_cases hk : k = key
    · subst hk
      rw [if_pos rfl] at h
      obtain rfl := Option.some.inj h
      simp [put]
    · rw [if_neg (Ne.symm hk)] at h
      rw [put, if_neg hk, ih h]

end Record

namespace Shared

/-! ## Plain values -/

theorem plainItems_eq (items : List Shared) : plainItems items = items.map plain := by
  induction items with
  | nil => rw [plainItems, List.map_nil]
  | cons s ss ih => rw [plainItems, ih, List.map_cons]

theorem plainFields_eq (fields : List (String × Shared)) :
    plainFields fields = fields.map fun f => (f.1, f.2.plain) := by
  induction fields with
  | nil => rw [plainFields, List.map_nil]
  | cons f fs ih => rw [plainFields, ih, List.map_cons]

@[simp] theorem plain_list (items : List Shared) : plain (.list items) = .list (items.map plain) := by
  rw [plain, plainItems_eq]

@[simp] theorem plain_record (l : Nat) (fields : Record Shared) :
    plain (.record l fields) = .record (fields.map fun f => (f.1, f.2.plain)) := by
  rw [plain, plainFields_eq]

theorem isAbsent_eq (s : Shared) : s.isAbsent = s.plain.isAbsent := by
  cases s with
  | leaf v => rw [plain_leaf, isAbsent]
  | list items => rw [plain_list]; rfl
  | record l fields => rw [plain_record]; rfl

theorem plain_absent : absent.plain = .absent := plain_leaf _

/-- A segment selects from a shared value what it selects from the plain one. -/
theorem plain_select (s : Shared) (segment : String) :
    (select s segment).map plain = Path.select s.plain segment := by
  cases s with
  | leaf v =>
    rw [plain_leaf, select]
    cases Path.select v segment with
    | error f => rfl
    | ok w => exact congrArg Except.ok (plain_leaf w)
  | list items =>
    rw [plain_list, select, Path.select]
    cases Path.position segment with
    | error f => rfl
    | ok position =>
      cases position with
      | none => exact congrArg Except.ok plain_absent
      | some n =>
        apply congrArg Except.ok
        rw [List.getD_eq_getElem?_getD, List.getD_eq_getElem?_getD, List.getElem?_map]
        cases items[n]? with
        | none => exact plain_absent
        | some t => rfl
  | record l fields =>
    rw [plain_record, select, Path.select]
    apply congrArg Except.ok
    rw [Value.lookupOrAbsent, Record.get?_map]
    cases Record.get? fields segment with
    | none => exact plain_absent
    | some t => rfl

/-- What is at the end of a way through a shared value is at the end of the way through the plain
one. -/
theorem plain_follow (ks : List String) (s : Shared) :
    (follow ks s).map plain = Path.follow ks s.plain := by
  induction ks generalizing s with
  | nil => rfl
  | cons k ks ih =>
    have hselect := plain_select s k
    rw [follow, Path.follow, ← hselect]
    cases select s k with
    | error f => rfl
    | ok t =>
      have hrest := ih t
      simp only [bind, Except.bind, Except.map] at hrest ⊢
      cases ht : t.isAbsent with
      | true =>
        have hplain : t.plain = .absent := by
          rw [isAbsent_eq] at ht
          cases hp : t.plain <;> simp [hp, Value.isAbsent] at ht ⊢
        rw [hplain]
        exact congrArg Except.ok plain_absent
      | false =>
        rw [if_neg Bool.false_ne_true, hrest]
        rw [isAbsent_eq] at ht
        cases hp : t.plain <;> simp [hp, Value.isAbsent] at ht ⊢

/-- A way that leads somewhere goes on from what its first segment selects. -/
theorem follow_cons_eq_ok {k : String} {ks : List String} {s t : Shared}
    (h : follow (k :: ks) s = .ok t) (hthere : t.isAbsent = false) :
    ∃ u, select s k = .ok u ∧ u.isAbsent = false ∧ follow ks u = .ok t := by
  rw [follow] at h
  cases hk : select s k with
  | error f => simp [hk, bind, Except.bind] at h
  | ok u =>
    simp only [hk, bind, Except.bind, pure, Except.pure] at h
    cases hu : u.isAbsent with
    | true =>
      rw [hu, if_pos rfl] at h
      obtain rfl := Except.ok.inj h
      cases hthere
    | false =>
      rw [hu, if_neg Bool.false_ne_true] at h
      exact ⟨u, rfl, hu, h⟩

/-- A way that leads somewhere goes on from every place that it leads through. -/
theorem follow_append {as bs : List String} {s t : Shared} (h : follow as s = .ok t)
    (hthere : t.isAbsent = false) : follow (as ++ bs) s = follow bs t := by
  induction as generalizing s with
  | nil =>
    obtain rfl := Except.ok.inj h
    rfl
  | cons k ks ih =>
    obtain ⟨u, hselect, hu, hrest⟩ := follow_cons_eq_ok h hthere
    rw [List.cons_append, follow, hselect]
    simp only [bind, Except.bind, hu, Bool.false_eq_true, if_false]
    exact ih hrest

theorem follow_field? {keys : List String} {s t : Shared} (h : field? keys s = some t) :
    Path.follow keys s.plain = .ok t.plain := by
  induction keys generalizing s with
  | nil =>
    obtain rfl := Option.some.inj h
    rfl
  | cons k ks ih =>
    cases s with
    | leaf v => cases h
    | list items => cases h
    | record l fields =>
      rw [field?] at h
      cases hg : Record.get? fields k with
      | none => simp [hg] at h
      | some u =>
        rw [hg, Option.bind_some] at h
        have hselect : Path.select (plain (.record l fields)) k = .ok u.plain := by
          rw [plain_record, Path.select, Value.lookupOrAbsent, Record.get?_map, hg]
          rfl
        rw [Path.follow, hselect]
        have hrest := ih h
        cases hu : u.plain with
        | absent =>
          cases ks with
          | nil =>
            obtain rfl := Option.some.inj h
            rw [hu]
            rfl
          | cons k' ks =>
            cases u with
            | record l' inner => simp at hu
            | _ => cases h
        | _ =>
          rw [hu] at hrest
          exact hrest

/-! ## Labels that stand for one record each -/

theorem applyItems_eq (w : Write) (items : List Shared) :
    applyItems w items = items.map (apply w) := by
  induction items with
  | nil => rw [applyItems, List.map_nil]
  | cons s ss ih => rw [applyItems, ih, List.map_cons]

theorem applyFields_eq (w : Write) (fields : List (String × Shared)) :
    applyFields w fields = fields.map fun f => (f.1, f.2.apply w) := by
  induction fields with
  | nil => rw [applyFields, List.map_nil]
  | cons f fs ih => rw [applyFields, ih, List.map_cons]

@[simp] theorem apply_leaf (w : Write) (v : Value) : apply w (.leaf v) = .leaf v := by rw [apply]

@[simp] theorem apply_list (w : Write) (items : List Shared) :
    apply w (.list items) = .list (items.map (apply w)) := by rw [apply, applyItems_eq]

@[simp] theorem apply_record (w : Write) (l : Nat) (fields : Record Shared) :
    apply w (.record l fields) =
      .record l (if l = w.label then
          Record.put w.key w.value (fields.map fun f => (f.1, f.2.apply w))
        else fields.map fun f => (f.1, f.2.apply w)) := by rw [apply, applyFields_eq]

/-- A value without parts. -/
def IsAtom : Value → Prop
  | .list _ | .record _ => False
  | _ => True

/-- Every label in a value stands for the record that a table has for it. -/
inductive Fits (contents : List (Record Shared)) : Shared → Prop
  | leaf {v : Value} (h : IsAtom v) : Fits contents (.leaf v)
  | list {items : List Shared} (h : ∀ s ∈ items, Fits contents s) : Fits contents (.list items)
  | record {l : Nat} {fields : Record Shared} (here : contents[l]? = some fields)
    (h : ∀ f ∈ fields, Fits contents f.2) : Fits contents (.record l fields)

variable {contents : List (Record Shared)}

theorem Fits.append {s : Shared} (h : Fits contents s) (more : List (Record Shared)) :
    Fits (contents ++ more) s := by
  induction h with
  | leaf h => exact .leaf h
  | list _ ih => exact .list ih
  | record here _ ih =>
    apply Fits.record _ ih
    rw [List.getElem?_append_left (List.getElem?_eq_some_iff.mp here).1]
    exact here

theorem Fits.get? {l : Nat} {fields : Record Shared} {key : String} {s : Shared}
    (h : Fits contents (.record l fields)) (hget : Record.get? fields key = some s) :
    Fits contents s := by
  cases h with
  | record _ hfields => exact hfields _ (Record.mem_of_get?_eq_some hget)

theorem Fits.field? {keys : List String} {s t : Shared} (h : Fits contents s)
    (hfield : Shared.field? keys s = some t) : Fits contents t := by
  induction keys generalizing s with
  | nil =>
    obtain rfl := Option.some.inj hfield
    exact h
  | cons k ks ih =>
    cases s with
    | leaf v => cases hfield
    | list items => cases hfield
    | record l fields =>
      obtain ⟨u, hu, hrest⟩ := Option.bind_eq_some_iff.mp hfield
      exact ih (h.get? hu) hrest

/-- A segment selects one of the items of a list, or nothing. -/
theorem select_list_cases {items : List Shared} {segment : String} {t : Shared}
    (h : select (.list items) segment = .ok t) : t = absent ∨ t ∈ items := by
  rw [select] at h
  cases hp : Path.position segment with
  | error f => simp [hp, bind, Except.bind] at h
  | ok position =>
    simp only [hp, bind, Except.bind, pure, Except.pure] at h
    cases position with
    | none => exact Or.inl (Except.ok.inj h).symm
    | some n =>
      obtain rfl := Except.ok.inj h
      rw [List.getD_eq_getElem?_getD]
      cases hn : items[n]? with
      | none => exact Or.inl rfl
      | some u => exact Or.inr (List.mem_of_getElem? hn)

theorem select_record_cases {l : Nat} {fields : Record Shared} {segment : String} {t : Shared}
    (h : select (.record l fields) segment = .ok t) :
    t = absent ∨ Record.get? fields segment = some t := by
  obtain rfl := Except.ok.inj h
  cases Record.get? fields segment with
  | none => exact Or.inl rfl
  | some u => exact Or.inr rfl

/-- A place in a value whose labels fit: the labels there fit too, or there are none. -/
def IsPart (contents : List (Record Shared)) (s : Shared) : Prop :=
  Fits contents s ∨ ∃ v, s = .leaf v

theorem IsPart.select {s t : Shared} {segment : String} (h : IsPart contents s)
    (hselect : Shared.select s segment = .ok t) : IsPart contents t := by
  cases s with
  | leaf v =>
    rw [Shared.select] at hselect
    cases hv : Path.select v segment with
    | error f => simp [hv, bind, Except.bind] at hselect
    | ok w =>
      simp only [hv, bind, Except.bind, pure, Except.pure, Except.ok.injEq] at hselect
      exact Or.inr ⟨w, hselect.symm⟩
  | list items =>
    rcases select_list_cases hselect with rfl | hmem
    · exact Or.inr ⟨_, rfl⟩
    · rcases h with h | ⟨v, hv⟩
      · cases h with
        | list hitems => exact Or.inl (hitems t hmem)
      · cases hv
  | record l fields =>
    rcases select_record_cases hselect with rfl | hget
    · exact Or.inr ⟨_, rfl⟩
    · rcases h with h | ⟨v, hv⟩
      · exact Or.inl (h.get? hget)
      · cases hv

theorem IsPart.follow {ks : List String} {s t : Shared} (h : IsPart contents s)
    (hfollow : Shared.follow ks s = .ok t) : IsPart contents t := by
  induction ks generalizing s with
  | nil =>
    obtain rfl := Except.ok.inj hfollow
    exact h
  | cons k ks ih =>
    rw [Shared.follow] at hfollow
    cases hk : Shared.select s k with
    | error f => simp [hk, bind, Except.bind] at hfollow
    | ok u =>
      simp only [hk, bind, Except.bind, pure, Except.pure] at hfollow
      split at hfollow
      · exact Or.inr ⟨_, (Except.ok.inj hfollow).symm⟩
      · exact ih (h.select hk) hfollow

/-- A write that finds its value in place. -/
def Write.IsIdle (contents : List (Record Shared)) (w : Write) : Prop :=
  ∃ fields, contents[w.label]? = some fields ∧ Record.get? fields w.key = some w.value

/-- A write that finds its value in place, or goes elsewhere, changes nothing. -/
theorem Fits.apply_eq_self {s : Shared} {w : Write} (h : Fits contents s)
    (hw : contents.length ≤ w.label ∨ w.IsIdle contents) : s.apply w = s := by
  induction h with
  | leaf _ => exact apply_leaf w _
  | list _ ih =>
    rw [apply_list, List.map_congr_left ih, List.map_id']
  | @record l fields here _ ih =>
    have hfields : (fields.map fun f => (f.1, f.2.apply w)) = fields := by
      have hsame : ∀ f ∈ fields, (f.1, f.2.apply w) = f := by
        intro f hf
        rw [ih f hf]
      rw [List.map_congr_left hsame, List.map_id']
    rw [apply_record, hfields]
    congr 1
    split_ifs with hl
    · subst hl
      rcases hw with hw | ⟨found, hfound, hget⟩
      · rw [List.getElem?_eq_none hw] at here
        cases here
      · rw [here] at hfound
        obtain rfl := Option.some.inj hfound
        exact Record.put_of_get? hget
    · rfl

theorem IsPart.apply_eq_self {s : Shared} {w : Write} (h : IsPart contents s)
    (hw : contents.length ≤ w.label ∨ w.IsIdle contents) : s.apply w = s := by
  rcases h with h | ⟨v, rfl⟩
  · exact h.apply_eq_self hw
  · exact apply_leaf w v

/-- What a segment selects after a write, except from a record that it went to. -/
theorem select_apply {w : Write} {s : Shared} (h : ∀ fields, s ≠ .record w.label fields)
    (segment : String) : select (s.apply w) segment = (select s segment).map (apply w) := by
  cases s with
  | leaf v =>
    rw [apply_leaf, select]
    cases Path.select v segment <;> simp [bind, Except.bind, pure, Except.pure, Except.map]
  | list items =>
    rw [apply_list, select, select]
    cases Path.position segment with
    | error f => rfl
    | ok position =>
      cases position with
      | none => exact congrArg Except.ok (apply_leaf w _).symm
      | some n =>
        apply congrArg Except.ok
        rw [List.getD_eq_getElem?_getD, List.getD_eq_getElem?_getD, List.getElem?_map]
        cases items[n]? with
        | none => exact (apply_leaf w _).symm
        | some t => rfl
  | record l fields =>
    have hl : l ≠ w.label := fun hl => h fields (hl ▸ rfl)
    rw [apply_record, if_neg hl, select, select]
    apply congrArg Except.ok
    rw [Record.get?_map]
    cases Record.get? fields segment with
    | none => exact (apply_leaf w _).symm
    | some t => rfl

/-! ## Labelling -/

mutual

@[simp] theorem plain_label : ∀ (v : Value) (next : Nat), (label v next).1.plain = v
  | .list items, next => by rw [label, plain_list, plain_labelItems items next]
  | .record fields, next => by rw [label, plain_record, plain_labelFields fields (next + 1)]
  | .absent, _ | .null, _ | .bool _, _ | .int _, _ | .double _, _ | .text _, _ | .table _, _
  | .octets _, _ | .stamp _, _ => by rw [label, plain_leaf] <;> simp

theorem plain_labelItems : ∀ (items : List Value) (next : Nat),
    (labelItems items next).1.map plain = items
  | [], next => by rw [labelItems, List.map_nil]
  | v :: items, next => by
    rw [labelItems, List.map_cons, plain_label v next, plain_labelItems items]

theorem plain_labelFields : ∀ (fields : List (String × Value)) (next : Nat),
    (labelFields fields next).1.map (fun f => (f.1, f.2.plain)) = fields
  | [], next => by rw [labelFields, List.map_nil]
  | (key, v) :: fields, next => by
    rw [labelFields, List.map_cons, plain_label v next, plain_labelFields fields]

end

mutual

/-- The labels from the next free one on stand for the records that are labelled with them. -/
theorem fits_label : ∀ (v : Value) (contents : List (Record Shared)), ∃ more,
    Fits (contents ++ more) (label v contents.length).1 ∧
      (label v contents.length).2 = (contents ++ more).length
  | .list items, contents => by
    obtain ⟨more, hfits, hnext⟩ := fits_labelItems items contents
    refine ⟨more, ?_, ?_⟩
    · rw [label]
      exact .list hfits
    · rw [label]
      exact hnext
  | .record fields, contents => by
    have hlength : contents.length + 1 =
        (contents ++ [(labelFields fields (contents.length + 1)).1]).length := by simp
    obtain ⟨more, hfits, hnext⟩ := fits_labelFields fields
      (contents ++ [(labelFields fields (contents.length + 1)).1])
    rw [← hlength, List.append_assoc] at hfits hnext
    refine ⟨(labelFields fields (contents.length + 1)).1 :: more, ?_, ?_⟩
    · rw [label]
      exact .record (by simp) hfits
    · rw [label]
      exact hnext
  | .absent, contents | .null, contents | .bool _, contents | .int _, contents
  | .double _, contents | .text _, contents | .table _, contents | .octets _, contents
  | .stamp _, contents => by
    refine ⟨[], ?_, ?_⟩
    · rw [label]
      · exact .leaf trivial
      all_goals simp
    · rw [label]
      · simp
      all_goals simp

theorem fits_labelItems : ∀ (items : List Value) (contents : List (Record Shared)), ∃ more,
    (∀ s ∈ (labelItems items contents.length).1, Fits (contents ++ more) s) ∧
      (labelItems items contents.length).2 = (contents ++ more).length
  | [], contents => ⟨[], by simp [labelItems], by simp [labelItems]⟩
  | v :: items, contents => by
    obtain ⟨first, hfirst, hnext⟩ := fits_label v contents
    obtain ⟨more, hmore, hafter⟩ := fits_labelItems items (contents ++ first)
    rw [← hnext] at hmore hafter
    refine ⟨first ++ more, ?_, ?_⟩
    · intro s hs
      rw [labelItems] at hs
      rw [← List.append_assoc]
      rcases List.mem_cons.mp hs with rfl | hs
      · exact hfirst.append more
      · exact hmore s hs
    · rw [labelItems, ← List.append_assoc]
      exact hafter

theorem fits_labelFields : ∀ (fields : List (String × Value)) (contents : List (Record Shared)),
    ∃ more, (∀ f ∈ (labelFields fields contents.length).1, Fits (contents ++ more) f.2) ∧
      (labelFields fields contents.length).2 = (contents ++ more).length
  | [], contents => ⟨[], by simp [labelFields], by simp [labelFields]⟩
  | (key, v) :: fields, contents => by
    obtain ⟨first, hfirst, hnext⟩ := fits_label v contents
    obtain ⟨more, hmore, hafter⟩ := fits_labelFields fields (contents ++ first)
    rw [← hnext] at hmore hafter
    refine ⟨first ++ more, ?_, ?_⟩
    · intro f hf
      rw [labelFields] at hf
      rw [← List.append_assoc]
      rcases List.mem_cons.mp hf with rfl | hf
      · exact hfirst.append more
      · exact hmore f hf
    · rw [labelFields, ← List.append_assoc]
      exact hafter

end

end Shared

end Switchboard
